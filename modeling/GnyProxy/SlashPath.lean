import Mathlib.Data.List.Infix
import Mathlib.Tactic.Common

/-!
# Paths as texts and as lists of names

An absolute path is a list of names, each written behind a separator; the root is the separator
alone.  One path lies under another when its names begin with those of the other.  On the texts
this is more than a common beginning: what follows it has to start at a separator.
-/

namespace SlashPath

variable {α : Type*} {slash : α}

/-- Every name behind its separator. -/
def body (slash : α) (names : List (List α)) : List α := names.flatMap (slash :: ·)

/-- The text of an absolute path. -/
def text (slash : α) : List (List α) → List α
  | [] => [slash]
  | name :: names => body slash (name :: names)

/-- A name is not empty and has no separator in it. -/
def IsName (slash : α) (name : List α) : Prop := name ≠ [] ∧ slash ∉ name

/-- The text is that of the base, or goes on behind it with a separator and something more; every
text is under the root. -/
def Under (slash : α) (base path : List α) : Prop :=
  base = [slash] ∨ path = base ∨ ∃ rest, rest ≠ [] ∧ path = base ++ slash :: rest

@[simp] theorem body_nil : body slash [] = [] := rfl

@[simp] theorem body_cons (name : List α) (names : List (List α)) :
    body slash (name :: names) = slash :: (name ++ body slash names) := by
  simp [body]

@[simp] theorem body_append (first second : List (List α)) :
    body slash (first ++ second) = body slash first ++ body slash second := by
  simp [body]

/-- A text that is empty or starts with the separator. -/
def Opens (slash : α) (text : List α) : Prop := ∀ char ∈ text.head?, char = slash

theorem opens_cons (rest : List α) : Opens slash (slash :: rest) := by
  intro char member
  simpa using member.symm

theorem opens_body (names : List (List α)) : Opens slash (body slash names) := by
  cases names with
  | nil => simp [Opens]
  | cons name names =>
      rw [body_cons]
      exact opens_cons _

/-- A name ends where the next separator stands. -/
theorem name_eq {left right : List α} {afterLeft afterRight : List α} (clean : slash ∉ left)
    (clean' : slash ∉ right) (opens : Opens slash afterLeft) (opens' : Opens slash afterRight)
    (same : left ++ afterLeft = right ++ afterRight) : left = right ∧ afterLeft = afterRight := by
  induction left generalizing right with
  | nil =>
      cases right with
      | nil => exact ⟨rfl, same⟩
      | cons char right =>
          have head : char = slash := opens char (by simp [show afterLeft = _ from same])
          exact absurd (by simp [head]) clean'
  | cons char left ih =>
      cases right with
      | nil =>
          have head : char = slash := opens' char (by simp [← show _ = afterRight from same])
          exact absurd (by simp [head]) clean
      | cons char' right =>
          simp only [List.mem_cons, not_or] at clean clean'
          injection same with chars rest
          rcases ih clean.2 clean'.2 rest with ⟨names, afters⟩
          exact ⟨by rw [chars, names], afters⟩

/-- Where the text of some names begins with that of others, and goes on with a separator if it
goes on, the names do too. -/
theorem names_of_body {base names : List (List α)} {rest : List α}
    (valid : ∀ name ∈ base, IsName slash name) (valid' : ∀ name ∈ names, IsName slash name)
    (opens : Opens slash rest) (same : body slash names = body slash base ++ rest) :
    ∃ more, names = base ++ more ∧ rest = body slash more := by
  induction base generalizing names with
  | nil => exact ⟨names, rfl, same.symm⟩
  | cons name base ih =>
      cases names with
      | nil => simp at same
      | cons name' names =>
          simp only [body_cons, List.cons_append, List.append_assoc, List.cons.injEq,
            true_and] at same
          have opens' : Opens slash (body slash base ++ rest) := by
            cases base with
            | nil => simpa using opens
            | cons next base =>
                rw [body_cons]
                exact opens_cons _
          rcases name_eq (valid' name' (by simp)).2 (valid name (by simp)).2 (opens_body names)
            opens' same with ⟨rfl, tails⟩
          rcases ih (fun name member => valid name (by simp [member]))
            (fun name member => valid' name (by simp [member])) tails with ⟨more, rfl, written⟩
          exact ⟨more, rfl, written⟩

variable {base names : List (List α)}

theorem text_eq_body (nonempty : names ≠ []) : text slash names = body slash names := by
  cases names with
  | nil => exact absurd rfl nonempty
  | cons name names => rfl

theorem text_eq_root (valid : ∀ name ∈ names, IsName slash name) :
    text slash names = [slash] ↔ names = [] := by
  constructor
  · intro root
    cases names with
    | nil => rfl
    | cons name names =>
        have nonempty := (valid name (by simp)).1
        simp [text, nonempty] at root
  · rintro rfl
    rfl

/-- A path begins with the separator. -/
theorem text_head (names : List (List α)) : ∃ rest, text slash names = slash :: rest := by
  cases names with
  | nil => exact ⟨[], rfl⟩
  | cons name names => exact ⟨_, body_cons name names⟩

/-- A path lies under another one exactly when its names begin with those of the other. -/
theorem under_iff (valid : ∀ name ∈ base, IsName slash name)
    (valid' : ∀ name ∈ names, IsName slash name) :
    Under slash (text slash base) (text slash names) ↔ base <+: names := by
  by_cases root : base = []
  · subst root
    simp [Under, text]
  have notRoot : text slash base ≠ [slash] := fun same => root ((text_eq_root valid).mp same)
  rw [Under, text_eq_body root]
  rw [text_eq_body root] at notRoot
  constructor
  · rintro (same | same | ⟨rest, -, same⟩)
    · exact absurd same notRoot
    · have nonempty : names ≠ [] := by
        rintro rfl
        exact notRoot same.symm
      rw [text_eq_body nonempty] at same
      have opens : Opens slash ([] : List α) := by simp [Opens]
      rcases names_of_body valid valid' opens (by simpa using same) with ⟨more, rfl, -⟩
      exact List.prefix_append base more
    · have nonempty : names ≠ [] := by
        rintro rfl
        have lengths := congrArg List.length same
        cases base with
        | nil => exact root rfl
        | cons name base => simp [text] at lengths
      rw [text_eq_body nonempty] at same
      rcases names_of_body valid valid' (opens_cons rest) same with ⟨more, rfl, -⟩
      exact List.prefix_append base more
  · rintro ⟨more, rfl⟩
    have nonempty : base ++ more ≠ [] := by simp [root]
    rw [text_eq_body nonempty, body_append]
    cases more with
    | nil => simp
    | cons name more =>
        have further : name ≠ [] := (valid' name (by simp)).1
        exact Or.inr (Or.inr ⟨name ++ body slash more, by simp [further], by simp⟩)

/-- A text that goes on with another character than the separator lies beside the base. -/
def Beside (slash : α) (base path : List α) : Prop :=
  base ≠ [slash] ∧ ∃ char rest, char ≠ slash ∧ path = base ++ char :: rest

/-- Where the text of a path begins with that of the base, it lies under the base or beside it. -/
theorem under_iff_not_beside (valid : ∀ name ∈ base, IsName slash name)
    (valid' : ∀ name ∈ names, IsName slash name) (begins : text slash base <+: text slash names) :
    Under slash (text slash base) (text slash names) ↔
      ¬ Beside slash (text slash base) (text slash names) := by
  constructor
  · rintro under ⟨notRoot, char, rest, other, continued⟩
    rcases under with root | same | ⟨further, -, same⟩
    · exact notRoot root
    · simp [same] at continued
    · rw [continued, List.append_cancel_left_eq] at same
      injection same with chars
      exact other chars
  · intro notBeside
    rcases begins with ⟨rest, whole⟩
    cases rest with
    | nil => exact Or.inr (Or.inl (by simpa using whole.symm))
    | cons char rest =>
        by_cases root : text slash base = [slash]
        · exact Or.inl root
        have separator : char = slash := by
          by_contra other
          exact notBeside ⟨root, char, rest, other, whole.symm⟩
        subst separator
        have nonempty : base ≠ [] := fun empty => root ((text_eq_root valid).mpr empty)
        have nonempty' : names ≠ [] := by
          rintro rfl
          rcases @text_head α char base with ⟨more, written⟩
          rw [written] at whole
          simp [text] at whole
        rw [text_eq_body nonempty, text_eq_body nonempty'] at whole
        rcases names_of_body valid valid' (opens_cons rest) whole.symm with ⟨more, rfl, -⟩
        exact (under_iff valid valid').mpr (List.prefix_append base more)

end SlashPath
