import Mathlib.Data.List.Basic
import Mathlib.Tactic.Common

/-!
# Sweeping a list that shrinks

A loop over the indices of a list that visits each entry, and takes an entry out by moving the last
one to its place.  The entry that was moved is visited next, so that every entry is visited once.
-/

namespace Sweeping

variable {α σ : Type*}

/-! ## Taking an entry out -/

/-- The last entry is copied over the one at the index, and the list is shortened. -/
def copyLast (xs : List α) (i : Nat) : List α :=
  match xs.getLast? with
  | some last => (xs.set i last).dropLast
  | none => xs

/-- The entry at the index is swapped with the last one, and the list is shortened. -/
def swapLast (xs : List α) (i : Nat) : List α :=
  match xs[i]?, xs.getLast? with
  | some x, some last => ((xs.set i last).set (xs.length - 1) x).dropLast
  | _, _ => xs

/-- The entry at an index is taken out, those in front of it stay, and of those behind it none is
lost. -/
def Compacts (remove : List α → Nat → List α) : Prop :=
  ∀ xs i, i < xs.length →
    (remove xs i).take i = xs.take i ∧ ((remove xs i).drop i).Perm (xs.drop (i + 1))

theorem compacts_copyLast : Compacts (copyLast (α := α)) := by
  intro xs i inside
  rcases List.eq_nil_or_concat xs with rfl | ⟨front, last, rfl⟩
  · exact absurd inside (Nat.not_lt_zero i)
  · rw [List.concat_eq_append] at inside ⊢
    simp only [copyLast, List.getLast?_concat]
    by_cases before : i < front.length
    · rw [List.set_append_left _ _ before, List.dropLast_concat]
      constructor
      · rw [List.take_set_of_le (Nat.le_refl _),
          List.take_append_of_le_length (Nat.le_of_lt before)]
      · rw [List.drop_append_of_le_length before, List.drop_eq_getElem_cons (by simpa using before),
          List.getElem_set_self, List.drop_set_of_lt (Nat.lt_succ_self i)]
        exact (List.perm_append_singleton last _).symm
    · have same : i = front.length := by
        rw [List.length_append, List.length_singleton] at inside
        omega
      rw [same]
      simp

theorem swapLast_eq_copyLast {xs : List α} {i : Nat} (inside : i < xs.length) :
    swapLast xs i = copyLast xs i := by
  rcases List.eq_nil_or_concat xs with rfl | ⟨front, last, rfl⟩
  · exact absurd inside (Nat.not_lt_zero i)
  · rw [List.concat_eq_append] at inside ⊢
    simp only [swapLast, copyLast, List.getElem?_eq_getElem inside, List.getLast?_concat]
    have back : (front ++ [last]).length - 1 = ((front ++ [last]).set i last).length - 1 := by simp
    rw [back, List.dropLast_eq_take, List.dropLast_eq_take, List.length_set,
      List.take_set_of_le (Nat.le_refl _)]

theorem compacts_swapLast : Compacts (swapLast (α := α)) := by
  intro xs i inside
  rw [swapLast_eq_copyLast inside]
  exact compacts_copyLast xs i inside

/-! ## The loop -/

variable (visit : α → σ → Bool × σ) (remove : List α → Nat → List α)

/-- Visit the entries from an index on; those whose visit says so are taken out. -/
def sweep : Nat → Nat → List α → σ → List α × σ
  | 0, _, xs, state => (xs, state)
  | fuel + 1, i, xs, state =>
      match xs[i]? with
      | none => (xs, state)
      | some x =>
          let (out, state) := visit x state
          if out then sweep fuel i (remove xs i) state else sweep fuel (i + 1) xs state

/-- Visit the entries of a list that does not change, and keep those that are not taken out. -/
def visits : List α → σ → List α × σ
  | [], state => ([], state)
  | x :: xs, state =>
      let (out, state) := visit x state
      let (kept, state) := visits xs state
      (if out then kept else x :: kept, state)

/-- The loop visits every entry from its index on, in some order, and takes out those whose visit
says so. -/
theorem sweep_spec {remove : List α → Nat → List α} (compacts : Compacts remove) {fuel i : Nat}
    {xs : List α} (state : σ) (enough : xs.length - i ≤ fuel) :
    ∃ order : List α, order.Perm (xs.drop i) ∧
      (sweep visit remove fuel i xs state).2 = (visits visit order state).2 ∧
      (sweep visit remove fuel i xs state).1.Perm (xs.take i ++ (visits visit order state).1) := by
  induction fuel generalizing i xs state with
  | zero =>
      have behind : xs.length ≤ i := by omega
      refine ⟨[], ?_, rfl, ?_⟩
      · rw [List.drop_eq_nil_of_le behind]
      · rw [List.take_of_length_le behind]
        simp [sweep, visits]
  | succ fuel ih =>
      by_cases inside : i < xs.length
      · rw [List.drop_eq_getElem_cons inside]
        rcases visited : visit xs[i] state with ⟨out, next⟩
        cases out with
        | true =>
            rcases compacts xs i inside with ⟨front, back⟩
            have shorter : (remove xs i).length - i ≤ fuel := by
              have lengths := back.length_eq
              simp only [List.length_drop] at lengths
              omega
            rcases ih next shorter with ⟨order, visitsRest, ends, kept⟩
            refine ⟨xs[i] :: order, (visitsRest.trans back).cons _, ?_, ?_⟩
            · simp only [sweep, List.getElem?_eq_getElem inside, visits, visited, if_true]
              exact ends
            · simp only [sweep, List.getElem?_eq_getElem inside, visits, visited, if_true]
              rw [← front]
              exact kept
        | false =>
            have shorter : xs.length - (i + 1) ≤ fuel := by omega
            rcases ih next shorter with ⟨order, visitsRest, ends, kept⟩
            refine ⟨xs[i] :: order, visitsRest.cons _, ?_, ?_⟩
            · simp only [sweep, List.getElem?_eq_getElem inside, visits, visited,
                Bool.false_eq_true, if_false]
              exact ends
            · simp only [sweep, List.getElem?_eq_getElem inside, visits, visited,
                Bool.false_eq_true, if_false]
              rw [List.take_succ_eq_append_getElem inside, List.append_assoc] at kept
              exact kept
      · have behind : xs.length ≤ i := by omega
        refine ⟨[], ?_, ?_, ?_⟩
        · rw [List.drop_eq_nil_of_le behind]
        · simp [sweep, visits, List.getElem?_eq_none behind]
        · rw [List.take_of_length_le behind]
          simp [sweep, visits, List.getElem?_eq_none behind]

end Sweeping
