import GnyProxy.BinarySearch
import GnyProxy.RoundTrip11
import Mathlib.Data.List.Lex

/-!
# The searches of the string tables

`string_bin_search` on tables that increase up to case, with the `int` arithmetic of its bounds,
and what it makes of the two tables of `http.cpp`.  The headers are sorted.  The verbs are not:
`OPTIONS` stands behind `PUT`.
-/

namespace GnyProxy

/-! ## Folding case -/

/-- The characters that `strcasecmp` compares. -/
def folded (text : Str) : List ℕ := (cStr text).map fun char => (tolower char).toNat

theorem folded_cons_of_ne {char : UInt8} (nonzero : char ≠ 0) (text : Str) :
    folded (char :: text) = (tolower char).toNat :: folded text := by
  simp [folded, cStr, nonzero]

@[simp] theorem folded_nil : folded [] = [] := rfl

@[simp] theorem folded_zero_cons (text : Str) : folded (0 :: text) = [] := by
  simp [folded, cStr]

theorem sameFolded_iff (left right : Str) :
    SameFolded (cStr left) (cStr right) ↔ folded left = folded right := by
  have injective : Function.Injective (List.map UInt8.toNat) :=
    List.map_injective_iff.mpr fun _ _ equality => UInt8.toNat_inj.mp equality
  have composed (text : Str) : folded text = ((cStr text).map tolower).map UInt8.toNat := by
    simp [folded, Function.comp_def]
  rw [composed, composed, injective.eq_iff, SameFolded]

theorem tolower_pos {char : UInt8} (nonzero : char ≠ 0) : 0 < (tolower char).toNat := by
  apply Nat.pos_of_ne_zero
  intro zero
  exact nonzero (tolower_eq_zero.mp (UInt8.toNat_inj.mp zero))

/-- `strcasecmp` is negative exactly below, in the lexicographic order of folded characters. -/
theorem strcasecmp_neg (left right : Str) :
    strcasecmp left right < 0 ↔ folded left < folded right := by
  induction left generalizing right with
  | nil =>
      cases right with
      | nil => simp [strcasecmp]
      | cons right rights =>
          by_cases zero : right = 0
          · simp [strcasecmp, zero, tolower]
          · have positive := tolower_pos zero
            simp [strcasecmp, folded_cons_of_ne zero, positive]
  | cons left lefts ih =>
      cases right with
      | nil => simp [strcasecmp]
      | cons right rights =>
          by_cases differ : tolower left = tolower right
          · have zero_iff : left = 0 ↔ right = 0 := by
              rw [← tolower_eq_zero, differ, tolower_eq_zero]
            by_cases zero : left = 0
            · have zero' := zero_iff.mp zero
              subst zero zero'
              simp [strcasecmp]
            · have nonzero' : right ≠ 0 := fun equality => zero (zero_iff.mpr equality)
              rw [folded_cons_of_ne zero, folded_cons_of_ne nonzero', differ, List.cons_lt_cons_iff]
              simpa [strcasecmp, differ, zero] using ih rights
          · have values : (tolower left).toNat ≠ (tolower right).toNat := fun equality =>
              differ (UInt8.toNat_inj.mp equality)
            have value : strcasecmp (left :: lefts) (right :: rights) =
                (tolower left).toNat - (tolower right).toNat := by
              simp [strcasecmp, differ]
            rw [value]
            by_cases zero : left = 0
            · subst zero
              have nonzero' : right ≠ 0 := fun equality => differ (by rw [equality])
              have positive := tolower_pos nonzero'
              have none : (tolower 0).toNat = 0 := by decide
              rw [none, folded_zero_cons, folded_cons_of_ne nonzero']
              simp [positive]
            · by_cases zero' : right = 0
              · subst zero'
                have none : (tolower 0).toNat = 0 := by decide
                simp [none]
              · rw [folded_cons_of_ne zero, folded_cons_of_ne zero', List.cons_lt_cons_iff]
                simp only [values, false_and, or_false]
                omega

theorem strcasecmp_zero (left right : Str) :
    strcasecmp left right = 0 ↔ folded left = folded right := by
  rw [strcasecmp_eq_zero, sameFolded_iff]

theorem strcasecmp_pos (left right : Str) :
    0 < strcasecmp left right ↔ folded right < folded left := by
  have neg := strcasecmp_neg left right
  have zero := strcasecmp_zero left right
  rcases lt_trichotomy (folded left) (folded right) with less | equal | greater
  · have negative := neg.mpr less
    constructor
    · omega
    · intro greater
      exact absurd greater (not_lt.mpr less.le)
  · have none := zero.mpr equal
    rw [equal]
    simp [none]
  · have notNeg : ¬strcasecmp left right < 0 := fun negative =>
      absurd (neg.mp negative) (not_lt.mpr greater.le)
    have nonzero : strcasecmp left right ≠ 0 := fun none => absurd (zero.mp none) greater.ne'
    constructor
    · intro _
      exact greater
    · omega

/-- Keys that agree up to case are told apart from nothing. -/
theorem strcasecmp_congr {key other : Str} (same : SameFolded (cStr key) (cStr other))
    (text : Str) : (strcasecmp key text < 0 ↔ strcasecmp other text < 0) ∧
      (0 < strcasecmp key text ↔ 0 < strcasecmp other text) := by
  rw [sameFolded_iff] at same
  rw [strcasecmp_neg, strcasecmp_neg, strcasecmp_pos, strcasecmp_pos, same]
  exact ⟨Iff.rfl, Iff.rfl⟩

/-! ## Tables that increase up to case -/

/-- Every entry of a table is before the later ones under `strcasecmp`. -/
def IncreasingTable (strings : List Str) : Prop :=
  strings.Pairwise fun earlier later => strcasecmp earlier later < 0

instance (strings : List Str) : Decidable (IncreasingTable strings) :=
  inferInstanceAs (Decidable (List.Pairwise _ _))

/-- The comparisons of a key with an increasing table have increasing entries. -/
theorem IncreasingTable.increasing {strings : List Str} (table : IncreasingTable strings)
    (key : Str) :
    BinarySearch.Increasing (fun index => strcasecmp key (strings.getD index []))
      strings.length := by
  intro first second earlier inside notBefore
  have inside' : first < strings.length := by omega
  have step := List.pairwise_iff_getElem.mp table first second inside' inside earlier
  simp only [List.getD_eq_getElem _ _ inside, List.getD_eq_getElem _ _ inside'] at notBefore ⊢
  rw [strcasecmp_neg] at step ⊢
  refine lt_of_le_of_lt (not_lt.mp fun above => ?_) step
  exact absurd ((strcasecmp_pos _ _).mpr above) (not_lt.mpr notBefore)

/-- The loop is the search by the signs of `strcasecmp`. -/
theorem stringBinSearchLoop_eq (key : Str) (strings : List Str) (fuel low high : Nat) :
    stringBinSearchLoop key strings fuel low high =
      BinarySearch.search (fun index => strcasecmp key (strings.getD index [])) fuel low high := by
  induction fuel generalizing low high with
  | zero => rfl
  | succ fuel ih => simp only [stringBinSearchLoop, BinarySearch.search, ih]

/-- On an increasing table the search answers the index of the entry that equals the key. -/
theorem stringBinSearch_eq_some_iff {strings : List Str} (table : IncreasingTable strings)
    (key : Str) (index : Nat) :
    stringBinSearch key strings strings.length = some index ↔
      ∃ entry, strings[index]? = some entry ∧ SameFolded (cStr key) (cStr entry) := by
  rw [stringBinSearch, stringBinSearchLoop_eq,
    BinarySearch.search_eq_some_iff (table.increasing key) le_rfl]
  constructor
  · rintro ⟨inside, same⟩
    rw [List.getD_eq_getElem _ _ inside, strcasecmp_eq_zero] at same
    exact ⟨strings[index], List.getElem?_eq_getElem inside, same⟩
  · rintro ⟨entry, entry_eq, same⟩
    rcases List.getElem?_eq_some_iff.mp entry_eq with ⟨inside, rfl⟩
    refine ⟨inside, ?_⟩
    rwa [List.getD_eq_getElem _ _ inside, strcasecmp_eq_zero]

/-! ## The bounds as machine integers -/

/-- `(high + low) / 2` on `int`s.  A sum that overflows wraps around. -/
def midpoint (low high : Int) : Int := (toInt32 (high + low)).tdiv 2

/-- `strings[index]`, where only the entries of the table may be read. -/
def entryAt (strings : List Str) (index : Int) : Except Fault Str :=
  if index < 0 then .error .outOfBounds
  else
    match strings[index.toNat]? with
    | some entry => .ok entry
    | none => .error .outOfBounds

/-- The loop of `string_bin_search` with its `int` bounds: `none` while it runs, and a fault when
it probes beyond the table. -/
def intBinSearchLoop (key : Str) (strings : List Str) :
    Nat → Int → Int → Option (Except Fault Int)
  | 0, _, _ => none
  | fuel + 1, low, high =>
      if low < high then
        match entryAt strings (midpoint low high) with
        | .error fault => some (.error fault)
        | .ok entry =>
            let cond := strcasecmp key entry
            if cond < 0 then intBinSearchLoop key strings fuel low (midpoint low high)
            else if 0 < cond then intBinSearchLoop key strings fuel (midpoint low high + 1) high
            else some (.ok (midpoint low high))
      else
        some (.ok (-1))

/-- The answer as an `int`. -/
def answerOf : Option Nat → Int
  | some index => index
  | none => -1

theorem toInt32_of_lt {value : Nat} (small : value < 2 ^ 31) : toInt32 value = value := by
  rw [toInt32]
  apply Int.bmod_eq_of_le <;> omega

theorem midpoint_of_lt {low high : Nat} (small : high + low < 2 ^ 31) :
    midpoint low high = ((high + low) / 2 : Nat) := by
  rw [midpoint, ← Int.natCast_add, toInt32_of_lt small]
  exact (Int.ofNat_tdiv _ 2).symm

/-- Half of an `int` stays below `2 ^ 30`. -/
theorem midpoint_lt (low high : Int) : midpoint low high < 2 ^ 30 := by
  have bound : (high + low).bmod (2 ^ 32) < ((2 ^ 32 : Nat) + 1) / 2 := Int.bmod_lt (by decide)
  have below : toInt32 (high + low) ≤ 2 ^ 31 - 1 := by
    rw [toInt32]
    omega
  have half := Int.tdiv_le_tdiv (by decide : (0 : Int) < 2) below
  have value_eq : ((2 : Int) ^ 31 - 1).tdiv 2 = 2 ^ 30 - 1 := by decide
  rw [midpoint]
  omega

theorem entryAt_of_lt {strings : List Str} {index : Nat} (inside : index < strings.length) :
    entryAt strings index = .ok (strings.getD index []) := by
  have nonneg : ¬(index : Int) < 0 := by omega
  rw [entryAt, if_neg nonneg, Int.toNat_natCast, List.getElem?_eq_getElem inside,
    List.getD_eq_getElem _ _ inside]

/-- Up to `2 ^ 30` entries no sum of bounds overflows, so that the loop runs as on unbounded
numbers, and probes the table only. -/
theorem intBinSearchLoop_eq {key : Str} {strings : List Str} (small : strings.length ≤ 2 ^ 30)
    {fuel low high : Nat} (inside : high ≤ strings.length) (enough : high - low < fuel) :
    intBinSearchLoop key strings fuel low high =
      some (.ok (answerOf (stringBinSearchLoop key strings fuel low high))) := by
  induction fuel generalizing low high with
  | zero => omega
  | succ fuel ih =>
      by_cases open_ : low < high
      · have open_int : (low : Int) < (high : Int) := by omega
        have probed := @entryAt_of_lt strings ((high + low) / 2) (by omega)
        rw [intBinSearchLoop, stringBinSearchLoop, if_pos open_int, if_pos open_,
          midpoint_of_lt (by omega), probed]
        dsimp only
        split
        · apply ih
          · omega
          · omega
        · split
          · apply @ih ((high + low) / 2 + 1) high
            · omega
            · omega
          · rfl
      · have closed : ¬(low : Int) < (high : Int) := by omega
        rw [intBinSearchLoop, stringBinSearchLoop, if_neg closed, if_neg open_, answerOf]

/-- No index from `2 ^ 30` on is ever answered: it would be half of a sum that overflows. -/
theorem intBinSearchLoop_lt {key : Str} {strings : List Str} {fuel : Nat} {low high answer : Int}
    (outcome : intBinSearchLoop key strings fuel low high = some (.ok answer)) :
    answer < 2 ^ 30 := by
  induction fuel generalizing low high with
  | zero => cases outcome
  | succ fuel ih =>
      rw [intBinSearchLoop] at outcome
      split at outcome
      · split at outcome
        · cases outcome
        · dsimp only at outcome
          split at outcome
          · exact ih outcome
          · split at outcome
            · exact ih outcome
            · obtain rfl := Except.ok.inj (Option.some.inj outcome)
              exact midpoint_lt low high
      · obtain rfl := Except.ok.inj (Option.some.inj outcome)
        decide

/-- What a search has to answer: the index of the only entry equal to the key up to case, or `-1`
if there is none. -/
def Finds (strings : List Str) (key : Str) (answer : Int) : Prop :=
  (∃ index : Nat, answer = index ∧ index < strings.length ∧
    ∀ other entry, strings[other]? = some entry →
      (SameFolded (cStr key) (cStr entry) ↔ other = index)) ∨
  (answer = -1 ∧ ∀ entry ∈ strings, ¬SameFolded (cStr key) (cStr entry))

/-- The search returns, has probed nothing beyond the table, and answers as a linear search. -/
def SearchExact (strings : List Str) : Prop :=
  ∀ key, ∃ fuel answer,
    intBinSearchLoop key strings fuel 0 strings.length = some (.ok answer) ∧
      Finds strings key answer

theorem finds_answerOf {strings : List Str} (table : IncreasingTable strings) (key : Str) :
    Finds strings key (answerOf (stringBinSearch key strings strings.length)) := by
  cases search : stringBinSearch key strings strings.length with
  | none =>
      right
      constructor
      · rfl
      · intro entry member same
        rcases List.getElem?_of_mem member with ⟨index, entry_eq⟩
        have found := (stringBinSearch_eq_some_iff table key index).mpr ⟨entry, entry_eq, same⟩
        exact absurd (search.symm.trans found) (by simp)
  | some index =>
      left
      rcases (stringBinSearch_eq_some_iff table key index).mp search with ⟨entry, entry_eq, same⟩
      refine ⟨index, rfl, (List.getElem?_eq_some_iff.mp entry_eq).1, ?_⟩
      intro other entry' entry'_eq
      constructor
      · intro same'
        have found := (stringBinSearch_eq_some_iff table key other).mpr ⟨entry', entry'_eq, same'⟩
        exact (Option.some.inj (search.symm.trans found)).symm
      · rintro rfl
        obtain rfl := Option.some.inj (entry_eq.symm.trans entry'_eq)
        exact same

/-- The whole search with its `int` bounds. -/
theorem intBinSearch_eq (key : Str) {strings : List Str} (small : strings.length ≤ 2 ^ 30) :
    intBinSearchLoop key strings (strings.length + 1) 0 strings.length =
      some (.ok (answerOf (stringBinSearch key strings strings.length))) := by
  have outcome := @intBinSearchLoop_eq key strings small (strings.length + 1) 0 strings.length
    le_rfl (by omega)
  rw [stringBinSearchLoop_eq, BinarySearch.search_succ (by omega), ← stringBinSearchLoop_eq]
    at outcome
  exact outcome

theorem searchExact_of_le {strings : List Str} (table : IncreasingTable strings)
    (small : strings.length ≤ 2 ^ 30) : SearchExact strings := by
  intro key
  exact ⟨_, _, intBinSearch_eq key small, finds_answerOf table key⟩

/-- The entry at `2 ^ 30` is not found. -/
theorem not_searchExact_of_lt {strings : List Str} (large : 2 ^ 30 < strings.length) :
    ¬SearchExact strings := by
  intro exact_
  rcases exact_ strings[2 ^ 30] with ⟨fuel, answer, outcome, found⟩
  have below := intBinSearchLoop_lt outcome
  rcases found with ⟨index, rfl, -, only⟩ | ⟨-, missing⟩
  · have here := (only (2 ^ 30) _ (List.getElem?_eq_getElem large)).mp (.refl _)
    omega
  · exact missing _ (List.getElem_mem large) (.refl _)

/-! ## Headers -/

theorem increasing_httpHeaderStrings : IncreasingTable httpHeaderStrings := by
  decide +kernel

/-- The code of a key is that of the header whose name equals it up to case. -/
theorem atoheader_eq_iff {key : Str} {header : UInt8} (known : header ≠ headerUnknown) :
    atoheader key = header ↔
      ∃ name, headertoa header = some name ∧ SameFolded (cStr key) name := by
  have exact_ (index : Nat) := stringBinSearch_eq_some_iff increasing_httpHeaderStrings key index
  have size : headerUnknown.toNat = httpHeaderStrings.length := rfl
  have code {index : Nat} (inside : index < 53) : index.toUInt8.toNat = index := by
    rw [Nat.toUInt8, UInt8.toNat_ofNat']
    omega
  constructor
  · intro found
    rw [atoheader, size] at found
    cases search : stringBinSearch key httpHeaderStrings httpHeaderStrings.length with
    | none =>
        rw [search] at found
        exact absurd found.symm known
    | some index =>
        rw [search] at found
        rcases (exact_ index).mp search with ⟨name, name_eq, same⟩
        have inside := (List.getElem?_eq_some_iff.mp name_eq).1
        rw [length_httpHeaderStrings] at inside
        refine ⟨name, ?_, ?_⟩
        · rw [headertoa, ← found, code inside, name_eq]
        · rwa [cStr_eq_self (@nul_notMem_headertoa index.toUInt8 name (by
            rw [headertoa, code inside, name_eq]))] at same
  · rintro ⟨name, named, same⟩
    have clean := cStr_eq_self (nul_notMem_headertoa named)
    have search := (exact_ header.toNat).mpr ⟨name, named, by rwa [clean]⟩
    rw [atoheader, size, search]
    simp

/-- `string_bin_search` finds what a linear search finds in exactly the increasing tables of at
most `2 ^ 30` entries: beyond, a sum of bounds can overflow.  The header table is increasing, and
its lookup is exact. -/
theorem search_exact (strings : List Str) (table : IncreasingTable strings) :
    (SearchExact strings ↔ strings.length ≤ 2 ^ 30) ∧
      IncreasingTable httpHeaderStrings ∧
      ∀ key header, header ≠ headerUnknown →
        (atoheader key = header ↔
          ∃ name, headertoa header = some name ∧ SameFolded (cStr key) name) := by
  refine ⟨?_, increasing_httpHeaderStrings, fun _ _ known => atoheader_eq_iff known⟩
  constructor
  · intro exact_
    by_contra large
    exact not_searchExact_of_lt (not_le.mp large) exact_
  · exact searchExact_of_le table

/-- In the header table itself, and for the key `HOST`. -/
theorem search_exact_host :
    SearchExact httpHeaderStrings ∧ atoheader (ascii "HOST") = 24 :=
  ⟨(search_exact httpHeaderStrings (by decide +kernel)).1.mpr (by decide),
    ((search_exact httpHeaderStrings (by decide +kernel)).2.2 (ascii "HOST") 24 (by decide)).mpr
      ⟨ascii "host", by decide, by decide⟩⟩

/-- The words `"", "a", "aa", …`: each begins the next one. -/
def growing (size : Nat) : List Str := (List.range size).map fun length => List.replicate length 97

theorem folded_replicate (length : Nat) : folded (List.replicate length 97) =
    List.replicate length 97 := by
  have value : (tolower 97).toNat = 97 := by decide
  have clean : (0 : UInt8) ∉ List.replicate length 97 := by
    intro member
    exact absurd (List.eq_of_mem_replicate member) (by decide)
  rw [folded, cStr_eq_self clean, List.map_replicate, value]

theorem increasing_growing (size : Nat) : IncreasingTable (growing size) := by
  rw [IncreasingTable, growing, List.pairwise_map]
  apply List.Pairwise.imp _ List.pairwise_lt_range
  intro shorter longer below
  rw [strcasecmp_neg, folded_replicate, folded_replicate]
  rcases Nat.exists_eq_add_of_lt below with ⟨rest, rfl⟩
  have longer : List.Lex (· < ·) (List.replicate shorter 97 ++ [])
      (List.replicate shorter 97 ++ 97 :: List.replicate rest 97) :=
    List.Lex.append_left _ .nil _
  rw [Nat.add_assoc, List.replicate_add, List.replicate_succ]
  rwa [List.append_nil] at longer

/-- A table of `2 ^ 30 + 1` entries, all of them the ends of one text, in which a key is not
found. -/
theorem not_searchExact_growing :
    IncreasingTable (growing (2 ^ 30 + 1)) ∧ (growing (2 ^ 30 + 1)).length < 2 ^ 31 ∧
      ¬SearchExact (growing (2 ^ 30 + 1)) := by
  have length : (growing (2 ^ 30 + 1)).length = 2 ^ 30 + 1 := by
    rw [growing, List.length_map, List.length_range]
  refine ⟨increasing_growing _, by rw [length]; norm_num, not_searchExact_of_lt ?_⟩
  rw [length]
  exact Nat.lt_succ_self _

/-! ## Verbs -/

theorem stringBinSearch_congr {key other : Str} (same : SameFolded (cStr key) (cStr other))
    (strings : List Str) (size : Nat) :
    stringBinSearch key strings size = stringBinSearch other strings size := by
  have loop (fuel low high : Nat) : stringBinSearchLoop key strings fuel low high =
      stringBinSearchLoop other strings fuel low high := by
    induction fuel generalizing low high with
    | zero => rfl
    | succ fuel ih =>
        have signs := strcasecmp_congr same (strings.getD ((high + low) / 2) [])
        simp only [stringBinSearchLoop, signs, ih]
  exact loop size 0 size

/-- The code of a key depends on the key up to case only. -/
theorem atoverb_congr {key other : Str} (same : SameFolded (cStr key) (cStr other)) :
    atoverb key = atoverb other := by
  rw [atoverb, atoverb, stringBinSearch_congr same]

/-- The code found for a key is that of a verb equal to it up to case, or
`HTTP_REQUEST_VERB_UNKNOWN`. -/
theorem atoverb_cases (key : Str) :
    atoverb key = verbUnknown ∨
      ∃ name, verbtoa (atoverb key) = some name ∧ SameFolded (cStr key) name := by
  unfold atoverb
  split
  · rename_i index found
    rcases stringBinSearchLoop_sound found with ⟨below, same⟩
    have inside : index < httpRequestVerbStrings.length := by simpa [verbUnknown] using below
    have code : index.toUInt8.toNat = index := by
      rw [length_httpRequestVerbStrings] at inside
      rw [Nat.toUInt8, UInt8.toNat_ofNat']
      omega
    right
    rw [List.getD_eq_getElem _ _ inside, strcasecmp_eq_zero] at same
    refine ⟨httpRequestVerbStrings[index], ?_, ?_⟩
    · rw [verbtoa, code, List.getElem?_eq_getElem inside]
    · have clean : ∀ entry ∈ httpRequestVerbStrings, (0 : UInt8) ∉ entry := by decide
      rwa [cStr_eq_self (clean _ (List.getElem_mem inside))] at same
  · exact Or.inl rfl

/-- The verbs that the search passes by.  `OPTIONS` stands behind `PATCH` though it comes before it
in the alphabet: it is not looked for there, and turns the search for the other two away. -/
def hiddenVerbs : List Str := [ascii "POST", ascii "PUT", ascii "OPTIONS"]

/-- The lookup of a key is exact: a code if and only if the key is its name up to case, and
`HTTP_REQUEST_VERB_UNKNOWN` if and only if the key is no name. -/
structure VerbExact (key : Str) : Prop where
  known : ∀ verb, verb ≠ verbUnknown →
    (atoverb key = verb ↔ ∃ name, verbtoa verb = some name ∧ SameFolded (cStr key) name)
  unknown : atoverb key = verbUnknown ↔
    ∀ verb name, verbtoa verb = some name → ¬SameFolded (cStr key) name

/-- Where each name of the table is found, if it is. -/
theorem atoverb_name {verb : UInt8} {name : Str} (named : verbtoa verb = some name) :
    cStr name = name ∧ atoverb name = if name ∈ hiddenVerbs then verbUnknown else verb := by
  have table : ∀ index < 9, ∀ name, httpRequestVerbStrings[index]? = some name →
      cStr name = name ∧
        atoverb name = if name ∈ hiddenVerbs then verbUnknown else index.toUInt8 := by
    decide +kernel
  have inside := (List.getElem?_eq_some_iff.mp named).1
  simpa using table verb.toNat inside name named

/-- A code is found for a key exactly if the key is its name up to case, and no hidden one. -/
theorem atoverb_eq_iff {key : Str} {verb : UInt8} (known : verb ≠ verbUnknown) :
    atoverb key = verb ↔
      ∃ name, verbtoa verb = some name ∧ SameFolded (cStr key) name ∧ name ∉ hiddenVerbs := by
  constructor
  · rintro rfl
    rcases atoverb_cases key with unknown | ⟨name, named, same⟩
    · exact absurd unknown known
    · refine ⟨name, named, same, ?_⟩
      intro hidden
      rcases atoverb_name named with ⟨clean, code⟩
      have found : atoverb key = atoverb name := atoverb_congr (by rwa [clean])
      rw [found, code, if_pos hidden] at known
      exact known rfl
  · rintro ⟨name, named, same, shown⟩
    rcases atoverb_name named with ⟨clean, code⟩
    rw [if_neg shown] at code
    have found : atoverb key = atoverb name := atoverb_congr (by rwa [clean])
    rw [found, code]

/-- The lookup of a key is exact unless the key is a hidden verb. -/
theorem verbExact_iff_not_hidden (key : Str) :
    VerbExact key ↔ ∀ name ∈ hiddenVerbs, ¬SameFolded (cStr key) name := by
  have hiddenCodes : ∀ name ∈ hiddenVerbs, ∃ verb ∈ ([5, 6, 7] : List UInt8),
      verbtoa verb = some name ∧ verb ≠ verbUnknown := by
    decide
  constructor
  · intro exact_ name hidden same
    rcases hiddenCodes name hidden with ⟨verb, -, named, known⟩
    rcases (atoverb_eq_iff known).mp ((exact_.known verb known).mpr ⟨name, named, same⟩) with
      ⟨name', named', -, shown⟩
    obtain rfl := Option.some.inj (named.symm.trans named')
    exact shown hidden
  · intro shown
    constructor
    · intro verb known
      rw [atoverb_eq_iff known]
      constructor
      · rintro ⟨name, named, same, -⟩
        exact ⟨name, named, same⟩
      · rintro ⟨name, named, same⟩
        exact ⟨name, named, same, fun hidden => shown name hidden same⟩
    · constructor
      · intro unknown verb name named same
        have known : verb ≠ verbUnknown := by
          rintro rfl
          cases named
        have found := (atoverb_eq_iff known).mpr
          ⟨name, named, same, fun hidden => shown name hidden same⟩
        exact known (found.symm.trans unknown)
      · intro none
        rcases atoverb_cases key with unknown | ⟨name, named, same⟩
        · exact unknown
        · exact absurd same (none _ name named)

/-- The verb of a request line that was written comes back exactly if it is not hidden. -/
theorem verb_readBack {msg : HttpMessage} {first : Str} (request : msg.isRequest = true)
    (line : MessageSink11.firstLine msg = .ok (some first)) {cut : List Str}
    (isCut : Incremental.IsCut first cut) :
    ∃ back count, outcome11 true cut = .ok (back, false, count) ∧
      (back.verb = msg.verb ↔ ∀ name ∈ hiddenVerbs, verbtoa msg.verb ≠ some name) := by
  simp only [MessageSink11.firstLine, request, if_true] at line
  split at line
  · cases line
  · rename_i set_
    rcases not_or.mp set_ with ⟨url, known⟩
    split at line
    · cases line
    · rename_i name named
      obtain rfl := Option.some.inj (Except.ok.inj line)
      have member : name ∈ httpRequestVerbStrings := List.mem_of_getElem? named
      rcases unspaced_verbs member with ⟨nonempty, plain⟩
      have protocol : 10 ∉ ascii " HTTP/1.1" := by decide
      have encoded := feed_notMem_of_plain fun char (member : char ∈ urlEncode msg.url) =>
        isspace_urlEncode member
      have clean : 10 ∉ name ++ 32 :: (urlEncode msg.url ++ ascii " HTTP/1.1") := by
        simp [feed_notMem_of_plain plain, encoded, protocol]
      have reads := @Decoder11.reads_firstLine true
        (name ++ 32 :: (urlEncode msg.url ++ ascii " HTTP/1.1")) (by simp) clean
      have whole :
          cut.flatten = name ++ 32 :: (urlEncode msg.url ++ ascii " HTTP/1.1") ++ crlf := by
        rw [isCut.whole]
        simp
      have run := reads.run_all
      rw [← whole] at run
      have outcome := outcome11_of_run run
      refine ⟨_, _, outcome, ?_⟩
      have verb_eq : (parseFirstLine (.fresh true)
          (name ++ 32 :: (urlEncode msg.url ++ ascii " HTTP/1.1"))).verb = atoverb name := by
        simp [parseFirstLine, HttpMessage.fresh, parseRequestLine, HttpMessage.setVerb,
          HttpMessage.setUrl, getToken_append _ nonempty plain]
      have back := (@atoverb_eq_iff name msg.verb known)
      rw [verb_eq, back]
      constructor
      · rintro ⟨name', named', -, shown⟩ hidden member' equality
        obtain rfl := Option.some.inj (named'.symm.trans equality)
        exact shown member'
      · intro shown
        refine ⟨name, named, ?_, fun hidden => shown name hidden named⟩
        rw [(atoverb_name named).1]
        exact .refl name

end GnyProxy
