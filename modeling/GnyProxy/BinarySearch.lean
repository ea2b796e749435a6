import Mathlib.Algebra.Order.Group.Int
import Mathlib.Tactic.Common

/-!
# Binary search by signs

The halving search on an interval of indices, for any three-way comparison of a sought key with
the entry at an index.  Only the sign of the comparison is looked at: positive before the key,
negative behind it.
-/

namespace BinarySearch

/-- The search between `low` and `high`, with as many iterations as there is fuel. -/
def search (compare : Nat → Int) : Nat → Nat → Nat → Option Nat
  | 0, _, _ => none
  | fuel + 1, low, high =>
      if low < high then
        let mid := (high + low) / 2
        if compare mid < 0 then search compare fuel low mid
        else if 0 < compare mid then search compare fuel (mid + 1) high
        else some mid
      else
        none

/-- The entries below `size` increase, as seen by the key: behind one that is not before the key,
all are behind it. -/
def Increasing (compare : Nat → Int) (size : Nat) : Prop :=
  ∀ ⦃first second⦄, first < second → second < size → compare first ≤ 0 → compare second < 0

variable {compare : Nat → Int} {size fuel low high index : Nat}

/-- Before an entry that is not behind the key, all entries are before it. -/
theorem Increasing.before (increasing : Increasing compare size) {first second : Nat}
    (earlier : first < second) (inside : second < size) (notBehind : 0 ≤ compare second) :
    0 < compare first := by
  by_contra stays
  have behind := increasing earlier inside (not_lt.mp stays)
  exact absurd behind (not_lt.mpr notBehind)

/-- At most one entry equals the key. -/
theorem Increasing.unique (increasing : Increasing compare size) {first second : Nat}
    (inside : first < size) (inside' : second < size) (same : compare first = 0)
    (same' : compare second = 0) : first = second := by
  rcases lt_trichotomy first second with earlier | equal | later
  · have behind := increasing earlier inside' same.le
    omega
  · exact equal
  · have behind := increasing later inside same'.le
    omega

/-- An answer is an index of the interval whose entry equals the key.  The order of the entries
does not matter here. -/
theorem search_sound (found : search compare fuel low high = some index) :
    index < high ∧ compare index = 0 := by
  induction fuel generalizing low high with
  | zero => cases found
  | succ fuel ih =>
      simp only [search] at found
      split at found
      · rename_i open_
        split at found
        · rcases ih found with ⟨below, same⟩
          constructor
          · omega
          · exact same
        · split at found
          · exact ih found
          · rename_i notBefore notBehind
            obtain rfl : (high + low) / 2 = index := Option.some.inj found
            constructor
            · omega
            · omega
      · cases found

/-- An entry of the interval that equals the key is found, once there are as many iterations as
entries. -/
theorem search_complete (increasing : Increasing compare size) (enough : high - low ≤ fuel)
    (inside : high ≤ size) (lower : low ≤ index) (upper : index < high)
    (same : compare index = 0) : search compare fuel low high = some index := by
  induction fuel generalizing low high with
  | zero => omega
  | succ fuel ih =>
      have nonempty : low < high := by omega
      simp only [search, nonempty, if_true]
      rcases lt_trichotomy ((high + low) / 2) index with earlier | middle | later
      · -- The middle is before the key, so that the upper half goes on.
        have before := increasing.before earlier (by omega) same.ge
        rw [if_neg (by omega), if_pos before]
        apply ih
        · omega
        · exact inside
        · omega
        · exact upper
      · subst middle
        rw [if_neg (by omega), if_neg (by omega)]
      · have behind := increasing later (by omega) same.le
        rw [if_pos behind]
        apply ih
        · omega
        · omega
        · exact lower
        · exact later

/-- On increasing entries the search answers exactly the index of the entry that equals the key. -/
theorem search_eq_some_iff (increasing : Increasing compare size) (enough : size ≤ fuel) :
    search compare fuel 0 size = some index ↔ index < size ∧ compare index = 0 := by
  constructor
  · exact search_sound
  · rintro ⟨inside, same⟩
    apply search_complete increasing (by omega) le_rfl (Nat.zero_le index) inside same

/-- An iteration more than the interval has entries makes no difference. -/
theorem search_succ (enough : high - low ≤ fuel) :
    search compare (fuel + 1) low high = search compare fuel low high := by
  induction fuel generalizing low high with
  | zero =>
      have closed : ¬low < high := by omega
      simp [search, closed]
  | succ fuel ih =>
      by_cases open_ : low < high
      · rw [search, if_pos open_, search, if_pos open_]
        dsimp only
        split
        · apply ih
          omega
        · split
          · apply ih
            omega
          · rfl
      · rw [search, if_neg open_, search, if_neg open_]

end BinarySearch
