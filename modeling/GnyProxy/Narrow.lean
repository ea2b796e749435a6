import GnyProxy.Incremental

/-!
# Readers with narrow positions

A reader that keeps its place in a buffer by positions of a fixed width reads as one whose
positions have no width, up to the call in which a position outgrows its width.  Which words it
reads in all cuts is therefore a matter of what is kept between two calls and of how long a piece
can be.
-/

namespace Incremental

variable {ρ σ α ε : Type*}

/-! ## Cuts into short pieces -/

/-- A cut into pieces of a bounded length. -/
structure IsBoundedCut (bound : Nat) (word : List α) (pieces : List (List α)) : Prop
    extends IsCut word pieces where
  bounded : ∀ piece ∈ pieces, piece.length ≤ bound

namespace IsBoundedCut

variable {bound : Nat} {word left right piece : List α} {pieces more : List (List α)}

theorem nil : IsBoundedCut bound ([] : List α) [] :=
  ⟨⟨rfl, by simp⟩, by simp⟩

theorem cons (some : piece ≠ []) (short : piece.length ≤ bound)
    (cut : IsBoundedCut bound word pieces) :
    IsBoundedCut bound (piece ++ word) (piece :: pieces) :=
  ⟨⟨by rw [List.flatten_cons, cut.whole], List.forall_mem_cons.mpr ⟨some, cut.nonempty⟩⟩,
    List.forall_mem_cons.mpr ⟨short, cut.bounded⟩⟩

theorem append (before : IsBoundedCut bound left pieces) (after : IsBoundedCut bound right more) :
    IsBoundedCut bound (left ++ right) (pieces ++ more) :=
  ⟨⟨by rw [List.flatten_append, before.whole, after.whole],
      List.forall_mem_append.mpr ⟨before.nonempty, after.nonempty⟩⟩,
    List.forall_mem_append.mpr ⟨before.bounded, after.bounded⟩⟩

theorem weaken {bound' : Nat} (cut : IsBoundedCut bound word pieces) (le : bound ≤ bound') :
    IsBoundedCut bound' word pieces :=
  ⟨cut.toIsCut, fun piece mem => Nat.le_trans (cut.bounded piece mem) le⟩

end IsBoundedCut

/-- The cut into single symbols. -/
def singles (word : List α) : List (List α) := word.map fun symbol => [symbol]

theorem isBoundedCut_singles (word : List α) : IsBoundedCut 1 word (singles word) := by
  induction word with
  | nil => exact .nil
  | cons symbol word ih => exact ih.cons (List.cons_ne_nil symbol []) Nat.le.refl

/-! ## Feeding piece by piece -/

/-- Feeding a list of pieces and then another one. -/
theorem feed_append_eq_ok {read : ρ → List α → Except ε (ρ × Nat)} {reader last : ρ}
    {pieces more : List (List α)} {count : Nat} :
    feed read reader (pieces ++ more) = .ok (last, count) ↔
      ∃ next before after, feed read reader pieces = .ok (next, before) ∧
        feed read next more = .ok (last, after) ∧ count = before + after := by
  induction pieces generalizing reader count with
  | nil =>
      constructor
      · intro outcome
        exact ⟨reader, 0, count, rfl, outcome, (Nat.zero_add _).symm⟩
      · rintro ⟨_, _, _, start, outcome, rfl⟩
        cases start
        rw [Nat.zero_add]
        exact outcome
  | cons piece pieces ih =>
      rw [List.cons_append, feed_cons_eq_ok]
      constructor
      · rintro ⟨next, count₁, _, here, later, rfl⟩
        obtain ⟨middle, count₂, count₃, before, after, rfl⟩ := ih.mp later
        exact ⟨middle, count₁ + count₂, count₃,
          feed_cons_eq_ok.mpr ⟨next, count₁, count₂, here, before, rfl⟩, after,
          (Nat.add_assoc _ _ _).symm⟩
      · rintro ⟨middle, _, count₃, before, after, rfl⟩
        obtain ⟨next, count₁, count₂, here, between, rfl⟩ := feed_cons_eq_ok.mp before
        exact ⟨next, count₁, count₂ + count₃, here, ih.mpr ⟨middle, _, _, between, after, rfl⟩,
          Nat.add_assoc _ _ _⟩

/-- Induction along the pieces of a cut: what every call establishes of the word that has been
handed over, the reader and the number of symbols taken holds when all of the word has been. -/
theorem IsBoundedCut.feed {read : ρ → List α → Except ε (ρ × Nat)} {bound : Nat} {word : List α}
    {P : List α → ρ → Nat → Prop} {reader : ρ} (start : P [] reader 0)
    (keeps : ∀ {handed piece rest reader total}, word = handed ++ piece ++ rest → piece ≠ [] →
      piece.length ≤ bound → P handed reader total →
      ∃ next count, read reader piece = .ok (next, count) ∧
        P (handed ++ piece) next (total + count))
    {cut : List (List α)} (isCut : IsBoundedCut bound word cut) :
    ∃ last total, Incremental.feed read reader cut = .ok (last, total) ∧ P word last total := by
  have run (handed : List α) (reader : ρ) (total : Nat) (pieces : List (List α))
      (whole : handed ++ pieces.flatten = word) (short : ∀ piece ∈ pieces, piece.length ≤ bound)
      (some : ∀ piece ∈ pieces, piece ≠ []) (here : P handed reader total) :
      ∃ last more, Incremental.feed read reader pieces = .ok (last, more) ∧
        P word last (total + more) := by
    induction pieces generalizing handed reader total with
    | nil =>
        rw [List.flatten_nil, List.append_nil] at whole
        exact ⟨reader, 0, rfl, whole ▸ here⟩
    | cons piece pieces ih =>
        rw [List.flatten_cons, ← List.append_assoc] at whole
        obtain ⟨short₁, short₂⟩ := List.forall_mem_cons.mp short
        obtain ⟨some₁, some₂⟩ := List.forall_mem_cons.mp some
        obtain ⟨next, count, read_eq, there⟩ := keeps whole.symm some₁ short₁ here
        obtain ⟨last, more, feed_eq, ended⟩ := ih _ next _ whole short₂ some₂ there
        exact ⟨last, count + more, feed_cons_eq_ok.mpr ⟨next, count, more, read_eq, feed_eq, rfl⟩,
          by rwa [← Nat.add_assoc]⟩
  obtain ⟨last, total, feed_eq, ended⟩ :=
    run [] reader 0 cut isCut.whole isCut.bounded isCut.nonempty start
  exact ⟨last, total, feed_eq, by rwa [Nat.zero_add] at ended⟩

/-! ## Loops through a buffer -/

section Loop

variable (stopped : σ → Bool) (step : σ → Nat → α → Except ε σ)

/-- Go through the symbols from position `i` of a buffer on, up to a state in which the loop stops;
the answer also says at which position that was. -/
def loop (state : σ) (i : Nat) : List α → Except ε (Nat × σ)
  | [] => .ok (i, state)
  | symbol :: rest =>
      if stopped state then
        .ok (i, state)
      else
        match step state i symbol with
        | .error fault => .error fault
        | .ok next => loop next (i + 1) rest

/-- The loop whose position is not increased behind `limit`. -/
def loopUpTo (limit : Nat) (overflow : ε) (state : σ) (i : Nat) : List α → Except ε (Nat × σ)
  | [] => .ok (i, state)
  | symbol :: rest =>
      if stopped state then
        .ok (i, state)
      else
        match step state i symbol with
        | .error fault => .error fault
        | .ok next =>
            if i < limit then loopUpTo limit overflow next (i + 1) rest else .error overflow

/-- The loop gets to a symbol at position `limit` and would go on behind it. -/
def Passes (limit : Nat) (state : σ) (i : Nat) (word : List α) : Prop :=
  ∃ front symbol back middle, word = front ++ symbol :: back ∧
    loop stopped step state i front = .ok (limit, middle) ∧ stopped middle = false

variable {stopped step} {state last : σ} {i j limit : Nat} {overflow fault : ε} {word : List α}

/-- The loop stops within its word, and before the end of it only in a state in which it has to. -/
theorem loop_bounds (outcome : loop stopped step state i word = .ok (j, last)) :
    i ≤ j ∧ j ≤ i + word.length ∧ (j = i + word.length ∨ stopped last = true) := by
  induction word generalizing state i with
  | nil =>
      cases outcome
      exact ⟨Nat.le_refl _, Nat.le_refl _, Or.inl rfl⟩
  | cons symbol word ih =>
      rw [loop] at outcome
      split at outcome
      · rename_i ended
        cases outcome
        exact ⟨Nat.le_refl _, Nat.le_add_right _ _, Or.inr ended⟩
      · split at outcome
        · cases outcome
        · obtain ⟨lower, upper, stop⟩ := ih outcome
          rw [List.length_cons]
          exact ⟨by omega, by omega, stop.imp_left fun all => by omega⟩

/-- Going through a word is going through its front and then through its back. -/
theorem loop_append (state : σ) (i : Nat) (front back : List α) :
    loop stopped step state i (front ++ back) =
      match loop stopped step state i front with
      | .error fault => .error fault
      | .ok (i, state) => loop stopped step state i back := by
  induction front generalizing state i with
  | nil => rfl
  | cons symbol front ih =>
      rw [List.cons_append, loop, loop]
      split
      · rename_i ended
        cases back with
        | nil => rfl
        | cons other back => simp only [loop, ended, if_true]
      · split
        · rfl
        · exact ih _ _

/-- What every step keeps holds where the loop stops. -/
theorem loop_invariant {P : Nat → σ → Prop}
    (keeps : ∀ {state next i symbol}, stopped state = false → step state i symbol = .ok next →
      P i state → P (i + 1) next)
    (outcome : loop stopped step state i word = .ok (j, last)) (start : P i state) : P j last := by
  induction word generalizing state i with
  | nil =>
      cases outcome
      exact start
  | cons symbol word ih =>
      rw [loop] at outcome
      split at outcome
      · cases outcome
        exact start
      · rename_i open_
        split at outcome
        · cases outcome
        · rename_i next step_eq
          exact ih outcome (keeps (by simpa using open_) step_eq start)

/-- A loop that gets through its word to behind the limit passes it. -/
theorem passes_of_loop (inside : i ≤ limit)
    (outcome : loop stopped step state i word = .ok (j, last)) :
    Passes stopped step limit state i word ↔ limit < j := by
  constructor
  · rintro ⟨front, symbol, back, middle, rfl, front_eq, open_⟩
    simp only [loop_append, front_eq, loop, open_, Bool.false_eq_true, if_false] at outcome
    split at outcome
    · cases outcome
    · exact (loop_bounds outcome).1
  · intro beyond
    induction word generalizing state i with
    | nil =>
        cases outcome
        omega
    | cons symbol word ih =>
        rw [loop] at outcome
        split at outcome
        · cases outcome
          omega
        · rename_i open_
          split at outcome
          · cases outcome
          · rename_i next step_eq
            obtain rfl | before := Nat.eq_or_lt_of_le inside
            · exact ⟨[], symbol, word, state, rfl, rfl, by simpa using open_⟩
            · obtain ⟨front, other, back, middle, rfl, front_eq, open'⟩ := ih before outcome
              refine ⟨symbol :: front, other, back, middle, rfl, ?_, open'⟩
              rw [loop, if_neg open_, step_eq]
              exact front_eq

/-- What the narrow loop gets through, the loop without a limit gets through alike. -/
theorem loop_of_loopUpTo (outcome : loopUpTo stopped step limit overflow state i word =
    .ok (j, last)) :
    loop stopped step state i word = .ok (j, last) ∧ (i ≤ limit → j ≤ limit) := by
  induction word generalizing state i with
  | nil =>
      cases outcome
      exact ⟨rfl, id⟩
  | cons symbol word ih =>
      rw [loopUpTo] at outcome
      rw [loop]
      split at outcome
      · rename_i ended
        rw [if_pos ended]
        cases outcome
        exact ⟨rfl, id⟩
      · rename_i open_
        rw [if_neg open_]
        split at outcome
        · cases outcome
        · split at outcome
          · rename_i more
            obtain ⟨outcome', bound⟩ := ih outcome
            exact ⟨outcome', fun _ => bound more⟩
          · cases outcome

/-- Where the narrow loop fails, it passes its limit, or the loop without a limit fails too. -/
theorem loopUpTo_error (inside : i ≤ limit)
    (outcome : loopUpTo stopped step limit overflow state i word = .error fault) :
    fault = overflow ∧ Passes stopped step limit state i word ∨
      loop stopped step state i word = .error fault := by
  induction word generalizing state i with
  | nil => cases outcome
  | cons symbol word ih =>
      rw [loopUpTo] at outcome
      rw [loop]
      split at outcome
      · cases outcome
      · rename_i open_
        rw [if_neg open_]
        split at outcome
        · cases outcome
          exact Or.inr rfl
        · rename_i next step_eq
          split at outcome
          · rename_i before
            refine (ih before outcome).imp_left fun ⟨same, passes⟩ => ⟨same, ?_⟩
            obtain ⟨front, other, back, middle, rfl, front_eq, open'⟩ := passes
            refine ⟨symbol :: front, other, back, middle, rfl, ?_, open'⟩
            rw [loop, if_neg open_, step_eq]
            exact front_eq
          · rename_i full
            obtain rfl : i = limit := by omega
            cases outcome
            exact Or.inl ⟨rfl, [], symbol, word, state, rfl, rfl, by simpa using open_⟩

/-- The narrow loop gets through what the loop without a limit gets through before the limit. -/
theorem loopUpTo_eq_ok (inside : i ≤ limit) :
    loopUpTo stopped step limit overflow state i word = .ok (j, last) ↔
      loop stopped step state i word = .ok (j, last) ∧ j ≤ limit := by
  constructor
  · intro outcome
    obtain ⟨outcome', bound⟩ := loop_of_loopUpTo outcome
    exact ⟨outcome', bound inside⟩
  · rintro ⟨outcome, bound⟩
    cases narrow : loopUpTo stopped step limit overflow state i word with
    | ok result => exact (loop_of_loopUpTo narrow).1.symm.trans outcome
    | error fault =>
        obtain ⟨-, passes⟩ | failed := loopUpTo_error inside narrow
        · exact absurd ((passes_of_loop inside outcome).mp passes) (by omega)
        · cases failed.symm.trans outcome

end Loop

/-! ## Narrow readers -/

/-- `narrow` is `read` with positions up to `limit`: it returns from the calls in which `read`
does and what was kept before the call, with what the call takes, does not exceed the limit. -/
def Narrows (narrow read : ρ → List α → Except ε (ρ × Nat)) (kept : ρ → Nat) (limit : Nat) : Prop :=
  ∀ reader piece next count, narrow reader piece = .ok (next, count) ↔
    read reader piece = .ok (next, count) ∧ (piece ≠ [] → kept reader + count ≤ limit)

namespace Narrows

variable {narrow read : ρ → List α → Except ε (ρ × Nat)} {kept : ρ → Nat} {limit : Nat}
  {reader last : ρ} {pieces : List (List α)} {total : Nat}

/-- What a narrow reader returns from, the other one reads alike. -/
theorem feed (narrows : Narrows narrow read kept limit)
    (outcome : Incremental.feed narrow reader pieces = .ok (last, total)) :
    Incremental.feed read reader pieces = .ok (last, total) := by
  induction pieces generalizing reader total with
  | nil => exact outcome
  | cons piece pieces ih =>
      obtain ⟨next, count, more, here, later, rfl⟩ := feed_cons_eq_ok.mp outcome
      exact feed_cons_eq_ok.mpr ⟨next, count, more, ((narrows _ _ _ _).mp here).1, ih later, rfl⟩

/-- Pieces that are together no longer than the limit a narrow reader reads as the other one does,
if no call keeps or takes more than there is. -/
theorem feed_of_length (narrows : Narrows narrow read kept limit)
    (keeps : ∀ {reader piece next count}, read reader piece = .ok (next, count) →
      kept next ≤ kept reader + piece.length ∧ count ≤ piece.length)
    (outcome : Incremental.feed read reader pieces = .ok (last, total))
    (short : kept reader + pieces.flatten.length ≤ limit) :
    Incremental.feed narrow reader pieces = .ok (last, total) := by
  induction pieces generalizing reader total with
  | nil => exact outcome
  | cons piece pieces ih =>
      obtain ⟨next, count, more, here, later, rfl⟩ := feed_cons_eq_ok.mp outcome
      obtain ⟨kept_le, count_le⟩ := keeps here
      rw [List.flatten_cons, List.length_append] at short
      have narrow_eq := (narrows _ _ _ _).mpr ⟨here, fun _ => by omega⟩
      exact feed_cons_eq_ok.mpr ⟨next, count, more, narrow_eq, ih later (by omega), rfl⟩

/-- A narrow reader that gets through all pieces had room for each of them. -/
theorem room_of_feed (narrows : Narrows narrow read kept limit) {middle next : ρ}
    {before after : List (List α)} {piece : List α} {taken count : Nat}
    (outcome : Incremental.feed narrow reader (before ++ piece :: after) = .ok (last, total))
    (front : Incremental.feed read reader before = .ok (middle, taken))
    (here : read middle piece = .ok (next, count)) (some : piece ≠ []) :
    kept middle + count ≤ limit := by
  obtain ⟨middle', _, _, front', rest, -⟩ := feed_append_eq_ok.mp outcome
  obtain ⟨next', _, _, here', -, -⟩ := feed_cons_eq_ok.mp rest
  cases front.symm.trans (narrows.feed front')
  obtain ⟨read_eq, room⟩ := (narrows _ _ _ _).mp here'
  cases here.symm.trans read_eq
  exact room some

end Narrows

/-! ## Words that fit -/

/-- Every cut into pieces of a bounded length has room in the limit: what is held of an unfinished
part together with a piece that is read behind it, and what lies behind the end up to its last
symbol. -/
structure Fits (A : Automaton σ α ε) (held : σ → Nat) (limit bound : Nat) (first : σ)
    (word : List α) : Prop where
  within : ∀ front piece back state last, word = front ++ piece ++ back → piece ≠ [] →
    piece.length ≤ bound → A.Reads first front state → A.Reads state piece last →
    held state + piece.length ≤ limit
  behind : ∀ front back last, word = front ++ back → A.Reads first front last →
    A.final last = true → back.length ≤ limit + 1

/-- Where no more is held than has been read, every word within the limit fits. -/
theorem Fits.of_length {A : Automaton σ α ε} {held : σ → Nat} {limit bound : Nat} {first : σ}
    {word : List α} (holds : ∀ {front state}, A.Reads first front state → held state ≤ front.length)
    (short : word.length ≤ limit) : Fits A held limit bound first word := by
  constructor
  · rintro front piece back state last rfl - - reads -
    have held_le := holds reads
    simp only [List.length_append] at short
    omega
  · rintro front back last rfl - -
    rw [List.length_append] at short
    omega

/-- A reader to which a part of a word has been handed: it has read what the automaton has, and
keeps what that holds, or what lies behind the end. -/
def Handed (A : Automaton σ α ε) (related : ρ → σ → Prop) (kept : ρ → Nat) (held : σ → Nat)
    (first : σ) (handed : List α) (reader : ρ) (total : Nat) : Prop :=
  ∃ state, A.run first handed = .ok (state, total) ∧ related reader state ∧
    kept reader = if A.final state then handed.length - total else held state

section Fits

variable {A : Automaton σ α ε} {related : ρ → σ → Prop} {kept : ρ → Nat} {held : σ → Nat}
  {narrow read : ρ → List α → Except ε (ρ × Nat)} {limit bound : Nat} {first last : σ}
  {word handed piece rest : List α} {start reader : ρ} {total count : Nat}

/-- A word that fits has room for the next piece. -/
theorem Fits.room (fits : Fits A held limit bound first word)
    (whole : word = handed ++ piece ++ rest) (some : piece ≠ []) (short : piece.length ≤ bound)
    (here : Handed A related kept held first handed reader total)
    (outcome : A.run first (handed ++ piece) = .ok (last, total + count)) :
    kept reader + count ≤ limit := by
  obtain ⟨state, run_eq, -, kept_eq⟩ := here
  rw [A.run_append run_eq] at outcome
  obtain ⟨front, back, rfl, rfl, reads, stop⟩ := A.reads_of_run run_eq
  by_cases ended : A.final state = true
  · rw [A.run_append_of_final ended] at outcome
    have nothing := (Prod.mk.inj (Except.ok.inj outcome)).2
    have room := fits.behind front (back ++ piece ++ rest) state (by simp [whole]) reads ended
    have positive := List.length_pos_iff.mpr some
    rw [if_pos ended] at kept_eq
    simp only [List.length_append] at room kept_eq
    omega
  · obtain rfl := stop.resolve_right ended
    split at outcome
    · cases outcome
    · rename_i last' count' piece_eq
      simp only [Except.ok.injEq, Prod.mk.injEq, Nat.add_left_cancel_iff] at outcome
      obtain ⟨rfl, rfl⟩ := outcome
      obtain ⟨taken, later, rfl, rfl, reads', stop⟩ := A.reads_of_run piece_eq
      have nonempty : taken ≠ [] := by
        rintro rfl
        cases reads'
        obtain rfl := stop.resolve_right ended
        exact some rfl
      rw [List.length_append] at short
      have room := fits.within front taken (later ++ rest) state last' (by simp [whole]) nonempty
        (by omega) reads reads'
      rw [if_neg ended] at kept_eq
      omega

/-- The call for the next piece, as far as the reader without a limit does what the automaton
does. -/
def HandsOn (A : Automaton σ α ε) (related : ρ → σ → Prop) (kept : ρ → Nat) (held : σ → Nat)
    (read : ρ → List α → Except ε (ρ × Nat)) (bound : Nat) (first : σ) (word : List α) : Prop :=
  ∀ handed piece rest reader total, word = handed ++ piece ++ rest → piece ≠ [] →
    piece.length ≤ bound → Handed A related kept held first handed reader total →
    ∃ next count, read reader piece = .ok (next, count) ∧
      Handed A related kept held first (handed ++ piece) next (total + count)

/-- The narrow reader reads all cuts of a word that fits. -/
theorem Fits.feed (fits : Fits A held limit bound first word)
    (narrows : Narrows narrow read kept limit)
    (handsOn : HandsOn A related kept held read bound first word)
    (begins : Handed A related kept held first [] start 0) {cut : List (List α)}
    (isCut : IsBoundedCut bound word cut) :
    ∃ last total, Incremental.feed narrow start cut = .ok (last, total) ∧
      Handed A related kept held first word last total := by
  refine isCut.feed begins fun whole some short here => ?_
  obtain ⟨next, count, read_eq, there⟩ := handsOn _ _ _ _ _ whole some short here
  refine ⟨next, count, (narrows _ _ _ _).mpr ⟨read_eq, fun _ => ?_⟩, there⟩
  obtain ⟨state, run_eq, -⟩ := there
  exact fits.room whole some short here run_eq

/-- The cut of a word into single symbols but for one piece. -/
theorem isBoundedCut_piece (one : 1 ≤ bound) (some : piece ≠ []) (short : piece.length ≤ bound) :
    IsBoundedCut bound (handed ++ piece ++ rest) (singles handed ++ piece :: singles rest) := by
  rw [List.append_assoc]
  exact ((isBoundedCut_singles handed).weaken one).append
    (((isBoundedCut_singles rest).weaken one).cons some short)

/-- A narrow reader that gets through such a cut had room for the piece. -/
theorem Narrows.room_of_piece (narrows : Narrows narrow read kept limit) (one : 1 ≤ bound)
    (handsOn : HandsOn A related kept held read bound first word)
    (begins : Handed A related kept held first [] start 0)
    (whole : word = handed ++ piece ++ rest) (some : piece ≠ []) (short : piece.length ≤ bound)
    {more : List (List α)} {result : ρ × Nat}
    (outcome : Incremental.feed narrow start (singles handed ++ piece :: more) = .ok result) :
    ∃ reader total next count, Handed A related kept held first handed reader total ∧
      Handed A related kept held first (handed ++ piece) next (total + count) ∧
      kept reader + count ≤ limit := by
  have front : ∃ reader total, Incremental.feed read start (singles handed) =
      .ok (reader, total) ∧ Handed A related kept held first handed reader total := by
    refine (isBoundedCut_singles handed).feed begins
      fun {front} {next} {back} _ _ split some' short' here => ?_
    have whole' : word = front ++ next ++ (back ++ (piece ++ rest)) := by
      rw [whole, split]
      simp only [List.append_assoc]
    exact handsOn _ _ _ _ _ whole' some' (Nat.le_trans short' one) here
  obtain ⟨reader, total, front_eq, here⟩ := front
  obtain ⟨next, count, read_eq, there⟩ := handsOn _ _ _ _ _ whole some short here
  exact ⟨reader, total, next, count, here, there,
    narrows.room_of_feed outcome front_eq read_eq some⟩

/-- Within the word all of the piece is taken. -/
theorem Narrows.within_of_piece (narrows : Narrows narrow read kept limit) (one : 1 ≤ bound)
    (handsOn : HandsOn A related kept held read bound first word)
    (begins : Handed A related kept held first [] start 0)
    (whole : word = handed ++ piece ++ rest) (some : piece ≠ []) (short : piece.length ≤ bound)
    {state : σ} (reads : A.Reads first handed state) (reads' : A.Reads state piece last)
    {more : List (List α)} {result : ρ × Nat}
    (outcome : Incremental.feed narrow start (singles handed ++ piece :: more) = .ok result) :
    held state + piece.length ≤ limit := by
  obtain ⟨reader, total, next, count, ⟨state', run_eq, -, kept_eq⟩, ⟨last', run_eq', -⟩, room⟩ :=
    narrows.room_of_piece one handsOn begins whole some short outcome
  rw [reads.run_all] at run_eq
  obtain ⟨rfl, rfl⟩ := Prod.mk.inj (Except.ok.inj run_eq)
  rw [(reads.append reads').run_all, List.length_append] at run_eq'
  have taken := (Prod.mk.inj (Except.ok.inj run_eq')).2
  have open_ : ¬A.final state = true := fun ended => some (reads'.nil_of_final ended).1
  rw [if_neg open_] at kept_eq
  omega

/-- A word all of whose cuts the narrow reader gets through fits: each bound is reached in a cut
into single symbols, but for one piece. -/
theorem fits_of_feed (narrows : Narrows narrow read kept limit) (one : 1 ≤ bound)
    (handsOn : HandsOn A related kept held read bound first word)
    (begins : Handed A related kept held first [] start 0)
    (through : ∀ cut, IsBoundedCut bound word cut →
      ∃ result, Incremental.feed narrow start cut = .ok result) :
    Fits A held limit bound first word := by
  constructor
  · rintro front piece back state last rfl some short reads reads'
    obtain ⟨result, outcome⟩ := through _ (isBoundedCut_piece one some short)
    exact narrows.within_of_piece one handsOn begins rfl some short reads reads' outcome
  · intro front back last whole reads ended
    induction back using List.reverseRecOn with
    | nil => exact Nat.zero_le _
    | append_singleton back symbol _ =>
        have split : word = front ++ back ++ [symbol] ++ [] := by simp [whole]
        have isCut := @isBoundedCut_piece _ bound (front ++ back) [symbol] [] one
          (List.cons_ne_nil symbol []) one
        rw [← split] at isCut
        obtain ⟨result, outcome⟩ := through _ isCut
        obtain ⟨reader, total, next, count, ⟨state, run_eq, -, kept_eq⟩, -, room⟩ :=
          narrows.room_of_piece one handsOn begins split (List.cons_ne_nil symbol []) one outcome
        rw [reads.run_final ended back] at run_eq
        obtain ⟨rfl, rfl⟩ := Prod.mk.inj (Except.ok.inj run_eq)
        rw [if_pos ended, List.length_append] at kept_eq
        rw [List.length_append, List.length_singleton]
        omega

end Fits
end Incremental
