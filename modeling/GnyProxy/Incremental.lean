import Mathlib.Data.List.Induction
import Mathlib.Tactic.Common

/-!
# Incremental automata

An automaton that reads one symbol at a time, may fail, and stops in its final states.  A reader
of whole pieces which simulates such an automaton cannot observe how its input was cut: the
outcome of feeding it a list of pieces is the run of the automaton over their concatenation.
-/

namespace Incremental

/-- A deterministic automaton over symbols `α` with failing steps and final states. -/
structure Automaton (σ α ε : Type*) where
  /-- Read one symbol. -/
  step : σ → α → Except ε σ
  /-- States in which no further symbol is read. -/
  final : σ → Bool

namespace Automaton

variable {σ α ε : Type*} (A : Automaton σ α ε)

/-- Read a word up to the first final state, counting the symbols that were read. -/
def run : σ → List α → Except ε (σ × Nat)
  | state, [] => .ok (state, 0)
  | state, symbol :: word =>
      if A.final state then
        .ok (state, 0)
      else
        match A.step state symbol with
        | .error fault => .error fault
        | .ok next =>
            match run next word with
            | .error fault => .error fault
            | .ok (last, count) => .ok (last, count + 1)

/-- The automaton reads the whole word, and is in no final state before its last symbol. -/
inductive Reads : σ → List α → σ → Prop
  | nil (state : σ) : Reads state [] state
  | cons {state next last : σ} {symbol : α} {word : List α} :
      A.final state = false →
      A.step state symbol = .ok next →
      Reads next word last →
      Reads state (symbol :: word) last

namespace Reads

variable {A}

theorem single {state next : σ} {symbol : α} (open_ : A.final state = false)
    (step : A.step state symbol = .ok next) : A.Reads state [symbol] next :=
  .cons open_ step (.nil next)

/-- Read one symbol into a named state, then the rest. -/
theorem into (next : σ) {state last : σ} {symbol : α} {word : List α}
    (open_ : A.final state = false) (step : A.step state symbol = .ok next)
    (reads : A.Reads next word last) : A.Reads state (symbol :: word) last :=
  .cons open_ step reads

theorem append {first middle last : σ} {left right : List α}
    (reads : A.Reads first left middle) (more : A.Reads middle right last) :
    A.Reads first (left ++ right) last := by
  induction reads with
  | nil => exact more
  | cons open_ step _ ih => exact .cons open_ step (ih more)

/-- The state after a prefix, and the reading of what follows it. -/
theorem split {first last : σ} {left right : List α}
    (reads : A.Reads first (left ++ right) last) :
    ∃ middle, A.Reads first left middle ∧ A.Reads middle right last := by
  induction left generalizing first with
  | nil => exact ⟨first, .nil first, reads⟩
  | cons symbol left ih =>
      cases reads with
      | cons open_ step rest =>
          obtain ⟨middle, before, after⟩ := ih rest
          exact ⟨middle, .cons open_ step before, after⟩

/-- Nothing is read in a final state. -/
theorem nil_of_final {first last : σ} {word : List α} (reads : A.Reads first word last)
    (stopped : A.final first = true) : word = [] ∧ last = first := by
  cases reads with
  | nil => exact ⟨rfl, rfl⟩
  | cons open_ => exact absurd (open_.symm.trans stopped) (by decide)

theorem deterministic {first last last' : σ} {word : List α}
    (reads : A.Reads first word last) (reads' : A.Reads first word last') : last = last' := by
  induction reads with
  | nil => cases reads'; rfl
  | cons _ step _ ih =>
      cases reads' with
      | cons _ step' rest' =>
          rw [step] at step'
          cases step'
          exact ih rest'

/-- Symbols that leave the state as it is. -/
theorem stay {state : σ} {word : List α} (open_ : A.final state = false)
    (stays : ∀ symbol ∈ word, A.step state symbol = .ok state) : A.Reads state word state := by
  induction word with
  | nil => exact .nil state
  | cons symbol word ih =>
      obtain ⟨step, stays⟩ := List.forall_mem_cons.mp stays
      exact .cons open_ step (ih stays)

theorem snoc {first middle last : σ} {word : List α} {symbol : α}
    (reads : A.Reads first word middle) (open_ : A.final middle = false)
    (step : A.step middle symbol = .ok last) : A.Reads first (word ++ [symbol]) last :=
  reads.append (.single open_ step)

/-- Induction along a reading that keeps in view what has been read. -/
theorem history {first last : σ} {word : List α} {P : List α → σ → Prop}
    (reads : A.Reads first word last) (start : P [] first)
    (keeps : ∀ {front middle symbol next}, A.Reads first front middle → P front middle →
      A.step middle symbol = .ok next → P (front ++ [symbol]) next) : P word last := by
  induction word using List.reverseRecOn generalizing last with
  | nil =>
      cases reads
      exact start
  | append_singleton word symbol ih =>
      obtain ⟨middle, before, after⟩ := reads.split
      cases after with
      | cons _ step rest =>
          cases rest
          exact keeps before (ih before) step

/-- A predicate kept by every step holds wherever a reading leads. -/
theorem invariant {P : σ → Prop}
    (keeps : ∀ {state next symbol}, A.step state symbol = .ok next → P state → P next)
    {first last : σ} {word : List α} (reads : A.Reads first word last) (start : P first) :
    P last := by
  induction reads with
  | nil => exact start
  | cons _ step _ ih => exact ih (keeps step start)

/-- Reading a word does not look at what follows it. -/
theorem run_append {first last : σ} {word : List α} (reads : A.Reads first word last)
    (rest : List α) :
    A.run first (word ++ rest) =
      match A.run last rest with
      | .error fault => .error fault
      | .ok (state, count) => .ok (state, word.length + count) := by
  induction reads with
  | nil state =>
      cases result : A.run state rest with
      | error fault => simp [result]
      | ok value => obtain ⟨last, count⟩ := value; simp [result]
  | @cons state next last symbol word open_ step _ ih =>
      simp only [List.cons_append, run, open_, step, ih, Bool.false_eq_true, if_false]
      cases A.run last rest with
      | error fault => rfl
      | ok value =>
          obtain ⟨final, count⟩ := value
          simp only [List.length_cons, Except.ok.injEq, Prod.mk.injEq, true_and]
          omega

/-- A reading that leads to a final state is the whole run, whatever follows. -/
theorem run_final {first last : σ} {word : List α} (reads : A.Reads first word last)
    (stopped : A.final last = true) (rest : List α) :
    A.run first (word ++ rest) = .ok (last, word.length) := by
  rw [reads.run_append]
  cases rest with
  | nil => simp [run]
  | cons symbol rest => simp [run, stopped]

theorem run_all {first last : σ} {word : List α} (reads : A.Reads first word last) :
    A.run first word = .ok (last, word.length) := by
  simpa [run] using reads.run_append []

/-- What is read to a final state is no proper prefix of anything that is. -/
theorem prefix_free {first last last' : σ} {word word' : List α} (reads : A.Reads first word last)
    (stopped : A.final last = true) (reads' : A.Reads first word' last')
    (begins : word <+: word') : word' = word ∧ last' = last := by
  obtain ⟨rest, rfl⟩ := begins
  have whole := (reads.run_final stopped rest).symm.trans reads'.run_all
  simp only [Except.ok.injEq, Prod.mk.injEq, List.length_append] at whole
  obtain ⟨rfl, count⟩ := whole
  have none : rest = [] := List.length_eq_zero_iff.mp (by omega)
  exact ⟨by rw [none, List.append_nil], rfl⟩

end Reads

/-- Every state on the way through a word has a property. -/
def Along (P : σ → Prop) (first : σ) (word : List α) : Prop :=
  ∀ front middle, front <+: word → A.Reads first front middle → P middle

namespace Along

variable {A} {P : σ → Prop}

theorem nil {first : σ} (here : P first) : A.Along P first [] := by
  intro front middle begins reads
  obtain rfl := List.prefix_nil.mp begins
  cases reads
  exact here

theorem append {first middle : σ} {left right : List α} (reads : A.Reads first left middle)
    (before : A.Along P first left) (after : A.Along P middle right) :
    A.Along P first (left ++ right) := by
  rintro front last ⟨back, whole⟩ reaches
  rcases List.append_eq_append_iff.mp whole with ⟨rest, rfl, -⟩ | ⟨more, rfl, rfl⟩
  · exact before front last ⟨rest, rfl⟩ reaches
  · obtain ⟨middle', first_part, second_part⟩ := reaches.split
    obtain rfl := reads.deterministic first_part
    exact after more last ⟨back, rfl⟩ second_part

theorem cons {first next : σ} {symbol : α} {word : List α} (open_ : A.final first = false)
    (step : A.step first symbol = .ok next) (here : P first) (after : A.Along P next word) :
    A.Along P first (symbol :: word) := by
  have one : A.Along P first [symbol] := by
    intro front middle begins reads
    rcases List.prefix_cons_iff.mp begins with rfl | ⟨rest, rfl, none⟩
    · cases reads
      exact here
    · obtain rfl := List.prefix_nil.mp none
      obtain rfl := (Reads.single open_ step).deterministic reads
      exact after [] _ List.nil_prefix (.nil _)
  exact append (.single open_ step) one after

theorem stay {state : σ} {word : List α} (open_ : A.final state = false) (here : P state)
    (stays : ∀ symbol ∈ word, A.step state symbol = .ok state) : A.Along P state word := by
  induction word with
  | nil => exact nil here
  | cons symbol word ih =>
      obtain ⟨step, stays⟩ := List.forall_mem_cons.mp stays
      exact cons open_ step here (ih stays)

end Along

/-- A successful run reads a prefix of its word, and stops early only in a final state. -/
theorem reads_of_run {first last : σ} {word : List α} {count : Nat}
    (outcome : A.run first word = .ok (last, count)) :
    ∃ front back, word = front ++ back ∧ front.length = count ∧ A.Reads first front last ∧
      (back = [] ∨ A.final last = true) := by
  induction word generalizing first count with
  | nil =>
      simp only [run, Except.ok.injEq, Prod.mk.injEq] at outcome
      obtain ⟨rfl, rfl⟩ := outcome
      exact ⟨[], [], rfl, rfl, .nil _, Or.inl rfl⟩
  | cons symbol word ih =>
      rw [run] at outcome
      split at outcome
      · rename_i stopped
        simp only [Except.ok.injEq, Prod.mk.injEq] at outcome
        obtain ⟨rfl, rfl⟩ := outcome
        exact ⟨[], symbol :: word, rfl, rfl, .nil _, Or.inr stopped⟩
      · rename_i open_
        split at outcome
        · cases outcome
        · rename_i next step
          split at outcome
          · cases outcome
          · rename_i final steps rest
            simp only [Except.ok.injEq, Prod.mk.injEq] at outcome
            obtain ⟨rfl, rfl⟩ := outcome
            obtain ⟨front, back, rfl, rfl, reads, stop⟩ := ih rest
            exact ⟨symbol :: front, back, rfl, rfl,
              .cons (by simpa using open_) step reads, stop⟩

/-- A run that counts every symbol reads its whole word. -/
theorem reads_of_run_length {first last : σ} {word : List α}
    (outcome : A.run first word = .ok (last, word.length)) : A.Reads first word last := by
  obtain ⟨front, back, whole, count, reads, -⟩ := A.reads_of_run outcome
  have none : back = [] := by
    have total := congrArg List.length whole
    rw [List.length_append, count] at total
    exact List.length_eq_zero_iff.mp (by omega)
  rwa [whole, none, List.append_nil]

theorem count_le_of_run {first last : σ} {word : List α} {count : Nat}
    (outcome : A.run first word = .ok (last, count)) : count ≤ word.length := by
  obtain ⟨front, back, rfl, rfl, -, -⟩ := A.reads_of_run outcome
  simp

theorem run_append_of_final {state : σ} (stopped : A.final state = true) (word : List α) :
    A.run state word = .ok (state, 0) := by
  cases word with
  | nil => rfl
  | cons symbol word => simp [run, stopped]

/-- Running over a concatenation is running over its parts in turn. -/
theorem run_append {first middle : σ} {left : List α} {count : Nat}
    (outcome : A.run first left = .ok (middle, count)) (right : List α) :
    A.run first (left ++ right) =
      match A.run middle right with
      | .error fault => .error fault
      | .ok (last, more) => .ok (last, count + more) := by
  obtain ⟨front, back, rfl, rfl, reads, stop⟩ := A.reads_of_run outcome
  rw [List.append_assoc, reads.run_append]
  obtain rfl | stopped := stop
  · rfl
  · rw [A.run_append_of_final stopped, A.run_append_of_final stopped]

/-- A successful run over a concatenation is a run over each part. -/
theorem run_split {first last : σ} {left right : List α} {count : Nat}
    (outcome : A.run first (left ++ right) = .ok (last, count)) :
    ∃ middle before after, A.run first left = .ok (middle, before) ∧
      A.run middle right = .ok (last, after) ∧ count = before + after := by
  induction left generalizing first count with
  | nil => exact ⟨first, 0, count, rfl, outcome, by simp⟩
  | cons symbol left ih =>
      rw [List.cons_append, run] at outcome
      split at outcome
      · rename_i stopped
        simp only [Except.ok.injEq, Prod.mk.injEq] at outcome
        obtain ⟨rfl, rfl⟩ := outcome
        exact ⟨first, 0, 0, A.run_append_of_final stopped _,
          A.run_append_of_final stopped _, rfl⟩
      · rename_i open_
        split at outcome
        · cases outcome
        · rename_i next step
          split at outcome
          · cases outcome
          · rename_i final steps rest
            simp only [Except.ok.injEq, Prod.mk.injEq] at outcome
            obtain ⟨rfl, rfl⟩ := outcome
            obtain ⟨middle, before, after, leftRun, rightRun, rfl⟩ := ih rest
            refine ⟨middle, before + 1, after, ?_, rightRun, by omega⟩
            simp [run, open_, step, leftRun]

/-- The automaton that refuses the steps which are not allowed. -/
def restrict (allowed : σ → α → Bool) (refusal : ε) : Automaton σ α ε where
  step state symbol := if allowed state symbol then A.step state symbol else .error refusal
  final := A.final

variable {A} in
/-- A step that is not refused is a step. -/
theorem step_of_restrict {allowed : σ → α → Bool} {refusal : ε} {state next : σ} {symbol : α}
    (step : (A.restrict allowed refusal).step state symbol = .ok next) :
    A.step state symbol = .ok next := by
  simp only [restrict] at step
  split at step
  · exact step
  · cases step

variable {A} in
/-- A reading through states that refuse nothing is a reading of the restricted automaton. -/
theorem Reads.restrict {allowed : σ → α → Bool} {refusal : ε} {first last : σ} {word : List α}
    (reads : A.Reads first word last)
    (permitted : A.Along (fun state => ∀ symbol, allowed state symbol = true) first word) :
    (A.restrict allowed refusal).Reads first word last := by
  induction reads with
  | nil state => exact .nil state
  | @cons state next last symbol word open_ step rest ih =>
      have here : allowed state symbol = true :=
        permitted [] state List.nil_prefix (.nil state) symbol
      refine .cons open_ ((if_pos here).trans step) (ih fun front middle begins reaches => ?_)
      exact permitted (symbol :: front) middle (List.cons_prefix_cons.mpr ⟨rfl, begins⟩)
        (.cons open_ step reaches)

end Automaton

/-! ## Segments of a buffer -/

section Segment

variable {α : Type*}

/-- The part of a buffer from `start` up to `stop`. -/
def segment (data : List α) (start stop : Nat) : List α := (data.take stop).drop start

theorem lt_length_of_drop_eq_cons {data rest : List α} {symbol : α} {stop : Nat}
    (tail : data.drop stop = symbol :: rest) : stop < data.length := by
  by_contra beyond
  rw [List.drop_eq_nil_of_le (by omega)] at tail
  cases tail

@[simp] theorem segment_self (data : List α) (start : Nat) : segment data start start = [] := by
  simp [segment]

theorem length_segment {data : List α} {start stop : Nat} (inside : stop ≤ data.length) :
    (segment data start stop).length = stop - start := by
  simp [segment, inside]

theorem segment_length (data : List α) (start : Nat) :
    segment data start data.length = data.drop start := by
  rw [segment, List.take_length]

theorem segment_append_drop {data : List α} {start stop : Nat} (started : start ≤ stop)
    (inside : stop ≤ data.length) :
    segment data start stop ++ data.drop stop = data.drop start := by
  have whole := congrArg (List.drop start) (List.take_append_drop stop data)
  rwa [List.drop_append_of_le_length (by simp; omega)] at whole

theorem segment_succ {data rest : List α} {symbol : α} {start stop : Nat} (started : start ≤ stop)
    (tail : data.drop stop = symbol :: rest) :
    segment data start (stop + 1) = segment data start stop ++ [symbol] := by
  have inside := lt_length_of_drop_eq_cons tail
  have next : data[stop]? = some symbol := by
    rw [← List.head?_drop, tail, List.head?_cons]
  rw [segment, segment, List.take_add_one, next, Option.toList_some,
    List.drop_append_of_le_length (by simp; omega)]

/-- Symbols that arrive at the end of a buffer do not change its segments. -/
theorem segment_append {data : List α} {start stop : Nat} (inside : stop ≤ data.length)
    (more : List α) : segment (data ++ more) start stop = segment data start stop := by
  simp [segment, List.take_append_of_le_length inside]

end Segment

/-! ## Readers of whole pieces -/

variable {ρ σ α ε : Type*}

/-- Hand the pieces one after another to a reader, adding up the symbols it consumes. -/
def feed (read : ρ → List α → Except ε (ρ × Nat)) : ρ → List (List α) → Except ε (ρ × Nat)
  | reader, [] => .ok (reader, 0)
  | reader, piece :: pieces =>
      match read reader piece with
      | .error fault => .error fault
      | .ok (next, count) =>
          match feed read next pieces with
          | .error fault => .error fault
          | .ok (last, more) => .ok (last, count + more)

/-- Feeding succeeds exactly when every read does. -/
theorem feed_cons_eq_ok {read : ρ → List α → Except ε (ρ × Nat)} {reader last : ρ}
    {piece : List α} {pieces : List (List α)} {count : Nat} :
    feed read reader (piece :: pieces) = .ok (last, count) ↔
      ∃ next before after, read reader piece = .ok (next, before) ∧
        feed read next pieces = .ok (last, after) ∧ count = before + after := by
  rw [feed]
  cases here : read reader piece with
  | error fault => simp
  | ok value =>
      obtain ⟨next, before⟩ := value
      cases more : feed read next pieces with
      | error fault => simp [more]
      | ok value =>
          obtain ⟨last', after⟩ := value
          simp only [more, Except.ok.injEq, Prod.mk.injEq]
          constructor
          · rintro ⟨rfl, rfl⟩
            exact ⟨next, before, after, ⟨rfl, rfl⟩, more, rfl⟩
          · rintro ⟨_, _, _, ⟨rfl, rfl⟩, more', rfl⟩
            rw [more] at more'
            cases more'
            exact ⟨rfl, rfl⟩

/-- The pieces make up the word, and none is empty. -/
structure IsCut (word : List α) (pieces : List (List α)) : Prop where
  whole : pieces.flatten = word
  nonempty : ∀ piece ∈ pieces, piece ≠ []

/-- A word can be read in one piece. -/
theorem IsCut.single {word : List α} (some : word ≠ []) : IsCut word [word] :=
  ⟨List.flatten_singleton, by simpa using some⟩

/-- Every successful run of the automaton over one piece is one call of the reader. -/
def Simulates (read : ρ → List α → Except ε (ρ × Nat)) (A : Automaton σ α ε)
    (related : ρ → σ → Prop) : Prop :=
  ∀ {reader state piece last count}, related reader state →
    A.run state piece = .ok (last, count) →
    ∃ next, read reader piece = .ok (next, count) ∧ related next last

/-- A piece of a word that leads to a final state, and of what follows it: the reader takes what
belongs to the word. -/
theorem Simulates.next {read : ρ → List α → Except ε (ρ × Nat)} {A : Automaton σ α ε}
    {related : ρ → σ → Prop} (simulates : Simulates read A related) {reader : ρ} {state last : σ}
    {word rest piece : List α} (here : related reader state) (reads : A.Reads state word last)
    (stopped : A.final last = true) (begins : piece <+: word ++ rest) :
    ∃ next state', read reader piece = .ok (next, min piece.length word.length) ∧
      related next state' ∧ A.Reads state (word.take piece.length) state' ∧
      A.Reads state' (word.drop piece.length) last := by
  by_cases inside : piece.length ≤ word.length
  · obtain ⟨more, rfl⟩ :=
      List.prefix_of_prefix_length_le begins (List.prefix_append word rest) inside
    obtain ⟨middle, before, after⟩ := reads.split
    obtain ⟨next, read_eq, related⟩ := simulates here before.run_all
    refine ⟨next, middle, ?_, related, ?_, ?_⟩
    · rw [Nat.min_eq_left inside]
      exact read_eq
    · rwa [List.take_left]
    · rwa [List.drop_left]
  · have beyond : word.length ≤ piece.length := by omega
    obtain ⟨more, rfl⟩ := List.prefix_of_prefix_length_le (List.prefix_append word rest) begins
      beyond
    obtain ⟨next, read_eq, related⟩ := simulates here (reads.run_final stopped more)
    refine ⟨next, last, ?_, related, ?_, ?_⟩
    · rw [Nat.min_eq_right beyond]
      exact read_eq
    · rwa [List.take_of_length_le beyond]
    · rw [List.drop_eq_nil_of_le beyond]
      exact .nil last

/-- Feeding pieces to a simulating reader is one run over their concatenation. -/
theorem Simulates.feed {read : ρ → List α → Except ε (ρ × Nat)} {A : Automaton σ α ε}
    {related : ρ → σ → Prop} (simulates : Simulates read A related) (reader : ρ)
    {state last : σ} {pieces : List (List α)} {count : Nat} (start : related reader state)
    (outcome : A.run state pieces.flatten = .ok (last, count)) :
    ∃ next, Incremental.feed read reader pieces = .ok (next, count) ∧ related next last := by
  induction pieces generalizing reader state count with
  | nil =>
      simp only [List.flatten_nil, Automaton.run, Except.ok.injEq, Prod.mk.injEq] at outcome
      obtain ⟨rfl, rfl⟩ := outcome
      exact ⟨reader, rfl, start⟩
  | cons piece pieces ih =>
      rw [List.flatten_cons] at outcome
      obtain ⟨middle, before, after, pieceRun, restRun, rfl⟩ := A.run_split outcome
      obtain ⟨next, read_eq, middle_related⟩ := simulates start pieceRun
      obtain ⟨final, feed_eq, final_related⟩ := ih next middle_related restRun
      exact ⟨final, by simp [Incremental.feed, read_eq, feed_eq], final_related⟩

end Incremental
