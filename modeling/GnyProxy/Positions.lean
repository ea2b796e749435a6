import GnyProxy.MessageSource11
import GnyProxy.MessageSourceGny
import GnyProxy.Narrow

/-!
# The width of the readers' positions

Both readers walk through their buffers with an `int`.  They return from the calls in which the
readers without that width return and no position outgrows it: what was kept and what is taken
have at most `intMax` bytes together.
-/

namespace GnyProxy

open Incremental

/-! ## HTTP/1.1 -/

namespace MessageSource11

/-- The message is finished. -/
def Pass.ended (pass : Pass) : Bool := pass.src.state = .done

/-- One iteration of the reading loop. -/
def Pass.iterate (pass : Pass) (i : Nat) (ch : UInt8) : Except Fault Pass := do
  let pass ← pass.readChar i ch
  .ok { pass with src := { pass.src with last := ch } }

variable {pass pass' : Pass} {i j : Nat} {word : Str}

theorem readLoop_eq (pass : Pass) (i : Nat) (word : Str) :
    readLoop pass i word = loop Pass.ended Pass.iterate pass i word := by
  induction word generalizing pass i with
  | nil => rfl
  | cons ch word ih =>
      rw [readLoop, loop, Pass.iterate]
      simp only [Pass.ended, decide_eq_true_eq]
      split
      · rfl
      · cases pass.readChar i ch with
        | error fault => rfl
        | ok next => exact ih _ _

theorem readLoopInt_eq (pass : Pass) (i : Nat) (word : Str) :
    readLoopInt pass i word = loopUpTo Pass.ended Pass.iterate intMax .overflow pass i word := by
  induction word generalizing pass i with
  | nil => rfl
  | cons ch word ih =>
      rw [readLoopInt, loopUpTo, Pass.iterate]
      simp only [Pass.ended, decide_eq_true_eq]
      split
      · rfl
      · cases pass.readChar i ch with
        | error fault => rfl
        | ok next =>
            simp only [ok_bind]
            split
            · exact ih _ _
            · rfl

/-- The loop stops within its word, and before the end of it only when the message is finished. -/
theorem readLoop_bounds (outcome : readLoop pass i word = .ok (j, pass')) :
    i ≤ j ∧ j ≤ i + word.length ∧ (j = i + word.length ∨ pass'.src.state = .done) := by
  rw [readLoop_eq] at outcome
  simpa only [Pass.ended, decide_eq_true_eq] using loop_bounds outcome

theorem readLoopInt_eq_ok (inside : i ≤ intMax) :
    readLoopInt pass i word = .ok (j, pass') ↔
      readLoop pass i word = .ok (j, pass') ∧ j ≤ intMax := by
  rw [readLoopInt_eq, readLoop_eq]
  exact loopUpTo_eq_ok inside

theorem readLoop_of_readLoopInt (outcome : readLoopInt pass i word = .ok (j, pass')) :
    readLoop pass i word = .ok (j, pass') := by
  rw [readLoopInt_eq] at outcome
  rw [readLoop_eq]
  exact (loop_of_loopUpTo outcome).1

/-- With a byte of the word the loop gets to the last position there is, and the message is not
finished before it. -/
def OverflowsIn (pass : Pass) (i : Nat) (word : Str) : Prop :=
  ∃ front ch back pass', word = front ++ ch :: back ∧
    readLoop pass i front = .ok (intMax, pass') ∧ pass'.src.state ≠ .done

theorem passes_iff :
    Passes Pass.ended Pass.iterate intMax pass i word ↔ OverflowsIn pass i word := by
  simp only [Passes, OverflowsIn, readLoop_eq, Pass.ended, decide_eq_false_iff_not]

variable {reader : MessageSource11 × HttpMessage} {rbuf : Str}

theorem place_eq : (reader.1.buf ++ rbuf).length - rbuf.length = reader.1.buf.length := by
  simp

/-- How many bytes the reader keeps. -/
def buffered (reader : MessageSource11 × HttpMessage) : Nat := reader.1.buf.length

/-- `readInt` returns from a call exactly when `read` does and the positions have room. -/
theorem narrows : Narrows readInt read buffered intMax := by
  intro reader piece next count
  rw [buffered]
  by_cases empty : piece = []
  · simp [readInt, read, empty]
  · have total : (reader.1.buf ++ piece).length = reader.1.buf.length + piece.length :=
      List.length_append
    by_cases long : intMax < reader.1.buf.length
    · refine iff_of_false (by simp [readInt, empty, long]) ?_
      rintro ⟨-, room⟩
      exact absurd ((Nat.le_add_right _ _).trans (room empty)) (not_le.mpr long)
    · simp only [readInt, read, empty, if_false, long, place_eq]
      constructor
      · intro outcome
        obtain ⟨⟨j, pass⟩, loop_eq, outcome⟩ := bind_eq_ok.mp outcome
        obtain ⟨loop_eq', bound⟩ := (readLoopInt_eq_ok (not_lt.mp long)).mp loop_eq
        rw [loop_eq', ok_bind]
        refine ⟨outcome, fun _ => ?_⟩
        obtain ⟨msg, -, next_eq⟩ := bind_eq_ok.mp outcome
        have taken := (Prod.mk.inj (Except.ok.inj next_eq)).2
        obtain ⟨lower, upper, -⟩ := readLoop_bounds loop_eq'
        omega
      · rintro ⟨outcome, room⟩
        obtain ⟨⟨j, pass⟩, loop_eq, outcome⟩ := bind_eq_ok.mp outcome
        have bound : j ≤ intMax := by
          obtain ⟨msg, -, next_eq⟩ := bind_eq_ok.mp outcome
          have taken := (Prod.mk.inj (Except.ok.inj next_eq)).2
          obtain ⟨lower, upper, -⟩ := readLoop_bounds loop_eq
          have fits := room empty
          omega
        rw [(readLoopInt_eq_ok (not_lt.mp long)).mpr ⟨loop_eq, bound⟩, ok_bind]
        exact outcome

/-- What a byte does to the buffer, and to the start of the current line: where the message ends, no
byte of it is left. -/
def Pass.Moves (pass : Pass) (i : Nat) (next : Pass) : Prop :=
  next.src.buf = pass.src.buf ∧
    (next.src.state = .done → pass.src.state = .done ∨ next.pos = i + 1)

theorem Pass.endSize_moves (entity : pass.src.state = .entity)
    (outcome : pass.endSize i = .ok pass') : pass.Moves i pass' := by
  rw [Pass.endSize] at outcome
  split at outcome
  · cases outcome
    exact ⟨rfl, by simp [entity]⟩
  · obtain ⟨msg, -, outcome⟩ := bind_eq_ok.mp outcome
    obtain ⟨msg', -, next_eq⟩ := bind_eq_ok.mp outcome
    cases next_eq
    exact ⟨rfl, by simp [entity]⟩

theorem Pass.fixedChar_moves {ch : UInt8} (outcome : pass.fixedChar i ch = .ok pass') :
    pass.Moves i pass' := by
  rw [Pass.fixedChar] at outcome
  split at outcome
  · obtain ⟨msg₁, -, outcome⟩ := bind_eq_ok.mp outcome
    obtain ⟨msg₂, -, outcome⟩ := bind_eq_ok.mp outcome
    obtain ⟨msg₃, -, next_eq⟩ := bind_eq_ok.mp outcome
    cases next_eq
    exact ⟨rfl, fun _ => Or.inr rfl⟩
  · cases outcome
    exact ⟨rfl, fun _ => Or.inr rfl⟩

theorem Pass.chunkedChar_moves {ch : UInt8} (entity : pass.src.state = .entity)
    (outcome : pass.chunkedChar i ch = .ok pass') : pass.Moves i pass' := by
  simp only [Pass.chunkedChar] at outcome
  split at outcome
  · -- the digits of a size
    split at outcome
    · cases outcome
      exact ⟨rfl, fun _ => Or.inr rfl⟩
    · split at outcome
      · cases outcome
        exact ⟨rfl, fun _ => Or.inr rfl⟩
      · split at outcome
        · exact Pass.endSize_moves entity outcome
        · cases outcome
          exact ⟨rfl, fun _ => Or.inr rfl⟩
  · split at outcome
    · -- an extension behind it
      split at outcome
      · exact Pass.endSize_moves entity outcome
      · cases outcome
        exact ⟨rfl, fun _ => Or.inr rfl⟩
    · split at outcome
      · -- the data
        split at outcome
        · cases outcome
          exact ⟨rfl, fun _ => Or.inr rfl⟩
        · split at outcome
          all_goals
            cases outcome
            exact ⟨rfl, fun _ => Or.inr rfl⟩
      · -- the trailer
        split at outcome
        · split at outcome
          · split at outcome
            · obtain ⟨msg₁, -, next_eq⟩ := bind_eq_ok.mp outcome
              cases next_eq
              exact ⟨rfl, fun _ => Or.inr rfl⟩
            · obtain ⟨msg₁, -, next_eq⟩ := bind_eq_ok.mp outcome
              cases next_eq
              exact ⟨rfl, fun _ => Or.inr rfl⟩
          · cases outcome
            exact ⟨rfl, by simp [entity]⟩
        · cases outcome
          exact ⟨rfl, fun _ => Or.inr rfl⟩

theorem Pass.readChar_moves {ch : UInt8} (outcome : pass.readChar i ch = .ok pass') :
    pass.Moves i pass' := by
  unfold Pass.readChar at outcome
  cases state : pass.src.state with
  | firstLine =>
      simp only [state] at outcome
      split at outcome
      · split at outcome
        · cases outcome
          exact ⟨rfl, fun _ => Or.inr rfl⟩
        · cases outcome
          exact ⟨rfl, fun _ => Or.inr rfl⟩
      · cases outcome
        exact ⟨rfl, by simp [state]⟩
  | headers =>
      simp only [state] at outcome
      split at outcome
      · split at outcome
        · obtain ⟨⟨mode, msg⟩, -, next_eq⟩ := bind_eq_ok.mp outcome
          cases next_eq
          exact ⟨rfl, fun _ => Or.inr rfl⟩
        · obtain ⟨msg, -, outcome⟩ := bind_eq_ok.mp outcome
          split at outcome
          · obtain ⟨msg₁, -, outcome⟩ := bind_eq_ok.mp outcome
            obtain ⟨msg₂, -, next_eq⟩ := bind_eq_ok.mp outcome
            cases next_eq
            exact ⟨rfl, fun _ => Or.inr rfl⟩
          · cases outcome
            exact ⟨rfl, fun _ => Or.inr rfl⟩
      · cases outcome
        exact ⟨rfl, by simp [state]⟩
  | entity =>
      simp only [state] at outcome
      split at outcome
      · exact Pass.fixedChar_moves outcome
      · exact Pass.chunkedChar_moves state outcome
  | done =>
      simp only [state] at outcome
      cases outcome
      exact ⟨rfl, fun _ => Or.inl state⟩

/-- A loop leaves the buffer alone, and where it finishes the message, the start of the current line
is where it stops. -/
theorem readLoop_moves (open_ : pass.src.state ≠ .done)
    (outcome : readLoop pass i word = .ok (j, pass')) :
    pass'.src.buf = pass.src.buf ∧ (pass'.src.state = .done → pass'.pos = j) := by
  rw [readLoop_eq] at outcome
  refine loop_invariant (P := fun j next =>
    next.src.buf = pass.src.buf ∧ (next.src.state = .done → next.pos = j)) ?_ outcome
    ⟨rfl, fun ended => absurd ended open_⟩
  intro middle next i ch going step_eq here
  obtain ⟨read, char_eq, next_eq⟩ := bind_eq_ok.mp step_eq
  cases next_eq
  obtain ⟨same, moves⟩ := Pass.readChar_moves char_eq
  refine ⟨same.trans here.1, fun ended => (moves ended).resolve_left ?_⟩
  simpa [Pass.ended] using going

/-- The pass with which a call begins. -/
def opened (reader : MessageSource11 × HttpMessage) (rbuf : Str) : Pass :=
  { src := { reader.1 with buf := reader.1.buf ++ rbuf }, msg := reader.2 }

/-- A call for which the positions do not suffice: the buffer is longer than they count already, or
a byte of the message lies at the last one. -/
def Overflows (reader : MessageSource11 × HttpMessage) (rbuf : Str) : Prop :=
  rbuf ≠ [] ∧ intMax < reader.1.buf.length ∨
    OverflowsIn (opened reader rbuf) reader.1.buf.length rbuf

/-- From a call for which the positions do not suffice `readInt` does not return. -/
theorem not_overflows {result : (MessageSource11 × HttpMessage) × Nat}
    (outcome : readInt reader rbuf = .ok result) : ¬Overflows reader rbuf := by
  intro overflows
  by_cases empty : rbuf = []
  · obtain ⟨some, -⟩ | ⟨front, ch, back, -, shape, -⟩ := overflows
    · exact some empty
    · rw [empty] at shape
      exact absurd shape.symm (by simp)
  · simp only [readInt, empty, if_false, place_eq] at outcome
    split at outcome
    · cases outcome
    · rename_i short
      obtain ⟨⟨j, pass⟩, loop_eq, -⟩ := bind_eq_ok.mp outcome
      obtain ⟨loop_eq', bound⟩ := (readLoopInt_eq_ok (not_lt.mp short)).mp loop_eq
      obtain ⟨-, long⟩ | passes := overflows
      · exact short long
      · rw [readLoop_eq] at loop_eq'
        have beyond := (passes_of_loop (not_lt.mp short) loop_eq').mp (passes_iff.mpr passes)
        omega

/-- Where `readInt` fails, its positions do not suffice, or `read` fails as well. -/
theorem readInt_error {fault : Fault} (outcome : readInt reader rbuf = .error fault) :
    fault = .overflow ∧ Overflows reader rbuf ∨ read reader rbuf = .error fault := by
  by_cases empty : rbuf = []
  · simp [readInt, empty] at outcome
  · simp only [readInt, read, empty, if_false, place_eq] at outcome ⊢
    split at outcome
    · rename_i long
      cases outcome
      exact Or.inl ⟨rfl, Or.inl ⟨empty, long⟩⟩
    · rename_i short
      cases loop_eq : readLoopInt { src := { reader.1 with buf := reader.1.buf ++ rbuf }
                                    msg := reader.2 } reader.1.buf.length rbuf with
      | error fault' =>
          rw [loop_eq, error_bind] at outcome
          cases outcome
          rw [readLoopInt_eq] at loop_eq
          obtain ⟨same, passes⟩ | failed := loopUpTo_error (not_lt.mp short) loop_eq
          · exact Or.inl ⟨same, Or.inr (passes_iff.mp passes)⟩
          · rw [readLoop_eq, failed]
            exact Or.inr rfl
      | ok result =>
          obtain ⟨j, pass⟩ := result
          rw [((readLoopInt_eq_ok (not_lt.mp short)).mp loop_eq).1]
          rw [loop_eq] at outcome
          exact Or.inr outcome

end MessageSource11

/-! ## GNY -/

namespace MessageSourceGny

/-- The message is finished. -/
def ended (reader : MessageSourceGny × HttpMessage) : Bool := reader.1.state = .done

/-- One iteration of the reading loop. -/
def iterate (reader : MessageSourceGny × HttpMessage) (i : Nat) (ch : UInt8) :
    Except Fault (MessageSourceGny × HttpMessage) := reader.1.readChar reader.2 i ch

variable {src src' : MessageSourceGny} {msg msg' : HttpMessage} {i j : Nat} {word : Str}

theorem readLoop_eq (src : MessageSourceGny) (msg : HttpMessage) (i : Nat) (word : Str) :
    readLoop src msg i word = loop ended iterate (src, msg) i word := by
  induction word generalizing src msg i with
  | nil => rfl
  | cons ch word ih =>
      rw [readLoop, loop, iterate]
      simp only [ended, decide_eq_true_eq]
      split
      · rfl
      · cases src.readChar msg i ch with
        | error fault => rfl
        | ok next => exact ih _ _ _

theorem readLoopInt_eq (src : MessageSourceGny) (msg : HttpMessage) (i : Nat) (word : Str) :
    readLoopInt src msg i word = loopUpTo ended iterate intMax .overflow (src, msg) i word := by
  induction word generalizing src msg i with
  | nil => rfl
  | cons ch word ih =>
      rw [readLoopInt, loopUpTo, iterate]
      simp only [ended, decide_eq_true_eq]
      split
      · rfl
      · cases src.readChar msg i ch with
        | error fault => rfl
        | ok next =>
            by_cases more : i < intMax
            · simp only [more, if_true]
              exact ih _ _ _
            · simp only [more, if_false]

/-- The loop stops within its word, and before the end of it only when the message is finished. -/
theorem readLoop_bounds (outcome : readLoop src msg i word = .ok (j, src', msg')) :
    i ≤ j ∧ j ≤ i + word.length ∧ (j = i + word.length ∨ src'.state = .done) := by
  rw [readLoop_eq] at outcome
  simpa only [ended, decide_eq_true_eq] using loop_bounds outcome

theorem readLoopInt_eq_ok (inside : i ≤ intMax) :
    readLoopInt src msg i word = .ok (j, src', msg') ↔
      readLoop src msg i word = .ok (j, src', msg') ∧ j ≤ intMax := by
  rw [readLoopInt_eq, readLoop_eq]
  exact loopUpTo_eq_ok inside

theorem readLoop_of_readLoopInt (outcome : readLoopInt src msg i word = .ok (j, src', msg')) :
    readLoop src msg i word = .ok (j, src', msg') := by
  rw [readLoopInt_eq] at outcome
  rw [readLoop_eq]
  exact (loop_of_loopUpTo outcome).1

/-- With a byte of the word the loop gets to the last position there is, and the message is not
finished before it. -/
def OverflowsIn (src : MessageSourceGny) (msg : HttpMessage) (i : Nat) (word : Str) : Prop :=
  ∃ front ch back src' msg', word = front ++ ch :: back ∧
    readLoop src msg i front = .ok (intMax, src', msg') ∧ src'.state ≠ .done

theorem passes_iff :
    Passes ended iterate intMax (src, msg) i word ↔ OverflowsIn src msg i word := by
  simp only [Passes, OverflowsIn, readLoop_eq, ended, decide_eq_false_iff_not, Prod.exists]

/-- What every byte keeps, a loop keeps. -/
theorem readLoop_invariant {P : Nat → MessageSourceGny → Prop}
    (keeps : ∀ {src src' msg msg' i ch}, src.state ≠ .done →
      src.readChar msg i ch = .ok (src', msg') → P i src → P (i + 1) src')
    (outcome : readLoop src msg i word = .ok (j, src', msg')) (start : P i src) : P j src' := by
  rw [readLoop_eq] at outcome
  refine loop_invariant (P := fun i reader => P i reader.1) ?_ outcome start
  intro reader next i ch open_ step_eq here
  exact keeps (by simpa [ended] using open_) step_eq here

/-- What a byte does to the buffer, to the start of the current field, which it moves behind itself
or leaves, and to what is left of a piece of entity. -/
theorem readChar_moves {ch : UInt8} (outcome : src.readChar msg i ch = .ok (src', msg')) :
    src'.dataStream = src.dataStream ∧
      (src'.pos = i + 1 ∨ src'.pos = src.pos ∧ src'.state ≠ .initVerb ∧
        src'.state ≠ .headerStart ∧ (src'.state = .done → src.state = .done)) ∧
      ((src.state = .entity → 0 < src.substate) → src'.state = .entity → 0 < src'.substate) := by
  unfold readChar at outcome
  cases state : src.state with
  | initVerb =>
      simp only [state] at outcome
      cases outcome
      exact ⟨rfl, Or.inl rfl, by simp⟩
  | initUrl =>
      simp only [state] at outcome
      split at outcome
      · obtain ⟨url, -, next_eq⟩ := bind_eq_ok.mp outcome
        cases next_eq
        exact ⟨rfl, Or.inl rfl, by simp⟩
      · cases outcome
        exact ⟨rfl, Or.inr ⟨rfl, by simp [state]⟩, by simp [state]⟩
  | initStatus =>
      simp only [state] at outcome
      split at outcome
      · cases outcome
        exact ⟨rfl, Or.inl rfl, by simp⟩
      · cases outcome
        exact ⟨rfl, Or.inr ⟨rfl, by simp [state]⟩, by simp [state]⟩
  | headerStart =>
      simp only [state] at outcome
      split at outcome
      · split at outcome
        all_goals
          obtain ⟨msg₁, -, next_eq⟩ := bind_eq_ok.mp outcome
          cases next_eq
          exact ⟨rfl, Or.inl rfl, by simp⟩
      · split at outcome
        all_goals
          cases outcome
          exact ⟨rfl, Or.inl rfl, by simp⟩
  | headerKey =>
      simp only [state] at outcome
      split at outcome
      · cases outcome
        exact ⟨rfl, Or.inr ⟨rfl, by simp⟩, by simp⟩
      · cases outcome
        exact ⟨rfl, Or.inr ⟨rfl, by simp [state]⟩, by simp [state]⟩
  | headerValue =>
      simp only [state] at outcome
      split at outcome
      · split at outcome
        all_goals
          obtain ⟨key, -, outcome⟩ := bind_eq_ok.mp outcome
          obtain ⟨value, -, outcome⟩ := bind_eq_ok.mp outcome
          obtain ⟨msg₁, -, next_eq⟩ := bind_eq_ok.mp outcome
          cases next_eq
          exact ⟨rfl, Or.inl rfl, by simp⟩
      · cases outcome
        exact ⟨rfl, Or.inr ⟨rfl, by simp [state]⟩, by simp [state]⟩
  | entityStart =>
      simp only [state] at outcome
      split at outcome
      · split at outcome
        · rename_i size
          cases outcome
          exact ⟨rfl, Or.inl rfl, fun _ _ => Nat.pos_of_ne_zero size⟩
        · obtain ⟨msg₁, -, next_eq⟩ := bind_eq_ok.mp outcome
          cases next_eq
          exact ⟨rfl, Or.inl rfl, by simp⟩
      · cases outcome
        exact ⟨rfl, Or.inr ⟨rfl, by simp [state]⟩, by simp [state]⟩
  | entity =>
      simp only [state] at outcome
      split at outcome
      · obtain ⟨msg₁, -, next_eq⟩ := bind_eq_ok.mp outcome
        cases next_eq
        exact ⟨rfl, Or.inl rfl, by simp⟩
      · rename_i more
        cases outcome
        exact ⟨rfl, Or.inr ⟨rfl, by simp⟩, fun _ _ => Nat.pos_of_ne_zero more⟩
  | done =>
      simp only [state] at outcome
      cases outcome
      exact ⟨rfl, Or.inr ⟨rfl, by simp [state]⟩, by simp [state]⟩

/-- A loop leaves the buffer alone. -/
theorem dataStream_of_readLoop (outcome : readLoop src msg i word = .ok (j, src', msg')) :
    src'.dataStream = src.dataStream :=
  readLoop_invariant (P := fun _ reader => reader.dataStream = src.dataStream)
    (fun _ char_eq same => (readChar_moves char_eq).1.trans same) outcome rfl

/-- The flush leaves the buffer alone. -/
theorem dataStream_of_flushEntity (outcome : src.flushEntity msg = .ok (src', msg')) :
    src'.dataStream = src.dataStream := by
  rw [flushEntity] at outcome
  split at outcome
  · obtain ⟨_, -, next_eq⟩ := bind_eq_ok.mp outcome
    cases next_eq
    rfl
  · cases outcome
    rfl

variable {reader : MessageSourceGny × HttpMessage} {rbuf : Str}

theorem place_eq :
    (reader.1.dataStream ++ rbuf).length - rbuf.length = reader.1.dataStream.length := by
  simp

/-- How many bytes the reader keeps. -/
def buffered (reader : MessageSourceGny × HttpMessage) : Nat := reader.1.dataStream.length

/-- `readInt` returns from a call exactly when `read` does and the positions have room. -/
theorem narrows : Narrows readInt read buffered intMax := by
  intro reader piece next count
  rw [buffered]
  by_cases empty : piece = []
  · simp [readInt, read, empty]
  · have total : (reader.1.dataStream ++ piece).length =
        reader.1.dataStream.length + piece.length := List.length_append
    -- Where the loop stops is what the call takes, behind what was kept.
    have stops {j : Nat} {src src' : MessageSourceGny} {msg msg' : HttpMessage}
        (loop_eq : readLoop { reader.1 with dataStream := reader.1.dataStream ++ piece } reader.2
          reader.1.dataStream.length piece = .ok (j, src, msg))
        (flush_eq : src.flushEntity msg = .ok (src', msg')) :
        reader.1.dataStream.length + (piece.length - (src'.dataStream.length - j)) = j := by
      rw [dataStream_of_flushEntity flush_eq, dataStream_of_readLoop loop_eq]
      obtain ⟨lower, upper, -⟩ := readLoop_bounds loop_eq
      simp only
      omega
    by_cases long : intMax < reader.1.dataStream.length
    · refine iff_of_false (by simp [readInt, empty, long]) ?_
      rintro ⟨-, room⟩
      exact absurd ((Nat.le_add_right _ _).trans (room empty)) (not_le.mpr long)
    · simp only [readInt, read, empty, if_false, long, place_eq]
      constructor
      · intro outcome
        obtain ⟨⟨j, src, msg⟩, loop_eq, outcome⟩ := bind_eq_ok.mp outcome
        obtain ⟨loop_eq', bound⟩ := (readLoopInt_eq_ok (not_lt.mp long)).mp loop_eq
        rw [loop_eq', ok_bind]
        refine ⟨outcome, fun _ => ?_⟩
        obtain ⟨⟨src', msg'⟩, flush_eq, next_eq⟩ := bind_eq_ok.mp outcome
        cases next_eq
        exact (stops loop_eq' flush_eq).trans_le bound
      · rintro ⟨outcome, room⟩
        obtain ⟨⟨j, src, msg⟩, loop_eq, outcome⟩ := bind_eq_ok.mp outcome
        obtain ⟨⟨src', msg'⟩, flush_eq, next_eq⟩ := bind_eq_ok.mp outcome
        cases next_eq
        have bound : j ≤ intMax := (stops loop_eq flush_eq).symm.trans_le (room empty)
        rw [(readLoopInt_eq_ok (not_lt.mp long)).mpr ⟨loop_eq, bound⟩, ok_bind]
        exact outcome

/-- The reader with which the loop of a call begins. -/
def opened (src : MessageSourceGny) (rbuf : Str) : MessageSourceGny :=
  { src with dataStream := src.dataStream ++ rbuf }

/-- A call for which the positions do not suffice: the buffer is longer than they count already, or
a byte of the message lies at the last one. -/
def Overflows (reader : MessageSourceGny × HttpMessage) (rbuf : Str) : Prop :=
  rbuf ≠ [] ∧ intMax < reader.1.dataStream.length ∨
    OverflowsIn (reader.1.opened rbuf) reader.2 reader.1.dataStream.length rbuf

/-- From a call for which the positions do not suffice `readInt` does not return. -/
theorem not_overflows {result : (MessageSourceGny × HttpMessage) × Nat}
    (outcome : readInt reader rbuf = .ok result) : ¬Overflows reader rbuf := by
  intro overflows
  by_cases empty : rbuf = []
  · obtain ⟨some, -⟩ | ⟨front, ch, back, -, -, shape, -⟩ := overflows
    · exact some empty
    · rw [empty] at shape
      exact absurd shape.symm (by simp)
  · simp only [readInt, empty, if_false, place_eq] at outcome
    split at outcome
    · cases outcome
    · rename_i short
      obtain ⟨⟨j, src, msg⟩, loop_eq, -⟩ := bind_eq_ok.mp outcome
      obtain ⟨loop_eq', bound⟩ := (readLoopInt_eq_ok (not_lt.mp short)).mp loop_eq
      obtain ⟨-, long⟩ | passes := overflows
      · exact short long
      · rw [readLoop_eq] at loop_eq'
        have beyond := (passes_of_loop (not_lt.mp short) loop_eq').mp (passes_iff.mpr passes)
        omega

/-- Where `readInt` fails, its positions do not suffice, or `read` fails as well. -/
theorem readInt_error {fault : Fault} (outcome : readInt reader rbuf = .error fault) :
    fault = .overflow ∧ Overflows reader rbuf ∨ read reader rbuf = .error fault := by
  by_cases empty : rbuf = []
  · simp [readInt, empty] at outcome
  · simp only [readInt, read, empty, if_false, place_eq] at outcome ⊢
    split at outcome
    · rename_i long
      cases outcome
      exact Or.inl ⟨rfl, Or.inl ⟨empty, long⟩⟩
    · rename_i short
      cases loop_eq : readLoopInt { reader.1 with dataStream := reader.1.dataStream ++ rbuf }
          reader.2 reader.1.dataStream.length rbuf with
      | error fault' =>
          rw [loop_eq, error_bind] at outcome
          cases outcome
          rw [readLoopInt_eq] at loop_eq
          obtain ⟨same, passes⟩ | failed := loopUpTo_error (not_lt.mp short) loop_eq
          · exact Or.inl ⟨same, Or.inr (passes_iff.mp passes)⟩
          · rw [readLoop_eq, failed]
            exact Or.inr rfl
      | ok result =>
          obtain ⟨j, src, msg⟩ := result
          rw [((readLoopInt_eq_ok (not_lt.mp short)).mp loop_eq).1]
          rw [loop_eq] at outcome
          exact Or.inr outcome

end MessageSourceGny
end GnyProxy
