import GnyProxy.GnyChunking
import GnyProxy.Positions

/-!
# Readers in step with their messages

A message asserts the order of its parts, and a reader that drives it from the bytes of a peer has
to keep to that order whatever the bytes are.  Both readers do: after every byte the state of the
message is the one that belongs to the state of the reader.
-/

namespace GnyProxy

open Incremental

/-- A reader and its message between two calls: pieces of the stream have been read, and what the
message held may have been taken out of it. -/
inductive Fed {ρ : Type*} (read : ρ × HttpMessage → Str → Except Fault ((ρ × HttpMessage) × Nat))
    (start : ρ × HttpMessage) : ρ × HttpMessage → Prop
  | start : Fed read start start
  | read {reader next : ρ × HttpMessage} {rbuf : Str} {count : Nat} :
      Fed read start reader → read reader rbuf = .ok (next, count) → Fed read start next
  | drained {src : ρ} {msg msg' : HttpMessage} :
      Fed read start (src, msg) → msg'.state = msg.state → Fed read start (src, msg')

/-- What every call keeps, whatever is taken out of the message, holds between any two calls. -/
theorem Fed.invariant {ρ : Type*}
    {read : ρ × HttpMessage → Str → Except Fault ((ρ × HttpMessage) × Nat)}
    {start reader : ρ × HttpMessage} {P : ρ → MessageState → Prop} (fed : Fed read start reader)
    (begins : P start.1 start.2.state)
    (keeps : ∀ {reader next : ρ × HttpMessage} {rbuf count}, P reader.1 reader.2.state →
      read reader rbuf = .ok (next, count) → P next.1 next.2.state) :
    P reader.1 reader.2.state := by
  induction fed with
  | start => exact begins
  | read _ outcome ih => exact keeps ih outcome
  | drained _ same ih =>
      rw [same]
      exact ih

/-! ## HTTP/1.1 -/

namespace MessageSource11

/-- The state of the message that belongs to a state of the reader: a chunked entity ends in its
trailer. -/
def section_ (src : MessageSource11) : MessageState :=
  match src.state with
  | .firstLine | .headers => .header
  | .entity => if ¬0 < src.entityMode ∧ src.entityState1 = 3 then .footer else .entity
  | .done => .done

/-- Within a call: bytes are gathered for the message only while it takes an entity. -/
structure Pass.InStep (pass : Pass) : Prop where
  state : pass.msg.state = section_ pass.src
  entity : pass.entity ≠ [] → pass.msg.state = .entity

variable {pass : Pass} {i : Nat} {ch : UInt8}

namespace Pass

theorem InStep.passed (inStep : pass.InStep) (ch : UInt8) :
    Pass.InStep { pass with src := { pass.src with last := ch } } :=
  ⟨inStep.state, inStep.entity⟩

/-- Outside the entity nothing is gathered. -/
theorem InStep.entity_eq_nil (inStep : pass.InStep) (other : section_ pass.src ≠ .entity) :
    pass.entity = [] := by
  by_contra gathered
  exact other (inStep.state.symm.trans (inStep.entity gathered))

theorem endSize_inStep (inStep : pass.InStep) (entity : pass.src.state = .entity)
    (mode : ¬0 < pass.src.entityMode) (other : pass.src.entityState1 ≠ 3) :
    ∃ pass', pass.endSize i = .ok pass' ∧ pass'.InStep := by
  have state : pass.msg.state = .entity := by
    rw [inStep.state]
    simp [section_, entity, other]
  by_cases zero : pass.src.entityState2 = 0
  · simp only [endSize, zero, ne_eq, not_true_eq_false, if_false, HttpMessage.appendEntity, state,
      if_true, ok_bind, HttpMessage.endEntity, MessageState.rank_entity, le_rfl]
    refine ⟨_, rfl, ?_, ?_⟩
    · simp [section_, entity, mode]
    · simp
  · simp only [endSize, ne_eq, zero, not_false_iff, if_true]
    refine ⟨_, rfl, ?_, ?_⟩
    · simp [section_, entity, state]
    · intro _
      exact state

theorem fixedChar_inStep (inStep : pass.InStep) (entity : pass.src.state = .entity)
    (mode : 0 < pass.src.entityMode) :
    ∃ pass', pass.fixedChar i ch = .ok pass' ∧ pass'.InStep := by
  have state : pass.msg.state = .entity := by
    rw [inStep.state]
    simp [section_, entity, mode]
  by_cases last : pass.src.entityMode - 1 = 0
  · simp only [fixedChar, last, if_true, HttpMessage.appendEntity, HttpMessage.endEntity,
      HttpMessage.endFooter, state, ok_bind, MessageState.rank_entity, MessageState.rank_footer,
      le_rfl]
    refine ⟨_, rfl, ?_, ?_⟩
    · simp [section_]
    · simp
  · have many : ¬pass.src.entityMode ≤ 1 := by omega
    simp only [fixedChar, last, if_false]
    refine ⟨_, rfl, ?_, ?_⟩
    · simp [section_, entity, state, many]
    · intro _
      exact state

/-- In a chunk, its size or its line end. -/
theorem inStep_chunk (entity : pass.src.state = .entity) (state : pass.msg.state = .entity)
    {entityState1 : Nat} (other : entityState1 ≠ 3) (entityState2 : BitVec 64) (pos : Nat)
    (gathered : Str) :
    Pass.InStep { pass with src := { pass.src with entityState1, entityState2 }
                            pos, entity := gathered } := by
  constructor
  · simp [section_, entity, state, other]
  · intro _
    exact state

theorem chunkedChar_inStep (inStep : pass.InStep) (entity : pass.src.state = .entity)
    (mode : ¬0 < pass.src.entityMode) :
    ∃ pass', pass.chunkedChar i ch = .ok pass' ∧ pass'.InStep := by
  by_cases trailer : pass.src.entityState1 = 3
  · have footer : pass.msg.state = .footer := by
      rw [inStep.state]
      simp [section_, entity, mode, trailer]
    have nothing : pass.entity = [] := inStep.entity_eq_nil (by
      rw [← inStep.state, footer]
      decide)
    simp only [chunkedChar, trailer, OfNat.ofNat_ne_zero, OfNat.ofNat_ne_one, Nat.reduceEqDiff,
      if_false, if_true]
    split
    · split
      · simp only [HttpMessage.endFooter, footer, MessageState.rank_footer, le_rfl, if_true,
          ok_bind]
        refine ⟨_, rfl, ?_, ?_⟩
        · simp [section_]
        · simp [nothing]
      · rcases parseFooter_ok footer (pass.line i) with ⟨next, parsed, footer'⟩
        rw [parsed, ok_bind]
        refine ⟨_, rfl, ?_, ?_⟩
        · simp [section_, entity, mode, trailer, footer']
        · simp [nothing]
    · exact ⟨_, rfl, inStep⟩
  · have state : pass.msg.state = .entity := by
      rw [inStep.state]
      simp [section_, entity, trailer]
    have same (pos : Nat) : Pass.InStep { pass with pos } := ⟨inStep.state, inStep.entity⟩
    simp only [chunkedChar, trailer, if_false]
    split
    · split
      · exact ⟨_, rfl, inStep_chunk entity state trailer _ _ _⟩
      · split
        · exact ⟨_, rfl, inStep_chunk entity state (by decide) _ _ _⟩
        · split
          · exact endSize_inStep inStep entity mode trailer
          · exact ⟨_, rfl, same _⟩
    · split
      · split
        · exact endSize_inStep inStep entity mode trailer
        · exact ⟨_, rfl, same _⟩
      · split
        · split
          · exact ⟨_, rfl, inStep_chunk entity state trailer _ _ _⟩
          · split
            · exact ⟨_, rfl, inStep_chunk entity state (by decide) _ _ _⟩
            · exact ⟨_, rfl, same _⟩
        · exact ⟨_, rfl, same _⟩

/-- No byte breaks the step. -/
theorem readChar_inStep (inStep : pass.InStep) :
    ∃ pass', pass.readChar i ch = .ok pass' ∧ pass'.InStep := by
  cases state : pass.src.state with
  | firstLine =>
      have header : pass.msg.state = .header := by rw [inStep.state, section_, state]
      have nothing : pass.entity = [] := inStep.entity_eq_nil (by
        rw [← inStep.state, header]
        decide)
      simp only [readChar, state]
      split
      · split
        · exact ⟨_, rfl, inStep.state, inStep.entity⟩
        · refine ⟨_, rfl, ?_, ?_⟩
          · simp [section_, header]
          · simp [nothing]
      · exact ⟨_, rfl, inStep⟩
  | headers =>
      have header : pass.msg.state = .header := by rw [inStep.state, section_, state]
      have nothing : pass.entity = [] := inStep.entity_eq_nil (by
        rw [← inStep.state, header]
        decide)
      simp only [readChar, state]
      split
      · split
        · rcases parseHeader_ok header pass.src.entityMode (pass.line i) with
            ⟨mode, next, parsed, header'⟩
          rw [parsed, ok_bind]
          refine ⟨_, rfl, ?_, ?_⟩
          · simp [section_, header']
          · simp [nothing]
        · simp only [HttpMessage.endHeader, header, MessageState.rank_header, le_rfl, if_true,
            ok_bind]
          split
          · simp only [HttpMessage.endEntity, HttpMessage.endFooter, MessageState.rank_entity,
              MessageState.rank_footer, le_rfl, if_true, ok_bind]
            refine ⟨_, rfl, ?_, ?_⟩
            · simp [section_]
            · simp [nothing]
          · refine ⟨_, rfl, ?_, ?_⟩
            · simp [section_]
            · simp
      · exact ⟨_, rfl, inStep⟩
  | entity =>
      simp only [readChar, state]
      split
      · rename_i mode
        exact fixedChar_inStep inStep state mode
      · rename_i mode
        exact chunkedChar_inStep inStep state mode
  | done =>
      simp only [readChar, state]
      exact ⟨_, rfl, inStep⟩

end Pass

/-- Reading a word is reading its front and then its back. -/
theorem readLoop_append (pass : Pass) (i : Nat) (front back : Str) :
    readLoop pass i (front ++ back) =
      readLoop pass i front >>= fun (i, pass) => readLoop pass i back := by
  simp only [readLoop_eq, loop_append]
  cases loop Pass.ended Pass.iterate pass i front <;> rfl

/-- The loop gets through any word, and takes a byte unless the message is finished. -/
theorem readLoop_inStep (inStep : pass.InStep) (word : Str) :
    ∃ j pass', readLoop pass i word = .ok (j, pass') ∧ pass'.InStep ∧ i ≤ j ∧
      j ≤ i + word.length ∧ (word ≠ [] → pass.src.state ≠ .done → i < j) := by
  induction word generalizing pass i with
  | nil => exact ⟨i, pass, rfl, inStep, le_rfl, le_rfl, fun nonempty => absurd rfl nonempty⟩
  | cons ch word ih =>
      by_cases ended : pass.src.state = .done
      · exact ⟨i, pass, by rw [readLoop, if_pos ended], inStep, le_rfl, Nat.le_add_right _ _,
          fun _ open_ => absurd ended open_⟩
      · rcases @Pass.readChar_inStep pass i ch inStep with ⟨next, char_eq, inStep'⟩
        rcases @ih _ (i + 1) (inStep'.passed ch) with ⟨j, last, loop_eq, inStep'', lower, upper, -⟩
        refine ⟨j, last, ?_, inStep'', by omega, ?_, fun _ _ => by omega⟩
        · rw [readLoop, if_neg ended, char_eq]
          exact loop_eq
        · rw [List.length_cons]
          omega

/-- A call takes at least one of the bytes there are, and keeps the step. -/
theorem read_inStep {reader : MessageSource11 × HttpMessage}
    (inStep : reader.2.state = section_ reader.1) (rbuf : Str) :
    ∃ next count, read reader rbuf = .ok (next, count) ∧ next.2.state = section_ next.1 ∧
      count ≤ rbuf.length ∧ (rbuf ≠ [] → reader.2.state ≠ .done → 1 ≤ count) := by
  by_cases empty : rbuf = []
  · exact ⟨reader, 0, by simp [read, empty], inStep, Nat.zero_le _, fun some => absurd empty some⟩
  · have begins : (opened reader rbuf).InStep := ⟨inStep, fun gathered => absurd rfl gathered⟩
    rcases @readLoop_inStep (opened reader rbuf)
      ((reader.1.buf ++ rbuf).length - rbuf.length) begins rbuf with
      ⟨j, pass, loop_eq, inStep', lower, upper, further⟩
    have flushed : ∃ msg, pass.flushEntity = .ok msg ∧ msg.state = pass.msg.state := by
      rw [Pass.flushEntity]
      split
      · rename_i gathered
        rw [HttpMessage.appendEntity, if_pos (inStep'.entity gathered)]
        exact ⟨_, rfl, rfl⟩
      · exact ⟨_, rfl, rfl⟩
    rcases flushed with ⟨msg, flush_eq, state⟩
    have rebased : section_ pass.rebase = section_ pass.src := by
      rw [Pass.rebase]
      split <;> rfl
    have unfinished (open_ : reader.2.state ≠ .done) : reader.1.state ≠ .done := by
      intro ended
      rw [inStep, section_, ended] at open_
      exact open_ rfl
    refine ⟨(pass.rebase, msg), rbuf.length - ((reader.1.buf ++ rbuf).length - j), ?_, ?_, ?_, ?_⟩
    · rw [opened] at loop_eq
      simp only [read, empty, if_false, loop_eq, ok_bind, flush_eq]
    · rw [rebased, state, inStep'.state]
    · exact Nat.sub_le _ _
    · intro some open_
      have taken := further some (unfinished open_)
      have positive := List.length_pos_iff.mpr some
      rw [List.length_append] at taken ⊢
      omega

end MessageSource11

/-! ## GNY -/

namespace MessageSourceGny

/-- The states of the message that belong to a state of the reader.  The headers and the footers
are read in the same states. -/
def Fits (state : GnyState) (section_ : MessageState) : Prop :=
  match state with
  | .initVerb | .initUrl | .initStatus => section_ = .header
  | .headerStart | .headerKey | .headerValue => section_ = .header ∨ section_ = .footer
  | .entityStart | .entity => section_ = .entity
  | .done => section_ = .done

/-- Within a call, at position `i` of the buffer. -/
structure InStep (src : MessageSourceGny) (msg : HttpMessage) (i : Nat) : Prop where
  fits : Fits src.state msg.state
  started : src.pos ≤ i
  inside : i ≤ src.dataStream.length

/-- The byte ends a value, and the reader then looks beyond the table of names for its code, or
beyond the buffer for its text: the position of a value that has its own key is not moved when the
buffer is re-based. -/
def Strays (src : MessageSourceGny) (ch : UInt8) : Prop :=
  src.state = .headerValue ∧ ch = 0 ∧
    if src.key = headerUnknown then src.dataStream.length < src.substate
    else headertoa src.key = none

variable {src : MessageSourceGny} {msg : HttpMessage} {i : Nat} {ch : UInt8}

theorem cStringAt_ok {data : Str} {pos : Nat} (inside : pos ≤ data.length) :
    cStringAt data pos = .ok (cStr (data.drop pos)) := by
  rw [cStringAt, if_pos inside]

theorem cStringAt_beyond {data : Str} {pos : Nat} (beyond : data.length < pos) :
    cStringAt data pos = .error .outOfBounds := by
  rw [cStringAt, if_neg (not_le.mpr beyond)]

/-- No byte breaks the step, unless the reader strays. -/
theorem readChar_inStep (inStep : InStep src msg i) (below : i < src.dataStream.length)
    (stays : ¬Strays src ch) :
    ∃ src' msg', src.readChar msg i ch = .ok (src', msg') ∧ InStep src' msg' (i + 1) ∧
      src'.dataStream = src.dataStream := by
  obtain ⟨fits, started, inside⟩ := inStep
  have pos : src.pos ≤ src.dataStream.length := started.trans inside
  cases state : src.state with
  | initVerb =>
      rw [state] at fits
      simp only [readChar, state]
      exact ⟨_, _, rfl, ⟨fits, le_rfl, below⟩, rfl⟩
  | initUrl =>
      rw [state] at fits
      simp only [readChar, state]
      split
      · rw [cStringAt_ok pos, ok_bind]
        exact ⟨_, _, rfl, ⟨Or.inl fits, le_rfl, below⟩, rfl⟩
      · exact ⟨_, _, rfl, ⟨by rwa [state], by omega, below⟩, rfl⟩
  | initStatus =>
      rw [state] at fits
      simp only [readChar, state]
      split
      · exact ⟨_, _, rfl, ⟨Or.inl fits, le_rfl, below⟩, rfl⟩
      · exact ⟨_, _, rfl, ⟨by rwa [state], by omega, below⟩, rfl⟩
  | headerStart =>
      rw [state] at fits
      simp only [readChar, state]
      split
      · split
        · rename_i header
          simp only [HttpMessage.endHeader, header, MessageState.rank_header, le_rfl, if_true,
            ok_bind]
          exact ⟨_, _, rfl, ⟨rfl, le_rfl, below⟩, rfl⟩
        · rename_i other
          have footer : msg.state = .footer := fits.resolve_left other
          simp only [HttpMessage.endFooter, footer, MessageState.rank_footer, le_rfl, if_true,
            ok_bind]
          exact ⟨_, _, rfl, ⟨rfl, le_rfl, below⟩, rfl⟩
      · split
        · exact ⟨_, _, rfl, ⟨fits, le_rfl, below⟩, rfl⟩
        · exact ⟨_, _, rfl, ⟨fits, le_rfl, below⟩, rfl⟩
  | headerKey =>
      rw [state] at fits
      simp only [readChar, state]
      split
      · exact ⟨_, _, rfl, ⟨fits, by simp only; omega, below⟩, rfl⟩
      · exact ⟨_, _, rfl, ⟨by rwa [state], by omega, below⟩, rfl⟩
  | headerValue =>
      rw [state] at fits
      simp only [readChar, state]
      split
      · rename_i nul
        split
        · rename_i unknown
          have reached : src.substate ≤ src.dataStream.length := by
            by_contra beyond
            exact stays ⟨state, nul, by rw [if_pos unknown]; omega⟩
          rcases GnyDecoder.addField_ok fits (cStr (src.dataStream.drop src.pos))
            (cStr (src.dataStream.drop src.substate)) with ⟨next, added, same⟩
          simp only [cStringAt_ok pos, cStringAt_ok reached, ok_bind, added]
          exact ⟨_, _, rfl, ⟨by rwa [Fits, same], le_rfl, below⟩, rfl⟩
        · rename_i known
          have named : ∃ name, headertoa src.key = some name := by
            rw [← Option.ne_none_iff_exists']
            intro none
            exact stays ⟨state, nul, by rwa [if_neg known]⟩
          rcases named with ⟨name, named⟩
          rcases GnyDecoder.addField_ok fits name (cStr (src.dataStream.drop src.pos)) with
            ⟨next, added, same⟩
          simp only [headerName, named, cStringAt_ok pos, ok_bind, added]
          exact ⟨_, _, rfl, ⟨by rwa [Fits, same], le_rfl, below⟩, rfl⟩
      · exact ⟨_, _, rfl, ⟨by rwa [state], by omega, below⟩, rfl⟩
  | entityStart =>
      have entity : msg.state = .entity := by rwa [state] at fits
      simp only [readChar, state]
      split
      · split
        · exact ⟨_, _, rfl, ⟨entity, le_rfl, below⟩, rfl⟩
        · simp only [HttpMessage.endEntity, entity, MessageState.rank_entity, le_rfl, if_true,
            ok_bind]
          exact ⟨_, _, rfl, ⟨Or.inr rfl, le_rfl, below⟩, rfl⟩
      · exact ⟨_, _, rfl, ⟨by rwa [state], by omega, below⟩, rfl⟩
  | entity =>
      have entity : msg.state = .entity := by rwa [state] at fits
      simp only [readChar, state]
      split
      · simp only [HttpMessage.appendEntity, entity, if_true, ok_bind]
        exact ⟨_, _, rfl, ⟨rfl, le_rfl, below⟩, rfl⟩
      · exact ⟨_, _, rfl, ⟨by simpa [state] using fits, by simp only; omega, below⟩, rfl⟩
  | done =>
      simp only [readChar, state]
      exact ⟨_, _, rfl, ⟨fits, by omega, below⟩, rfl⟩

/-- A reader that strays reads out of bounds. -/
theorem readChar_strays (pos : src.pos ≤ src.dataStream.length) (strays : Strays src ch) :
    src.readChar msg i ch = .error .outOfBounds := by
  rcases strays with ⟨state, nul, beyond⟩
  simp only [readChar, state, nul, if_true]
  by_cases unknown : src.key = headerUnknown
  · rw [if_pos unknown] at beyond
    simp only [unknown, if_true, cStringAt_ok pos, ok_bind, cStringAt_beyond beyond, error_bind]
  · rw [if_neg unknown] at beyond
    simp only [unknown, if_false, headerName, beyond, error_bind]

/-- Reading a word is reading its front and then its back. -/
theorem readLoop_append (src : MessageSourceGny) (msg : HttpMessage) (i : Nat) (front back : Str) :
    readLoop src msg i (front ++ back) =
      readLoop src msg i front >>= fun (i, src, msg) => readLoop src msg i back := by
  simp only [readLoop_eq, loop_append]
  cases loop ended iterate (src, msg) i front <;> rfl

/-- Some byte of the word makes the reader stray. -/
def StraysIn (src : MessageSourceGny) (msg : HttpMessage) (i : Nat) (word : Str) : Prop :=
  ∃ front ch back j src' msg', word = front ++ ch :: back ∧
    readLoop src msg i front = .ok (j, src', msg') ∧ Strays src' ch

/-- The loop gets through a word and takes a byte of it, unless the message is finished, or else
the reader strays in it. -/
theorem readLoop_inStep {word : Str} (inStep : InStep src msg i)
    (room : i + word.length ≤ src.dataStream.length) :
    (∃ j src' msg', readLoop src msg i word = .ok (j, src', msg') ∧ InStep src' msg' j ∧
        src'.dataStream = src.dataStream ∧ (word ≠ [] → src.state ≠ .done → i < j) ∧ i ≤ j) ∨
      readLoop src msg i word = .error .outOfBounds ∧ StraysIn src msg i word := by
  induction word generalizing src msg i with
  | nil => exact Or.inl ⟨i, src, msg, rfl, inStep, rfl, fun some => absurd rfl some, le_rfl⟩
  | cons ch word ih =>
      rw [List.length_cons] at room
      by_cases ended : src.state = .done
      · exact Or.inl ⟨i, src, msg, by rw [readLoop, if_pos ended], inStep, rfl,
          fun _ open_ => absurd ended open_, le_rfl⟩
      · by_cases strays : Strays src ch
        · right
          constructor
          · rw [readLoop, if_neg ended,
              readChar_strays (inStep.started.trans inStep.inside) strays]
          · exact ⟨[], ch, word, i, src, msg, rfl, rfl, strays⟩
        · rcases readChar_inStep inStep (by omega) strays with ⟨next, msg₁, char_eq, inStep', same⟩
          have step (rest : Str) :
              readLoop src msg i (ch :: rest) = readLoop next msg₁ (i + 1) rest := by
            rw [readLoop, if_neg ended, char_eq]
          rw [step word]
          rcases ih inStep' (by rw [same]; omega) with
            ⟨j, src', msg', loop_eq, inStep'', same', -, lower⟩ | ⟨loop_eq, beyond⟩
          · exact Or.inl ⟨j, src', msg', loop_eq, inStep'', same'.trans same,
              fun _ _ => by omega, by omega⟩
          · rcases beyond with ⟨front, byte, back, j, src', msg', shape, front_eq, strays'⟩
            refine Or.inr ⟨loop_eq, ch :: front, byte, back, j, src', msg', ?_, ?_, strays'⟩
            · rw [shape, List.cons_append]
            · rw [step front, front_eq]

/-- Where the reader strays in a word, it does not get through it. -/
theorem readLoop_of_strays {word : Str} (inStep : InStep src msg i)
    (room : i + word.length ≤ src.dataStream.length) (strays : StraysIn src msg i word) :
    readLoop src msg i word = .error .outOfBounds := by
  rcases strays with ⟨front, ch, back, j, src', msg', rfl, front_eq, strays⟩
  rw [List.length_append] at room
  have within : i + front.length ≤ src.dataStream.length := by omega
  rcases readLoop_inStep inStep within with
    ⟨j', src₁, msg₁, front_eq', inStep', -⟩ | ⟨failed, -⟩
  · obtain ⟨rfl, rfl, rfl⟩ : j = j' ∧ src' = src₁ ∧ msg' = msg₁ := by
      simpa using front_eq.symm.trans front_eq'
    have open_ : src'.state ≠ .done := by
      rw [strays.1]
      decide
    rw [readLoop_append, front_eq, ok_bind]
    simp only [readLoop, if_neg open_,
      readChar_strays (inStep'.started.trans inStep'.inside) strays]
  · cases front_eq.symm.trans failed

/-- What holds between two calls. -/
def Settled (src : MessageSourceGny) (section_ : MessageState) : Prop :=
  Fits src.state section_ ∧ src.pos ≤ src.dataStream.length

theorem Settled.inStep (settled : Settled src msg.state) (rbuf : Str) :
    InStep (src.opened rbuf) msg src.dataStream.length :=
  ⟨settled.1, settled.2, by simp [opened]⟩

/-- The correspondence at the end of a message. -/
theorem Fits.done_iff {state : GnyState} {section_ : MessageState} (fits : Fits state section_) :
    state = .done ↔ section_ = .done := by
  cases state <;> simp_all [Fits]
  all_goals
    rcases fits with rfl | rfl <;> decide

/-- A call takes at least one of the bytes there are, and keeps the step, unless the reader
strays. -/
theorem read_inStep {reader : MessageSourceGny × HttpMessage}
    (settled : Settled reader.1 reader.2.state) (rbuf : Str) :
    (∃ next count, read reader rbuf = .ok (next, count) ∧ Settled next.1 next.2.state ∧
        count ≤ rbuf.length ∧ (rbuf ≠ [] → reader.2.state ≠ .done → 1 ≤ count) ∧
        ¬StraysIn (reader.1.opened rbuf) reader.2 reader.1.dataStream.length rbuf) ∨
      read reader rbuf = .error .outOfBounds ∧
        StraysIn (reader.1.opened rbuf) reader.2 reader.1.dataStream.length rbuf := by
  have begins := settled.inStep rbuf
  have room : reader.1.dataStream.length + rbuf.length ≤
      (reader.1.opened rbuf).dataStream.length := by
    simp [opened]
  by_cases empty : rbuf = []
  · refine Or.inl ⟨reader, 0, by simp [read, empty], settled, Nat.zero_le _,
      fun some => absurd empty some, ?_⟩
    rintro ⟨front, ch, back, -, -, -, shape, -⟩
    rw [empty] at shape
    exact absurd shape.symm (by simp)
  · rcases readLoop_inStep begins room with
      ⟨j, src, msg, loop_eq, inStep, same, taken, lower⟩ | ⟨failed, strays⟩
    · have flushed : ∃ src' msg', src.flushEntity msg = .ok (src', msg') ∧
          Fits src'.state msg'.state ∧ src'.pos ≤ src'.dataStream.length ∧
            src'.dataStream = src.dataStream := by
        rw [flushEntity]
        split
        · rename_i entity
          have state : msg.state = .entity := by
            have fits := inStep.fits
            rwa [entity] at fits
          rw [HttpMessage.appendEntity, if_pos state, ok_bind]
          exact ⟨_, _, rfl, inStep.fits, le_rfl, rfl⟩
        · exact ⟨_, _, rfl, inStep.fits, inStep.started.trans inStep.inside, rfl⟩
      rcases flushed with ⟨src', msg', flush_eq, fits, pos, same'⟩
      have rebased : Settled src'.rebase msg'.state := by
        rw [rebase]
        split
        · exact ⟨fits, Nat.zero_le _⟩
        · exact ⟨fits, pos⟩
      refine Or.inl ⟨(src'.rebase, msg'),
        rbuf.length - ((reader.1.dataStream ++ rbuf).length - j), ?_, rebased, Nat.sub_le _ _,
        ?_, ?_⟩
      · rw [opened] at loop_eq
        have length : src'.dataStream.length = (reader.1.dataStream ++ rbuf).length := by
          rw [same', same, opened]
        simp only [read, empty, if_false, place_eq, loop_eq, ok_bind, flush_eq, length]
      · intro some open_
        have further := taken some fun ended => open_ (settled.1.done_iff.mp ended)
        have positive := List.length_pos_iff.mpr some
        rw [List.length_append]
        omega
      · intro strays
        cases loop_eq.symm.trans (readLoop_of_strays begins room strays)
    · right
      refine ⟨?_, strays⟩
      rw [opened] at failed
      simp only [read, empty, if_false, place_eq, failed, error_bind]

end MessageSourceGny

/-! ## Both readers -/

namespace MessageSource11

/-- A call keeps the step and takes a byte, unless the positions do not suffice for it. -/
theorem readInt_inStep {reader : MessageSource11 × HttpMessage}
    (inStep : reader.2.state = section_ reader.1) (rbuf : Str) :
    (∃ next count, readInt reader rbuf = .ok (next, count) ∧ next.2.state = section_ next.1 ∧
        count ≤ rbuf.length ∧ (rbuf ≠ [] → reader.2.state ≠ .done → 1 ≤ count) ∧
        ¬Overflows reader rbuf) ∨
      readInt reader rbuf = .error .overflow ∧ Overflows reader rbuf := by
  rcases read_inStep inStep rbuf with ⟨next, count, read_eq, after, atMost, taken⟩
  cases outcome : readInt reader rbuf with
  | ok result =>
      have same : result = (next, count) :=
        Except.ok.inj (((narrows _ _ _ _).mp outcome).1.symm.trans read_eq)
      rw [same]
      exact Or.inl ⟨next, count, rfl, after, atMost, taken, not_overflows outcome⟩
  | error fault =>
      rcases readInt_error outcome with ⟨rfl, overflows⟩ | failed
      · exact Or.inr ⟨rfl, overflows⟩
      · cases failed.symm.trans read_eq

end MessageSource11

namespace MessageSourceGny

/-- A call keeps the step and takes a byte, unless the positions do not suffice for it or the
reader strays. -/
theorem readInt_inStep {reader : MessageSourceGny × HttpMessage}
    (settled : Settled reader.1 reader.2.state) (rbuf : Str) :
    (∃ next count, readInt reader rbuf = .ok (next, count) ∧ Settled next.1 next.2.state ∧
        count ≤ rbuf.length ∧ (rbuf ≠ [] → reader.2.state ≠ .done → 1 ≤ count) ∧
        ¬Overflows reader rbuf ∧
        ¬StraysIn (reader.1.opened rbuf) reader.2 reader.1.dataStream.length rbuf) ∨
      readInt reader rbuf = .error .overflow ∧ Overflows reader rbuf ∨
      readInt reader rbuf = .error .outOfBounds ∧
        StraysIn (reader.1.opened rbuf) reader.2 reader.1.dataStream.length rbuf := by
  cases outcome : readInt reader rbuf with
  | ok result =>
      have room := not_overflows outcome
      rcases read_inStep settled rbuf with
        ⟨next, count, read_eq, after, atMost, taken, stays⟩ | ⟨failed, -⟩
      · have same : result = (next, count) :=
          Except.ok.inj (((narrows _ _ _ _).mp outcome).1.symm.trans read_eq)
        rw [same]
        exact Or.inl ⟨next, count, rfl, after, atMost, taken, room, stays⟩
      · cases failed.symm.trans ((narrows _ _ _ _).mp outcome).1
  | error fault =>
      rcases readInt_error outcome with ⟨rfl, overflows⟩ | failed
      · exact Or.inr (Or.inl ⟨rfl, overflows⟩)
      · rcases read_inStep settled rbuf with ⟨next, count, read_eq, -⟩ | ⟨failed', strays⟩
        · cases failed.symm.trans read_eq
        · cases failed.symm.trans failed'
          exact Or.inr (Or.inr ⟨rfl, strays⟩)

/-- What is left of a piece of entity is never counted down from zero: `substate` is positive in
it. -/
def Left (src : MessageSourceGny) : Prop := src.state = .entity → 0 < src.substate

theorem left_of_readLoop {src src' : MessageSourceGny} {msg msg' : HttpMessage} {i j : Nat}
    {word : Str} (outcome : readLoop src msg i word = .ok (j, src', msg')) (left : Left src) :
    Left src' :=
  readLoop_invariant (P := fun _ src => Left src)
    (fun _ char_eq left => (readChar_moves char_eq).2.2 left) outcome left

theorem left_of_read {reader next : MessageSourceGny × HttpMessage} {rbuf : Str} {count : Nat}
    (outcome : read reader rbuf = .ok (next, count)) (left : Left reader.1) : Left next.1 := by
  simp only [read] at outcome
  split at outcome
  · cases outcome
    exact left
  · obtain ⟨⟨j, src, msg⟩, loop_eq, outcome⟩ := bind_eq_ok.mp outcome
    obtain ⟨⟨src', msg'⟩, flush_eq, next_eq⟩ := bind_eq_ok.mp outcome
    have behind : Left src := left_of_readLoop loop_eq left
    have flushed : Left src' := by
      rw [flushEntity] at flush_eq
      split at flush_eq
      · obtain ⟨_, -, src_eq⟩ := bind_eq_ok.mp flush_eq
        cases src_eq
        exact behind
      · cases flush_eq
        exact behind
    cases next_eq
    rw [rebase]
    split <;> exact flushed

end MessageSourceGny

open MessageSource11 MessageSourceGny in
/-- Between any two calls and after every byte of a call the state of the message is that of the
reader, no assertion of the message fails, and a call with bytes to read takes one unless the
message is finished.  The HTTP/1.1 reader returns exactly from those calls for which its positions
suffice, the GNY reader from those of them in which it does not stray. -/
theorem readers_inStep (isRequest : Bool) :
    (∀ reader, Fed MessageSource11.readInt ({}, .fresh isRequest) reader →
      reader.2.state = section_ reader.1 ∧ ∀ rbuf,
        (∀ front back, rbuf = front ++ back → ∀ j pass,
          MessageSource11.readLoopInt (MessageSource11.opened reader rbuf) reader.1.buf.length
              front =
            .ok (j, pass) → pass.msg.state = section_ pass.src) ∧
        MessageSource11.readInt reader rbuf ≠ .error .assertion ∧
        ((∃ next count, MessageSource11.readInt reader rbuf = .ok (next, count) ∧
            count ≤ rbuf.length ∧ (rbuf ≠ [] → reader.2.state ≠ .done → 1 ≤ count)) ↔
          ¬MessageSource11.Overflows reader rbuf)) ∧
    ∀ reader, Fed MessageSourceGny.readInt (.create isRequest, .fresh isRequest) reader →
      Fits reader.1.state reader.2.state ∧ Left reader.1 ∧ ∀ rbuf,
        (∀ front back, rbuf = front ++ back → ∀ j src msg,
          MessageSourceGny.readLoopInt (reader.1.opened rbuf) reader.2
              reader.1.dataStream.length front =
            .ok (j, src, msg) → Fits src.state msg.state ∧ Left src) ∧
        MessageSourceGny.readInt reader rbuf ≠ .error .assertion ∧
        ((∃ next count, MessageSourceGny.readInt reader rbuf = .ok (next, count) ∧
            count ≤ rbuf.length ∧ (rbuf ≠ [] → reader.2.state ≠ .done → 1 ≤ count)) ↔
          ¬MessageSourceGny.Overflows reader rbuf ∧
            ¬StraysIn (reader.1.opened rbuf) reader.2 reader.1.dataStream.length rbuf) := by
  constructor
  · intro reader fed
    have inStep : reader.2.state = section_ reader.1 :=
      fed.invariant (P := fun src state => state = section_ src) rfl fun before outcome => by
        rcases MessageSource11.readInt_inStep before _ with
          ⟨next', count', outcome', after, -⟩ | ⟨failed, -⟩
        · cases outcome.symm.trans outcome'
          exact after
        · cases outcome.symm.trans failed
    refine ⟨inStep, fun rbuf => ⟨fun front back shape j pass loop_eq => ?_, ?_, ?_⟩⟩
    · have begins : (MessageSource11.opened reader rbuf).InStep :=
        ⟨inStep, fun gathered => absurd rfl gathered⟩
      rcases MessageSource11.readLoop_inStep begins front with ⟨j', pass', loop_eq', inStep', -⟩
      cases (MessageSource11.readLoop_of_readLoopInt loop_eq).symm.trans loop_eq'
      exact inStep'.state
    · rcases MessageSource11.readInt_inStep inStep rbuf with
        ⟨next, count, outcome, -⟩ | ⟨failed, -⟩
      · simp [outcome]
      · simp [failed]
    · rcases MessageSource11.readInt_inStep inStep rbuf with
        ⟨next, count, outcome, -, atMost, taken, room⟩ | ⟨failed, overflows⟩
      · exact iff_of_true ⟨next, count, outcome, atMost, taken⟩ room
      · refine iff_of_false ?_ fun room => room overflows
        rintro ⟨next, count, outcome, -⟩
        cases outcome.symm.trans failed
  · intro reader fed
    have settled : Settled reader.1 reader.2.state ∧ Left reader.1 := by
      refine fed.invariant (P := fun src state => Settled src state ∧ Left src) ?_
        fun ⟨before, left⟩ outcome => ?_
      · cases isRequest <;> exact ⟨⟨rfl, le_rfl⟩, nofun⟩
      · rcases MessageSourceGny.readInt_inStep before _ with
          ⟨next', count', outcome', after, -⟩ | ⟨failed, -⟩ | ⟨failed, -⟩
        · cases outcome.symm.trans outcome'
          exact ⟨after, left_of_read ((MessageSourceGny.narrows _ _ _ _).mp outcome).1 left⟩
        · cases outcome.symm.trans failed
        · cases outcome.symm.trans failed
    obtain ⟨settled, left⟩ := settled
    refine ⟨settled.1, left, fun rbuf => ⟨fun front back shape j src msg loop_eq => ?_, ?_, ?_⟩⟩
    · have loop_eq := MessageSourceGny.readLoop_of_readLoopInt loop_eq
      have room : reader.1.dataStream.length + front.length ≤
          (reader.1.opened rbuf).dataStream.length := by
        simp [MessageSourceGny.opened, shape]
      rcases MessageSourceGny.readLoop_inStep (settled.inStep rbuf) room with
        ⟨j', src', msg', loop_eq', inStep, -⟩ | ⟨failed, -⟩
      · cases loop_eq.symm.trans loop_eq'
        exact ⟨inStep.fits, left_of_readLoop loop_eq left⟩
      · cases loop_eq.symm.trans failed
    · rcases MessageSourceGny.readInt_inStep settled rbuf with
        ⟨next, count, outcome, -⟩ | ⟨failed, -⟩ | ⟨failed, -⟩
      · simp [outcome]
      · simp [failed]
      · simp [failed]
    · rcases MessageSourceGny.readInt_inStep settled rbuf with
        ⟨next, count, outcome, -, atMost, taken, room, stays⟩ | ⟨failed, overflows⟩ |
          ⟨failed, strays⟩
      · exact iff_of_true ⟨next, count, outcome, atMost, taken⟩ ⟨room, stays⟩
      · refine iff_of_false ?_ fun ⟨room, _⟩ => room overflows
        rintro ⟨next, count, outcome, -⟩
        cases outcome.symm.trans failed
      · refine iff_of_false ?_ fun ⟨_, stays⟩ => stays strays
        rintro ⟨next, count, outcome, -⟩
        cases outcome.symm.trans failed

/-- A first piece of a request, and one of a response in GNY. -/
theorem readers_inStep_start :
    ¬MessageSource11.Overflows ({}, .fresh true) (ascii "GET") ∧
    ¬MessageSourceGny.Overflows (.create true, .fresh true) [2, 47] ∧
    ¬MessageSourceGny.StraysIn ((MessageSourceGny.create true).opened [2, 47]) (.fresh true) 0
      [2, 47] :=
  ⟨(((readers_inStep true).1 _ .start).2 (ascii "GET")).2.2.mp
      ⟨_, 3, rfl, by decide, by decide⟩,
    (((readers_inStep true).2 _ .start).2.2 [2, 47]).2.2.mp
      ⟨_, 2, rfl, by decide, by decide⟩⟩

/-- A response with a header under the code 200 makes the GNY reader look beyond the table. -/
theorem read_strays :
    Fed MessageSourceGny.readInt (.create false, .fresh false) (.create false, .fresh false) ∧
      MessageSourceGny.readInt (.create false, .fresh false) [0, 200, 200, 120, 0] =
        .error .outOfBounds ∧
      ¬∃ next count, MessageSourceGny.readInt (.create false, .fresh false)
        [0, 200, 200, 120, 0] = .ok (next, count) ∧ 1 ≤ count := by
  have strays : MessageSourceGny.readInt (.create false, .fresh false) [0, 200, 200, 120, 0] =
      .error .outOfBounds := by rfl
  refine ⟨.start, strays, ?_⟩
  rintro ⟨next, count, outcome, -⟩
  cases strays.symm.trans outcome

end GnyProxy
