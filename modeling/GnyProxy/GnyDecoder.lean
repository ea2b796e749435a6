import GnyProxy.Incremental
import GnyProxy.MessageSourceGny

/-!
# The GNY wire grammar as an automaton

What the GNY reader does to a stream, without buffer, positions or cuts: the decoder keeps the
bytes of the unfinished field themselves.  The second half shows that one read of the reader is a
run of the decoder over the piece that was read, as long as the position of a value is right.
-/

namespace GnyProxy

open Incremental

namespace GnyDecoder

/-- How far a GNY message has been decoded, with the bytes of the unfinished field. -/
inductive Phase where
  | verb
  | url (field : Str)
  | status (field : Str)
  | flag
  /-- The key of a field under `HEADER_UNKNOWN`. -/
  | literalKey (field : Str)
  /-- The value of a field under `HEADER_UNKNOWN`. -/
  | literalValue (key field : Str)
  /-- The value of a field whose key is a table code. -/
  | tableValue (header : UInt8) (field : Str)
  | size (field : Str)
  | piece (left : Nat)
  | done
  deriving DecidableEq, Repr

end GnyDecoder

/-- A phase of the wire format together with the message decoded so far. -/
structure GnyDecoder where
  phase : GnyDecoder.Phase
  msg : HttpMessage
  deriving DecidableEq

namespace GnyDecoder

/-- The decoder of a message of which nothing has been read. -/
def fresh (isRequest : Bool) : GnyDecoder :=
  { phase := if isRequest then .verb else .status [], msg := .fresh isRequest }

/-- Decode one byte.  A flag above `HEADER_END` names no header. -/
def step (dec : GnyDecoder) (ch : UInt8) : Except Fault GnyDecoder :=
  match dec.phase with
  | .verb => .ok ⟨.url [], dec.msg.setVerb ch⟩
  | .url field =>
      if ch = 0 then .ok ⟨.flag, dec.msg.setUrl field⟩ else .ok ⟨.url (field ++ [ch]), dec.msg⟩
  | .status field =>
      if field.length = 1 then
        .ok ⟨.flag, dec.msg.setStatus (readShort (field ++ [ch]) 0)⟩
      else
        .ok ⟨.status (field ++ [ch]), dec.msg⟩
  | .flag =>
      if ch = headerEnd then
        if dec.msg.state = .header then do
          let msg ← dec.msg.endHeader
          .ok ⟨.size [], msg⟩
        else do
          let msg ← dec.msg.endFooter
          .ok ⟨.done, msg⟩
      else if ch = headerUnknown then
        .ok ⟨.literalKey [], dec.msg⟩
      else if ch < headerUnknown then
        .ok ⟨.tableValue ch [], dec.msg⟩
      else
        .error .outOfBounds
  | .literalKey field =>
      if ch = 0 then .ok ⟨.literalValue field [], dec.msg⟩
      else .ok ⟨.literalKey (field ++ [ch]), dec.msg⟩
  | .literalValue key field =>
      if ch = 0 then do
        let msg ← dec.msg.addField key field
        .ok ⟨.flag, msg⟩
      else
        .ok ⟨.literalValue key (field ++ [ch]), dec.msg⟩
  | .tableValue header field =>
      if ch = 0 then do
        let key ← headerName header
        let msg ← dec.msg.addField key field
        .ok ⟨.flag, msg⟩
      else
        .ok ⟨.tableValue header (field ++ [ch]), dec.msg⟩
  | .size field =>
      if field.length = 1 then
        let size := readShort (field ++ [ch]) 0
        if size ≠ 0 then
          .ok ⟨.piece size, dec.msg⟩
        else do
          let msg ← dec.msg.endEntity
          .ok ⟨.flag, msg⟩
      else
        .ok ⟨.size (field ++ [ch]), dec.msg⟩
  | .piece left => do
      let msg ← dec.msg.appendEntity [ch]
      .ok ⟨if left = 1 then .size [] else .piece (left - 1), msg⟩
  | .done => .ok dec

/-- The decoder as an automaton that stops at the end of its message. -/
def automaton : Automaton GnyDecoder UInt8 Fault where
  step := step
  final dec := dec.phase = .done

/-- The byte ends the value of a field under `HEADER_UNKNOWN`. -/
def completesLiteral (dec : GnyDecoder) (ch : UInt8) : Bool :=
  match dec.phase with
  | .literalValue _ _ => ch = 0
  | _ => false

/-! ### What the decoder makes of the parts of the format -/

theorem reads_literalKey {msg : HttpMessage} {field key : Str} (nulFree : 0 ∉ key) :
    automaton.Reads ⟨.literalKey field, msg⟩ (key ++ [0])
      ⟨.literalValue (field ++ key) [], msg⟩ := by
  induction key generalizing field with
  | nil => exact .single rfl (by simp [automaton, step])
  | cons ch key ih =>
      simp only [List.mem_cons, not_or] at nulFree
      have plain : ch ≠ 0 := fun equality => nulFree.1 equality.symm
      refine .into ⟨.literalKey (field ++ [ch]), msg⟩ rfl (by simp [automaton, step, plain]) ?_
      simpa using @ih (field ++ [ch]) nulFree.2

/-- A flag `HEADER_UNKNOWN` and the key behind it. -/
theorem reads_unknown_key {msg : HttpMessage} {key : Str} (nulFree : 0 ∉ key) :
    automaton.Reads ⟨.flag, msg⟩ (headerUnknown :: key ++ [0]) ⟨.literalValue key [], msg⟩ :=
  .into ⟨.literalKey [], msg⟩ rfl (by simp [automaton, step, headerUnknown, headerEnd])
    (reads_literalKey nulFree)

/-- A message read up to the value of a field under `HEADER_UNKNOWN` ends in the flag, the key and
what has arrived of the value. -/
theorem literalValue_history {isRequest : Bool} {word key field : Str} {msg : HttpMessage}
    (reads : automaton.Reads (fresh isRequest) word ⟨.literalValue key field, msg⟩) :
    ∃ front, word = front ++ (headerUnknown :: key ++ [0]) ++ field ∧ front ≠ [] ∧
      automaton.Reads (fresh isRequest) front ⟨.flag, msg⟩ ∧ 0 ∉ key ∧ 0 ∉ field := by
  have shape := reads.history (P := fun word dec =>
    match dec.phase with
    | .literalKey field =>
        ∃ front, word = front ++ headerUnknown :: field ∧
          automaton.Reads (fresh isRequest) front ⟨.flag, dec.msg⟩ ∧ 0 ∉ field
    | .literalValue key field =>
        ∃ front, word = front ++ (headerUnknown :: key ++ [0]) ++ field ∧
          automaton.Reads (fresh isRequest) front ⟨.flag, dec.msg⟩ ∧ 0 ∉ key ∧ 0 ∉ field
    | _ => True) (by cases isRequest <;> trivial) ?_
  · obtain ⟨front, word_eq, before, keyFree, nulFree⟩ := shape
    refine ⟨front, word_eq, ?_, before, keyFree, nulFree⟩
    rintro rfl
    cases isRequest <;> cases before
  · intro front middle ch next before holds step_eq
    obtain ⟨phase, msg⟩ := middle
    change step ⟨phase, msg⟩ ch = .ok next at step_eq
    cases phase with
    | flag =>
        simp only [step] at step_eq
        split at step_eq
        · split at step_eq
          · obtain ⟨_, -, next_eq⟩ := bind_eq_ok.mp step_eq
            cases next_eq
            trivial
          · obtain ⟨_, -, next_eq⟩ := bind_eq_ok.mp step_eq
            cases next_eq
            trivial
        · split at step_eq
          · rename_i unknown
            cases step_eq
            exact ⟨front, by rw [unknown], before, by simp⟩
          · split at step_eq <;> cases step_eq
            trivial
    | literalKey field =>
        obtain ⟨start, rfl, flagged, nulFree⟩ := holds
        simp only [step] at step_eq
        split at step_eq
        · rename_i nul
          cases step_eq
          exact ⟨start, by simp [nul], flagged, nulFree, by simp⟩
        · rename_i plain
          cases step_eq
          exact ⟨start, by simp, flagged, by
            simpa [nulFree] using fun equality => plain equality.symm⟩
    | literalValue key field =>
        obtain ⟨start, rfl, flagged, keyFree, nulFree⟩ := holds
        simp only [step] at step_eq
        split at step_eq
        · obtain ⟨_, -, next_eq⟩ := bind_eq_ok.mp step_eq
          cases next_eq
          trivial
        · rename_i plain
          cases step_eq
          exact ⟨start, by simp, flagged, keyFree, by
            simpa [nulFree] using fun equality => plain equality.symm⟩
    | verb | done =>
        cases step_eq
        trivial
    | url field | status field =>
        simp only [step] at step_eq
        split at step_eq <;> cases step_eq <;> trivial
    | tableValue header field =>
        simp only [step] at step_eq
        split at step_eq
        · obtain ⟨_, -, step_eq⟩ := bind_eq_ok.mp step_eq
          obtain ⟨_, -, next_eq⟩ := bind_eq_ok.mp step_eq
          cases next_eq
          trivial
        · cases step_eq
          trivial
    | size field =>
        simp only [step] at step_eq
        split at step_eq
        · split at step_eq
          · cases step_eq
            trivial
          · obtain ⟨_, -, next_eq⟩ := bind_eq_ok.mp step_eq
            cases next_eq
            trivial
        · cases step_eq
          trivial
    | piece left =>
        obtain ⟨_, -, next_eq⟩ := bind_eq_ok.mp step_eq
        cases next_eq
        by_cases last : left = 1 <;> simp [last]

end GnyDecoder

/-! ## The reader's positions -/

namespace MessageSourceGny

/-- The bytes of the buffer from the start of the current field up to position `i`. -/
def field (src : MessageSourceGny) (i : Nat) : Str := segment src.dataStream src.pos i

/-- A NUL-free field that ends in a NUL is what the reader finds at its start. -/
theorem cStringAt_field (front : Str) {src : MessageSourceGny} {i : Nat} {value rest : Str}
    (started : src.pos ≤ i) (inside : i ≤ src.dataStream.length)
    (field : src.field i = front ++ value) (nulFree : 0 ∉ value)
    (tail : src.dataStream.drop i = 0 :: rest) :
    cStringAt src.dataStream (src.pos + front.length) = .ok value := by
  have whole : src.field i ++ src.dataStream.drop i = src.dataStream.drop src.pos :=
    segment_append_drop started inside
  have length : (src.field i).length = i - src.pos := length_segment inside
  rw [field, List.length_append] at length
  have there : src.dataStream.drop (src.pos + front.length) = value ++ 0 :: rest := by
    rw [← List.drop_drop, ← whole, field, tail, List.append_assoc, List.drop_left]
  rw [cStringAt, if_pos (by omega), there, cStr_append_nul nulFree]

/-- The two bytes of a short are those of the field that they make up. -/
theorem readShort_field {src : MessageSourceGny} {i : Nat} {ch : UInt8} {rest : Str}
    (started : src.pos + 1 = i) (tail : src.dataStream.drop i = ch :: rest) :
    readShort src.dataStream src.pos = readShort (src.field i ++ [ch]) 0 := by
  have inside := lt_length_of_drop_eq_cons tail
  have whole : src.field i ++ src.dataStream.drop i = src.dataStream.drop src.pos :=
    segment_append_drop (by omega) inside.le
  have length : (src.field i).length = i - src.pos := length_segment inside.le
  obtain ⟨first, field⟩ := List.length_eq_one_iff.mp (by omega : (src.field i).length = 1)
  rw [field, tail] at whole
  have at_pos : src.dataStream.getD src.pos 0 = first := by
    rw [List.getD_eq_getElem?_getD, ← List.head?_drop, ← whole]
    rfl
  have at_next : src.dataStream.getD (src.pos + 1) 0 = ch := by
    rw [List.getD_eq_getElem?_getD, ← List.head?_drop, ← List.drop_drop, ← whole]
    rfl
  simp only [readShort, at_pos, at_next, field]
  rfl

end MessageSourceGny

/-! ## The simulation -/

/-- The reader at position `i` of its buffer has decoded what the decoder has.  If `valued` holds,
the position kept for the value of a field with its own key is right. -/
def GnySim (valued : Prop) (src : MessageSourceGny) (msg : HttpMessage) (i : Nat)
    (dec : GnyDecoder) : Prop :=
  src.pos ≤ i ∧ i ≤ src.dataStream.length ∧
    match dec.phase with
    | .verb => src.state = .initVerb ∧ dec.msg = msg
    | .url field => src.state = .initUrl ∧ dec.msg = msg ∧ src.field i = field ∧ 0 ∉ field
    | .status field =>
        src.state = .initStatus ∧ dec.msg = msg ∧ src.field i = field ∧ field.length ≤ 1
    | .flag => src.state = .headerStart ∧ dec.msg = msg
    | .literalKey field =>
        src.state = .headerKey ∧ dec.msg = msg ∧ src.key = headerUnknown ∧
          src.field i = field ∧ 0 ∉ field
    | .literalValue key field =>
        src.state = .headerValue ∧ dec.msg = msg ∧ src.key = headerUnknown ∧
          src.field i = key ++ 0 :: field ∧ 0 ∉ key ∧ 0 ∉ field ∧
          (valued → src.substate = src.pos + key.length + 1)
    | .tableValue header field =>
        src.state = .headerValue ∧ dec.msg = msg ∧ src.key = header ∧ header ≠ headerUnknown ∧
          src.field i = field ∧ 0 ∉ field
    | .size field =>
        src.state = .entityStart ∧ dec.msg = msg ∧ msg.state = .entity ∧
          src.field i = field ∧ field.length ≤ 1
    | .piece left =>
        src.state = .entity ∧ dec.msg = { msg with entity := msg.entity ++ src.field i } ∧
          msg.state = .entity ∧ src.substate = left ∧ 0 < left
    | .done => src.state = .done ∧ dec.msg = msg

namespace GnySim

variable {valued : Prop} {src : MessageSourceGny} {msg : HttpMessage} {i : Nat}

theorem start (isRequest : Bool) (valued : Prop) (dataStream : Str) :
    GnySim valued { MessageSourceGny.create isRequest with dataStream } (.fresh isRequest) 0
      (.fresh isRequest) := by
  cases isRequest <;> simp [GnySim, GnyDecoder.fresh, MessageSourceGny.create,
    MessageSourceGny.field]

/-- What is known of the position kept for a value may be forgotten or supplied. -/
theorem revalue {valued' : Prop} {dec : GnyDecoder} (sim : GnySim valued src msg i dec)
    (right : valued' → ∀ key field, dec.phase = .literalValue key field →
      src.substate = src.pos + key.length + 1) : GnySim valued' src msg i dec := by
  obtain ⟨phase, decoded⟩ := dec
  obtain ⟨started, inside, sim⟩ := sim
  cases phase with
  | literalValue key field =>
      obtain ⟨state, same, unknown, field_eq, keyFree, nulFree, -⟩ := sim
      exact ⟨started, inside, state, same, unknown, field_eq, keyFree, nulFree,
        fun here => right here key field rfl⟩
  | _ => exact ⟨started, inside, sim⟩

/-- Only the final phase of the decoder is the final state of the reader. -/
theorem done_iff {dec : GnyDecoder} (sim : GnySim valued src msg i dec) :
    src.state = .done ↔ dec.phase = .done := by
  obtain ⟨phase, decoded⟩ := dec
  obtain ⟨-, -, sim⟩ := sim
  cases phase <;> simp [sim.1]

/-! ### One byte -/

variable {decoded : HttpMessage} {next : GnyDecoder} {ch : UInt8} {rest : Str}

theorem readChar_url {field : Str}
    (sim : GnySim valued src msg i ⟨.url field, decoded⟩)
    (tail : src.dataStream.drop i = ch :: rest)
    (step : GnyDecoder.step ⟨.url field, decoded⟩ ch = .ok next) :
    ∃ src' msg', src.readChar msg i ch = .ok (src', msg') ∧
      GnySim valued src' msg' (i + 1) next ∧ src'.dataStream = src.dataStream := by
  obtain ⟨started, inside, sim⟩ := sim
  have below : i < src.dataStream.length := lt_length_of_drop_eq_cons tail
  have grown : src.field (i + 1) = src.field i ++ [ch] := segment_succ started tail
  obtain ⟨state, rfl, field_eq, nulFree⟩ := sim
  by_cases nul : ch = 0
  · subst nul
    cases step
    have text := MessageSourceGny.cStringAt_field [] started inside field_eq
      nulFree tail
    simp only [List.length_nil, Nat.add_zero] at text
    refine ⟨{ src with state := .headerStart, pos := i + 1 }, decoded.setUrl field, ?_,
      ⟨le_rfl, below, rfl, rfl⟩, rfl⟩
    simp only [MessageSourceGny.readChar, state, if_true, text, ok_bind]
  · simp only [GnyDecoder.step, nul, if_false, Except.ok.injEq] at step
    subst step
    refine ⟨src, decoded, by simp only [MessageSourceGny.readChar, state, nul, if_false],
      ?_, rfl⟩
    exact ⟨by omega, below, state, rfl, by rw [grown, field_eq], by
      simpa [nulFree] using fun equality => nul equality.symm⟩

theorem readChar_status {field : Str}
    (sim : GnySim valued src msg i ⟨.status field, decoded⟩)
    (tail : src.dataStream.drop i = ch :: rest)
    (step : GnyDecoder.step ⟨.status field, decoded⟩ ch = .ok next) :
    ∃ src' msg', src.readChar msg i ch = .ok (src', msg') ∧
      GnySim valued src' msg' (i + 1) next ∧ src'.dataStream = src.dataStream := by
  obtain ⟨started, inside, sim⟩ := sim
  have below : i < src.dataStream.length := lt_length_of_drop_eq_cons tail
  have grown : src.field (i + 1) = src.field i ++ [ch] := segment_succ started tail
  have length : (src.field i).length = i - src.pos := length_segment inside
  obtain ⟨state, rfl, field_eq, short⟩ := sim
  rw [field_eq] at length grown
  by_cases second : field.length = 1
  · simp only [GnyDecoder.step, second, if_true, Except.ok.injEq] at step
    subst step
    have here : src.pos + 1 = i := by omega
    have value := MessageSourceGny.readShort_field here tail
    rw [field_eq] at value
    refine ⟨{ src with state := .headerStart, pos := i + 1 },
      decoded.setStatus (readShort (field ++ [ch]) 0), ?_, ⟨le_rfl, below, rfl, rfl⟩, rfl⟩
    simp only [MessageSourceGny.readChar, state, here, if_true, value]
  · simp only [GnyDecoder.step, second, if_false, Except.ok.injEq] at step
    subst step
    have early : ¬src.pos + 1 = i := by omega
    refine ⟨src, decoded, by simp only [MessageSourceGny.readChar, state, early, if_false],
      ?_, rfl⟩
    exact ⟨by omega, below, state, rfl, grown, by
      rw [List.length_append, List.length_singleton]
      omega⟩

theorem readChar_flag
    (sim : GnySim valued src msg i ⟨.flag, decoded⟩)
    (tail : src.dataStream.drop i = ch :: rest)
    (step : GnyDecoder.step ⟨.flag, decoded⟩ ch = .ok next) :
    ∃ src' msg', src.readChar msg i ch = .ok (src', msg') ∧
      GnySim valued src' msg' (i + 1) next ∧ src'.dataStream = src.dataStream := by
  obtain ⟨started, inside, sim⟩ := sim
  have below : i < src.dataStream.length := lt_length_of_drop_eq_cons tail
  obtain ⟨state, rfl⟩ := sim
  simp only [GnyDecoder.step] at step
  split at step
  · rename_i ended
    split at step
    · rename_i header
      obtain ⟨msg', ended_eq, next_eq⟩ := bind_eq_ok.mp step
      cases next_eq
      refine ⟨{ src with key := ch, state := .entityStart, pos := i + 1 }, msg', ?_, ?_, rfl⟩
      · simp only [MessageSourceGny.readChar, state, ended, header, if_true, ended_eq, ok_bind]
      · have inEntity : msg'.state = .entity := by
          obtain ⟨-, rfl⟩ := HttpMessage.endHeader_eq_ok.mp ended_eq
          rfl
        exact ⟨le_rfl, below, rfl, rfl, inEntity, segment_self _ _,
          by simp⟩
    · rename_i footer
      obtain ⟨msg', ended_eq, next_eq⟩ := bind_eq_ok.mp step
      cases next_eq
      refine ⟨{ src with key := ch, state := .done, pos := i + 1 }, msg', ?_,
        ⟨le_rfl, below, rfl, rfl⟩, rfl⟩
      simp only [MessageSourceGny.readChar, state, ended, footer, if_true, if_false,
        ended_eq, ok_bind]
  · rename_i open_
    split at step
    · rename_i unknown
      cases step
      refine ⟨{ src with key := ch, state := .headerKey, pos := i + 1 }, decoded, ?_, ?_, rfl⟩
      · rw [MessageSourceGny.readChar, state]
        simp only [open_, if_false]
        rw [if_pos unknown]
      · exact ⟨le_rfl, below, rfl, rfl, unknown, segment_self _ _,
          by simp⟩
    · rename_i unknown
      split at step
      · cases step
        refine ⟨{ src with key := ch, state := .headerValue, pos := i + 1 }, decoded, ?_, ?_,
          rfl⟩
        · simp only [MessageSourceGny.readChar, state, open_, unknown, if_false]
        · exact ⟨le_rfl, below, rfl, rfl, rfl, unknown,
            segment_self _ _, by simp⟩
      · cases step

theorem readChar_literalKey {field : Str}
    (sim : GnySim valued src msg i ⟨.literalKey field, decoded⟩)
    (tail : src.dataStream.drop i = ch :: rest)
    (step : GnyDecoder.step ⟨.literalKey field, decoded⟩ ch = .ok next) :
    ∃ src' msg', src.readChar msg i ch = .ok (src', msg') ∧
      GnySim valued src' msg' (i + 1) next ∧ src'.dataStream = src.dataStream := by
  obtain ⟨started, inside, sim⟩ := sim
  have below : i < src.dataStream.length := lt_length_of_drop_eq_cons tail
  have grown : src.field (i + 1) = src.field i ++ [ch] := segment_succ started tail
  have length : (src.field i).length = i - src.pos := length_segment inside
  obtain ⟨state, rfl, unknown, field_eq, nulFree⟩ := sim
  rw [field_eq] at length grown
  by_cases nul : ch = 0
  · subst nul
    cases step
    refine ⟨{ src with state := .headerValue, substate := i + 1 }, decoded, ?_, ?_, rfl⟩
    · simp only [MessageSourceGny.readChar, state, if_true]
    · exact ⟨by simp only; omega, below, rfl, rfl, unknown, grown, nulFree, by simp,
        fun _ => by simp only; omega⟩
  · simp only [GnyDecoder.step, nul, if_false, Except.ok.injEq] at step
    subst step
    refine ⟨src, decoded, by simp only [MessageSourceGny.readChar, state, nul, if_false],
      ?_, rfl⟩
    exact ⟨by omega, below, state, rfl, unknown, grown, by
      simpa [nulFree] using fun equality => nul equality.symm⟩

/-- Where the position kept for a value is right, its text is found there. -/
theorem valueText {key field : Str}
    (sim : GnySim valued src msg i ⟨.literalValue key field, decoded⟩)
    (tail : src.dataStream.drop i = 0 :: rest)
    (right : src.substate = src.pos + key.length + 1) :
    cStringAt src.dataStream src.substate = .ok field := by
  obtain ⟨started, inside, -, -, -, field_eq, -, nulFree, -⟩ := sim
  have at_value := MessageSourceGny.cStringAt_field (key ++ [0]) started inside
    (by rw [field_eq]; simp) nulFree tail
  rw [right]
  simpa [Nat.add_assoc] using at_value

/-- The end of a value whose text is found. -/
theorem readChar_value {key field : Str}
    (sim : GnySim valued src msg i ⟨.literalValue key field, decoded⟩)
    (tail : src.dataStream.drop i = 0 :: rest)
    (value_text : cStringAt src.dataStream src.substate = .ok field)
    (step : GnyDecoder.step ⟨.literalValue key field, decoded⟩ 0 = .ok next) :
    ∃ src' msg', src.readChar msg i 0 = .ok (src', msg') ∧
      GnySim valued src' msg' (i + 1) next ∧ src'.dataStream = src.dataStream := by
  obtain ⟨started, inside, sim⟩ := sim
  have below : i < src.dataStream.length := lt_length_of_drop_eq_cons tail
  obtain ⟨state, rfl, unknown, field_eq, keyFree, -, -⟩ := sim
  obtain ⟨msg', added, next_eq⟩ := bind_eq_ok.mp step
  cases next_eq
  have whole : src.field i ++ src.dataStream.drop i = src.dataStream.drop src.pos :=
    segment_append_drop started inside
  have key_text : cStringAt src.dataStream src.pos = .ok key := by
    rw [cStringAt, if_pos (by omega), ← whole, field_eq, List.append_assoc,
      List.cons_append, cStr_append_nul keyFree]
  refine ⟨{ src with pos := i + 1, state := .headerStart }, msg', ?_,
    ⟨le_rfl, below, rfl, rfl⟩, rfl⟩
  simp only at added
  simp only [MessageSourceGny.readChar, state, if_true, unknown, key_text, value_text,
    added, ok_bind]

theorem readChar_literalValue {key : Str} {field : Str}
    (sim : GnySim valued src msg i ⟨.literalValue key field, decoded⟩)
    (tail : src.dataStream.drop i = ch :: rest)
    (step : GnyDecoder.step ⟨.literalValue key field, decoded⟩ ch = .ok next)
    (clean : valued ∨ GnyDecoder.completesLiteral ⟨.literalValue key field, decoded⟩ ch = false) :
    ∃ src' msg', src.readChar msg i ch = .ok (src', msg') ∧
      GnySim valued src' msg' (i + 1) next ∧ src'.dataStream = src.dataStream := by
  by_cases nul : ch = 0
  · subst nul
    have right : valued := by simpa [GnyDecoder.completesLiteral] using clean
    exact sim.readChar_value tail (sim.valueText tail (sim.2.2.2.2.2.2.2.2 right)) step
  · obtain ⟨started, inside, state, rfl, unknown, field_eq, keyFree, nulFree, position⟩ := sim
    have below : i < src.dataStream.length := lt_length_of_drop_eq_cons tail
    have grown : src.field (i + 1) = src.field i ++ [ch] := segment_succ started tail
    simp only [GnyDecoder.step, nul, if_false, Except.ok.injEq] at step
    subst step
    refine ⟨src, decoded, by simp only [MessageSourceGny.readChar, state, nul, if_false],
      ?_, rfl⟩
    refine ⟨by omega, below, state, rfl, unknown, ?_, keyFree, ?_, position⟩
    · rw [grown, field_eq]
      simp
    · simpa [nulFree] using fun equality => nul equality.symm

theorem readChar_tableValue {header : UInt8} {field : Str}
    (sim : GnySim valued src msg i ⟨.tableValue header field, decoded⟩)
    (tail : src.dataStream.drop i = ch :: rest)
    (step : GnyDecoder.step ⟨.tableValue header field, decoded⟩ ch = .ok next) :
    ∃ src' msg', src.readChar msg i ch = .ok (src', msg') ∧
      GnySim valued src' msg' (i + 1) next ∧ src'.dataStream = src.dataStream := by
  obtain ⟨started, inside, sim⟩ := sim
  have below : i < src.dataStream.length := lt_length_of_drop_eq_cons tail
  have grown : src.field (i + 1) = src.field i ++ [ch] := segment_succ started tail
  obtain ⟨state, rfl, key_eq, known, field_eq, nulFree⟩ := sim
  by_cases nul : ch = 0
  · subst nul
    obtain ⟨name, named, step⟩ := bind_eq_ok.mp step
    obtain ⟨msg', added, next_eq⟩ := bind_eq_ok.mp step
    cases next_eq
    have text := MessageSourceGny.cStringAt_field [] started inside field_eq
      nulFree tail
    simp only [List.length_nil, Nat.add_zero] at text
    subst key_eq
    refine ⟨{ src with pos := i + 1, state := .headerStart }, msg', ?_,
      ⟨le_rfl, below, rfl, rfl⟩, rfl⟩
    simp only at added
    simp only [MessageSourceGny.readChar, state, if_true, known, if_false, named, text,
      added, ok_bind]
  · simp only [GnyDecoder.step, nul, if_false, Except.ok.injEq] at step
    subst step
    refine ⟨src, decoded, by simp only [MessageSourceGny.readChar, state, nul, if_false],
      ?_, rfl⟩
    exact ⟨by omega, below, state, rfl, key_eq, known, by rw [grown, field_eq], by
      simpa [nulFree] using fun equality => nul equality.symm⟩

theorem readChar_size {field : Str}
    (sim : GnySim valued src msg i ⟨.size field, decoded⟩)
    (tail : src.dataStream.drop i = ch :: rest)
    (step : GnyDecoder.step ⟨.size field, decoded⟩ ch = .ok next) :
    ∃ src' msg', src.readChar msg i ch = .ok (src', msg') ∧
      GnySim valued src' msg' (i + 1) next ∧ src'.dataStream = src.dataStream := by
  obtain ⟨started, inside, sim⟩ := sim
  have below : i < src.dataStream.length := lt_length_of_drop_eq_cons tail
  have grown : src.field (i + 1) = src.field i ++ [ch] := segment_succ started tail
  have length : (src.field i).length = i - src.pos := length_segment inside
  obtain ⟨state, rfl, inEntity, field_eq, short⟩ := sim
  rw [field_eq] at length grown
  by_cases second : field.length = 1
  · have here : src.pos + 1 = i := by omega
    have value := MessageSourceGny.readShort_field here tail
    rw [field_eq] at value
    simp only [GnyDecoder.step, second, if_true] at step
    split at step
    · rename_i nonzero
      cases step
      refine ⟨{ src with
        substate := readShort (field ++ [ch]) 0, pos := i + 1, state := .entity }, decoded,
        ?_, ?_, rfl⟩
      · simp only [MessageSourceGny.readChar, state, here, if_true, value]
        rw [if_pos nonzero]
      · refine ⟨le_rfl, below, rfl, ?_, inEntity, rfl, Nat.pos_of_ne_zero nonzero⟩
        rw [show ({ src with
          substate := readShort (field ++ [ch]) 0, pos := i + 1, state := .entity } :
            MessageSourceGny).field (i + 1) = [] from segment_self _ _, List.append_nil]
    · rename_i zero
      obtain ⟨msg', ended, next_eq⟩ := bind_eq_ok.mp step
      cases next_eq
      refine ⟨{ src with
        substate := readShort (field ++ [ch]) 0, pos := i + 1, state := .headerStart }, msg',
        ?_, ⟨le_rfl, below, rfl, rfl⟩, rfl⟩
      simp only [MessageSourceGny.readChar, state, here, if_true, value]
      rw [if_neg zero, ended, ok_bind]
  · simp only [GnyDecoder.step, second, if_false, Except.ok.injEq] at step
    subst step
    have early : ¬src.pos + 1 = i := by omega
    refine ⟨src, decoded, by simp only [MessageSourceGny.readChar, state, early, if_false],
      ?_, rfl⟩
    exact ⟨by omega, below, state, rfl, inEntity, grown, by
      rw [List.length_append, List.length_singleton]
      omega⟩

theorem readChar_piece {left : Nat}
    (sim : GnySim valued src msg i ⟨.piece left, decoded⟩)
    (tail : src.dataStream.drop i = ch :: rest)
    (step : GnyDecoder.step ⟨.piece left, decoded⟩ ch = .ok next) :
    ∃ src' msg', src.readChar msg i ch = .ok (src', msg') ∧
      GnySim valued src' msg' (i + 1) next ∧ src'.dataStream = src.dataStream := by
  obtain ⟨started, inside, sim⟩ := sim
  have below : i < src.dataStream.length := lt_length_of_drop_eq_cons tail
  have grown : src.field (i + 1) = src.field i ++ [ch] := segment_succ started tail
  obtain ⟨state, rfl, inEntity, left_eq, positive⟩ := sim
  obtain ⟨msg', appended, next_eq⟩ := bind_eq_ok.mp step
  cases next_eq
  obtain ⟨-, rfl⟩ := HttpMessage.appendEntity_eq_ok.mp appended
  by_cases last : left = 1
  · have slice : (src.dataStream.drop src.pos).take (i - src.pos + 1) =
        src.field i ++ [ch] := by
      rw [← grown, MessageSourceGny.field, Incremental.segment, List.drop_take]
      congr 1
      omega
    refine ⟨{ src with substate := 0, pos := i + 1, state := .entityStart },
      { msg with entity := msg.entity ++ (src.field i ++ [ch]) }, ?_, ?_, rfl⟩
    · simp only [MessageSourceGny.readChar, state, left_eq, last, Nat.sub_self, if_true, slice,
        HttpMessage.appendEntity, inEntity, ok_bind]
    · simp only [GnySim, last, if_true]
      exact ⟨le_rfl, below, trivial, by rw [List.append_assoc], inEntity,
        segment_self _ _, by simp⟩
  · refine ⟨{ src with substate := src.substate - 1 }, msg, ?_, ?_, rfl⟩
    · have more : ¬src.substate - 1 = 0 := by omega
      simp only [MessageSourceGny.readChar, state, more, if_false]
    · have pending : ({ src with substate := src.substate - 1 } :
          MessageSourceGny).field (i + 1) = src.field i ++ [ch] := grown
      simp only [GnySim, last, if_false, pending]
      exact ⟨by omega, below, state, by rw [List.append_assoc], inEntity, by rw [left_eq],
        by omega⟩

/-- One byte takes the reader where it takes the decoder. -/
theorem readChar {dec : GnyDecoder} (sim : GnySim valued src msg i dec)
    (tail : src.dataStream.drop i = ch :: rest) (step : dec.step ch = .ok next)
    (clean : valued ∨ dec.completesLiteral ch = false) :
    ∃ src' msg', src.readChar msg i ch = .ok (src', msg') ∧
      GnySim valued src' msg' (i + 1) next ∧ src'.dataStream = src.dataStream := by
  obtain ⟨phase, decoded⟩ := dec
  cases phase with
  | verb =>
      obtain ⟨started, inside, sim⟩ := sim
      have below : i < src.dataStream.length := lt_length_of_drop_eq_cons tail
      obtain ⟨state, rfl⟩ := sim
      cases step
      refine ⟨{ src with state := .initUrl, pos := i + 1 }, decoded.setVerb ch, ?_, ?_, rfl⟩
      · simp only [MessageSourceGny.readChar, state]
      · exact ⟨le_rfl, below, rfl, rfl, segment_self _ _, by simp⟩
  | url field => exact sim.readChar_url tail step
  | status field => exact sim.readChar_status tail step
  | flag => exact sim.readChar_flag tail step
  | literalKey field => exact sim.readChar_literalKey tail step
  | literalValue key field => exact sim.readChar_literalValue tail step clean
  | tableValue header field => exact sim.readChar_tableValue tail step
  | size field => exact sim.readChar_size tail step
  | piece left => exact sim.readChar_piece tail step
  | done =>
      obtain ⟨started, inside, sim⟩ := sim
      have below : i < src.dataStream.length := lt_length_of_drop_eq_cons tail
      obtain ⟨state, rfl⟩ := sim
      cases step
      exact ⟨src, decoded, by simp only [MessageSourceGny.readChar, state],
        ⟨by omega, below, state, rfl⟩, rfl⟩

/-- A loop over a word is a run of the decoder, or of a part of it that never needs the position
of a value. -/
theorem readLoop {A : Automaton GnyDecoder UInt8 Fault}
    (final : A.final = GnyDecoder.automaton.final)
    (steps : ∀ {dec ch next}, A.step dec ch = .ok next →
      dec.step ch = .ok next ∧ (valued ∨ dec.completesLiteral ch = false))
    {dec last : GnyDecoder} {word : Str} {count : Nat} (sim : GnySim valued src msg i dec)
    (tail : src.dataStream.drop i = word) (outcome : A.run dec word = .ok (last, count)) :
    ∃ src' msg', src.readLoop msg i word = .ok (i + count, src', msg') ∧
      GnySim valued src' msg' (i + count) last ∧ src'.dataStream = src.dataStream ∧
      (count = word.length ∨ last.phase = .done) := by
  induction word generalizing src msg i dec count with
  | nil =>
      simp only [Automaton.run, Except.ok.injEq, Prod.mk.injEq] at outcome
      obtain ⟨rfl, rfl⟩ := outcome
      exact ⟨src, msg, rfl, sim, rfl, Or.inl rfl⟩
  | cons ch word ih =>
      rw [Automaton.run] at outcome
      have final_iff : A.final dec = true ↔ dec.phase = .done := by
        rw [final, GnyDecoder.automaton, decide_eq_true_eq]
      split at outcome
      · rename_i stopped
        simp only [Except.ok.injEq, Prod.mk.injEq] at outcome
        obtain ⟨rfl, rfl⟩ := outcome
        have ended := sim.done_iff.mpr (final_iff.mp stopped)
        exact ⟨src, msg, by simp [MessageSourceGny.readLoop, ended], sim, rfl,
          Or.inr (final_iff.mp stopped)⟩
      · rename_i open_
        have going : ¬src.state = .done := fun ended =>
          open_ (final_iff.mpr (sim.done_iff.mp ended))
        split at outcome
        · cases outcome
        · rename_i next step
          split at outcome
          · cases outcome
          · rename_i end_ count' rest
            simp only [Except.ok.injEq, Prod.mk.injEq] at outcome
            obtain ⟨rfl, rfl⟩ := outcome
            obtain ⟨decoded, clean⟩ := steps step
            obtain ⟨src₁, msg₁, read_eq, sim₁, data₁⟩ := sim.readChar tail decoded clean
            have tail₁ : src₁.dataStream.drop (i + 1) = word := by
              rw [data₁, ← List.drop_drop, tail]
              rfl
            obtain ⟨src₂, msg₂, loop_eq, sim₂, data₂, stop⟩ := ih sim₁ tail₁ rest
            refine ⟨src₂, msg₂, ?_, ?_, data₂.trans data₁, ?_⟩
            · simp only [MessageSourceGny.readLoop, going, if_false, read_eq, loop_eq]
              rw [show i + 1 + count' = i + (count' + 1) by omega]
            · rwa [show i + (count' + 1) = i + 1 + count' by omega]
            · simpa using stop

/-- A finished reader no longer cares for its position. -/
theorem at_end {dec : GnyDecoder} (sim : GnySim valued src msg i dec)
    (stop : i = src.dataStream.length ∨ dec.phase = .done) :
    GnySim valued src msg src.dataStream.length dec := by
  obtain rfl | ended := stop
  · exact sim
  · obtain ⟨started, inside, sim⟩ := sim
    rw [GnySim, ended]
    rw [ended] at sim
    exact ⟨by omega, le_rfl, sim⟩

/-- Outside a piece of entity the message is the decoder's message. -/
theorem msg_eq {dec : GnyDecoder} (sim : GnySim valued src msg i dec)
    (outside : src.state ≠ .entity) : dec.msg = msg := by
  obtain ⟨phase, decoded⟩ := dec
  obtain ⟨-, -, sim⟩ := sim
  cases phase with
  | piece left => exact absurd sim.1 outside
  | verb | flag | done => exact sim.2
  | _ => exact sim.2.1

/-- After the flush the message is the decoder's message. -/
theorem flushEntity {dec : GnyDecoder} (sim : GnySim valued src msg src.dataStream.length dec) :
    ∃ src', src.flushEntity msg = .ok (src', dec.msg) ∧
      GnySim valued src' dec.msg src'.dataStream.length dec ∧
      src'.dataStream = src.dataStream := by
  by_cases inside : src.state = .entity
  · obtain ⟨phase, decoded⟩ := dec
    obtain ⟨started, -, sim⟩ := sim
    cases phase with
    | piece left =>
        obtain ⟨-, rfl, inEntity, left_eq, positive⟩ := sim
        have pending : src.dataStream.drop src.pos = src.field src.dataStream.length :=
          (segment_length _ _).symm
        refine ⟨{ src with pos := src.dataStream.length }, ?_, ?_, rfl⟩
        · simp [MessageSourceGny.flushEntity, inside, HttpMessage.appendEntity, inEntity, pending]
        · refine ⟨le_rfl, le_rfl, inside, ?_, inEntity, left_eq, positive⟩
          simp [MessageSourceGny.field]
    | _ => simp [inside] at sim
  · have same := sim.msg_eq inside
    rw [same]
    exact ⟨src, by simp [MessageSourceGny.flushEntity, inside], sim, rfl⟩

/-- Re-basing keeps the current field; the position of its value is kept unless it has to move. -/
theorem rebase {dec : GnyDecoder} (sim : GnySim valued src msg src.dataStream.length dec) :
    GnySim (valued ∧ (src.pos = 0 ∨ ∀ key field, dec.phase ≠ .literalValue key field)) src.rebase
      msg src.rebase.dataStream.length dec ∧ src.rebase.pos = 0 := by
  obtain ⟨phase, decoded⟩ := dec
  by_cases unmoved : src.pos = 0
  · have same : src.rebase = src := by simp [MessageSourceGny.rebase, unmoved]
    rw [same]
    simpa [unmoved] using sim
  · have moved : src.rebase = { src with dataStream := src.dataStream.drop src.pos, pos := 0 } := by
      simp [MessageSourceGny.rebase, unmoved]
    have field_eq : src.rebase.field src.rebase.dataStream.length =
        src.field src.dataStream.length := by
      rw [moved, MessageSourceGny.field, MessageSourceGny.field, segment_length, segment_length,
        List.drop_zero]
    obtain ⟨started, -, sim⟩ := sim
    refine ⟨⟨by simp [moved], le_rfl, ?_⟩, by simp [moved]⟩
    cases phase with
    | literalValue key field =>
        obtain ⟨state, same, unknown, whole, keyFree, nulFree, -⟩ := sim
        refine ⟨by rwa [moved], same, by rwa [moved], by rwa [field_eq], keyFree, nulFree, ?_⟩
        rintro ⟨-, zero | other⟩
        · exact absurd zero unmoved
        · exact absurd rfl (other key field)
    | _ =>
        simp only [field_eq]
        simpa [moved] using sim

/-- Bytes that arrive behind the current position change nothing yet. -/
theorem append {dec : GnyDecoder} (sim : GnySim valued src msg src.dataStream.length dec)
    (piece : Str) :
    GnySim valued { src with dataStream := src.dataStream ++ piece } msg
      src.dataStream.length dec := by
  obtain ⟨phase, decoded⟩ := dec
  have field_eq : ({ src with dataStream := src.dataStream ++ piece } :
      MessageSourceGny).field src.dataStream.length = src.field src.dataStream.length :=
    segment_append le_rfl piece
  obtain ⟨started, -, sim⟩ := sim
  refine ⟨started, by simp, ?_⟩
  cases phase <;> simpa only [field_eq] using sim

/-- One read of a piece is a run of the decoder over it, up to the final re-basing. -/
theorem read {A : Automaton GnyDecoder UInt8 Fault} (final : A.final = GnyDecoder.automaton.final)
    (steps : ∀ {dec ch next}, A.step dec ch = .ok next →
      dec.step ch = .ok next ∧ (valued ∨ dec.completesLiteral ch = false))
    {dec last : GnyDecoder} {piece : Str} {count : Nat} (nonempty : piece ≠ [])
    (sim : GnySim valued src msg src.dataStream.length dec)
    (outcome : A.run dec piece = .ok (last, count)) :
    ∃ src', MessageSourceGny.read (src, msg) piece = .ok ((src'.rebase, last.msg), count) ∧
      GnySim valued src' last.msg src'.dataStream.length last ∧
      src'.dataStream = src.dataStream ++ piece := by
  have bound := A.count_le_of_run outcome
  obtain ⟨src₁, msg₁, loop_eq, sim₁, data₁, stop⟩ :=
    (sim.append piece).readLoop final steps (by simp) outcome
  have sim₂ := sim₁.at_end (stop.imp_left fun all => by simp [data₁, all])
  obtain ⟨src₂, flush_eq, sim₃, data₂⟩ := sim₂.flushEntity
  refine ⟨src₂, ?_, sim₃, data₂.trans data₁⟩
  have place : (src.dataStream ++ piece).length - piece.length = src.dataStream.length := by simp
  have amount : piece.length -
      ((src.dataStream ++ piece).length - (src.dataStream.length + count)) = count := by
    rw [List.length_append]
    omega
  simp only [MessageSourceGny.read, nonempty, if_false, place, loop_eq, ok_bind, flush_eq, data₂,
    data₁, amount]

end GnySim
end GnyProxy
