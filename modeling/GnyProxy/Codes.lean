import GnyProxy.Copying
import GnyProxy.InStep

/-!
# The table codes of a GNY stream

Which codes a GNY stream makes the program look up in its tables: those of the headers at once, in
`message_source_gny`, and that of the verb when `message_sink_11` writes the request line.  The
codes are bytes of the stream, so that their range is a property of the stream alone.
-/

namespace GnyProxy

open Incremental

/-! ## The shape of a stream -/

namespace GnyShape

/-- The part of the wire format that the next byte belongs to. -/
inductive Part where
  | verb
  | url (text : Str)
  | status (field : Str)
  | flag
  | key
  /-- The value of a field that has its own key. -/
  | ownValue
  | value (code : UInt8)
  | size (field : Str)
  | piece (left : Nat)
  | done
  deriving DecidableEq

end GnyShape

/-- How far a stream has come, whatever its codes are. -/
structure GnyShape where
  part : GnyShape.Part
  verb : UInt8 := verbUnknown
  url : Str := []
  state : MessageState := .header
  deriving DecidableEq

namespace GnyShape

def fresh (isRequest : Bool) : GnyShape := { part := if isRequest then .verb else .status [] }

/-- One byte further. -/
def step (shape : GnyShape) (ch : UInt8) : GnyShape :=
  match shape.part with
  | .verb => { shape with part := .url [], verb := ch }
  | .url text =>
      if ch = 0 then { shape with part := .flag, url := text }
      else { shape with part := .url (text ++ [ch]) }
  | .status field =>
      if field.length = 1 then { shape with part := .flag }
      else { shape with part := .status (field ++ [ch]) }
  | .flag =>
      if ch = headerEnd then
        if shape.state = .header then { shape with part := .size [], state := .entity }
        else { shape with part := .done, state := .done }
      else if ch = headerUnknown then { shape with part := .key }
      else { shape with part := .value ch }
  | .key => if ch = 0 then { shape with part := .ownValue } else shape
  | .ownValue => if ch = 0 then { shape with part := .flag } else shape
  | .value _ => if ch = 0 then { shape with part := .flag } else shape
  | .size field =>
      if field.length = 1 then
        if readShort (field ++ [ch]) 0 ≠ 0 then
          { shape with part := .piece (readShort (field ++ [ch]) 0) }
        else
          { shape with part := .flag, state := .footer }
      else
        { shape with part := .size (field ++ [ch]) }
  | .piece left =>
      { shape with part := if left = 1 then .size [] else .piece (left - 1) }
  | .done => shape

/-- How far the bytes of a stream lead. -/
def after (isRequest : Bool) (bytes : Str) : GnyShape := bytes.foldl step (fresh isRequest)

@[simp] theorem after_nil (isRequest : Bool) : after isRequest [] = fresh isRequest := rfl

@[simp] theorem after_snoc (isRequest : Bool) (bytes : Str) (ch : UInt8) :
    after isRequest (bytes ++ [ch]) = (after isRequest bytes).step ch := by
  simp [after]

/-- Nothing follows the end of a message. -/
theorem foldl_step_done {shape : GnyShape} (ended : shape.part = .done) (bytes : Str) :
    bytes.foldl step shape = shape := by
  induction bytes with
  | nil => rfl
  | cons ch bytes ih =>
      have stays : shape.step ch = shape := by simp only [step, ended]
      rw [List.foldl_cons, stays, ih]

/-- The bytes of a request are its verb, its url and whatever follows. -/
def Spells (bytes : Str) (shape : GnyShape) : Prop :=
  match shape.part with
  | .verb => bytes = [] ∧ shape.url = []
  | .url text => bytes = shape.verb :: text ∧ 0 ∉ text ∧ shape.url = []
  | .status _ => False
  | _ => ∃ back, bytes = shape.verb :: (shape.url ++ 0 :: back) ∧ 0 ∉ shape.url

theorem Spells.step {bytes : Str} {shape : GnyShape} (spells : Spells bytes shape) (ch : UInt8) :
    Spells (bytes ++ [ch]) (shape.step ch) := by
  obtain ⟨part, verb, url, state⟩ := shape
  cases part with
  | verb =>
      rcases spells with ⟨rfl, rfl⟩
      exact ⟨rfl, by simp, rfl⟩
  | url text =>
      rcases spells with ⟨rfl, clean, rfl⟩
      by_cases nul : ch = 0
      · simp only [GnyShape.step, nul, if_true]
        exact ⟨[], rfl, clean⟩
      · simp only [GnyShape.step, nul, if_false]
        refine ⟨rfl, ?_, rfl⟩
        simpa [clean] using fun equality => nul equality.symm
  | status field => exact spells.elim
  | _ =>
      rcases spells with ⟨back, rfl, clean⟩
      have later : ∃ back', verb :: (url ++ 0 :: back) ++ [ch] = verb :: (url ++ 0 :: back') ∧
          0 ∉ url := ⟨back ++ [ch], by simp, clean⟩
      simp only [GnyShape.step]
      repeat' split
      all_goals exact later

/-- A url that has been read was sent behind the verb. -/
theorem spells_after (bytes : Str) : Spells bytes (after true bytes) := by
  induction bytes using List.reverseRecOn with
  | nil => exact ⟨rfl, rfl⟩
  | append_singleton bytes ch ih =>
      rw [after_snoc]
      exact ih.step ch

/-- Once a url is known, the bytes begin with the verb and the url. -/
theorem Spells.of_url {bytes : Str} {shape : GnyShape} (spells : Spells bytes shape)
    (url : shape.url ≠ []) :
    ∃ back, bytes = shape.verb :: (shape.url ++ 0 :: back) ∧ 0 ∉ shape.url := by
  obtain ⟨part, verb, url', state⟩ := shape
  cases part with
  | verb => exact absurd spells.2 url
  | url text => exact absurd spells.2.2 url
  | status field => exact spells.elim
  | _ => exact spells

/-- Within a url nothing else has been read. -/
theorem after_url (verb : UInt8) {text : Str} (clean : 0 ∉ text) :
    after true (verb :: text) = { part := .url text, verb } := by
  induction text using List.reverseRecOn with
  | nil => rfl
  | append_singleton text ch ih =>
      simp only [List.mem_append, List.mem_singleton, not_or] at clean
      have plain : ch ≠ 0 := fun equality => clean.2 equality.symm
      rw [← List.cons_append, after_snoc, ih clean.1, step]
      simp [plain]

end GnyShape

/-! ## The lookups -/

/-- The code that the reader passes to `headertoa` on a byte. -/
def MessageSourceGny.lookedUp (src : MessageSourceGny) (ch : UInt8) : Option UInt8 :=
  if src.state = .headerValue ∧ ch = 0 ∧ src.key ≠ headerUnknown then some src.key else none

/-- The code that the writer passes to `verbtoa` for a message. -/
def MessageSink11.lookedUp (msg : HttpMessage) : Option UInt8 :=
  if msg.isRequest ∧ msg.url ≠ [] ∧ msg.verb ≠ verbUnknown then some msg.verb else none

/-! ## The reader follows the shape -/

/-- At position `i` of its buffer the reader is in this part of the stream.  If `placed` holds, the
position kept for the value of a field with its own key is within the buffer. -/
def InPart (placed : Prop) (src : MessageSourceGny) (i : Nat) : GnyShape.Part → Prop
  | .verb => src.state = .initVerb
  | .url text => src.state = .initUrl ∧ src.field i = text ∧ 0 ∉ text
  | .status field => src.state = .initStatus ∧ src.field i = field ∧ field.length ≤ 1
  | .flag => src.state = .headerStart
  | .key => src.state = .headerKey ∧ src.key = headerUnknown
  | .ownValue =>
      src.state = .headerValue ∧ src.key = headerUnknown ∧ (placed → src.substate ≤ i)
  | .value code => src.state = .headerValue ∧ src.key = code ∧ code ≠ headerUnknown
  | .size field => src.state = .entityStart ∧ src.field i = field ∧ field.length ≤ 1
  | .piece left => src.state = .entity ∧ src.substate = left ∧ 0 < left
  | .done => src.state = .done

/-- The reader is where the stream has come to.  Nothing is said about the texts of its fields. -/
structure Follows (placed : Prop) (src : MessageSourceGny) (msg : HttpMessage) (i : Nat)
    (shape : GnyShape) : Prop where
  started : src.pos ≤ i
  inside : i ≤ src.dataStream.length
  verb : msg.verb = shape.verb
  url : msg.url = shape.url
  state : msg.state = shape.state
  part : InPart placed src i shape.part

namespace Follows

variable {placed : Prop} {src src' : MessageSourceGny} {msg msg' : HttpMessage} {i : Nat}
  {shape : GnyShape} {ch : UInt8}

theorem start (isRequest : Bool) (dataStream : Str) :
    Follows placed { MessageSourceGny.create isRequest with dataStream } (.fresh isRequest) 0
      (GnyShape.fresh isRequest) := by
  refine ⟨le_rfl, Nat.zero_le _, rfl, rfl, rfl, ?_⟩
  cases isRequest <;> simp [GnyShape.fresh, InPart, MessageSourceGny.create,
    MessageSourceGny.field]

/-- What a byte that adds a field leaves of the message. -/
theorem of_addField {key value : Str} (added : msg.addField key value = .ok msg') :
    msg'.verb = msg.verb ∧ msg'.url = msg.url ∧ msg'.state = msg.state := by
  rw [HttpMessage.addField] at added
  split at added
  · obtain ⟨-, rfl⟩ := HttpMessage.addHeader_eq_ok.mp added
    exact ⟨rfl, rfl, rfl⟩
  · obtain ⟨-, rfl⟩ := HttpMessage.addFooter_eq_ok.mp added
    exact ⟨rfl, rfl, rfl⟩

variable {verb : UInt8} {url : Str} {state : MessageState} {rest : Str}

theorem readChar_url {text : Str}
    (follows : Follows placed src msg i ⟨.url text, verb, url, state⟩)
    (tail : src.dataStream.drop i = ch :: rest)
    (outcome : src.readChar msg i ch = .ok (src', msg')) :
    Follows placed src' msg' (i + 1) (GnyShape.step ⟨.url text, verb, url, state⟩ ch) ∧
      src'.dataStream = src.dataStream := by
  obtain ⟨started, inside, verb_eq, url_eq, state_eq, inPart⟩ := follows
  have below : i < src.dataStream.length := lt_length_of_drop_eq_cons tail
  have grown : src.field (i + 1) = src.field i ++ [ch] := segment_succ started tail
  rcases inPart with ⟨initUrl, text_eq, clean⟩
  simp only [MessageSourceGny.readChar, initUrl] at outcome
  by_cases nul : ch = 0
  · subst nul
    have text := MessageSourceGny.cStringAt_field [] started inside text_eq clean tail
    rw [List.length_nil, Nat.add_zero] at text
    simp only [if_true, text, ok_bind] at outcome
    cases outcome
    exact ⟨⟨le_rfl, below, verb_eq, rfl, state_eq, rfl⟩, rfl⟩
  · rw [if_neg nul] at outcome
    cases outcome
    refine ⟨?_, rfl⟩
    simp only [GnyShape.step, nul, if_false]
    refine ⟨by omega, below, verb_eq, url_eq, state_eq, initUrl, by rw [grown, text_eq], ?_⟩
    simpa [clean] using fun equality => nul equality.symm

theorem readChar_status {field : Str}
    (follows : Follows placed src msg i ⟨.status field, verb, url, state⟩)
    (tail : src.dataStream.drop i = ch :: rest)
    (outcome : src.readChar msg i ch = .ok (src', msg')) :
    Follows placed src' msg' (i + 1) (GnyShape.step ⟨.status field, verb, url, state⟩ ch) ∧
      src'.dataStream = src.dataStream := by
  obtain ⟨started, inside, verb_eq, url_eq, state_eq, inPart⟩ := follows
  have below : i < src.dataStream.length := lt_length_of_drop_eq_cons tail
  have grown : src.field (i + 1) = src.field i ++ [ch] := segment_succ started tail
  have length : (src.field i).length = i - src.pos := length_segment inside
  rcases inPart with ⟨initStatus, field_eq, short⟩
  rw [field_eq] at length grown
  simp only [MessageSourceGny.readChar, initStatus] at outcome
  by_cases second : field.length = 1
  · rw [if_pos (by omega)] at outcome
    cases outcome
    refine ⟨?_, rfl⟩
    simp only [GnyShape.step, second, if_true]
    exact ⟨le_rfl, below, verb_eq, url_eq, state_eq, rfl⟩
  · rw [if_neg (by omega)] at outcome
    cases outcome
    refine ⟨?_, rfl⟩
    simp only [GnyShape.step, second, if_false]
    refine ⟨by omega, below, verb_eq, url_eq, state_eq, initStatus, grown, ?_⟩
    rw [List.length_append, List.length_singleton]
    omega

theorem readChar_flag
    (follows : Follows placed src msg i ⟨.flag, verb, url, state⟩)
    (tail : src.dataStream.drop i = ch :: rest)
    (outcome : src.readChar msg i ch = .ok (src', msg')) :
    Follows placed src' msg' (i + 1) (GnyShape.step ⟨.flag, verb, url, state⟩ ch) ∧
      src'.dataStream = src.dataStream := by
  obtain ⟨started, inside, verb_eq, url_eq, state_eq, inPart⟩ := follows
  have below : i < src.dataStream.length := lt_length_of_drop_eq_cons tail
  simp only [MessageSourceGny.readChar, show src.state = .headerStart from inPart] at outcome
  simp only at state_eq
  simp only [GnyShape.step]
  split at outcome
  · rename_i ended
    rw [if_pos ended]
    split at outcome
    · rename_i header
      rw [if_pos (state_eq.symm.trans header)]
      obtain ⟨next, ended_eq, outcome⟩ := bind_eq_ok.mp outcome
      obtain ⟨-, rfl⟩ := HttpMessage.endHeader_eq_ok.mp ended_eq
      cases outcome
      exact ⟨⟨le_rfl, below, verb_eq, url_eq, rfl, rfl, segment_self _ _, by simp⟩, rfl⟩
    · rename_i other
      rw [if_neg fun header => other (state_eq.trans header)]
      obtain ⟨next, ended_eq, outcome⟩ := bind_eq_ok.mp outcome
      obtain ⟨-, rfl⟩ := HttpMessage.endFooter_eq_ok.mp ended_eq
      cases outcome
      exact ⟨⟨le_rfl, below, verb_eq, url_eq, rfl, rfl⟩, rfl⟩
  · rename_i going
    rw [if_neg going]
    split at outcome
    · rename_i unknown
      rw [if_pos unknown]
      cases outcome
      exact ⟨⟨le_rfl, below, verb_eq, url_eq, state_eq, rfl, unknown⟩, rfl⟩
    · rename_i known
      rw [if_neg known]
      cases outcome
      exact ⟨⟨le_rfl, below, verb_eq, url_eq, state_eq, rfl, rfl, known⟩, rfl⟩

theorem readChar_key
    (follows : Follows placed src msg i ⟨.key, verb, url, state⟩)
    (tail : src.dataStream.drop i = ch :: rest)
    (outcome : src.readChar msg i ch = .ok (src', msg')) :
    Follows placed src' msg' (i + 1) (GnyShape.step ⟨.key, verb, url, state⟩ ch) ∧
      src'.dataStream = src.dataStream := by
  obtain ⟨started, inside, verb_eq, url_eq, state_eq, inPart⟩ := follows
  have below : i < src.dataStream.length := lt_length_of_drop_eq_cons tail
  rcases inPart with ⟨headerKey, unknown⟩
  simp only [MessageSourceGny.readChar, headerKey] at outcome
  by_cases nul : ch = 0
  · rw [if_pos nul] at outcome
    cases outcome
    refine ⟨?_, rfl⟩
    simp only [GnyShape.step, nul, if_true]
    exact ⟨by simp only; omega, below, verb_eq, url_eq, state_eq, rfl, unknown, fun _ => le_rfl⟩
  · rw [if_neg nul] at outcome
    cases outcome
    refine ⟨?_, rfl⟩
    simp only [GnyShape.step, nul, if_false]
    exact ⟨by omega, below, verb_eq, url_eq, state_eq, headerKey, unknown⟩

theorem readChar_ownValue
    (follows : Follows placed src msg i ⟨.ownValue, verb, url, state⟩)
    (tail : src.dataStream.drop i = ch :: rest)
    (outcome : src.readChar msg i ch = .ok (src', msg')) :
    Follows placed src' msg' (i + 1) (GnyShape.step ⟨.ownValue, verb, url, state⟩ ch) ∧
      src'.dataStream = src.dataStream := by
  obtain ⟨started, inside, verb_eq, url_eq, state_eq, inPart⟩ := follows
  have below : i < src.dataStream.length := lt_length_of_drop_eq_cons tail
  rcases inPart with ⟨headerValue, unknown, position⟩
  simp only [MessageSourceGny.readChar, headerValue, unknown, if_true] at outcome
  by_cases nul : ch = 0
  · rw [if_pos nul] at outcome
    obtain ⟨key, -, outcome⟩ := bind_eq_ok.mp outcome
    obtain ⟨value, -, outcome⟩ := bind_eq_ok.mp outcome
    obtain ⟨next, added, outcome⟩ := bind_eq_ok.mp outcome
    cases outcome
    rcases of_addField added with ⟨verb_same, url_same, state_same⟩
    refine ⟨?_, rfl⟩
    simp only [GnyShape.step, nul, if_true]
    exact ⟨le_rfl, below, verb_same.trans verb_eq, url_same.trans url_eq,
      state_same.trans state_eq, rfl⟩
  · rw [if_neg nul] at outcome
    cases outcome
    refine ⟨?_, rfl⟩
    simp only [GnyShape.step, nul, if_false]
    exact ⟨by omega, below, verb_eq, url_eq, state_eq, headerValue, unknown,
      fun right => by have := position right; omega⟩

theorem readChar_value {code : UInt8}
    (follows : Follows placed src msg i ⟨.value code, verb, url, state⟩)
    (tail : src.dataStream.drop i = ch :: rest)
    (outcome : src.readChar msg i ch = .ok (src', msg')) :
    Follows placed src' msg' (i + 1) (GnyShape.step ⟨.value code, verb, url, state⟩ ch) ∧
      src'.dataStream = src.dataStream := by
  obtain ⟨started, inside, verb_eq, url_eq, state_eq, inPart⟩ := follows
  have below : i < src.dataStream.length := lt_length_of_drop_eq_cons tail
  rcases inPart with ⟨headerValue, rfl, known⟩
  simp only [MessageSourceGny.readChar, headerValue, known, if_false] at outcome
  by_cases nul : ch = 0
  · rw [if_pos nul] at outcome
    obtain ⟨key, -, outcome⟩ := bind_eq_ok.mp outcome
    obtain ⟨value, -, outcome⟩ := bind_eq_ok.mp outcome
    obtain ⟨next, added, outcome⟩ := bind_eq_ok.mp outcome
    cases outcome
    rcases of_addField added with ⟨verb_same, url_same, state_same⟩
    refine ⟨?_, rfl⟩
    simp only [GnyShape.step, nul, if_true]
    exact ⟨le_rfl, below, verb_same.trans verb_eq, url_same.trans url_eq,
      state_same.trans state_eq, rfl⟩
  · rw [if_neg nul] at outcome
    cases outcome
    refine ⟨?_, rfl⟩
    simp only [GnyShape.step, nul, if_false]
    exact ⟨by omega, below, verb_eq, url_eq, state_eq, headerValue, rfl, known⟩

theorem readChar_size {field : Str}
    (follows : Follows placed src msg i ⟨.size field, verb, url, state⟩)
    (tail : src.dataStream.drop i = ch :: rest)
    (outcome : src.readChar msg i ch = .ok (src', msg')) :
    Follows placed src' msg' (i + 1) (GnyShape.step ⟨.size field, verb, url, state⟩ ch) ∧
      src'.dataStream = src.dataStream := by
  obtain ⟨started, inside, verb_eq, url_eq, state_eq, inPart⟩ := follows
  have below : i < src.dataStream.length := lt_length_of_drop_eq_cons tail
  have grown : src.field (i + 1) = src.field i ++ [ch] := segment_succ started tail
  have length : (src.field i).length = i - src.pos := length_segment inside
  rcases inPart with ⟨entityStart, field_eq, short⟩
  rw [field_eq] at length grown
  simp only [MessageSourceGny.readChar, entityStart] at outcome
  by_cases second : field.length = 1
  · have here : src.pos + 1 = i := by omega
    have value := MessageSourceGny.readShort_field here tail
    rw [field_eq] at value
    rw [if_pos here, value] at outcome
    simp only [GnyShape.step, second, if_true]
    split at outcome
    · rename_i nonzero
      rw [if_pos nonzero]
      cases outcome
      exact ⟨⟨le_rfl, below, verb_eq, url_eq, state_eq, rfl, rfl, Nat.pos_of_ne_zero nonzero⟩,
        rfl⟩
    · rename_i zero
      rw [if_neg zero]
      obtain ⟨next, ended_eq, outcome⟩ := bind_eq_ok.mp outcome
      obtain ⟨-, rfl⟩ := HttpMessage.endEntity_eq_ok.mp ended_eq
      cases outcome
      exact ⟨⟨le_rfl, below, verb_eq, url_eq, rfl, rfl⟩, rfl⟩
  · rw [if_neg (by omega)] at outcome
    cases outcome
    refine ⟨?_, rfl⟩
    simp only [GnyShape.step, second, if_false]
    refine ⟨by omega, below, verb_eq, url_eq, state_eq, entityStart, grown, ?_⟩
    rw [List.length_append, List.length_singleton]
    omega

theorem readChar_piece {left : Nat}
    (follows : Follows placed src msg i ⟨.piece left, verb, url, state⟩)
    (tail : src.dataStream.drop i = ch :: rest)
    (outcome : src.readChar msg i ch = .ok (src', msg')) :
    Follows placed src' msg' (i + 1) (GnyShape.step ⟨.piece left, verb, url, state⟩ ch) ∧
      src'.dataStream = src.dataStream := by
  obtain ⟨started, inside, verb_eq, url_eq, state_eq, inPart⟩ := follows
  have below : i < src.dataStream.length := lt_length_of_drop_eq_cons tail
  rcases inPart with ⟨entity, left_eq, positive⟩
  simp only [MessageSourceGny.readChar, entity, left_eq] at outcome
  simp only [GnyShape.step]
  split at outcome
  · rename_i last
    rw [if_pos (by omega)]
    obtain ⟨next, appended, outcome⟩ := bind_eq_ok.mp outcome
    obtain ⟨-, rfl⟩ := HttpMessage.appendEntity_eq_ok.mp appended
    cases outcome
    exact ⟨⟨le_rfl, below, verb_eq, url_eq, state_eq, rfl, segment_self _ _, by simp⟩, rfl⟩
  · rename_i more
    rw [if_neg (by omega)]
    cases outcome
    exact ⟨⟨by simp only; omega, below, verb_eq, url_eq, state_eq, rfl, rfl, by omega⟩, rfl⟩

/-- One byte takes the reader where it takes the stream, if it gets through it. -/
theorem readChar (follows : Follows placed src msg i shape)
    (tail : src.dataStream.drop i = ch :: rest)
    (outcome : src.readChar msg i ch = .ok (src', msg')) :
    Follows placed src' msg' (i + 1) (shape.step ch) ∧ src'.dataStream = src.dataStream := by
  obtain ⟨part, verb, url, state⟩ := shape
  cases part with
  | verb =>
      obtain ⟨started, inside, verb_eq, url_eq, state_eq, inPart⟩ := follows
      have below : i < src.dataStream.length := lt_length_of_drop_eq_cons tail
      simp only [MessageSourceGny.readChar, show src.state = .initVerb from inPart] at outcome
      cases outcome
      exact ⟨⟨le_rfl, below, rfl, url_eq, state_eq, rfl, segment_self _ _, by simp⟩, rfl⟩
  | url text => exact follows.readChar_url tail outcome
  | status field => exact follows.readChar_status tail outcome
  | flag => exact follows.readChar_flag tail outcome
  | key => exact follows.readChar_key tail outcome
  | ownValue => exact follows.readChar_ownValue tail outcome
  | value code => exact follows.readChar_value tail outcome
  | size field => exact follows.readChar_size tail outcome
  | piece left => exact follows.readChar_piece tail outcome
  | done =>
      obtain ⟨started, inside, verb_eq, url_eq, state_eq, inPart⟩ := follows
      have below : i < src.dataStream.length := lt_length_of_drop_eq_cons tail
      simp only [MessageSourceGny.readChar, show src.state = .done from inPart] at outcome
      cases outcome
      exact ⟨⟨by omega, below, verb_eq, url_eq, state_eq, inPart⟩, rfl⟩

theorem done_iff (follows : Follows placed src msg i shape) :
    src.state = .done ↔ shape.part = .done := by
  obtain ⟨part, verb, url, state⟩ := shape
  obtain ⟨-, -, -, -, -, inPart⟩ := follows
  cases part with
  | verb | flag | done => simp [show src.state = _ from inPart]
  | _ => simp [inPart.1]

/-- A loop over a word follows the stream.  It takes fewer bytes only at the end of the message,
where the others lead nowhere. -/
theorem readLoop {word : Str} {j : Nat} (follows : Follows placed src msg i shape) {rest : Str}
    (tail : src.dataStream.drop i = word ++ rest)
    (outcome : src.readLoop msg i word = .ok (j, src', msg')) :
    Follows placed src' msg' j (word.foldl .step shape) ∧ src'.dataStream = src.dataStream ∧
      ∃ count, j = i + count ∧ (word.take count).foldl .step shape = word.foldl .step shape ∧
        (count = word.length ∨ src'.state = .done) ∧ count ≤ word.length := by
  induction word generalizing src msg i shape with
  | nil =>
      cases outcome
      exact ⟨follows, rfl, 0, rfl, rfl, Or.inl rfl, le_rfl⟩
  | cons ch word ih =>
      rw [MessageSourceGny.readLoop] at outcome
      split at outcome
      · rename_i ended
        cases outcome
        have stays := GnyShape.foldl_step_done (follows.done_iff.mp ended) (ch :: word)
        exact ⟨by rwa [stays], rfl, 0, rfl, stays.symm, Or.inr ended, Nat.zero_le _⟩
      · split at outcome
        · cases outcome
        · rename_i next msg₁ char_eq
          rcases follows.readChar tail char_eq with ⟨follows₁, same₁⟩
          have tail₁ : next.dataStream.drop (i + 1) = word ++ rest := by
            rw [same₁, ← List.drop_drop, tail]
            rfl
          rcases ih follows₁ tail₁ outcome with ⟨follows₂, same₂, count, rfl, cut, stop, most⟩
          refine ⟨follows₂, same₂.trans same₁, count + 1, by omega, cut, ?_, ?_⟩
          · simpa using stop
          · simpa using most

/-- A finished reader no longer cares for its position. -/
theorem at_end (follows : Follows placed src msg i shape)
    (stop : i = src.dataStream.length ∨ src.state = .done) :
    Follows placed src msg src.dataStream.length shape := by
  rcases stop with rfl | ended
  · exact follows
  · have part := follows.done_iff.mp ended
    have inPart := follows.part
    rw [part] at inPart
    refine ⟨follows.started.trans follows.inside, le_rfl, follows.verb, follows.url,
      follows.state, ?_⟩
    rw [part]
    exact inPart

/-- Handing over a piece of entity keeps the place. -/
theorem flushEntity (follows : Follows placed src msg src.dataStream.length shape)
    (outcome : src.flushEntity msg = .ok (src', msg')) :
    Follows placed src' msg' src'.dataStream.length shape ∧ src'.dataStream = src.dataStream := by
  rw [MessageSourceGny.flushEntity] at outcome
  split at outcome
  · rename_i entity
    obtain ⟨next, appended, outcome⟩ := bind_eq_ok.mp outcome
    obtain ⟨-, rfl⟩ := HttpMessage.appendEntity_eq_ok.mp appended
    cases outcome
    obtain ⟨part, verb, url, state⟩ := shape
    obtain ⟨-, -, verb_eq, url_eq, state_eq, inPart⟩ := follows
    refine ⟨⟨le_rfl, le_rfl, verb_eq, url_eq, state_eq, ?_⟩, rfl⟩
    cases part with
    | piece left => exact inPart
    | verb | flag | done => exact absurd (entity.symm.trans inPart) (by decide)
    | _ => exact absurd (entity.symm.trans inPart.1) (by decide)
  · cases outcome
    exact ⟨follows, rfl⟩

/-- Re-basing keeps the place, though not the position of a value. -/
theorem rebase (follows : Follows placed src msg src.dataStream.length shape) :
    Follows False src.rebase msg src.rebase.dataStream.length shape := by
  obtain ⟨part, verb, url, state⟩ := shape
  obtain ⟨started, -, verb_eq, url_eq, state_eq, inPart⟩ := follows
  by_cases unmoved : src.pos = 0
  · have same : src.rebase = src := by simp [MessageSourceGny.rebase, unmoved]
    rw [same]
    refine ⟨started, le_rfl, verb_eq, url_eq, state_eq, ?_⟩
    cases part with
    | ownValue => exact ⟨inPart.1, inPart.2.1, False.elim⟩
    | _ => exact inPart
  · have moved : src.rebase = { src with dataStream := src.dataStream.drop src.pos, pos := 0 } := by
      simp [MessageSourceGny.rebase, unmoved]
    have field_eq : src.rebase.field src.rebase.dataStream.length =
        src.field src.dataStream.length := by
      rw [moved, MessageSourceGny.field, MessageSourceGny.field, segment_length, segment_length,
        List.drop_zero]
    refine ⟨by simp [moved], le_rfl, verb_eq, url_eq, state_eq, ?_⟩
    cases part with
    | ownValue =>
        rw [moved]
        exact ⟨inPart.1, inPart.2.1, False.elim⟩
    | url text | status field | size field =>
        refine ⟨?_, field_eq.trans inPart.2.1, inPart.2.2⟩
        rw [moved]
        exact inPart.1
    | _ =>
        rw [moved]
        exact inPart

/-- Bytes that arrive behind the current position change nothing yet. -/
theorem append (follows : Follows placed src msg src.dataStream.length shape) (piece : Str) :
    Follows placed (src.opened piece) msg src.dataStream.length shape := by
  obtain ⟨part, verb, url, state⟩ := shape
  obtain ⟨started, -, verb_eq, url_eq, state_eq, inPart⟩ := follows
  have field_eq : (src.opened piece).field src.dataStream.length =
      src.field src.dataStream.length :=
    segment_append le_rfl piece
  refine ⟨started, by simp [MessageSourceGny.opened], verb_eq, url_eq, state_eq, ?_⟩
  cases part with
  | url text | status field | size field => exact ⟨inPart.1, field_eq.trans inPart.2.1, inPart.2.2⟩
  | _ => exact inPart

theorem unplaced (follows : Follows placed src msg i shape) : Follows False src msg i shape := by
  obtain ⟨part, verb, url, state⟩ := shape
  obtain ⟨started, inside, verb_eq, url_eq, state_eq, inPart⟩ := follows
  refine ⟨started, inside, verb_eq, url_eq, state_eq, ?_⟩
  cases part with
  | ownValue => exact ⟨inPart.1, inPart.2.1, False.elim⟩
  | _ => exact inPart

/-- One call follows the stream, and where it takes fewer bytes the others lead nowhere. -/
theorem read {piece : Str} {count : Nat} {reader next : MessageSourceGny × HttpMessage}
    (follows : Follows placed reader.1 reader.2 reader.1.dataStream.length shape)
    (outcome : MessageSourceGny.read reader piece = .ok (next, count)) :
    Follows False next.1 next.2 next.1.dataStream.length (piece.foldl .step shape) ∧
      (piece.take count).foldl .step shape = piece.foldl .step shape := by
  simp only [MessageSourceGny.read] at outcome
  split at outcome
  · rename_i empty
    cases outcome
    rw [empty]
    exact ⟨follows.unplaced, rfl⟩
  · obtain ⟨⟨j, src₁, msg₁⟩, loop_eq, outcome⟩ := bind_eq_ok.mp outcome
    obtain ⟨⟨src₂, msg₂⟩, flush_eq, outcome⟩ := bind_eq_ok.mp outcome
    cases outcome
    have place : (reader.1.dataStream ++ piece).length - piece.length =
        reader.1.dataStream.length := by
      simp
    rw [place] at loop_eq
    have tail : (reader.1.opened piece).dataStream.drop reader.1.dataStream.length =
        piece ++ [] := by
      simp [MessageSourceGny.opened]
    rcases (follows.append piece).readLoop tail loop_eq
      with ⟨follows₁, same₁, taken, rfl, cut, stop, most⟩
    have length₁ : src₁.dataStream.length = reader.1.dataStream.length + piece.length := by
      rw [same₁, MessageSourceGny.opened, List.length_append]
    rcases (follows₁.at_end (stop.imp_left fun all => by omega)).flushEntity flush_eq with
      ⟨follows₂, same₂⟩
    have count_eq : piece.length - (src₂.dataStream.length - (reader.1.dataStream.length + taken)) =
        taken := by
      rw [same₂, length₁]
      omega
    rw [count_eq]
    exact ⟨follows₂.rebase, cut⟩

end Follows

/-! ## Streams whose codes are in range -/

/-- A reader between two calls, with the bytes that it has taken from the stream. -/
inductive Taken (isRequest : Bool) : Str → MessageSourceGny × HttpMessage → Prop
  | start : Taken isRequest [] (.create isRequest, .fresh isRequest)
  | read {bytes piece : Str} {reader next : MessageSourceGny × HttpMessage} {count : Nat} :
      Taken isRequest bytes reader → MessageSourceGny.read reader piece = .ok (next, count) →
      Taken isRequest (bytes ++ piece.take count) next
  /-- A sink takes out of the message what the message holds. -/
  | drained {bytes : Str} {src : MessageSourceGny} {msg : HttpMessage} (headers footers : Fields)
      (entity : Str) :
      Taken isRequest bytes (src, msg) →
      Taken isRequest bytes (src, { msg with headers, footers, entity })

/-- In every reading of the stream, whatever the pieces in which it arrives, the codes that are
looked up are in the tables. -/
structure CodesInRange (isRequest : Bool) (stream : Str) : Prop where
  headers : ∀ bytes reader piece, Taken isRequest bytes reader → bytes ++ piece <+: stream →
    ∀ front ch back, piece = front ++ ch :: back → ∀ j src msg,
      MessageSourceGny.readLoop (reader.1.opened piece) reader.2 reader.1.dataStream.length front =
        .ok (j, src, msg) →
      ∀ code, src.lookedUp ch = some code → code < headerUnknown
  verbs : ∀ bytes reader, Taken isRequest bytes reader → bytes <+: stream →
    ∀ code, MessageSink11.lookedUp reader.2 = some code → code < verbUnknown

/-- A value ends in the stream under a code that is no header's. -/
def MisnamesHeader (isRequest : Bool) (stream : Str) : Prop :=
  ∃ front back code, stream = front ++ 0 :: back ∧
    (GnyShape.after isRequest front).part = .value code ∧ ¬code < headerUnknown

/-- The stream is that of a request with a code that is no verb's and a url. -/
def MisnamesVerb (isRequest : Bool) (stream : Str) : Prop :=
  isRequest = true ∧ ∃ verb url back, stream = verb :: (url ++ 0 :: back) ∧ 0 ∉ url ∧ url ≠ [] ∧
    verbUnknown < verb

/-- A call fills the message, whose direction stays. -/
theorem isRequest_read {reader next : MessageSourceGny × HttpMessage} {piece : Str} {count : Nat}
    (outcome : MessageSourceGny.read reader piece = .ok (next, count)) :
    next.2.isRequest = reader.2.isRequest := by
  rcases MessageSourceGny.uniform_read reader.1 piece reader.2 _ outcome with
    ⟨done, updates, -, same⟩
  rcases same reader.2 (.refl _) with ⟨msg, filled, outcome'⟩
  cases outcome.symm.trans outcome'
  exact (HttpMessage.Extends.fill filled).isRequest

/-- A reader follows the stream that it takes. -/
theorem Taken.follows {isRequest : Bool} {bytes : Str} {reader : MessageSourceGny × HttpMessage}
    (taken : Taken isRequest bytes reader) :
    reader.2.isRequest = isRequest ∧
      Follows False reader.1 reader.2 reader.1.dataStream.length
        (GnyShape.after isRequest bytes) := by
  induction taken with
  | start => exact ⟨rfl, Follows.start isRequest []⟩
  | read _ outcome ih =>
      rcases ih with ⟨kind, follows⟩
      constructor
      · exact (isRequest_read outcome).trans kind
      · rcases follows.read outcome with ⟨next, cut⟩
        rwa [GnyShape.after, List.foldl_append, ← GnyShape.after, cut]
  | drained headers footers entity _ ih =>
      rcases ih with ⟨kind, started, inside, verb, url, state, part⟩
      exact ⟨kind, started, inside, verb, url, state, part⟩

/-- Within a call the reader follows the stream as well. -/
theorem Taken.follows_within {isRequest : Bool} {bytes front back : Str}
    {reader : MessageSourceGny × HttpMessage} (taken : Taken isRequest bytes reader) {j : Nat}
    {src : MessageSourceGny} {msg : HttpMessage}
    (loop_eq : MessageSourceGny.readLoop (reader.1.opened (front ++ back)) reader.2
      reader.1.dataStream.length front = .ok (j, src, msg)) :
    Follows False src msg j (GnyShape.after isRequest (bytes ++ front)) := by
  have tail : (reader.1.opened (front ++ back)).dataStream.drop reader.1.dataStream.length =
      front ++ back := by
    simp [MessageSourceGny.opened]
  rcases (taken.follows.2.append (front ++ back)).readLoop tail loop_eq with ⟨follows, -⟩
  rwa [GnyShape.after, List.foldl_append]

namespace Follows

variable {placed : Prop} {src : MessageSourceGny} {msg : HttpMessage} {i : Nat} {shape : GnyShape}

/-- What is looked up on a byte is the code of the value that the byte ends. -/
theorem lookedUp_iff (follows : Follows placed src msg i shape) (ch code : UInt8) :
    src.lookedUp ch = some code ↔ ch = 0 ∧ shape.part = .value code := by
  obtain ⟨part, verb, url, state⟩ := shape
  have inPart := follows.part
  simp only [MessageSourceGny.lookedUp, Option.ite_none_right_eq_some, Option.some.injEq]
  cases part with
  | value code' =>
      rcases inPart with ⟨headerValue, rfl, known⟩
      simp [headerValue, known]
  | ownValue => simp [inPart.1, inPart.2.1]
  | verb | flag | done => simp [show src.state = _ from inPart]
  | _ => simp [inPart.1]

/-- A reader that strays although its positions are right looks up a code beyond the table. -/
theorem lookedUp_of_strays (follows : Follows True src msg i shape) {ch : UInt8}
    (strays : src.Strays ch) :
    ∃ code, src.lookedUp ch = some code ∧ ¬code < headerUnknown := by
  obtain ⟨part, verb, url, state⟩ := shape
  rcases strays with ⟨headerValue, nul, beyond⟩
  by_cases unknown : src.key = headerUnknown
  · rw [if_pos unknown] at beyond
    have inside := follows.inside
    have inPart := follows.part
    cases part with
    | ownValue =>
        have position := inPart.2.2 trivial
        omega
    | value code => exact absurd (inPart.2.1.symm.trans unknown) inPart.2.2
    | verb | flag | done => exact absurd (headerValue.symm.trans inPart) (by decide)
    | _ => exact absurd (headerValue.symm.trans inPart.1) (by decide)
  · rw [if_neg unknown] at beyond
    refine ⟨src.key, by simp [MessageSourceGny.lookedUp, headerValue, nul, unknown], ?_⟩
    intro known
    rcases headertoa_of_lt known with ⟨name, named⟩
    cases beyond.symm.trans named

end Follows

section Forward

variable {isRequest : Bool} {stream : Str}

/-- Where a value ends under a code that is no header's, such a code is looked up. -/
theorem not_codesInRange_of_misnamesHeader (misnames : MisnamesHeader isRequest stream) :
    ¬CodesInRange isRequest stream := by
  rintro ⟨headers, -⟩
  rcases misnames with ⟨front, back, code, rfl, part, beyond⟩
  have looked := headers [] _ (front ++ 0 :: back) .start (List.prefix_refl _)
  have begins : MessageSourceGny.InStep ((MessageSourceGny.create isRequest).opened
      (front ++ 0 :: back)) (.fresh isRequest) 0 := by
    refine ⟨?_, le_rfl, Nat.zero_le _⟩
    cases isRequest <;> rfl
  have follows : Follows True ((MessageSourceGny.create isRequest).opened (front ++ 0 :: back))
      (.fresh isRequest) 0 (GnyShape.fresh isRequest) := Follows.start isRequest _
  have room : 0 + front.length ≤ ((MessageSourceGny.create isRequest).opened
      (front ++ 0 :: back)).dataStream.length := by
    rw [MessageSourceGny.opened, MessageSourceGny.create, List.length_append, List.length_append]
    omega
  rcases MessageSourceGny.readLoop_inStep begins room with
    ⟨j, src, msg, loop_eq, -⟩ | ⟨-, before, ch, after, j, src, msg, rfl, loop_eq, strays⟩
  · have tail : ((MessageSourceGny.create isRequest).opened
        (front ++ 0 :: back)).dataStream.drop 0 = front ++ 0 :: back := rfl
    rcases follows.readLoop tail loop_eq with ⟨there, -⟩
    exact beyond (looked front 0 back rfl j src msg loop_eq code
      ((there.lookedUp_iff 0 code).mpr ⟨rfl, part⟩))
  · -- The reader strays before, where it looks up a code beyond the table as well.
    have tail : ((MessageSourceGny.create isRequest).opened
        ((before ++ ch :: after) ++ 0 :: back)).dataStream.drop 0 =
          before ++ (ch :: after ++ 0 :: back) := by
      simp [MessageSourceGny.opened, MessageSourceGny.create]
    rcases follows.readLoop tail loop_eq with ⟨there, -⟩
    rcases there.lookedUp_of_strays strays with ⟨code', looked', beyond'⟩
    exact beyond' (looked before ch (after ++ 0 :: back) (by simp) j src msg loop_eq code' looked')

/-- A verb that is none's is looked up once the url is there. -/
theorem not_codesInRange_of_misnamesVerb (misnames : MisnamesVerb isRequest stream) :
    ¬CodesInRange isRequest stream := by
  rintro ⟨headers, verbs⟩
  rcases misnames with ⟨rfl, verb, url, back, rfl, clean, some, beyond⟩
  have whole : verb :: (url ++ [0]) <+: verb :: (url ++ 0 :: back) := ⟨back, by simp⟩
  have settled : MessageSourceGny.Settled (.create true) (HttpMessage.fresh true).state :=
    ⟨rfl, le_rfl⟩
  rcases @MessageSourceGny.read_inStep (.create true, .fresh true) settled (verb :: (url ++ [0]))
    with ⟨next, count, outcome, -⟩ | ⟨-, before, ch, after, j, src, msg, shape, loop_eq, strays⟩
  · have started : Follows False (MessageSourceGny.create true) (HttpMessage.fresh true) 0
        (GnyShape.fresh true) := Follows.start true []
    rcases @Follows.read _ _ _ _ (.create true, .fresh true) _ started outcome with ⟨follows, -⟩
    have there : (verb :: (url ++ [0])).foldl .step (GnyShape.fresh true) =
        { part := .flag, verb, url } := by
      have within := GnyShape.after_url verb clean
      rw [← List.cons_append, List.foldl_append, ← GnyShape.after, within]
      rfl
    rw [there] at follows
    have kind : next.2.isRequest = true := isRequest_read outcome
    have looked : MessageSink11.lookedUp next.2 = Option.some verb := by
      have known : verb ≠ verbUnknown := fun equality => by
        rw [equality] at beyond
        exact absurd beyond (by decide)
      simp [MessageSink11.lookedUp, kind, follows.verb, follows.url, some, known]
    have below := verbs _ next (.read .start outcome)
      ((List.take_prefix _ _).trans whole) verb looked
    exact UInt8.lt_irrefl _ (UInt8.lt_trans below beyond)
  · have follows : Follows True ((MessageSourceGny.create true).opened (verb :: (url ++ [0])))
        (.fresh true) 0 (GnyShape.fresh true) := Follows.start true _
    have tail : ((MessageSourceGny.create true).opened (verb :: (url ++ [0]))).dataStream.drop 0 =
        before ++ ch :: after := by
      simpa [MessageSourceGny.opened, MessageSourceGny.create] using shape
    rcases follows.readLoop tail loop_eq with ⟨there, -⟩
    rcases there.lookedUp_of_strays strays with ⟨code, looked, outside⟩
    exact outside (headers [] _ _ .start whole before ch after shape j src msg loop_eq code looked)

end Forward

/-- Every code that a reading of the stream looks up is in its table exactly if no value ends in
the stream under a code that is no header's, and the stream is no request with a url under a code
that is no verb's. -/
theorem codesInRange_iff (isRequest : Bool) (stream : Str) :
    CodesInRange isRequest stream ↔
      ¬MisnamesHeader isRequest stream ∧ ¬MisnamesVerb isRequest stream := by
  constructor
  · intro inRange
    exact ⟨fun misnames => not_codesInRange_of_misnamesHeader misnames inRange,
      fun misnames => not_codesInRange_of_misnamesVerb misnames inRange⟩
  · rintro ⟨named, verbed⟩
    constructor
    · rintro bytes reader piece taken ⟨later, rfl⟩ front ch back rfl j src msg loop_eq code lookedUp
      have follows := taken.follows_within loop_eq
      rcases (follows.lookedUp_iff ch code).mp lookedUp with ⟨rfl, part⟩
      by_contra beyond
      exact named ⟨bytes ++ front, back ++ later, code, by simp, part, beyond⟩
    · rintro bytes reader taken ⟨later, rfl⟩ code lookedUp
      rcases taken.follows with ⟨kind, follows⟩
      simp only [MessageSink11.lookedUp, Option.ite_none_right_eq_some, Option.some.injEq]
        at lookedUp
      rcases lookedUp with ⟨⟨request, url, known⟩, rfl⟩
      obtain rfl : isRequest = true := kind.symm.trans request
      rw [follows.url] at url
      rw [follows.verb] at known ⊢
      rcases (GnyShape.spells_after bytes).of_url url with ⟨back, shape, clean⟩
      by_contra beyond
      have whole := congrArg (· ++ later) shape
      simp only [List.cons_append, List.append_assoc] at whole
      exact verbed ⟨rfl, _, _, back ++ later, whole, clean, url,
        UInt8.lt_of_le_of_ne (UInt8.not_lt.mp beyond) known.symm⟩

/-- A response whose header has the code 200. -/
theorem not_codesInRange_response : ¬CodesInRange false [0, 200, 200, 120, 0] :=
  not_codesInRange_of_misnamesHeader ⟨[0, 200, 200, 120], [], 200, rfl, by decide, by decide⟩

end GnyProxy
