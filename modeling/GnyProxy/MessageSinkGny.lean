import GnyProxy.Common
import GnyProxy.Http
import GnyProxy.MessageProgress

/-!
# The GNY writer

`message_sink_gny` and the layout of what it writes.  The length of an entity is narrowed to an
`int` before the entity is split, so the layout is reached only for drains below two gigabytes.
-/

namespace GnyProxy

structure MessageSinkGny where
  writeState : MessageState := .header
  dataStream : Str := []
  init : Bool := false
  deriving DecidableEq

namespace MessageSinkGny

/-- The verb and url of a request, or the status of a response, unless they are not known yet. -/
def firstLine (msg : HttpMessage) : Option Str :=
  if msg.isRequest then
    if msg.url = [] ∨ msg.verb = verbUnknown then none
    else some (writeString [msg.verb] msg.url)
  else
    let status := toInt16 msg.status
    if status = -1 then none else some (writeShort [] status)

/-- `add_key_value_pair`. -/
def addKeyValuePair (dataStream : Str) (field : Str × Str) : Str :=
  let redKey := atoheader field.1
  let dataStream := dataStream ++ [redKey]
  let dataStream := if redKey = headerUnknown then writeString dataStream field.1 else dataStream
  writeString dataStream field.2

/-- The loop that splits an entity.  The index is an `int`: as an unsigned number a negative one
is beyond every size, and a negative count takes all that follows.  Every iteration but one with
count zero moves the index, so more iterations than bytes mean that the loop never ends. -/
def splitEntityLoop (moreEntity : Str) : Nat → Int → Str → Except Fault Str
  | 0, _, _ => .error .nonTermination
  | fuel + 1, i, dataStream =>
      if 0 ≤ i ∧ i < moreEntity.length then
        let size := min (toInt32 moreEntity.length - i) 65535
        let rest := moreEntity.drop i.toNat
        let piece := if 0 ≤ size then rest.take size.toNat else rest
        splitEntityLoop moreEntity fuel (i + size) (writeShort dataStream size ++ piece)
      else
        .ok dataStream

def splitEntity (dataStream moreEntity : Str) : Except Fault Str :=
  splitEntityLoop moreEntity (moreEntity.length + 1) 0 dataStream

/-- The first line is written once it is known; until then there is nothing to do. -/
def begin (sink : MessageSinkGny) (msg : HttpMessage) : Option MessageSinkGny :=
  if sink.writeState = .header ∧ sink.init = false then
    match firstLine msg with
    | none => none
    | some line => some { sink with dataStream := sink.dataStream ++ line, init := true }
  else
    some sink

def sendHeaders (sink : MessageSinkGny) (msg : HttpMessage) : MessageSinkGny × HttpMessage :=
  if sink.writeState = .header then
    let dataStream := msg.headers.foldl addKeyValuePair sink.dataStream
    let sink :=
      if msg.state ≠ .header then
        { sink with dataStream := dataStream ++ [headerEnd], writeState := .entity }
      else
        { sink with dataStream }
    (sink, msg.clearHeaders)
  else
    (sink, msg)

def sendEntity (sink : MessageSinkGny) (msg : HttpMessage) :
    Except Fault (MessageSinkGny × HttpMessage) :=
  if sink.writeState = .entity then do
    let dataStream ← splitEntity sink.dataStream msg.entity
    let sink :=
      if msg.state ≠ .entity then
        { sink with dataStream := writeShort dataStream 0, writeState := .footer }
      else
        { sink with dataStream }
    .ok (sink, msg.clearEntity)
  else
    .ok (sink, msg)

def sendFooters (sink : MessageSinkGny) (msg : HttpMessage) : MessageSinkGny × HttpMessage :=
  if sink.writeState = .footer then
    let dataStream := msg.footers.foldl addKeyValuePair sink.dataStream
    let sink :=
      if msg.state ≠ .footer then
        { sink with dataStream := dataStream ++ [headerEnd], writeState := .done }
      else
        { sink with dataStream }
    (sink, msg.clearFooters)
  else
    (sink, msg)

/-- The part of `check_for_update` behind the first line. -/
def sendAvailable (sink : MessageSinkGny) (msg : HttpMessage) :
    Except Fault (MessageSinkGny × HttpMessage) := do
  let (sink, msg) := sink.sendHeaders msg
  let (sink, msg) ← sink.sendEntity msg
  .ok (sink.sendFooters msg)

/-- `check_for_update`: take what the message has and put it into the stream. -/
def checkForUpdate (sink : MessageSinkGny) (msg : HttpMessage) :
    Except Fault (MessageSinkGny × HttpMessage) :=
  if sink.writeState.rank ≤ msg.state.rank then
    match sink.begin msg with
    | none => .ok (sink, msg)
    | some sink => sink.sendAvailable msg
  else
    .error .assertion

/-- `get_write_size`. -/
def getWriteSize (sink : MessageSinkGny) (msg : HttpMessage) :
    Except Fault ((MessageSinkGny × HttpMessage) × Nat) := do
  let (sink, msg) ← sink.checkForUpdate msg
  .ok ((sink, msg), sink.dataStream.length)

/-- `write`, where `send` takes at most `amount` bytes; the answer has the bytes that were sent. -/
def write (sink : MessageSinkGny) (msg : HttpMessage) (maxWrite amount : Nat) :
    Except Fault ((MessageSinkGny × HttpMessage) × Str) := do
  let ((sink, msg), size) ← sink.getWriteSize msg
  let amountSent := min amount (min size maxWrite)
  .ok (({ sink with dataStream := sink.dataStream.drop amountSent }, msg),
    sink.dataStream.take amountSent)

/-! ## The layout of the stream -/

/-- The pieces into which an entity is split. -/
def pieces (entity : Str) : List Str :=
  if entity = [] then [] else entity.take 65535 :: pieces (entity.drop 65535)
termination_by entity.length
decreasing_by
  rename_i nonempty
  have := List.length_pos_iff.mpr nonempty
  simp only [List.length_drop]
  omega

theorem flatten_pieces (entity : Str) : (pieces entity).flatten = entity := by
  induction entity using pieces.induct with
  | case1 => simp [pieces]
  | case2 entity nonempty ih =>
      rw [pieces, if_neg nonempty, List.flatten_cons, ih, List.take_append_drop]

theorem splits_pieces (entity : Str) : ∀ piece ∈ pieces entity,
    piece ≠ [] ∧ piece.length ≤ 65535 := by
  intro piece member
  induction entity using pieces.induct with
  | case1 => simp [pieces] at member
  | case2 entity nonempty ih =>
      rw [pieces, if_neg nonempty, List.mem_cons] at member
      obtain rfl | member := member
      · exact ⟨by simpa using nonempty, by simp⟩
      · exact ih member

/-- A header or footer field on the wire. -/
def fieldBytes (field : Str × Str) : Str := addKeyValuePair [] field

def fieldsBytes (fields : Fields) : Str := fields.flatMap fieldBytes

/-- A piece of entity behind its size. -/
def pieceBytes (piece : Str) : Str := shortBytes piece.length ++ piece

def piecesBytes (pieces : List Str) : Str := pieces.flatMap pieceBytes

/-- The stream of a message of which `progress` has been taken. -/
def stream (first : Str) (progress : Progress) : Str :=
  first ++ fieldsBytes progress.headers ++
    (if 1 ≤ progress.writeState.rank then headerEnd :: piecesBytes progress.pieces else []) ++
    (if 2 ≤ progress.writeState.rank then 0 :: 0 :: fieldsBytes progress.footers else []) ++
    if 3 ≤ progress.writeState.rank then [headerEnd] else []

theorem addKeyValuePair_eq (dataStream : Str) (field : Str × Str) :
    addKeyValuePair dataStream field = dataStream ++ fieldBytes field := by
  by_cases unknown : atoheader field.1 = headerUnknown <;>
    simp [fieldBytes, addKeyValuePair, writeString, unknown]

theorem foldl_addKeyValuePair (fields : Fields) (dataStream : Str) :
    fields.foldl addKeyValuePair dataStream = dataStream ++ fieldsBytes fields := by
  induction fields generalizing dataStream with
  | nil => simp [fieldsBytes]
  | cons field fields ih =>
      rw [List.foldl_cons, ih, addKeyValuePair_eq, List.append_assoc]
      rfl

/-- Below two gigabytes the loop ends and writes the pieces. -/
theorem splitEntityLoop_eq {moreEntity : Str} (small : moreEntity.length < 2 ^ 31)
    {fuel start : Nat} (enough : moreEntity.length < fuel + start)
    (inside : start ≤ moreEntity.length) (dataStream : Str) :
    splitEntityLoop moreEntity fuel start dataStream =
      .ok (dataStream ++ piecesBytes (pieces (moreEntity.drop start))) := by
  induction fuel generalizing start dataStream with
  | zero => omega
  | succ fuel ih =>
      have narrow : toInt32 moreEntity.length = moreEntity.length := by
        rw [toInt32, Int.bmod_eq_of_le] <;> omega
      rw [splitEntityLoop]
      by_cases more : start < moreEntity.length
      · rw [if_pos (by omega), narrow]
        have nonempty : moreEntity.drop start ≠ [] := by simpa using more
        have rest_length : (moreEntity.drop start).length = moreEntity.length - start :=
          List.length_drop
        -- The piece taken in this iteration, and the text behind it.
        obtain ⟨piece, piece_def⟩ : ∃ piece, (moreEntity.drop start).take 65535 = piece := ⟨_, rfl⟩
        have piece_length : piece.length = min (moreEntity.length - start) 65535 := by
          rw [← piece_def, List.length_take, rest_length, min_comm]
        have size_eq : min ((moreEntity.length : Int) - start) 65535 = (piece.length : Int) := by
          rw [piece_length]
          omega
        have taken : (moreEntity.drop start).take piece.length = piece := by
          rw [piece_length, ← rest_length, min_comm, ← List.take_eq_take_min, piece_def]
        have behind : moreEntity.drop (start + piece.length) =
            (moreEntity.drop start).drop 65535 := by
          rw [← List.drop_drop]
          by_cases long : 65535 ≤ moreEntity.length - start
          · rw [show piece.length = 65535 by omega]
          · rw [List.drop_eq_nil_of_le (by omega), List.drop_eq_nil_of_le (by omega)]
        have split : pieces (moreEntity.drop start) =
            piece :: pieces (moreEntity.drop (start + piece.length)) := by
          rw [pieces, if_neg nonempty, piece_def, behind]
        simp only [size_eq, Int.toNat_natCast, Int.natCast_nonneg, if_true, taken]
        rw [← Int.natCast_add, ih (by omega) (by omega), split]
        simp [piecesBytes, pieceBytes, writeShort]
      · rw [if_neg (by omega), List.drop_eq_nil_of_le (by omega)]
        simp [pieces, piecesBytes]

theorem splitEntity_eq {moreEntity : Str} (small : moreEntity.length < 2 ^ 31)
    (dataStream : Str) :
    splitEntity dataStream moreEntity = .ok (dataStream ++ piecesBytes (pieces moreEntity)) := by
  simpa [splitEntity] using splitEntityLoop_eq small (by omega) (Nat.zero_le _) dataStream

/-! ## The sink writes that layout -/

/-- The size of a piece fits into a short and is not the zero that ends an entity. -/
def Splits (pieces : List Str) : Prop := ∀ piece ∈ pieces, piece ≠ [] ∧ piece.length ≤ 65535

/-- A sink past its first line has put the stream of its progress out, the last part of it still
in its buffer. -/
structure Written (first sent : Str) (sink : MessageSinkGny) (progress : Progress) : Prop where
  init : sink.init = true
  writeState : sink.writeState = progress.writeState
  stream : sent ++ sink.dataStream = stream first progress
  splits : Splits progress.pieces

/-- What a sink has written of a message: nothing before the first line is known, and the stream
of its progress from then on. -/
def Represents (sent : Str) (sink : MessageSinkGny) (progress : Progress) (whole : HttpMessage) :
    Prop :=
  (sent = [] ∧ sink = {} ∧ progress = {}) ∨
    ∃ first, firstLine whole = some first ∧ Written first sent sink progress

section Rounds

variable {first sent : Str} {sink : MessageSinkGny} {progress : Progress} {msg whole : HttpMessage}

/-- What is put into the buffer comes behind the stream. -/
theorem Written.extend (written : Written first sent sink progress) (more : Str) :
    sent ++ (sink.dataStream ++ more) = MessageSinkGny.stream first progress ++ more := by
  rw [← List.append_assoc, written.stream]

theorem Written.sendHeaders (written : Written first sent sink progress)
    (accounts : Accounts progress msg whole) :
    (sink.sendHeaders msg).2 = (progress.headerRound msg).2 ∧
      Written first sent (sink.sendHeaders msg).1 (progress.headerRound msg).1 := by
  by_cases here : progress.writeState = .header
  · have pieces := accounts.noPieces (by simp [here])
    have footers := accounts.noneTaken (by simp [here])
    simp only [MessageSinkGny.sendHeaders, Progress.headerRound, written.writeState, here, if_true,
      foldl_addKeyValuePair, true_and]
    by_cases stays : msg.state = .header
    · refine ⟨by simp [stays, written.init], by simp [stays], ?_, written.splits⟩
      simp [stays, written.extend, MessageSinkGny.stream, here, fieldsBytes]
    · refine ⟨by simp [stays, written.init], by simp [stays], ?_, written.splits⟩
      simp [stays, written.extend, MessageSinkGny.stream, here, fieldsBytes, pieces, piecesBytes]
  · simp only [MessageSinkGny.sendHeaders, Progress.headerRound, written.writeState, here,
      if_false]
    exact ⟨trivial, written⟩

theorem Written.sendEntity (written : Written first sent sink progress)
    (accounts : Accounts progress msg whole) (small : msg.entity.length < 2 ^ 31) :
    ∃ sink', sink.sendEntity msg = .ok (sink', (progress.entityRound pieces msg).2) ∧
      Written first sent sink' (progress.entityRound pieces msg).1 := by
  by_cases here : progress.writeState = .entity
  · have footers := accounts.noneTaken (by simp [here])
    simp only [MessageSinkGny.sendEntity, Progress.entityRound, written.writeState, here, if_true,
      splitEntity_eq small, ok_bind]
    have splits : Splits (progress.pieces ++ pieces msg.entity) := by
      intro piece member
      exact (List.mem_append.mp member).elim (written.splits piece) (splits_pieces msg.entity piece)
    refine ⟨_, rfl, ?_⟩
    by_cases stays : msg.state = .entity
    · refine ⟨by simp [stays, written.init], by simp [stays], ?_, splits⟩
      simp [stays, written.extend, MessageSinkGny.stream, here, piecesBytes]
    · refine ⟨by simp [stays, written.init], by simp [stays], ?_, splits⟩
      have zero : shortBytes 0 = [0, 0] := by decide
      simp [stays, written.extend, MessageSinkGny.stream, here, fieldsBytes, footers, piecesBytes,
        writeShort, zero]
  · simp only [MessageSinkGny.sendEntity, Progress.entityRound, written.writeState, here,
      if_false]
    exact ⟨sink, rfl, written⟩

theorem Written.sendFooters (written : Written first sent sink progress) (msg : HttpMessage) :
    (sink.sendFooters msg).2 = (progress.footerRound msg).2 ∧
      Written first sent (sink.sendFooters msg).1 (progress.footerRound msg).1 := by
  by_cases here : progress.writeState = .footer
  · simp only [MessageSinkGny.sendFooters, Progress.footerRound, written.writeState, here, if_true,
      foldl_addKeyValuePair, true_and]
    by_cases stays : msg.state = .footer
    · refine ⟨by simp [stays, written.init], by simp [stays], ?_, written.splits⟩
      simp [stays, written.extend, MessageSinkGny.stream, here, fieldsBytes]
    · refine ⟨by simp [stays, written.init], by simp [stays], ?_, written.splits⟩
      simp [stays, written.extend, MessageSinkGny.stream, here, fieldsBytes]
  · simp only [MessageSinkGny.sendFooters, Progress.footerRound, written.writeState, here,
      if_false]
    exact ⟨trivial, written⟩

theorem Written.sendAvailable (written : Written first sent sink progress)
    (accounts : Accounts progress msg whole) (small : msg.entity.length < 2 ^ 31) :
    ∃ sink', sink.sendAvailable msg = .ok (sink', (progress.round pieces msg).2) ∧
      Written first sent sink' (progress.round pieces msg).1 := by
  obtain ⟨header_eq, written₁⟩ := written.sendHeaders accounts
  have small₁ : (progress.headerRound msg).2.entity.length < 2 ^ 31 := by
    by_cases here : progress.writeState = .header <;>
      simpa [Progress.headerRound, here, HttpMessage.clearHeaders] using small
  obtain ⟨sink₂, entity_eq, written₂⟩ := written₁.sendEntity accounts.headerRound small₁
  obtain ⟨footer_eq, written₃⟩ := written₂.sendFooters
    ((progress.headerRound msg).1.entityRound pieces (progress.headerRound msg).2).2
  refine ⟨_, ?_, written₃⟩
  simp only [MessageSinkGny.sendAvailable, header_eq, entity_eq, ok_bind]
  exact congrArg Except.ok (Prod.ext rfl footer_eq)

/-- A check takes one round of the message and keeps the sink in step with it. -/
theorem Represents.checkForUpdate (represents : Represents sent sink progress whole)
    (accounts : Accounts progress msg whole) (small : msg.entity.length < 2 ^ 31) :
    ∃ sink' progress' msg', sink.checkForUpdate msg = .ok (sink', msg') ∧
      Represents sent sink' progress' whole ∧ Accounts progress' msg' whole ∧
      (firstLine whole ≠ none → progress'.writeState = whole.state) ∧
      ∀ piece ∈ progress'.pieces, piece ∈ progress.pieces ∨ piece ∈ pieces msg.entity := by
  have behind : sink.writeState.rank ≤ msg.state.rank := by
    obtain ⟨-, rfl, rfl⟩ | ⟨first, -, written⟩ := represents
    · simp
    · rw [written.writeState]
      exact accounts.behind
  rw [MessageSinkGny.checkForUpdate, if_pos behind]
  obtain ⟨rfl, rfl, rfl⟩ | ⟨first, known, written⟩ := represents
  · have same := accounts.eq_whole
    subst same
    cases known : firstLine msg with
    | none =>
        exact ⟨{}, {}, msg, by simp [begin, known], Or.inl ⟨rfl, rfl, rfl⟩, accounts, by simp,
          by simp⟩
    | some first =>
        have begun : Written first [] { dataStream := first, init := true } {} :=
          ⟨rfl, rfl, by simp [MessageSinkGny.stream, fieldsBytes], by simp [Splits]⟩
        obtain ⟨sink', send_eq, written⟩ := begun.sendAvailable accounts small
        exact ⟨sink', _, _, by simpa [begin, known] using send_eq,
          Or.inr ⟨first, known, written⟩, accounts.round flatten_pieces,
          fun _ => accounts.round_writeState, fun piece => Accounts.mem_round_pieces⟩
  · obtain ⟨sink', send_eq, written'⟩ := written.sendAvailable accounts small
    exact ⟨sink', _, _, by simpa [begin, written.init] using send_eq,
      Or.inr ⟨first, known, written'⟩, accounts.round flatten_pieces,
      fun _ => accounts.round_writeState, fun piece => Accounts.mem_round_pieces⟩

end Rounds

end MessageSinkGny
end GnyProxy
