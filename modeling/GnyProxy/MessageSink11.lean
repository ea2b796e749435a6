import GnyProxy.Common
import GnyProxy.Http
import GnyProxy.MessageProgress
import GnyProxy.MessageSource11

/-!
# The HTTP/1.1 writer

`message_sink_11` and the layout of what it writes.  The framing of the entity is taken from the
headers that pass by; without one the blank line is held back until it is known whether there is
an entity, which is then chunked.
-/

namespace GnyProxy

structure MessageSink11 where
  isInit : Bool := false
  packetStr : Str := []
  writeState : MessageState := .header
  entityMode : Int := entityUnknown
  deriving DecidableEq

/-- A carriage return and a line feed. -/
def crlf : Str := [13, 10]

namespace MessageSink11

/-- The first line, unless it is not known yet.  The name of a verb beyond the table is read out
of bounds. -/
def firstLine (msg : HttpMessage) : Except Fault (Option Str) :=
  if msg.isRequest then
    if msg.url = [] ∨ msg.verb = verbUnknown then .ok none
    else
      match verbtoa msg.verb with
      | none => .error .outOfBounds
      | some verb => .ok (some (verb ++ [32] ++ urlEncode msg.url ++ ascii " HTTP/1.1" ++ crlf))
  else if msg.status ≠ -1 then
    .ok (some (ascii "HTTP/1.1 " ++ printInt msg.status ++ ascii " FIXME" ++ crlf))
  else
    .ok none

/-- The entity mode behind a header. -/
def modeAfter (entityMode : Int) (header : Str × Str) : Int :=
  if strcasecmp header.1 (ascii "Transfer-Encoding") = 0 then
    if strcasecmp header.2 (ascii "chunked") = 0 then entityChunked else entityMode
  else if entityMode = entityUnknown ∧ strcasecmp header.1 (ascii "Content-Length") = 0 then
    if (strtoll header.2).2 then entityUnknown else (strtoll header.2).1
  else
    entityMode

/-- A header or footer line. -/
def fieldLine (field : Str × Str) : Str := field.1 ++ ascii ": " ++ field.2 ++ crlf

/-- The first line is written once it is known; until then there is nothing to do. -/
def begin (sink : MessageSink11) (msg : HttpMessage) : Except Fault (Option MessageSink11) :=
  if sink.writeState = .header ∧ sink.isInit = false then do
    match ← firstLine msg with
    | none => .ok none
    | some line => .ok (some { sink with packetStr := sink.packetStr ++ line, isInit := true })
  else
    .ok (some sink)

def sendHeader (sink : MessageSink11) (header : Str × Str) : MessageSink11 :=
  { sink with
    entityMode := modeAfter sink.entityMode header
    packetStr := sink.packetStr ++ fieldLine header }

def sendHeaders (sink : MessageSink11) (msg : HttpMessage) : MessageSink11 × HttpMessage :=
  if sink.writeState = .header then
    let sink := msg.headers.foldl sendHeader sink
    if msg.state ≠ .header then
      ({ sink with
        packetStr := sink.packetStr ++ if sink.entityMode ≠ entityUnknown then crlf else []
        writeState := .entity }, msg.clearHeaders)
    else
      (sink, msg.clearHeaders)
  else
    (sink, msg)

/-- A piece of entity, in the framing that is decided by now. -/
def sendPiece (sink : MessageSink11) (entity : Str) : MessageSink11 :=
  let sink :=
    if sink.entityMode = entityUnknown then
      { sink with
        packetStr := sink.packetStr ++ ascii "Transfer-Encoding: chunked" ++ crlf ++ crlf
        entityMode := entityChunked }
    else
      sink
  if sink.entityMode = entityChunked then
    { sink with
      packetStr := sink.packetStr ++ printHex entity.length ++ crlf ++ entity ++ crlf }
  else if 0 ≤ sink.entityMode then
    { sink with
      entityMode := if sink.entityMode < entity.length then 0 else sink.entityMode - entity.length
      packetStr := sink.packetStr ++ entity }
  else
    sink

def sendEntity (sink : MessageSink11) (msg : HttpMessage) : MessageSink11 × HttpMessage :=
  if sink.writeState = .entity then
    let sink := if msg.entity ≠ [] then sink.sendPiece msg.entity else sink
    if msg.state ≠ .entity then
      ({ sink with
        packetStr := sink.packetStr ++
          if sink.entityMode = entityUnknown then crlf
          else if sink.entityMode = entityChunked then ascii "0" ++ crlf
          else []
        writeState := .footer }, msg.clearEntity)
    else
      (sink, msg.clearEntity)
  else
    (sink, msg)

def sendFooters (sink : MessageSink11) (msg : HttpMessage) : MessageSink11 × HttpMessage :=
  if sink.writeState = .footer then
    let packetStr :=
      if sink.entityMode = entityChunked then
        msg.footers.foldl (fun packetStr footer => packetStr ++ fieldLine footer) sink.packetStr
      else
        sink.packetStr
    if msg.state = .done then
      ({ sink with
        packetStr := packetStr ++ if sink.entityMode = entityChunked then crlf else []
        writeState := .done }, msg.clearFooters)
    else
      ({ sink with packetStr }, msg.clearFooters)
  else
    (sink, msg)

/-- The part of `check_for_update` behind the first line. -/
def sendAvailable (sink : MessageSink11) (msg : HttpMessage) : MessageSink11 × HttpMessage :=
  let (sink, msg) := sink.sendHeaders msg
  let (sink, msg) := sink.sendEntity msg
  sink.sendFooters msg

/-- `check_for_update`: take what the message has and put it into the packet. -/
def checkForUpdate (sink : MessageSink11) (msg : HttpMessage) :
    Except Fault (MessageSink11 × HttpMessage) := do
  match ← sink.begin msg with
  | none => .ok (sink, msg)
  | some sink => .ok (sink.sendAvailable msg)

/-- `get_write_size`. -/
def getWriteSize (sink : MessageSink11) (msg : HttpMessage) :
    Except Fault ((MessageSink11 × HttpMessage) × Nat) := do
  let (sink, msg) ← sink.checkForUpdate msg
  .ok ((sink, msg), sink.packetStr.length)

/-- `write`, where `send` takes at most `amount` bytes; the answer has the bytes that were sent. -/
def write (sink : MessageSink11) (msg : HttpMessage) (maxWrite amount : Nat) :
    Except Fault ((MessageSink11 × HttpMessage) × Str) := do
  let ((sink, msg), size) ← sink.getWriteSize msg
  let amountSent := min amount (min size maxWrite)
  .ok (({ sink with packetStr := sink.packetStr.drop amountSent }, msg),
    sink.packetStr.take amountSent)

/-! ## The layout of the stream -/

/-- The framing that the headers of a message decide on. -/
def framing (headers : Fields) : Int := headers.foldl modeAfter entityUnknown

/-- The pieces in which an entity is sent: all that is there at once. -/
def pieces (entity : Str) : List Str := if entity = [] then [] else [entity]

theorem mem_pieces {piece entity : Str} : piece ∈ pieces entity ↔ entity ≠ [] ∧ piece = entity := by
  by_cases empty : entity = [] <;> simp [pieces, empty]

theorem flatten_pieces (entity : Str) : (pieces entity).flatten = entity := by
  by_cases empty : entity = [] <;> simp [pieces, empty]

def fieldLines (fields : Fields) : Str := fields.flatMap fieldLine

/-- A piece of entity as a chunk. -/
def chunk (piece : Str) : Str := printHex piece.length ++ crlf ++ piece ++ crlf

def chunks (pieces : List Str) : Str := pieces.flatMap chunk

/-- The line that the sink adds when it decides to chunk. -/
def chunkedLine : Str := ascii "Transfer-Encoding: chunked" ++ crlf

/-- Chunks, the closing chunk and the trailer. -/
def chunkedBody (progress : Progress) : Str :=
  chunks progress.pieces ++
    (if 2 ≤ progress.writeState.rank then
      ascii "0" ++ crlf ++ fieldLines progress.footers else []) ++
    if 3 ≤ progress.writeState.rank then crlf else []

/-- What follows the header lines, in the framing that they decide on. -/
def body (framing : Int) (progress : Progress) : Str :=
  if framing = entityUnknown then
    if progress.pieces = [] then
      if 2 ≤ progress.writeState.rank then crlf else []
    else
      chunkedLine ++ crlf ++ chunkedBody progress
  else if framing = entityChunked then
    crlf ++ chunkedBody progress
  else if 0 ≤ framing then
    crlf ++ progress.pieces.flatten
  else
    crlf

/-- The stream of a message of which `progress` has been taken. -/
def stream (first : Str) (progress : Progress) : Str :=
  first ++ fieldLines progress.headers ++
    if 1 ≤ progress.writeState.rank then body (framing progress.headers) progress else []

theorem foldl_sendHeader (headers : Fields) (sink : MessageSink11) :
    headers.foldl sendHeader sink =
      { sink with
        entityMode := headers.foldl modeAfter sink.entityMode
        packetStr := sink.packetStr ++ fieldLines headers } := by
  induction headers generalizing sink with
  | nil => simp [fieldLines]
  | cons header headers ih => simp [ih, sendHeader, fieldLines]

theorem foldl_fieldLine (footers : Fields) (packetStr : Str) :
    footers.foldl (fun packetStr footer => packetStr ++ fieldLine footer) packetStr =
      packetStr ++ fieldLines footers := by
  induction footers generalizing packetStr with
  | nil => simp [fieldLines]
  | cons footer footers ih => simp [ih, fieldLines]

theorem framing_append (left right : Fields) :
    framing (left ++ right) = right.foldl modeAfter (framing left) := by
  rw [framing, framing, List.foldl_append]

/-! ## The sink writes that layout -/

/-- The entity mode of a sink behind the header section, when `pieces` of the entity were sent. -/
def Frames (framing : Int) (pieces : List Str) (entityMode : Int) : Prop :=
  if framing = entityUnknown then
    entityMode = if pieces = [] then entityUnknown else entityChunked
  else if 0 ≤ framing then
    0 ≤ entityMode
  else
    entityMode = framing

theorem frames_self (framing : Int) : Frames framing [] framing := by
  unfold Frames
  split
  · simp_all
  · split <;> simp_all

/-- No piece is empty: an empty chunk would end the entity. -/
def Splits (pieces : List Str) : Prop := ∀ piece ∈ pieces, piece ≠ []

theorem Splits.flatten_eq_nil {pieces : List Str} (splits : Splits pieces) :
    pieces.flatten = [] ↔ pieces = [] := by
  rw [List.flatten_eq_nil_iff]
  refine ⟨fun empty => ?_, fun none => by simp [none]⟩
  exact List.eq_nil_iff_forall_not_mem.mpr fun piece member =>
    splits piece member (empty piece member)

/-- A sink past its first line has put the stream of its progress out, the last part of it still
in its buffer, and frames the entity as the headers say. -/
structure Written (first sent : Str) (sink : MessageSink11) (progress : Progress) : Prop where
  isInit : sink.isInit = true
  writeState : sink.writeState = progress.writeState
  stream : sent ++ sink.packetStr = stream first progress
  undecided : progress.writeState = .header → sink.entityMode = framing progress.headers
  frames : Frames (framing progress.headers) progress.pieces sink.entityMode
  splits : Splits progress.pieces

/-- What a sink has written of a message: nothing before the first line is known, and the stream
of its progress from then on. -/
def Represents (sent : Str) (sink : MessageSink11) (progress : Progress) (whole : HttpMessage) :
    Prop :=
  (sent = [] ∧ sink = {} ∧ progress = {}) ∨
    ∃ first, firstLine whole = .ok (some first) ∧ Written first sent sink progress

section Rounds

variable {first sent : Str} {sink : MessageSink11} {progress : Progress} {msg whole : HttpMessage}

/-- What is put into the packet comes behind the stream. -/
theorem Written.extend (written : Written first sent sink progress) (more : Str) :
    sent ++ (sink.packetStr ++ more) = MessageSink11.stream first progress ++ more := by
  rw [← List.append_assoc, written.stream]

theorem Written.sendHeaders (written : Written first sent sink progress)
    (accounts : Accounts progress msg whole) :
    (sink.sendHeaders msg).2 = (progress.headerRound msg).2 ∧
      Written first sent (sink.sendHeaders msg).1 (progress.headerRound msg).1 := by
  by_cases here : progress.writeState = .header
  · have pieces := accounts.noPieces (by simp [here])
    have footers := accounts.noneTaken (by simp [here])
    have mode := written.undecided here
    have frames : Frames (framing (progress.headers ++ msg.headers)) progress.pieces
        (msg.headers.foldl modeAfter sink.entityMode) := by
      rw [pieces, mode, ← framing_append]
      exact frames_self _
    simp only [MessageSink11.sendHeaders, Progress.headerRound, written.writeState, here, if_true,
      foldl_sendHeader]
    by_cases stays : msg.state = .header
    · simp only [stays, ne_eq, not_true_eq_false, if_false, if_true, true_and]
      refine ⟨written.isInit, rfl, ?_, ?_, frames, written.splits⟩
      · simp [written.extend, MessageSink11.stream, here, fieldLines]
      · intro
        rw [mode, ← framing_append]
    · simp only [stays, ne_eq, not_false_iff, if_false, if_true, true_and]
      refine ⟨written.isInit, rfl, ?_, by simp, frames, written.splits⟩
      rw [mode, ← framing_append]
      by_cases unknown : framing (progress.headers ++ msg.headers) = entityUnknown
      · simp [written.extend, MessageSink11.stream, here, fieldLines, body, unknown, pieces]
      · simp [written.extend, MessageSink11.stream, here, fieldLines, body, unknown, pieces,
          chunkedBody, chunks]
  · simp only [MessageSink11.sendHeaders, Progress.headerRound, written.writeState, here,
      if_false, true_and]
    exact written

/-- A piece of entity goes behind the body in the framing that is decided by then. -/
theorem Written.sendPiece (written : Written first sent sink progress)
    (here : progress.writeState = .entity) {entity : Str} (nonempty : entity ≠ []) :
    Written first sent (sink.sendPiece entity)
      { progress with pieces := progress.pieces ++ [entity] } := by
  have frames := written.frames
  have splits : Splits (progress.pieces ++ [entity]) := by
    intro piece member
    obtain member | member := List.mem_append.mp member
    · exact written.splits piece member
    · rwa [List.mem_singleton.mp member]
  unfold Frames at frames
  by_cases unknown : framing progress.headers = entityUnknown
  · simp only [unknown, if_true] at frames
    by_cases first_piece : progress.pieces = []
    · simp only [first_piece, if_true] at frames
      have shape : sink.sendPiece entity = { sink with
          packetStr := sink.packetStr ++ (chunkedLine ++ crlf ++ chunk entity)
          entityMode := entityChunked } := by
        simp [MessageSink11.sendPiece, frames, chunkedLine, chunk]
      rw [shape]
      refine ⟨written.isInit, written.writeState, ?_, by simp [here], ?_, splits⟩
      · simp [written.extend, MessageSink11.stream, here, body, unknown, first_piece, chunkedBody,
          chunks]
      · simp [Frames, unknown]
    · simp only [first_piece, if_false] at frames
      have shape : sink.sendPiece entity = { sink with
          packetStr := sink.packetStr ++ chunk entity } := by
        simp [MessageSink11.sendPiece, frames, chunk, entityChunked, entityUnknown]
      rw [shape]
      refine ⟨written.isInit, written.writeState, ?_, by simp [here], ?_, splits⟩
      · simp [written.extend, MessageSink11.stream, here, body, unknown, first_piece, chunkedBody,
          chunks]
      · simp [Frames, unknown, frames]
  · simp only [unknown, if_false] at frames
    by_cases fixed : 0 ≤ framing progress.headers
    · simp only [fixed, if_true] at frames
      have known : sink.entityMode ≠ entityUnknown := by
        rw [entityUnknown]
        omega
      have plain : sink.entityMode ≠ entityChunked := by
        rw [entityChunked]
        omega
      have plain' : framing progress.headers ≠ entityChunked := by
        rw [entityChunked]
        omega
      have shape : sink.sendPiece entity = { sink with
          packetStr := sink.packetStr ++ entity
          entityMode := if sink.entityMode < entity.length then 0
            else sink.entityMode - entity.length } := by
        simp [MessageSink11.sendPiece, known, plain, frames]
      rw [shape]
      refine ⟨written.isInit, written.writeState, ?_, by simp [here], ?_, splits⟩
      · simp [written.extend, MessageSink11.stream, here, body, unknown, plain', fixed]
      · simp only [Frames, unknown, if_false, fixed, if_true]
        split <;> omega
    · simp only [fixed, if_false] at frames
      by_cases chunked : framing progress.headers = entityChunked
      · rw [chunked] at frames
        have shape : sink.sendPiece entity = { sink with
            packetStr := sink.packetStr ++ chunk entity } := by
          simp [MessageSink11.sendPiece, frames, chunk, entityChunked, entityUnknown]
        rw [shape]
        refine ⟨written.isInit, written.writeState, ?_, by simp [here], ?_, splits⟩
        · simp [written.extend, MessageSink11.stream, here, body, chunked, chunkedBody, chunks,
            entityChunked, entityUnknown]
        · rw [Frames, if_neg unknown, if_neg fixed, chunked]
          exact frames
      · have shape : sink.sendPiece entity = sink := by
          simp [MessageSink11.sendPiece, frames, unknown, chunked, fixed]
        rw [shape]
        refine ⟨written.isInit, written.writeState, ?_, by simp [here], ?_, splits⟩
        · simp [written.stream, MessageSink11.stream, here, body, unknown, chunked, fixed]
        · simp only [Frames, unknown, if_false, fixed, frames]

/-- Behind the last piece the entity is closed as its framing wants it. -/
theorem Written.endEntity (written : Written first sent sink progress)
    (here : progress.writeState = .entity) (footers : progress.footers = []) :
    Written first sent { sink with
      packetStr := sink.packetStr ++
        if sink.entityMode = entityUnknown then crlf
        else if sink.entityMode = entityChunked then ascii "0" ++ crlf
        else []
      writeState := .footer } { progress with writeState := .footer } := by
  have frames := written.frames
  refine ⟨written.isInit, rfl, ?_, by simp, written.frames, written.splits⟩
  unfold Frames at frames
  rw [written.extend]
  by_cases unknown : framing progress.headers = entityUnknown
  · simp only [unknown, if_true] at frames
    by_cases none : progress.pieces = []
    · simp only [none, if_true] at frames
      simp [frames, MessageSink11.stream, here, body, unknown, none]
    · simp only [none, if_false] at frames
      simp [frames, MessageSink11.stream, here, body, unknown, none, chunkedBody, footers,
        fieldLines, entityChunked, entityUnknown]
  · simp only [unknown, if_false] at frames
    by_cases fixed : 0 ≤ framing progress.headers
    · simp only [fixed, if_true] at frames
      have known : sink.entityMode ≠ entityUnknown := by
        rw [entityUnknown]
        omega
      have plain : sink.entityMode ≠ entityChunked := by
        rw [entityChunked]
        omega
      have plain' : framing progress.headers ≠ entityChunked := by
        rw [entityChunked]
        omega
      simp [known, plain, plain', MessageSink11.stream, here, body, unknown, fixed]
    · simp only [fixed, if_false] at frames
      by_cases chunked : framing progress.headers = entityChunked
      · rw [chunked] at frames
        simp [frames, MessageSink11.stream, here, body, chunked, chunkedBody, footers, fieldLines,
          entityChunked, entityUnknown]
      · simp [frames, MessageSink11.stream, here, body, unknown, chunked, fixed]

theorem Written.sendEntity (written : Written first sent sink progress)
    (accounts : Accounts progress msg whole) :
    (sink.sendEntity msg).2 = (progress.entityRound pieces msg).2 ∧
      Written first sent (sink.sendEntity msg).1 (progress.entityRound pieces msg).1 := by
  by_cases here : progress.writeState = .entity
  · have footers := accounts.noneTaken (by simp [here])
    simp only [MessageSink11.sendEntity, Progress.entityRound, written.writeState, here, if_true]
    obtain ⟨sink₁, sink₁_def⟩ :
        ∃ sink₁, (if msg.entity ≠ [] then sink.sendPiece msg.entity else sink) = sink₁ := ⟨_, rfl⟩
    have written₁ : Written first sent sink₁
        { progress with pieces := progress.pieces ++ pieces msg.entity } := by
      rw [← sink₁_def]
      by_cases empty : msg.entity = []
      · simpa [empty, pieces] using written
      · simpa [empty, pieces] using written.sendPiece here empty
    rw [sink₁_def]
    by_cases stays : msg.state = .entity
    · simpa [stays, here] using written₁
    · simpa [stays] using written₁.endEntity here footers
  · simp only [MessageSink11.sendEntity, Progress.entityRound, written.writeState, here,
      if_false, true_and]
    exact written

/-- In the footer section, whether the sink chunks says how the body goes on. -/
theorem Written.chunked_iff (written : Written first sent sink progress) :
    sink.entityMode = entityChunked ↔
      framing progress.headers = entityChunked ∨
        framing progress.headers = entityUnknown ∧ progress.pieces ≠ [] := by
  have frames := written.frames
  unfold Frames at frames
  by_cases unknown : framing progress.headers = entityUnknown
  · by_cases none : progress.pieces = [] <;>
      simp_all [entityChunked, entityUnknown]
  · simp only [unknown, if_false] at frames
    by_cases fixed : 0 ≤ framing progress.headers
    · simp only [fixed, if_true] at frames
      simp only [unknown, false_and, or_false, entityChunked]
      omega
    · simp only [fixed, if_false] at frames
      simp [frames, unknown]

/-- The body of a chunked message. -/
theorem body_chunked {framing : Int} {progress : Progress}
    (chunked : framing = entityChunked ∨ framing = entityUnknown ∧ progress.pieces ≠ []) :
    body framing progress =
      (if framing = entityUnknown then chunkedLine else []) ++ crlf ++ chunkedBody progress := by
  obtain rfl | ⟨rfl, some⟩ := chunked
  · simp [body, entityChunked, entityUnknown]
  · simp [body, some]

/-- The body of any other message is complete with its entity. -/
theorem body_plain {framing : Int} {progress progress' : Progress}
    (plain : ¬(framing = entityChunked ∨ framing = entityUnknown ∧ progress.pieces ≠ []))
    (same : progress.pieces = progress'.pieces) (ended : 2 ≤ progress.writeState.rank)
    (ended' : 2 ≤ progress'.writeState.rank) : body framing progress = body framing progress' := by
  simp only [not_or, not_and, not_not] at plain
  simp only [body, plain.1, if_false, ended, ended', if_true, ← same]
  by_cases unknown : framing = entityUnknown
  · simp [unknown, plain.2 unknown]
  · simp [unknown]

theorem Written.sendFooters (written : Written first sent sink progress)
    (accounts : Accounts progress msg whole) :
    (sink.sendFooters msg).2 = (progress.footerRound msg).2 ∧
      Written first sent (sink.sendFooters msg).1 (progress.footerRound msg).1 := by
  by_cases here : progress.writeState = .footer
  · have behind := accounts.behind
    rw [here] at behind
    have stays_iff : msg.state = .footer ↔ ¬msg.state = .done := by
      cases state : msg.state <;> simp [state] at behind ⊢
    have chunked_iff := written.chunked_iff
    simp only [MessageSink11.sendFooters, Progress.footerRound, written.writeState, here, if_true,
      foldl_fieldLine]
    by_cases chunked : sink.entityMode = entityChunked
    · have shape (progress' : Progress) (same : progress'.pieces = progress.pieces) :
          body (framing progress.headers) progress' =
            (if framing progress.headers = entityUnknown then chunkedLine else []) ++ crlf ++
              chunkedBody progress' :=
        body_chunked (by rw [same]; exact chunked_iff.mp chunked)
      by_cases ended : msg.state = .done
      · simp only [ended, if_true, chunked, reduceCtorEq, if_false, true_and]
        refine ⟨written.isInit, rfl, ?_, by simp, by simpa [chunked] using written.frames,
          written.splits⟩
        simp [written.extend, MessageSink11.stream, here, shape, chunkedBody, fieldLines]
      · simp only [chunked, if_true, stays_iff.mpr ended, reduceCtorEq, if_false, true_and]
        refine ⟨written.isInit, rfl, ?_, by simp, by simpa [chunked] using written.frames,
          written.splits⟩
        simp [written.extend, MessageSink11.stream, here, shape, chunkedBody, fieldLines]
    · have shape (progress' : Progress) (same : progress.pieces = progress'.pieces)
          (ended : 2 ≤ progress'.writeState.rank) :
          body (framing progress.headers) progress' = body (framing progress.headers) progress :=
        (body_plain (mt chunked_iff.mpr chunked) same (by simp [here]) ended).symm
      by_cases ended : msg.state = .done
      · simp only [ended, if_true, chunked, reduceCtorEq, if_false, true_and, List.append_nil]
        refine ⟨written.isInit, rfl, ?_, by simp, written.frames, written.splits⟩
        have same := shape
          { progress with writeState := .done, footers := progress.footers ++ msg.footers } rfl
          (by simp)
        simp [written.stream, MessageSink11.stream, here, same]
      · simp only [chunked, if_true, stays_iff.mpr ended, reduceCtorEq, if_false, true_and]
        refine ⟨written.isInit, rfl, ?_, by simp, written.frames, written.splits⟩
        have same := shape
          { progress with writeState := .footer, footers := progress.footers ++ msg.footers } rfl
          (by simp)
        simp [written.stream, MessageSink11.stream, here, same]
  · simp only [MessageSink11.sendFooters, Progress.footerRound, written.writeState, here,
      if_false, true_and]
    exact written

theorem Written.sendAvailable (written : Written first sent sink progress)
    (accounts : Accounts progress msg whole) :
    (sink.sendAvailable msg).2 = (progress.round pieces msg).2 ∧
      Written first sent (sink.sendAvailable msg).1 (progress.round pieces msg).1 := by
  obtain ⟨header_eq, written₁⟩ := written.sendHeaders accounts
  obtain ⟨entity_eq, written₂⟩ := written₁.sendEntity accounts.headerRound
  obtain ⟨footer_eq, written₃⟩ :=
    written₂.sendFooters (accounts.headerRound.entityRound flatten_pieces)
  simp only [MessageSink11.sendAvailable, header_eq, entity_eq]
  exact ⟨footer_eq, written₃⟩

/-- A check takes one round of the message and keeps the sink in step with it. -/
theorem Represents.checkForUpdate (represents : Represents sent sink progress whole)
    (accounts : Accounts progress msg whole) {line : Option Str}
    (known : firstLine whole = .ok line) :
    ∃ sink' progress' msg', sink.checkForUpdate msg = .ok (sink', msg') ∧
      Represents sent sink' progress' whole ∧ Accounts progress' msg' whole ∧
      (line ≠ none → progress'.writeState = whole.state) ∧
      ∀ piece ∈ progress'.pieces, piece ∈ progress.pieces ∨ piece ∈ pieces msg.entity := by
  obtain ⟨rfl, rfl, rfl⟩ | ⟨first, known', written⟩ := represents
  · have same := accounts.eq_whole
    subst same
    cases line with
    | none =>
        exact ⟨{}, {}, msg, by simp [MessageSink11.checkForUpdate, begin, known],
          Or.inl ⟨rfl, rfl, rfl⟩, accounts, by simp, by simp⟩
    | some first =>
        have begun : Written first [] { packetStr := first, isInit := true } {} :=
          ⟨rfl, rfl, by simp [MessageSink11.stream, fieldLines], fun _ => rfl, frames_self _,
            by simp [Splits]⟩
        obtain ⟨msg_eq, written⟩ := begun.sendAvailable accounts
        refine ⟨_, _, _, ?_, Or.inr ⟨first, known, written⟩, accounts.round flatten_pieces,
          fun _ => accounts.round_writeState, fun piece => Accounts.mem_round_pieces⟩
        simp [MessageSink11.checkForUpdate, begin, known, ← msg_eq]
  · obtain ⟨msg_eq, written'⟩ := written.sendAvailable accounts
    refine ⟨_, _, _, ?_, Or.inr ⟨first, known', written'⟩, accounts.round flatten_pieces,
      fun _ => accounts.round_writeState, fun piece => Accounts.mem_round_pieces⟩
    simp [MessageSink11.checkForUpdate, begin, written.isInit, ← msg_eq]

end Rounds

end MessageSink11
end GnyProxy
