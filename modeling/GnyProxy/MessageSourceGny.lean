import GnyProxy.Common
import GnyProxy.HttpMessage

/-!
# The GNY reader

`message_source_gny`: a state machine over the buffered stream that remembers where the current
field began as positions into its buffer.  The buffer is re-based after every read.
-/

namespace GnyProxy

/-- The text a `const char*` into a buffer denotes; behind the terminator there is no such text. -/
def cStringAt (data : Str) (pos : Nat) : Except Fault Str :=
  if pos ≤ data.length then .ok (cStr (data.drop pos)) else .error .outOfBounds

/-- `headertoa` as the reader calls it, on a code that came from the wire. -/
def headerName (header : UInt8) : Except Fault Str :=
  match headertoa header with
  | some name => .ok name
  | none => .error .outOfBounds

/-- Add a field to the section that the message is in. -/
def HttpMessage.addField (msg : HttpMessage) (key value : Str) : Except Fault HttpMessage :=
  if msg.state = .header then msg.addHeader key value else msg.addFooter key value

/-- The states of the GNY reader. -/
inductive GnyState where
  | initVerb
  | initUrl
  | initStatus
  | headerStart
  | headerKey
  | headerValue
  | entityStart
  | entity
  | done
  deriving DecidableEq, Repr

/-- The reader's own data; the message it fills is passed along beside it. -/
structure MessageSourceGny where
  state : GnyState
  /-- Bytes that were read and are still needed. -/
  dataStream : Str := []
  /-- Where the value begins in a field with its own key, what is left of a piece of entity. -/
  substate : Nat := 0
  /-- Where the current field begins in the buffer. -/
  pos : Nat := 0
  key : UInt8 := headerUnknown
  deriving DecidableEq

namespace MessageSourceGny

/-- The constructor of a reader for a message. -/
def create (isRequest : Bool) : MessageSourceGny :=
  { state := if isRequest then .initVerb else .initStatus }

/-- One iteration of the reading loop, on the character at position `i` of the buffer. -/
def readChar (src : MessageSourceGny) (msg : HttpMessage) (i : Nat) (ch : UInt8) :
    Except Fault (MessageSourceGny × HttpMessage) :=
  match src.state with
  | .initVerb => .ok ({ src with state := .initUrl, pos := i + 1 }, msg.setVerb ch)
  | .initUrl =>
      if ch = 0 then do
        let url ← cStringAt src.dataStream src.pos
        .ok ({ src with state := .headerStart, pos := i + 1 }, msg.setUrl url)
      else
        .ok (src, msg)
  | .initStatus =>
      if src.pos + 1 = i then
        .ok ({ src with state := .headerStart, pos := i + 1 },
          msg.setStatus (readShort src.dataStream src.pos))
      else
        .ok (src, msg)
  | .headerStart =>
      if ch = headerEnd then
        if msg.state = .header then do
          let msg ← msg.endHeader
          .ok ({ src with key := ch, state := .entityStart, pos := i + 1 }, msg)
        else do
          let msg ← msg.endFooter
          .ok ({ src with key := ch, state := .done, pos := i + 1 }, msg)
      else if ch = headerUnknown then
        .ok ({ src with key := ch, state := .headerKey, pos := i + 1 }, msg)
      else
        .ok ({ src with key := ch, state := .headerValue, pos := i + 1 }, msg)
  | .headerKey =>
      if ch = 0 then
        .ok ({ src with state := .headerValue, substate := i + 1 }, msg)
      else
        .ok (src, msg)
  | .headerValue =>
      if ch = 0 then
        if src.key = headerUnknown then do
          let key ← cStringAt src.dataStream src.pos
          let value ← cStringAt src.dataStream src.substate
          let msg ← msg.addField key value
          .ok ({ src with pos := i + 1, state := .headerStart }, msg)
        else do
          let key ← headerName src.key
          let value ← cStringAt src.dataStream src.pos
          let msg ← msg.addField key value
          .ok ({ src with pos := i + 1, state := .headerStart }, msg)
      else
        .ok (src, msg)
  | .entityStart =>
      if src.pos + 1 = i then
        let size := readShort src.dataStream src.pos
        if size ≠ 0 then
          .ok ({ src with substate := size, pos := i + 1, state := .entity }, msg)
        else do
          let msg ← msg.endEntity
          .ok ({ src with substate := size, pos := i + 1, state := .headerStart }, msg)
      else
        .ok (src, msg)
  | .entity =>
      if src.substate - 1 = 0 then do
        let msg ← msg.appendEntity ((src.dataStream.drop src.pos).take (i - src.pos + 1))
        .ok ({ src with substate := 0, pos := i + 1, state := .entityStart }, msg)
      else
        .ok ({ src with substate := src.substate - 1 }, msg)
  | .done => .ok (src, msg)

/-- The reading loop over the characters from position `i` of the buffer on; the answer also says
at which position it stopped. -/
def readLoop (src : MessageSourceGny) (msg : HttpMessage) (i : Nat) :
    Str → Except Fault (Nat × MessageSourceGny × HttpMessage)
  | [] => .ok (i, src, msg)
  | ch :: rest =>
      if src.state = .done then
        .ok (i, src, msg)
      else
        match src.readChar msg i ch with
        | .error fault => .error fault
        | .ok (src, msg) => readLoop src msg (i + 1) rest

/-- Hand over the part of an unfinished piece of entity that has arrived. -/
def flushEntity (src : MessageSourceGny) (msg : HttpMessage) :
    Except Fault (MessageSourceGny × HttpMessage) :=
  if src.state = .entity then do
    let msg ← msg.appendEntity (src.dataStream.drop src.pos)
    .ok ({ src with pos := src.dataStream.length }, msg)
  else
    .ok (src, msg)

/-- Drop the bytes before the current field from the buffer. -/
def rebase (src : MessageSourceGny) : MessageSourceGny :=
  if src.pos ≠ 0 then { src with dataStream := src.dataStream.drop src.pos, pos := 0 } else src

/-- `message_source_gny::read`, where `rbuf` is what the peeking `recv` returned (nothing when it
failed).  The count is the number of bytes then taken off the socket, which is also the result of
the call.  The positions have no width here; `readInt` has that of the source. -/
def read (reader : MessageSourceGny × HttpMessage) (rbuf : Str) :
    Except Fault ((MessageSourceGny × HttpMessage) × Nat) :=
  if rbuf = [] then
    .ok (reader, 0)
  else do
    let src := { reader.1 with dataStream := reader.1.dataStream ++ rbuf }
    let (i, src, msg) ← readLoop src reader.2 (src.dataStream.length - rbuf.length) rbuf
    let (src, msg) ← src.flushEntity msg
    .ok ((src.rebase, msg), rbuf.length - (src.dataStream.length - i))

/-! ### The width of the positions -/

/-- `MAX_READ_SIZE`, the most that one `recv` returns. -/
def maxReadSize : Nat := 65536

/-- The reading loop with its position in an `int`, which cannot be increased behind `intMax`. -/
def readLoopInt (src : MessageSourceGny) (msg : HttpMessage) (i : Nat) :
    Str → Except Fault (Nat × MessageSourceGny × HttpMessage)
  | [] => .ok (i, src, msg)
  | ch :: rest =>
      if src.state = .done then
        .ok (i, src, msg)
      else
        match src.readChar msg i ch with
        | .error fault => .error fault
        | .ok (src, msg) =>
            if i < intMax then readLoopInt src msg (i + 1) rest else .error .overflow

/-- `message_source_gny::read` with its positions in `int`.  Behind a buffer that was longer than
`intMax` before, the first position turns negative: the loop is skipped, more bytes are asked for
than there are, and the last assertion of the call fails. -/
def readInt (reader : MessageSourceGny × HttpMessage) (rbuf : Str) :
    Except Fault ((MessageSourceGny × HttpMessage) × Nat) :=
  if rbuf = [] then
    .ok (reader, 0)
  else if intMax < reader.1.dataStream.length then
    .error .overflow
  else do
    let src := { reader.1 with dataStream := reader.1.dataStream ++ rbuf }
    let (i, src, msg) ← readLoopInt src reader.2 (src.dataStream.length - rbuf.length) rbuf
    let (src, msg) ← src.flushEntity msg
    .ok ((src.rebase, msg), rbuf.length - (src.dataStream.length - i))

end MessageSourceGny
end GnyProxy
