import GnyProxy.Common
import GnyProxy.Http
import GnyProxy.HttpMessage

/-!
# The HTTP/1.1 reader

`message_source_11`: first line, header lines, and an entity that is framed by its length or by
chunks.  Only the bytes of the unfinished line are kept between reads; where that line begins is
known within one read only.
-/

namespace GnyProxy

/-- `ENTITY_CHUNKED`. -/
def entityChunked : Int := -2

/-- `ENTITY_UNKNOWN`. -/
def entityUnknown : Int := -1

/-! ## Lines -/

/-- `get_token`: the token behind the blanks, and what follows it. -/
def getToken (line : Str) : Str × Str :=
  let text := line.dropWhile isspace
  (text.takeWhile (!isspace ·), text.dropWhile (!isspace ·))

/-- The second token of a first line: the url of a request, the code of a response. -/
def secondToken (line : Str) : Str := (getToken (getToken line).2).1

/-- `parse_request_line`.  An unknown protocol is reported and otherwise ignored. -/
def parseRequestLine (msg : HttpMessage) (line : Str) : HttpMessage :=
  (msg.setVerb (atoverb (getToken line).1)).setUrl (urlDecode (secondToken line))

/-- `parse_response_line`.  A code out of range is reported and otherwise ignored. -/
def parseResponseLine (msg : HttpMessage) (line : Str) : HttpMessage :=
  msg.setStatus (toInt32 (strtoll (secondToken line)).1)

def parseFirstLine (msg : HttpMessage) (line : Str) : HttpMessage :=
  if msg.isRequest then parseRequestLine msg line else parseResponseLine msg line

/-- The trimmed key and value of a line, if it has a colon. -/
def splitField (line : Str) : Option (Str × Str) :=
  if 58 ∈ line then
    some (trim (line.takeWhile (· ≠ 58)), trim ((line.dropWhile (· ≠ 58)).drop 1))
  else
    none

/-- The keys of header lines that are dropped. -/
def ignoredHeaders : List Str :=
  [ascii "Connection", ascii "Proxy-Connection", ascii "Keep-Alive", ascii "TE", ascii "Trailer"]

/-- `parse_header`, on the entity mode and the message. -/
def parseHeader (entityMode : Int) (msg : HttpMessage) (line : Str) :
    Except Fault (Int × HttpMessage) :=
  match splitField line with
  | none => .ok (entityMode, msg)
  | some (key, value) =>
      if strcasecmp key (ascii "Transfer-Encoding") = 0 then
        if strcasecmp value (ascii "chunked") = 0 then .ok (entityChunked, msg)
        else .ok (entityMode, msg)
      else if entityMode = entityUnknown ∧ strcasecmp key (ascii "Content-Length") = 0 then do
        let msg ← msg.addHeader key value
        .ok ((strtoll value).1, msg)
      else if ignoredHeaders.any (fun name => strcasecmp key name = 0) then
        .ok (entityMode, msg)
      else do
        let msg ← msg.addHeader key value
        .ok (entityMode, msg)

/-- `parse_footer`. -/
def parseFooter (msg : HttpMessage) (line : Str) : Except Fault HttpMessage :=
  match splitField line with
  | none => .ok msg
  | some (key, value) => msg.addFooter key value

/-! ### What a line adds -/

/-- The entity mode behind a header line: the last `Transfer-Encoding: chunked` or else the first
`Content-Length` decides. -/
def modeAfter (entityMode : Int) (field : Str × Str) : Int :=
  if strcasecmp field.1 (ascii "Transfer-Encoding") = 0 then
    if strcasecmp field.2 (ascii "chunked") = 0 then entityChunked else entityMode
  else if entityMode = entityUnknown ∧ strcasecmp field.1 (ascii "Content-Length") = 0 then
    (strtoll field.2).1
  else
    entityMode

/-- Header lines with this key are handed on. -/
def survives (key : Str) : Bool :=
  strcasecmp key (ascii "Transfer-Encoding") ≠ 0 &&
    !ignoredHeaders.any (fun name => strcasecmp key name = 0)

/-- A key equal to a literal up to case is equal to no other literal. -/
theorem strcasecmp_ne_zero {key left right : Str} (same : strcasecmp key left = 0)
    (differ : ¬SameFolded (cStr left) (cStr right)) : strcasecmp key right ≠ 0 := by
  intro other
  rw [strcasecmp_eq_zero] at same other
  exact differ (same.symm.trans other)

theorem survives_contentLength {key : Str} (same : strcasecmp key (ascii "Content-Length") = 0) :
    survives key = true := by
  have other : ∀ name ∈ ascii "Transfer-Encoding" :: ignoredHeaders, strcasecmp key name ≠ 0 := by
    intro name member
    refine strcasecmp_ne_zero same ?_
    revert name
    decide
  simp only [List.mem_cons, forall_eq_or_imp] at other
  simp only [survives, ne_eq, decide_not, Bool.and_eq_true, Bool.not_eq_true',
    decide_eq_false_iff_not, List.any_eq_false, decide_eq_true_eq]
  exact other

/-- In the header section a line with a colon changes the mode and adds a header if it survives. -/
theorem parseHeader_eq {entityMode : Int} {msg : HttpMessage} {line : Str} {field : Str × Str}
    (header : msg.state = .header) (split : splitField line = some field) :
    parseHeader entityMode msg line = .ok (modeAfter entityMode field,
      { msg with headers := msg.headers ++ if survives field.1 then [field] else [] }) := by
  obtain ⟨key, value⟩ := field
  simp only [parseHeader, split, modeAfter]
  by_cases transfer : strcasecmp key (ascii "Transfer-Encoding") = 0
  · have dropped : survives key = false := by simp [survives, transfer]
    simp only [transfer, if_true, dropped, Bool.false_eq_true, if_false, List.append_nil]
    split <;> rfl
  · simp only [transfer, if_false]
    by_cases length : entityMode = entityUnknown ∧ strcasecmp key (ascii "Content-Length") = 0
    · simp only [length, and_self, if_true, survives_contentLength length.2, HttpMessage.addHeader,
        header, ok_bind]
    · simp only [length, if_false]
      by_cases ignored : ignoredHeaders.any (fun name => strcasecmp key name = 0) = true
      · simp [ignored, survives]
      · have kept : survives key = true := by simp [survives, transfer, ignored]
        simp only [ignored, Bool.false_eq_true, if_false, kept, if_true, HttpMessage.addHeader,
          header, ok_bind]

theorem parseHeader_no_colon {line : Str} (split : splitField line = none) (entityMode : Int)
    (msg : HttpMessage) : parseHeader entityMode msg line = .ok (entityMode, msg) := by
  simp only [parseHeader, split]

/-- A header line never leaves the header section and never fails in it. -/
theorem parseHeader_ok {msg : HttpMessage} (header : msg.state = .header) (entityMode : Int)
    (line : Str) :
    ∃ mode next, parseHeader entityMode msg line = .ok (mode, next) ∧ next.state = .header := by
  cases split : splitField line with
  | none => exact ⟨entityMode, msg, parseHeader_no_colon split entityMode msg, header⟩
  | some field => exact ⟨_, _, parseHeader_eq header split, header⟩

theorem parseFooter_ok {msg : HttpMessage} (footer : msg.state = .footer) (line : Str) :
    ∃ next, parseFooter msg line = .ok next ∧ next.state = .footer := by
  cases split : splitField line with
  | none => exact ⟨msg, by simp only [parseFooter, split], footer⟩
  | some field =>
      exact ⟨{ msg with footers := msg.footers ++ [field] }, by
        simp only [parseFooter, split, HttpMessage.addFooter, footer, if_true], footer⟩

@[simp] theorem state_parseFirstLine (msg : HttpMessage) (line : Str) :
    (parseFirstLine msg line).state = msg.state := by
  unfold parseFirstLine
  split <;> rfl

/-! ## The state machine -/

/-- The states of the HTTP/1.1 reader. -/
inductive Source11State where
  | firstLine
  | headers
  | entity
  | done
  deriving DecidableEq, Repr

/-- What the reader keeps between reads; the message it fills is passed along beside it. -/
structure MessageSource11 where
  state : Source11State := .firstLine
  /-- The previous character. -/
  last : UInt8 := 0
  /-- Bytes that were read and are still needed. -/
  buf : Str := []
  entityMode : Int := entityUnknown
  /-- Within a chunked entity: 0 in a size, 1 behind its semicolon, 2 in a chunk, 3 in the
  trailer. -/
  entityState1 : Nat := 0
  /-- The size being read, or what is left of the chunk. -/
  entityState2 : BitVec 64 := 0
  deriving DecidableEq

namespace MessageSource11

/-- The reader and its message within one read. -/
structure Pass where
  src : MessageSource11
  msg : HttpMessage
  /-- Where the current line begins. -/
  pos : Nat := 0
  /-- Bytes of the entity that have not been handed over. -/
  entity : Str := []

namespace Pass

/-- `buf.substr(pos, i - pos - (last == '\r' ? 1 : 0))`.  The count is unsigned: one less than
zero reaches to the end of the buffer. -/
def line (pass : Pass) (i : Nat) : Str :=
  if pass.src.last = 13 then
    if pass.pos < i then (pass.src.buf.drop pass.pos).take (i - pass.pos - 1)
    else pass.src.buf.drop pass.pos
  else
    (pass.src.buf.drop pass.pos).take (i - pass.pos)

/-- The end of a line that holds the size of a chunk, at position `i`. -/
def endSize (pass : Pass) (i : Nat) : Except Fault Pass :=
  if pass.src.entityState2 ≠ 0 then
    .ok { pass with src := { pass.src with entityState1 := 2 }, pos := i + 1 }
  else do
    let msg ← pass.msg.appendEntity pass.entity
    let msg ← msg.endEntity
    .ok { src := { pass.src with entityState1 := 3 }, msg, pos := i + 1 }

/-- A character of an entity whose length is known. -/
def fixedChar (pass : Pass) (i : Nat) (ch : UInt8) : Except Fault Pass :=
  if pass.src.entityMode - 1 = 0 then do
    let msg ← pass.msg.appendEntity (pass.entity ++ [ch])
    let msg ← msg.endEntity
    let msg ← msg.endFooter
    .ok { src := { pass.src with entityMode := 0, state := .done }, msg, pos := i + 1 }
  else
    .ok { pass with
      src := { pass.src with entityMode := pass.src.entityMode - 1 }
      entity := pass.entity ++ [ch]
      pos := i + 1 }

/-- A character of a chunked entity. -/
def chunkedChar (pass : Pass) (i : Nat) (ch : UInt8) : Except Fault Pass :=
  let src := pass.src
  if src.entityState1 = 0 then
    if isHex ch then
      .ok { pass with
        src := { src with
          entityState2 := (src.entityState2 <<< 4) ||| BitVec.ofNat 64 (hextoi ch) }
        pos := i + 1 }
    else if ch = 59 then
      .ok { pass with src := { src with entityState1 := 1 }, pos := i + 1 }
    else if ch = 10 then
      pass.endSize i
    else
      .ok { pass with pos := i + 1 }
  else if src.entityState1 = 1 then
    if ch = 10 then pass.endSize i else .ok { pass with pos := i + 1 }
  else if src.entityState1 = 2 then
    if src.entityState2 ≠ 0 then
      .ok { pass with
        src := { src with entityState2 := src.entityState2 - 1 }
        entity := pass.entity ++ [ch]
        pos := i + 1 }
    else if ch = 10 then
      .ok { pass with src := { src with entityState1 := 0 }, pos := i + 1 }
    else
      .ok { pass with pos := i + 1 }
  else if src.entityState1 = 3 then
    if ch = 10 then
      if pass.line i = [] then do
        let msg ← pass.msg.endFooter
        .ok { pass with src := { src with state := .done }, msg, pos := i + 1 }
      else do
        let msg ← parseFooter pass.msg (pass.line i)
        .ok { pass with msg, pos := i + 1 }
    else
      .ok pass
  else
    .ok { pass with pos := i + 1 }

/-- The `switch` of the reading loop, on the character at position `i` of the buffer. -/
def readChar (pass : Pass) (i : Nat) (ch : UInt8) : Except Fault Pass :=
  match pass.src.state with
  | .firstLine =>
      if ch = 10 then
        if pass.line i = [] then
          .ok { pass with pos := i + 1 }
        else
          .ok { pass with
            src := { pass.src with state := .headers }
            msg := parseFirstLine pass.msg (pass.line i)
            pos := i + 1 }
      else
        .ok pass
  | .headers =>
      if ch = 10 then
        if pass.line i ≠ [] then do
          let (entityMode, msg) ← parseHeader pass.src.entityMode pass.msg (pass.line i)
          .ok { pass with src := { pass.src with entityMode }, msg, pos := i + 1 }
        else do
          let msg ← pass.msg.endHeader
          if pass.src.entityMode = 0 ∨ pass.src.entityMode = entityUnknown then do
            let msg ← msg.endEntity
            let msg ← msg.endFooter
            .ok { pass with src := { pass.src with state := .done }, msg, pos := i + 1 }
          else
            .ok { pass with
              src := { pass.src with state := .entity, entityState1 := 0, entityState2 := 0 }
              msg
              pos := i + 1 }
      else
        .ok pass
  | .entity =>
      if 0 < pass.src.entityMode then pass.fixedChar i ch else pass.chunkedChar i ch
  | .done => .ok pass

end Pass

/-- The reading loop over the characters from position `i` of the buffer on; the answer also says
at which position it stopped. -/
def readLoop (pass : Pass) (i : Nat) : Str → Except Fault (Nat × Pass)
  | [] => .ok (i, pass)
  | ch :: rest =>
      if pass.src.state = .done then
        .ok (i, pass)
      else
        match pass.readChar i ch with
        | .error fault => .error fault
        | .ok pass => readLoop { pass with src := { pass.src with last := ch } } (i + 1) rest

/-- Hand over the part of the entity that has arrived. -/
def Pass.flushEntity (pass : Pass) : Except Fault HttpMessage :=
  if pass.entity ≠ [] then pass.msg.appendEntity pass.entity else .ok pass.msg

/-- The reader after the pass: the bytes before the current line are dropped. -/
def Pass.rebase (pass : Pass) : MessageSource11 :=
  if pass.pos ≠ 0 then { pass.src with buf := pass.src.buf.drop pass.pos } else pass.src

/-- `message_source_11::read`, where `rbuf` is what the peeking `recv` returned (nothing when it
failed).  The count is the number of bytes then taken off the socket, which is also the result of
the call.  The positions have no width here; `readInt` has that of the source. -/
def read (reader : MessageSource11 × HttpMessage) (rbuf : Str) :
    Except Fault ((MessageSource11 × HttpMessage) × Nat) :=
  if rbuf = [] then
    .ok (reader, 0)
  else do
    let src := { reader.1 with buf := reader.1.buf ++ rbuf }
    let (i, pass) ← readLoop { src, msg := reader.2 } (src.buf.length - rbuf.length) rbuf
    let msg ← pass.flushEntity
    .ok ((pass.rebase, msg), rbuf.length - (src.buf.length - i))

/-! ### The width of the positions -/

/-- `sizeof(rbuf)`, the most that one `recv` returns. -/
def rbufSize : Nat := 1024

/-- The reading loop with its position in an `int`, which cannot be increased behind `intMax`. -/
def readLoopInt (pass : Pass) (i : Nat) : Str → Except Fault (Nat × Pass)
  | [] => .ok (i, pass)
  | ch :: rest =>
      if pass.src.state = .done then
        .ok (i, pass)
      else
        match pass.readChar i ch with
        | .error fault => .error fault
        | .ok pass =>
            if i < intMax then
              readLoopInt { pass with src := { pass.src with last := ch } } (i + 1) rest
            else
              .error .overflow

/-- `message_source_11::read` with its positions in `int`.  Behind a buffer that was longer than
`intMax` before, the first position turns negative: the loop is skipped, more bytes are asked for
than there are, and the last assertion of the call fails. -/
def readInt (reader : MessageSource11 × HttpMessage) (rbuf : Str) :
    Except Fault ((MessageSource11 × HttpMessage) × Nat) :=
  if rbuf = [] then
    .ok (reader, 0)
  else if intMax < reader.1.buf.length then
    .error .overflow
  else do
    let src := { reader.1 with buf := reader.1.buf ++ rbuf }
    let (i, pass) ← readLoopInt { src, msg := reader.2 } (src.buf.length - rbuf.length) rbuf
    let msg ← pass.flushEntity
    .ok ((pass.rebase, msg), rbuf.length - (src.buf.length - i))

end MessageSource11
end GnyProxy
