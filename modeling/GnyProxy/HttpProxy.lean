import GnyProxy.MessageSourceGny
import GnyProxy.MessageSource11
import GnyProxy.Transfer
import Mathlib.Logic.Function.Basic

/-!
# The client side of the proxy

`ALinker`: a connection to a client, whose requests are read one after the other and queued with
the messages for their responses.  Messages are shared with upstream, so they are known by where
they are allocated.  Whether upstream could be connected is given to each call.
-/

namespace GnyProxy

/-- A reader behind the `ConnectionReader` interface. -/
inductive MessageSource where
  | gny (source : MessageSourceGny)
  | v11 (source : MessageSource11)

namespace MessageSource

/-- `read`, where `rbuf` is what the peeking `recv` returned. -/
def read : MessageSource → HttpMessage → Str →
    Except Fault ((MessageSource × HttpMessage) × Nat)
  | .gny source, msg, rbuf => do
      let ((source, msg), amount) ← MessageSourceGny.read (source, msg) rbuf
      .ok ((.gny source, msg), amount)
  | .v11 source, msg, rbuf => do
      let ((source, msg), amount) ← MessageSource11.read (source, msg) rbuf
      .ok ((.v11 source, msg), amount)

end MessageSource

/-- What a client may speak. -/
inductive Protocol where
  | v11
  | gny
  deriving DecidableEq

namespace Protocol

/-- The creator of a reader for a request. -/
def readerCreator : Protocol → MessageSource
  | v11 => .v11 {}
  | gny => .gny (.create true)

/-- The creator of a writer. -/
def writerCreator : Protocol → MessageSink
  | v11 => .v11 {}
  | gny => .gny {}

theorem isFresh_writerCreator (protocol : Protocol) : protocol.writerCreator.IsFresh := by
  cases protocol
  · exact Or.inr rfl
  · exact Or.inl rfl

end Protocol

structure HttpProxy where
  aReader : Protocol
  aWriter : Protocol
  /-- The proxy upstream, if there is one. -/
  forwardHost : Option Str := none
  forwardService : Str := []

/-- Where a message is. -/
abbrev MessageId := Nat

namespace HttpProxy

/-- Where the request wants to be connected to; an empty host where it does not say. -/
def endpoint (proxy : HttpProxy) (msg : HttpMessage) : Str × Str :=
  match proxy.forwardHost with
  | some host => (host, proxy.forwardService)
  | none =>
      if msg.verb = verbConnect then
        parseHost msg.url
      else
        match msg.headers.find? fun header => strcasecmp (ascii "host") header.1 = 0 with
        | some header => parseHost header.2
        | none => ([], [])

end HttpProxy

/-- `generate_message`. -/
def generateMessage (msg : HttpMessage) (status : Int) (info : Str) :
    Except Fault HttpMessage := do
  let msg := msg.setStatus status
  let msg ← msg.addHeader (ascii "Proxy-Agent") (ascii "gny-proxy")
  let msg ← msg.endHeader
  let msg ← msg.appendEntity info
  let msg ← msg.endEntity
  msg.endFooter

structure ALinker where
  messages : MessageId → HttpMessage := fun _ => .fresh true
  /-- Where the next message will be. -/
  next : MessageId := 1
  /-- `reader` with `reader_msg`; both are null in tunnel mode. -/
  reader : Option (MessageSource × MessageId)
  connected : Bool := false
  /-- The writer with the message it was created for. -/
  writer : Option (MessageSink × MessageId) := none
  tunneler : Bool := false
  dataReq : Str := []
  dataRes : Str := []
  responseQueue : List (MessageId × MessageId) := []

namespace ALinker

/-- The constructor: the first message is the first request. -/
def create (proxy : HttpProxy) : ALinker := { reader := some (proxy.aReader.readerCreator, 0) }

/-- The value of a message changes. -/
def setMessage (linker : ALinker) (id : MessageId) (msg : HttpMessage) : ALinker :=
  { linker with messages := Function.update linker.messages id msg }

/-- `new http_message`. -/
def newMessage (linker : ALinker) (msg : HttpMessage) : ALinker :=
  { linker.setMessage linker.next msg with next := linker.next + 1 }

def appendResponse (linker : ALinker) (msgReq msgRes : MessageId) : ALinker :=
  { linker with responseQueue := linker.responseQueue ++ [(msgReq, msgRes)] }

/-- Queue the request with a new message as its response. -/
def respond (linker : ALinker) (msgReq : MessageId) (response : HttpMessage) : ALinker :=
  (linker.newMessage response).appendResponse msgReq linker.next

/-- `reader_msg`. -/
def readerMsg (linker : ALinker) : Option MessageId := linker.reader.map (·.2)

/-! ## Reading -/

/-- The response of a request for upstream: empty yet, or that there is no connection. -/
def upstreamResponse (connects : Bool) : Except Fault HttpMessage :=
  if connects then .ok (.fresh false)
  else generateMessage (.fresh false) 504 (ascii "Failed to connect to upstream server")

/-- Patch the connection through to the endpoint if it is found.  Only a `CONNECT` that succeeds
makes a tunnel; with a proxy upstream its response comes from there. -/
def connect (proxy : HttpProxy) (linker : ALinker) (id : MessageId) (connects : Bool) :
    Except Fault ALinker :=
  let msg := linker.messages id
  if linker.connected = false ∧ msg.verb ≠ verbUnknown ∧ msg.url ≠ [] ∧
      (proxy.endpoint msg).1 ≠ [] then
    if msg.verb ≠ verbConnect then do
      let response ← upstreamResponse connects
      .ok { linker.respond id response with connected := true }
    else if connects = false then do
      let response ← upstreamResponse false
      .ok { linker.respond id response with connected := true }
    else if proxy.forwardHost = none then do
      let response ← generateMessage (.fresh false) 200 []
      .ok { linker.respond id response with connected := true, tunneler := true }
    else
      .ok { linker with connected := true, tunneler := true }
  else
    .ok linker

/-- A new request with a new reader. -/
def nextRequest (proxy : HttpProxy) (linker : ALinker) : ALinker :=
  { linker.newMessage (.fresh true) with
    connected := false
    reader := some (proxy.aReader.readerCreator, linker.next) }

/-- A request that finishes without a host is queued with an error. -/
def queueUnconnected (linker : ALinker) (id : MessageId) : Except Fault ALinker :=
  if linker.connected then
    .ok linker
  else do
    let response ← generateMessage (.fresh false) 400 (ascii "no host header found")
    .ok (linker.respond id response)

/-- When the request finishes, move on to the next one. -/
def finishRequest (proxy : HttpProxy) (linker : ALinker) (id : MessageId) :
    Except Fault ALinker :=
  if (linker.messages id).state = .done then do
    let linker ← queueUnconnected linker id
    if linker.tunneler then
      .ok { linker with connected := false, reader := none }
    else
      .ok (nextRequest proxy linker)
  else
    .ok linker

/-- `ALinker::read`, where `rbuf` is what `recv` returned. -/
def read (proxy : HttpProxy) (linker : ALinker) (rbuf : Str) (connects : Bool) :
    Except Fault (ALinker × Nat) :=
  match linker.reader with
  | none =>
      if linker.tunneler then
        .ok ({ linker with dataReq := linker.dataReq ++ rbuf }, rbuf.length)
      else
        .error .assertion
  | some (source, id) => do
      let ((source, msg), ret) ← source.read (linker.messages id) rbuf
      let linker := { linker.setMessage id msg with reader := some (source, id) }
      let linker ← connect proxy linker id connects
      let linker ← finishRequest proxy linker id
      .ok (linker, ret)

/-! ## Writing -/

/-- `ALinker::get_write_size` with this response queue; behind a response that was sent it starts
again with the rest of the queue. -/
def getWriteSizeFrom (proxy : HttpProxy) (linker : ALinker) :
    List (MessageId × MessageId) → Except Fault (ALinker × Nat)
  | [] =>
      .ok ({ linker with responseQueue := [] },
        if linker.tunneler then linker.dataRes.length else 0)
  | (msgReq, msgRes) :: queue => do
      let (sink, own) := linker.writer.getD (proxy.aWriter.writerCreator, msgRes)
      let ((sink, msg), ret) ← sink.getWriteSize (linker.messages own)
      let linker := linker.setMessage own msg
      if ret = 0 ∧ (linker.tunneler ∨ (linker.messages msgReq).isSent) ∧
          (linker.messages msgRes).isSent then
        getWriteSizeFrom proxy { linker with writer := none } queue
      else
        .ok ({ linker with writer := some (sink, own), responseQueue := (msgReq, msgRes) :: queue },
          ret)

def getWriteSize (proxy : HttpProxy) (linker : ALinker) : Except Fault (ALinker × Nat) :=
  getWriteSizeFrom proxy linker linker.responseQueue

/-- `ALinker::write`, where `send` takes at most `amount` bytes; the answer has the bytes that were
sent. -/
def write (linker : ALinker) (maxWrite amount : Nat) : Except Fault (ALinker × Str) :=
  match linker.writer with
  | none =>
      if linker.tunneler then
        let amt := min amount (min maxWrite linker.dataRes.length)
        .ok ({ linker with dataRes := linker.dataRes.drop amt }, linker.dataRes.take amt)
      else
        .error .assertion
  | some (sink, own) => do
      let ((sink, msg), sent) ← sink.write (linker.messages own) maxWrite amount
      .ok ({ linker.setMessage own msg with writer := some (sink, own) }, sent)

/-! ## Runs -/

/-- The parts of a message that are taken out of it. -/
inductive Part where
  | headers
  | entity
  | footers

def Part.clear : Part → HttpMessage → HttpMessage
  | headers => HttpMessage.clearHeaders
  | entity => HttpMessage.clearEntity
  | footers => HttpMessage.clearFooters

/-- What may happen to the connection.  Upstream acts on the messages in the queue. -/
inductive Action where
  | read (rbuf : Str) (connects : Bool)
  | getWriteSize
  | write (maxWrite amount : Nat)
  /-- Upstream fills a response. -/
  | respond (index : Nat) (update : Update)
  /-- Upstream takes a part of a request. -/
  | forward (index : Nat) (part : Part)

/-- The connection, with what happened to it so far. -/
structure Session where
  linker : ALinker
  /-- The bytes that were sent to the client. -/
  sent : Str := []
  /-- The requests that are finished. -/
  finished : List MessageId := []
  /-- The pairs that were ever queued. -/
  queued : List (MessageId × MessageId) := []
  /-- The responses with all that was taken from them. -/
  responses : MessageId → HttpMessage := fun _ => .fresh false

namespace Session

def start (proxy : HttpProxy) : Session := { linker := create proxy }

def step (proxy : HttpProxy) (session : Session) : Action → Except Fault Session
  | .read rbuf connects => do
      let (linker, _) ← session.linker.read proxy rbuf connects
      .ok { session with
        linker
        finished := session.finished ++
          if linker.readerMsg = session.linker.readerMsg then []
          else session.linker.readerMsg.toList
        queued := session.queued ++
          linker.responseQueue.drop session.linker.responseQueue.length
        responses := fun id =>
          if id < session.linker.next then session.responses id else linker.messages id }
  | .getWriteSize => do
      let (linker, _) ← session.linker.getWriteSize proxy
      .ok { session with linker }
  | .write maxWrite amount => do
      let (linker, sent) ← session.linker.write maxWrite amount
      .ok { session with linker, sent := session.sent ++ sent }
  | .respond index update =>
      match session.linker.responseQueue[index]? with
      | none => .ok session
      | some (_, id) => do
          let msg ← (session.linker.messages id).update update
          let response ← (session.responses id).update update
          .ok { session with
            linker := session.linker.setMessage id msg
            responses := Function.update session.responses id response }
  | .forward index part =>
      match session.linker.responseQueue[index]? with
      | none => .ok session
      | some (id, _) =>
          .ok { session with
            linker := session.linker.setMessage id (part.clear (session.linker.messages id)) }

def run (proxy : HttpProxy) : Session → List Action → Except Fault Session
  | session, [] => .ok session
  | session, action :: actions => do
      let session ← session.step proxy action
      run proxy session actions

end Session
end ALinker
end GnyProxy
