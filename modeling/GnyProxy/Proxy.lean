import GnyProxy.Copying
import GnyProxy.Requester

/-!
# The whole proxy

The connections to the clients and those upstream.  `MessageCopier`, `Tunnel` and `Connector` are
where the two sides meet: in the messages of a client, its two buffers and its `linked_count` cell.
A message that is deleted keeps its value, and is recorded.
-/

namespace GnyProxy

/-- Which client. -/
abbrev ClientId := Nat

/-- Where a `linked_count` is. -/
abbrev CellId := Nat

/-- What went through the sockets of a client and of its tunnel. -/
structure Trace where
  /-- The request that is read, with all that was taken from it. -/
  whole : HttpMessage := .fresh true
  /-- The bytes from the client in tunnel mode. -/
  received : Str := []
  /-- The bytes that a `Connector` sent. -/
  upstream : Str := []
  /-- The bytes that a `Tunnel` received. -/
  fetched : Str := []
  /-- The bytes of responses, and all that was sent to the client. -/
  answered : Str := []
  sent : Str := []

/-- An `ALinker`, and what became of it. -/
structure Client where
  linker : ALinker
  /-- The destructor has not run. -/
  alive : Bool := true
  /-- The last `get_write_size` was positive, so that `write` may be called. -/
  ready : Bool := false
  linkedCount : Option CellId := none
  /-- The pairs that `get_write_size` deleted. -/
  popped : List (MessageId × MessageId) := []
  /-- The messages that a `Connector` deleted. -/
  forwarded : List MessageId := []
  trace : Trace := {}

/-- What the two sides share.  A cell that was deleted is gone. -/
structure Shared where
  clients : ClientId → Client
  cells : CellId → Option Int := fun _ => none
  nextCell : CellId := 0
  /-- The cells that were deleted. -/
  released : List CellId := []

namespace Shared

def setClient (shared : Shared) (id : ClientId) (client : Client) : Shared :=
  { shared with clients := Function.update shared.clients id client }

def linker (shared : Shared) (id : ClientId) : ALinker := (shared.clients id).linker

def setLinker (shared : Shared) (id : ClientId) (linker : ALinker) : Shared :=
  shared.setClient id { shared.clients id with linker }

def message (shared : Shared) (id : ClientId) (msg : MessageId) : HttpMessage :=
  (shared.linker id).messages msg

def setMessage (shared : Shared) (id : ClientId) (msg : MessageId) (value : HttpMessage) : Shared :=
  shared.setLinker id ((shared.linker id).setMessage msg value)

/-- `delete connect_msg`. -/
def forget (shared : Shared) (id : ClientId) (msg : MessageId) : Shared :=
  let client := shared.clients id
  shared.setClient id { client with forwarded := client.forwarded ++ [msg] }

def setTrace (shared : Shared) (id : ClientId) (trace : Trace) : Shared :=
  shared.setClient id { shared.clients id with trace }

/-- `new int`. -/
def newCell (shared : Shared) (count : Int) : Shared :=
  { shared with
    cells := Function.update shared.cells shared.nextCell (some count)
    nextCell := shared.nextCell + 1 }

/-- `delete linked_count`. -/
def release (shared : Shared) (cell : CellId) : Shared :=
  { shared with
    cells := Function.update shared.cells cell none
    released := shared.released ++ [cell] }

/-- `--(*linked_count)`, and the cell is deleted when the count is zero. -/
def unlink (shared : Shared) (cell : CellId) : Shared :=
  match shared.cells cell with
  | none => shared
  | some count =>
      if count - 1 = 0 then shared.release cell
      else { shared with cells := Function.update shared.cells cell (some (count - 1)) }

end Shared

/-! ## The copier -/

structure MessageCopier where
  client : ClientId
  msgReq : MessageId
  msgRes : MessageId
  deriving DecidableEq

instance : RequestGenerator MessageCopier Shared where
  generateRequest copier shared outMsg := do
    let (msgReq, outMsg) ← dumpMessage (shared.message copier.client copier.msgReq) outMsg
    .ok (shared.setMessage copier.client copier.msgReq msgReq, outMsg)
  readResponse copier shared inMsg := do
    let (inMsg, msgRes) ← dumpMessage inMsg (shared.message copier.client copier.msgRes)
    .ok (shared.setMessage copier.client copier.msgRes msgRes, inMsg)

/-! ## The tunnel -/

structure Tunnel where
  /-- Whose `data_req` and `data_res` these are. -/
  client : ClientId
  linkedCount : CellId
  deriving DecidableEq

namespace Tunnel

/-- `get_write_size`, `write` and `read` while both sides are there. -/
def carry (tunnel : Tunnel) (call : Call) (shared : Shared) : Shared × Answer :=
  let linker := shared.linker tunnel.client
  let trace := (shared.clients tunnel.client).trace
  match call with
  | .getWriteSize => (shared, { ret := linker.dataReq.length })
  | .write maxWrite amount =>
      let amt := min amount (min maxWrite linker.dataReq.length)
      let sent := linker.dataReq.take amt
      ((shared.setLinker tunnel.client { linker with dataReq := linker.dataReq.drop amt }).setTrace
        tunnel.client { trace with upstream := trace.upstream ++ sent }, { ret := amt, sent })
  | .read rbuf =>
      ((shared.setLinker tunnel.client { linker with dataRes := linker.dataRes ++ rbuf }).setTrace
        tunnel.client { trace with fetched := trace.fetched ++ rbuf }, { ret := rbuf.length })

/-- Every method looks at the count first.  The cell must be there, and the `ALinker` when its
buffers are used. -/
def call (tunnel : Tunnel) (call : Call) (shared : Shared) : Except Fault (Shared × Answer) :=
  match shared.cells tunnel.linkedCount with
  | none => .error .outOfBounds
  | some count =>
      if count ≠ 2 then
        .ok (shared, {})
      else if (shared.clients tunnel.client).alive then
        .ok (tunnel.carry call shared)
      else
        .error .outOfBounds

end Tunnel

/-! ## The connector -/

structure Connector where
  /-- `writer` with `connect_msg`. -/
  writer : Option (MessageSink × MessageId)
  conn : Tunnel

namespace Connector

/-- What `writer` sends is traced. -/
def writeMessage (connector : Connector) (sink : MessageSink) (id : MessageId)
    (maxWrite amount : Nat) (shared : Shared) : Except Fault (Shared × Connector × Answer) := do
  let client := connector.conn.client
  let ((sink, msg), sent) ← sink.write (shared.message client id) maxWrite amount
  let trace := (shared.clients client).trace
  .ok ((shared.setMessage client id msg).setTrace client
      { trace with upstream := trace.upstream ++ sent },
    { connector with writer := some (sink, id) }, { ret := sent.length, sent })

/-- The `CONNECT` message is sent first, and deleted when it is sent. -/
def getWriteSize (connector : Connector) (sink : MessageSink) (id : MessageId) (shared : Shared) :
    Except Fault (Shared × Connector × Answer) := do
  let client := connector.conn.client
  let ((sink, msg), amt) ← sink.getWriteSize (shared.message client id)
  let shared := shared.setMessage client id msg
  if amt = 0 ∧ msg.isSent then
    let (shared, answer) ← connector.conn.call .getWriteSize (shared.forget client id)
    .ok (shared, { connector with writer := none }, answer)
  else
    .ok (shared, { connector with writer := some (sink, id) }, { ret := amt })

/-- What a call of the tunnel leaves. -/
def tunnelled (connector : Connector) (call : Call) (shared : Shared) :
    Except Fault (Shared × Connector × Answer) := do
  let (shared, answer) ← connector.conn.call call shared
  .ok (shared, connector, answer)

def call (connector : Connector) (call : Call) (shared : Shared) :
    Except Fault (Shared × Connector × Answer) :=
  match connector.writer, call with
  | some (sink, id), .getWriteSize => connector.getWriteSize sink id shared
  | some (sink, id), .write maxWrite amount =>
      connector.writeMessage sink id maxWrite amount shared
  | _, _ => connector.tunnelled call shared

/-- `~Connector`, with `~Tunnel`. -/
def delete (connector : Connector) (shared : Shared) : Shared :=
  let shared :=
    match connector.writer with
    | some (_, id) => shared.forget connector.conn.client id
    | none => shared
  shared.unlink connector.conn.linkedCount

end Connector

instance : Connection Connector Shared where
  call := Connector.call
  delete := Connector.delete

/-! ## The proxy -/

/-- The creators and hosts of an `HttpProxy`, and the requester that it has. -/
structure World.Config where
  proxy : HttpProxy
  requester : Requester.Config

structure World where
  shared : Shared
  requester : Requester MessageCopier Connector := {}

namespace World

/-- Every client may connect; none has sent anything. -/
def start (config : Config) : World :=
  { shared := { clients := fun _ => { linker := .create config.proxy } } }

def setLinker (world : World) (id : ClientId) (linker : ALinker) : World :=
  { world with shared := world.shared.setLinker id linker }

/-! ### The client side -/

/-- The response of a request, unless upstream will fill it. -/
def answerRequest (msgRes : HttpMessage) (added : Bool) : Except Fault HttpMessage :=
  if added then .ok msgRes
  else generateMessage msgRes 504 (ascii "Failed to connect to upstream server")

/-- A normal request: upstream is asked for with a new copier. -/
def connectRequest (config : Config) (world : World) (id : ClientId) (msgReq : MessageId)
    (endpoint : Endpoint) (connects : Bool) : Except Fault World := do
  let msgRes := (world.shared.linker id).next
  let shared := world.shared.setLinker id ((world.shared.linker id).newMessage (.fresh false))
  let (shared, requester, added) ← world.requester.addRequest config.requester shared endpoint
    ⟨id, msgReq, msgRes⟩ connects
  let linker := shared.linker id
  let response ← answerRequest (linker.messages msgRes) added
  let linker := (linker.setMessage msgRes response).appendResponse msgReq msgRes
  .ok { shared := shared.setLinker id { linker with connected := true }, requester }

/-- What becomes of the linker when the tunnel is refused, or made. -/
def answerConnect (config : Config) (linker : ALinker) (msgReq : MessageId) (added : Bool) :
    Except Fault ALinker :=
  if added = false then do
    let response ← generateMessage (.fresh false) 504
      (ascii "Failed to connect to upstream server")
    .ok { linker.respond msgReq response with connected := true, tunneler := false }
  else if config.proxy.forwardHost = none then do
    let response ← generateMessage (.fresh false) 200 []
    .ok { linker.respond msgReq response with connected := true }
  else
    .ok { linker with connected := true }

/-- The client asks for a tunnel.  A proxy upstream is sent the request as well. -/
def connectTunnel (config : Config) (world : World) (id : ClientId) (msgReq : MessageId)
    (endpoint : Endpoint) (connects : Bool) : Except Fault World := do
  let cell := world.shared.nextCell
  let client := world.shared.clients id
  let shared := (world.shared.newCell 2).setClient id
    { client with linkedCount := some cell, linker := { client.linker with tunneler := true } }
  let writer := config.proxy.forwardHost.map fun _ =>
    (config.requester.writer.writerCreator, msgReq)
  let (shared, requester, added) ← world.requester.addConnection config.requester shared endpoint
    { writer, conn := ⟨id, cell⟩ } connects
  let linker ← answerConnect config (shared.linker id) msgReq added
  if added then
    .ok { shared := shared.setLinker id linker, requester }
  else
    let shared := (shared.unlink cell).release cell
    .ok { shared := shared.setClient id { shared.clients id with linkedCount := none, linker }
          requester }

/-- Patch the connection through to the remote endpoint if found. -/
def connect (config : Config) (world : World) (id : ClientId) (msgReq : MessageId)
    (connects : Bool) : Except Fault World :=
  let linker := world.shared.linker id
  let msg := linker.messages msgReq
  let (host, service) := config.proxy.endpoint msg
  if linker.connected = false ∧ msg.verb ≠ verbUnknown ∧ msg.url ≠ [] ∧ host ≠ [] then
    if msg.verb ≠ verbConnect then
      world.connectRequest config id msgReq (cStr host, cStr service) connects
    else
      world.connectTunnel config id msgReq (cStr host, cStr service) connects
  else
    .ok world

/-- What the request would be if nothing had been taken from it. -/
def follow (source : MessageSource) (whole : HttpMessage) (rbuf : Str) : HttpMessage :=
  match source.read whole rbuf with
  | .ok ((_, next), _) => next
  | .error _ => whole

/-- The reader takes a part of the request. -/
def receive (world : World) (id : ClientId) (source : MessageSource) (msgReq : MessageId)
    (rbuf : Str) : Except Fault World := do
  let linker := world.shared.linker id
  let trace := (world.shared.clients id).trace
  let ((source', msg), _) ← source.read (linker.messages msgReq) rbuf
  let shared := world.shared.setLinker id
    { linker.setMessage msgReq msg with reader := some (source', msgReq) }
  .ok { world with
    shared := shared.setTrace id { trace with whole := follow source trace.whole rbuf } }

/-- When the request finishes, move on to the next one. -/
def finishRequest (config : Config) (world : World) (id : ClientId) (msgReq : MessageId) :
    Except Fault World := do
  let linker ← ALinker.finishRequest config.proxy (world.shared.linker id) msgReq
  let trace := (world.shared.clients id).trace
  let whole := if linker.readerMsg = some msgReq ∨ linker.reader.isNone then trace.whole
    else .fresh true
  .ok { world with shared := (world.shared.setLinker id linker).setTrace id { trace with whole } }

/-- `ALinker::read`, where `rbuf` is what `recv` returned. -/
def read (config : Config) (world : World) (id : ClientId) (rbuf : Str) (connects : Bool) :
    Except Fault World :=
  let linker := world.shared.linker id
  match linker.reader with
  | none =>
      let trace := (world.shared.clients id).trace
      if linker.tunneler then
        let shared := world.shared.setLinker id { linker with dataReq := linker.dataReq ++ rbuf }
        .ok { world with
          shared := shared.setTrace id { trace with received := trace.received ++ rbuf } }
      else
        .error .assertion
  | some (source, msgReq) => do
      let world ← world.receive id source msgReq rbuf
      let world ← world.connect config id msgReq connects
      world.finishRequest config id msgReq

/-- `ALinker::get_write_size`. -/
def getWriteSize (config : Config) (world : World) (id : ClientId) : Except Fault World := do
  let client := world.shared.clients id
  let (linker, size) ← client.linker.getWriteSize config.proxy
  let gone := client.linker.responseQueue.length - linker.responseQueue.length
  let popped := client.popped ++ client.linker.responseQueue.take gone
  .ok { world with
    shared := world.shared.setClient id { client with linker, ready := 0 < size, popped } }

/-- `ALinker::write`, which the loops call where the last size was positive. -/
def write (world : World) (id : ClientId) (maxWrite amount : Nat) : Except Fault World :=
  let client := world.shared.clients id
  if client.ready then do
    let (linker, sent) ← client.linker.write maxWrite amount
    let answered := if client.linker.writer.isSome then sent else []
    let trace := { client.trace with
      answered := client.trace.answered ++ answered
      sent := client.trace.sent ++ sent }
    .ok { world with shared := world.shared.setClient id { client with linker, trace } }
  else
    .ok world

/-- `~ALinker`. -/
def delete (world : World) (id : ClientId) : World :=
  let client := world.shared.clients id
  let shared := world.shared.setClient id { client with alive := false }
  { world with shared := match client.linkedCount with
    | some cell => shared.unlink cell
    | none => shared }

/-! ### Runs -/

/-- What may happen, in any order.  Methods of an `ALinker` that was deleted are not called. -/
inductive Event where
  | read (id : ClientId) (rbuf : Str) (connects : Bool)
  | getWriteSize (id : ClientId)
  | write (id : ClientId) (maxWrite amount : Nat)
  | delete (id : ClientId)
  /-- A method of a virtual connection upstream is called. -/
  | call (id : ObjectId) (call : Call)
  /-- A socket upstream is closed. -/
  | close (id : ObjectId)

/-- Whose method is called. -/
def Event.client : Event → Option ClientId
  | read id _ _ | getWriteSize id | write id _ _ | delete id => some id
  | call _ _ | close _ => none

def act (config : Config) (world : World) : Event → Except Fault World
  | .read id rbuf connects => world.read config id rbuf connects
  | .getWriteSize id => world.getWriteSize config id
  | .write id maxWrite amount => world.write id maxWrite amount
  | .delete id => .ok (world.delete id)
  | .call id call => do
      let (shared, requester, _) ← world.requester.call world.shared id call
      .ok { shared, requester }
  | .close id =>
      let (shared, requester) := world.requester.close world.shared id
      .ok { shared, requester }

def step (config : Config) (world : World) (event : Event) : Except Fault World :=
  if ∀ id ∈ event.client, (world.shared.clients id).alive then world.act config event
  else .ok world

def run (config : Config) : World → List Event → Except Fault World
  | world, [] => .ok world
  | world, event :: events => do
      let world ← world.step config event
      run config world events

end World
end GnyProxy
