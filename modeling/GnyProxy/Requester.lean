import GnyProxy.HttpProxy
import GnyProxy.Multiconn
import Mathlib.Data.List.Sort

/-!
# Connections upstream

`ReqLinker`, which carries one request after another, and `Requester`, which keeps the idle ones
and the sockets of each endpoint.  Generators of requests and the connections behind a `Connector`
belong to whoever uses the requester, as does the state that they work on.  Of a `Multiconn` only
the table of its virtual connections is kept: which of them is called, and when, is up to its
frames.
-/

namespace GnyProxy

section Tables

variable {κ α : Type*} [DecidableEq κ] {table : κ → Option α} {key other : κ} {value found : α}

/-- What is found in a table with a new entry. -/
theorem of_update_some (here : Function.update table key (some value) other = some found) :
    other = key ∧ found = value ∨ other ≠ key ∧ table other = some found := by
  by_cases same : other = key
  · rw [same, Function.update_self] at here
    exact Or.inl ⟨same, (Option.some.inj here).symm⟩
  · rw [Function.update_of_ne same] at here
    exact Or.inr ⟨same, here⟩

/-- What is found in a table without an entry. -/
theorem of_update_none (here : Function.update table key none other = some found) :
    other ≠ key ∧ table other = some found := by
  by_cases same : other = key
  · rw [same, Function.update_self] at here
    cases here
  · rw [Function.update_of_ne same] at here
    exact ⟨same, here⟩

end Tables

/-- Host and service. -/
abbrev Endpoint := Str × Str

/-- `RequestGenerator`. -/
class RequestGenerator (γ : Type) (σ : outParam Type) where
  generateRequest : γ → σ → HttpMessage → Except Fault (σ × HttpMessage)
  readResponse : γ → σ → HttpMessage → Except Fault (σ × HttpMessage)

/-- A call of a method of a connection, with what the system does with it: how many bytes `send`
takes at most, or what `recv` returned. -/
inductive Call where
  | getWriteSize
  | write (maxWrite amount : Nat)
  | read (rbuf : Str)

/-- What a call returns: a number, and the bytes that were sent. -/
structure Answer where
  ret : Nat := 0
  sent : Str := []
  deriving DecidableEq

/-- `Connection`, here for what is wrapped into a `Connector`. -/
class Connection (δ : Type) (σ : outParam Type) where
  call : δ → Call → σ → Except Fault (σ × δ × Answer)
  /-- The destructor. -/
  delete : δ → σ → σ

/-- The creator of a reader for a response. -/
def Protocol.responseReader : Protocol → MessageSource
  | v11 => .v11 {}
  | gny => .gny (.create false)

/-! ## One virtual connection -/

/-- A request in progress: `gen` with what belongs to it. -/
structure Exchange (γ : Type) where
  gen : γ
  inMsg : HttpMessage := .fresh false
  outMsg : HttpMessage := .fresh true
  reader : MessageSource
  writer : MessageSink

/-- `ReqLinker`; without an exchange `gen` is null. -/
structure ReqLinker (γ : Type) where
  endpoint : Endpoint
  exchange : Option (Exchange γ) := none

namespace Exchange

variable {γ σ : Type}

/-- What `ReqLinker::add_request` creates. -/
def create (reader writer : Protocol) (gen : γ) : Exchange γ :=
  { gen, reader := reader.responseReader, writer := writer.writerCreator }

/-- `check_done`: behind the last byte of the request and the response the exchange is over. -/
def checkDone (exchange : Exchange γ) : Except Fault (Option (Exchange γ)) := do
  let ((writer, outMsg), size) ← exchange.writer.getWriteSize exchange.outMsg
  if size = 0 ∧ exchange.inMsg.isSent ∧ outMsg.isSent then
    .ok none
  else
    .ok (some { exchange with writer, outMsg })

variable [RequestGenerator γ σ]

def call (exchange : Exchange γ) (state : σ) :
    Call → Except Fault (σ × Option (Exchange γ) × Answer)
  | .getWriteSize => do
      let (state, outMsg) ← RequestGenerator.generateRequest exchange.gen state exchange.outMsg
      let ((writer, outMsg), ret) ← exchange.writer.getWriteSize outMsg
      let left ← { exchange with writer, outMsg }.checkDone
      .ok (state, left, { ret })
  | .write maxWrite amount => do
      let ((writer, outMsg), sent) ← exchange.writer.write exchange.outMsg maxWrite amount
      let left ← { exchange with writer, outMsg }.checkDone
      .ok (state, left, { ret := sent.length, sent })
  | .read rbuf => do
      let ((reader, inMsg), ret) ← exchange.reader.read exchange.inMsg rbuf
      let (state, inMsg) ← RequestGenerator.readResponse exchange.gen state inMsg
      let left ← { exchange with reader, inMsg }.checkDone
      .ok (state, left, { ret })

end Exchange

namespace ReqLinker

variable {γ σ : Type} [RequestGenerator γ σ]

/-- `get_write_size`, `write` and `read`. -/
def call (linker : ReqLinker γ) (state : σ) (call : Call) :
    Except Fault (σ × ReqLinker γ × Answer) :=
  match linker.exchange with
  | none => .ok (state, linker, {})
  | some exchange => do
      let (state, left, answer) ← exchange.call state call
      .ok (state, { linker with exchange := left }, answer)

/-- `gen`. -/
def gen (linker : ReqLinker γ) : Option γ := linker.exchange.map (·.gen)

end ReqLinker

/-! ## The requester -/

/-- Where an object is. -/
abbrev ObjectId := Nat

/-- What `req_linker_creator` makes. -/
inductive Linked (γ δ : Type) where
  | reqLinker (linker : ReqLinker γ)
  | connector (connector : δ)

/-- What is inside a `WrapperWrapper`: an `Identity`, or a `Multiconn` with its virtual
connections. -/
inductive Wrapped where
  | identity (conn : ObjectId)
  | multiconn (vconn : UInt8 → Option ObjectId)

/-- `WrapperWrapper`. -/
structure WrapperWrapper where
  endpoint : Endpoint
  conn : Wrapped

/-- The virtual connections. -/
def Wrapped.linked : Wrapped → List ObjectId
  | identity conn => [conn]
  | multiconn vconn => Multiconn.ids.filterMap vconn

/-- The arguments of the constructor, and at which address each object is, by which a `set` is
ordered. -/
structure Requester.Config where
  reader : Protocol
  writer : Protocol
  /-- `multiconn_wrap_creator` with `multiconn_connector`, or else `identity_wrap_creator` with
  `default_connector`. -/
  multiconn : Bool
  /-- The value of `max_connections`, as it is compared with a `size_t`. -/
  maxConnections : Nat
  address : ObjectId → Nat

/-- Objects that were deleted are gone; what became of the generators is kept. -/
structure Requester (γ δ : Type) where
  linked : ObjectId → Option (Linked γ δ) := fun _ => none
  wrappers : ObjectId → Option WrapperWrapper := fun _ => none
  reqMp : Endpoint → List ObjectId := fun _ => []
  connMp : Endpoint → List ObjectId := fun _ => []
  /-- Where the next object will be. -/
  next : ObjectId := 0
  /-- The generators that were deleted in `check_done`. -/
  finished : List γ := []
  /-- The generators that were deleted with their `ReqLinker`. -/
  abandoned : List γ := []

namespace Requester

variable {γ δ σ : Type}

/-- `begin()` of a set, and the elements behind it. -/
def Config.inOrder (config : Config) (objects : List ObjectId) : List ObjectId :=
  objects.insertionSort fun left right => config.address left ≤ config.address right

/-- `insert` of a set. -/
def insert (objects : List ObjectId) (id : ObjectId) : List ObjectId :=
  if id ∈ objects then objects else objects ++ [id]

/-- The exchange of an object. -/
def exchangeAt (requester : Requester γ δ) (place : ObjectId) : Option (Exchange γ) :=
  match requester.linked place with
  | some (.reqLinker linker) => linker.exchange
  | _ => none

/-- The object changes. -/
def setLinked (requester : Requester γ δ) (id : ObjectId) (object : Linked γ δ) :
    Requester γ δ :=
  { requester with linked := Function.update requester.linked id (some object) }

/-- `new` with `req_linker_creator`. -/
def newLinked (requester : Requester γ δ) (object : Linked γ δ) : Requester γ δ :=
  { requester.setLinked requester.next object with next := requester.next + 1 }

def setWrapper (requester : Requester γ δ) (id : ObjectId) (wrapper : WrapperWrapper) :
    Requester γ δ :=
  { requester with wrappers := Function.update requester.wrappers id (some wrapper) }

/-- `new WrapperWrapper`, which goes into `conn_mp`. -/
def newWrapper (requester : Requester γ δ) (wrapper : WrapperWrapper) : Requester γ δ :=
  { requester.setWrapper requester.next wrapper with
    connMp := Function.update requester.connMp wrapper.endpoint
      (insert (requester.connMp wrapper.endpoint) requester.next)
    next := requester.next + 1 }

/-- A `ReqLinker` that is done goes to the idle ones. -/
def finish (requester : Requester γ δ) (id : ObjectId) (endpoint : Endpoint) (gen : γ) :
    Requester γ δ :=
  { requester with
    reqMp := Function.update requester.reqMp endpoint (insert (requester.reqMp endpoint) id)
    finished := requester.finished ++ [gen] }

/-- `~ReqLinker` and `~Connector`. -/
def delete [Connection δ σ] (requester : Requester γ δ) (state : σ) (id : ObjectId) :
    σ × Requester γ δ :=
  let left := { requester with linked := Function.update requester.linked id none }
  match requester.linked id with
  | none => (state, requester)
  | some (.connector connector) => (Connection.delete connector state, left)
  | some (.reqLinker linker) =>
      match linker.gen with
      | some gen => (state, { left with abandoned := requester.abandoned ++ [gen] })
      | none =>
          (state, { left with
            reqMp := Function.update requester.reqMp linker.endpoint
              ((requester.reqMp linker.endpoint).erase id) })

/-- `~WrapperWrapper`, when the socket is closed. -/
def close [Connection δ σ] (requester : Requester γ δ) (state : σ) (id : ObjectId) :
    σ × Requester γ δ :=
  match requester.wrappers id with
  | none => (state, requester)
  | some wrapper =>
      let requester := { requester with
        wrappers := Function.update requester.wrappers id none
        connMp := Function.update requester.connMp wrapper.endpoint
          ((requester.connMp wrapper.endpoint).erase id) }
      wrapper.conn.linked.foldl (fun (state, requester) linked => requester.delete state linked)
        (state, requester)

variable [RequestGenerator γ σ] [Connection δ σ]

/-- A method of a virtual connection is called. -/
def call (requester : Requester γ δ) (state : σ) (id : ObjectId) (call : Call) :
    Except Fault (σ × Requester γ δ × Answer) :=
  match requester.linked id with
  | none => .error .outOfBounds
  | some (.connector connector) => do
      let (state, connector, answer) ← Connection.call connector call state
      .ok (state, requester.setLinked id (.connector connector), answer)
  | some (.reqLinker linker) => do
      let (state, linker', answer) ← linker.call state call
      let requester := requester.setLinked id (.reqLinker linker')
      match linker.gen, linker'.gen with
      | some gen, none => .ok (state, requester.finish id linker.endpoint gen, answer)
      | _, _ => .ok (state, requester, answer)

/-- `connection_maker`: a `Multiconn` creates the virtual connection at its first free id, and asks
it what it has to write. -/
def connectionMaker (requester : Requester γ δ) (state : σ) (id : ObjectId)
    (object : Linked γ δ) : Except Fault (σ × Requester γ δ × Bool) :=
  match requester.wrappers id with
  | none => .error .outOfBounds
  | some ⟨_, .identity _⟩ => .ok (state, requester, false)
  | some ⟨endpoint, .multiconn vconn⟩ =>
      match Multiconn.ids.find? fun index => (vconn index).isNone with
      | none => .ok (state, requester, false)
      | some index => do
          let vconn := Function.update vconn index (some requester.next)
          let made := (requester.newLinked object).setWrapper id ⟨endpoint, .multiconn vconn⟩
          let (state, requester, _) ← made.call state requester.next .getWriteSize
          .ok (state, requester, true)

/-- Try to establish a new virtual connection on one of the existing connections. -/
def connectExisting (requester : Requester γ δ) (state : σ) (object : Linked γ δ) :
    List ObjectId → Except Fault (σ × Requester γ δ × Bool)
  | [] => .ok (state, requester, false)
  | id :: ids => do
      let (state, requester, made) ← requester.connectionMaker state id object
      if made then .ok (state, requester, true) else requester.connectExisting state object ids

/-- Try to establish a new connection; whether `Client::connect` succeeds is up to the system.  An
`Identity` is created with its virtual connection. -/
def connectNew (config : Config) (requester : Requester γ δ) (state : σ) (endpoint : Endpoint)
    (object : Linked γ δ) (connects : Bool) : Except Fault (σ × Requester γ δ × Bool) :=
  if (requester.connMp endpoint).length < config.maxConnections ∧ connects then
    if config.multiconn then do
      let opened := requester.newWrapper ⟨endpoint, .multiconn fun _ => none⟩
      let (state, requester, _) ← opened.connectionMaker state requester.next object
      .ok (state, requester, true)
    else
      .ok (state,
        (requester.newLinked object).newWrapper ⟨endpoint, .identity requester.next⟩, true)
  else
    .ok (state, requester, false)

/-- The part that `add_request` and `add_connection` share. -/
def connect (config : Config) (requester : Requester γ δ) (state : σ) (endpoint : Endpoint)
    (object : Linked γ δ) (connects : Bool) : Except Fault (σ × Requester γ δ × Bool) := do
  let (state, requester, made) ← requester.connectExisting state object
    (config.inOrder (requester.connMp endpoint))
  if made then .ok (state, requester, true)
  else requester.connectNew config state endpoint object connects

/-- `add_request`: an idle `ReqLinker` is used again if there is one. -/
def addRequest (config : Config) (requester : Requester γ δ) (state : σ) (endpoint : Endpoint)
    (gen : γ) (connects : Bool) : Except Fault (σ × Requester γ δ × Bool) :=
  let exchange := Exchange.create config.reader config.writer gen
  match config.inOrder (requester.reqMp endpoint) with
  | [] => requester.connect config state endpoint (.reqLinker ⟨endpoint, some exchange⟩) connects
  | id :: _ =>
      match requester.linked id with
      | some (.reqLinker ⟨endpoint', none⟩) =>
          .ok (state, { requester.setLinked id (.reqLinker ⟨endpoint', some exchange⟩) with
            reqMp := Function.update requester.reqMp endpoint
              ((requester.reqMp endpoint).erase id) }, true)
      | some _ => .error .assertion
      | none => .error .outOfBounds

/-- `add_connection`. -/
def addConnection (config : Config) (requester : Requester γ δ) (state : σ) (endpoint : Endpoint)
    (connector : δ) (connects : Bool) : Except Fault (σ × Requester γ δ × Bool) :=
  requester.connect config state endpoint (.connector connector) connects

end Requester
end GnyProxy
