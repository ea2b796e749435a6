import GnyProxy.Bookkeeping
import GnyProxy.Draining
import GnyProxy.Proxy

/-!
# What the two sides keep

Every pair of messages is used by one copier at most.  A copier has taken all that there is of a
response and is never ahead of its request, and a `Connector` holds a message that is in no pair.
This holds in every run, whatever was deleted.
-/

namespace GnyProxy

open HttpMessage (Drains Extends InStep)

/-! ## Frames -/

namespace Shared

variable {shared : Shared} {id other : ClientId} {client : Client} {linker : ALinker}
  {msg msg' : MessageId} {value : HttpMessage} {trace : Trace}

@[simp] theorem clients_setClient_self : (shared.setClient id client).clients id = client :=
  Function.update_self _ _ _

theorem clients_setClient_ne (differs : other ≠ id) :
    (shared.setClient id client).clients other = shared.clients other :=
  Function.update_of_ne differs _ _

/-- Every client has a property when the one that changes has it, and so have the others. -/
theorem forall_setClient {P : ClientId → Client → Prop} :
    (∀ other, P other ((shared.setClient id client).clients other)) ↔
      P id client ∧ ∀ other, other ≠ id → P other (shared.clients other) :=
  Function.forall_update_iff shared.clients P

@[simp] theorem linker_setLinker_self : (shared.setLinker id linker).linker id = linker := by
  simp [Shared.linker, setLinker]

theorem linker_setLinker_ne (differs : other ≠ id) :
    (shared.setLinker id linker).linker other = shared.linker other := by
  simp [Shared.linker, setLinker, clients_setClient_ne differs]

@[simp] theorem linker_setTrace :
    (shared.setTrace id trace).linker other = shared.linker other := by
  by_cases same : other = id
  · subst same
    simp [Shared.linker, setTrace]
  · simp [Shared.linker, setTrace, clients_setClient_ne same]

@[simp] theorem message_setMessage_self :
    (shared.setMessage id msg value).message id msg = value := by
  simp [Shared.message, setMessage, ALinker.setMessage]

theorem message_setMessage_ne (differs : other = id → msg' ≠ msg) :
    (shared.setMessage id msg value).message other msg' = shared.message other msg' := by
  by_cases same : other = id
  · subst same
    simp [Shared.message, setMessage, ALinker.setMessage, Function.update_of_ne (differs rfl)]
  · simp [Shared.message, setMessage, linker_setLinker_ne same]

end Shared

/-- The request and the response of a copier. -/
def MessageCopier.pair (copier : MessageCopier) : MessageId × MessageId :=
  (copier.msgReq, copier.msgRes)

/-! ## The invariant -/

/-- The messages of a client are used in one place each. -/
structure Client.Sound (forwards : Prop) (client : Client) (pairs : List (MessageId × MessageId)) :
    Prop where
  once : (messageIds pairs).Nodup
  below : ∀ id ∈ messageIds pairs, id < client.linker.next
  first : client.linker.WritesFirst client.linker.responseQueue
  reading : ∀ id, client.linker.readerMsg = some id →
    id < client.linker.next ∧ InStep (client.linker.messages id) ∧ id ∉ pairs.map (·.2)
  forwarded : ∀ id ∈ client.forwarded, client.linker.tunneler = true ∧ forwards ∧
    id < client.linker.next ∧ id ∉ messageIds pairs

/-- A request in progress.  What has arrived of the response is in the message of the client. -/
structure Carrying (pairs : ClientId → List (MessageId × MessageId)) (shared : Shared)
    (exchange : Exchange MessageCopier) : Prop where
  pair : exchange.gen.pair ∈ pairs exchange.gen.client
  request : Copying (shared.message exchange.gen.client exchange.gen.msgReq) exchange.outMsg
  response : Copied exchange.inMsg (shared.message exchange.gen.client exchange.gen.msgRes)

/-- Behind every call something is left to do. -/
structure Carried (pairs : ClientId → List (MessageId × MessageId)) (shared : Shared)
    (exchange : Exchange MessageCopier) : Prop extends Carrying pairs shared exchange where
  going : ¬(exchange.writer.buffer = [] ∧ exchange.inMsg.isSent = true ∧
    exchange.outMsg.isSent = true)

/-- A copier that is done has taken all of the request, and given all of the response. -/
structure Relayed (pairs : ClientId → List (MessageId × MessageId)) (shared : Shared)
    (gen : MessageCopier) : Prop where
  pair : gen.pair ∈ pairs gen.client
  request : (shared.message gen.client gen.msgReq).isSent = true
  response : (shared.message gen.client gen.msgRes).state = .done

/-- A connector belongs to a tunnel.  It has a message when there is a proxy upstream, and that is
in no pair. -/
structure Connecting (forwards : Prop) (pairs : ClientId → List (MessageId × MessageId))
    (shared : Shared)
    (connector : Connector) : Prop where
  tunneler : (shared.linker connector.conn.client).tunneler = true
  message : ∀ sink id, connector.writer = some (sink, id) → forwards ∧
    id < (shared.linker connector.conn.client).next ∧
      id ∉ messageIds (pairs connector.conn.client)

/-- What holds of an object. -/
def Fits (forwards : Prop) (pairs : ClientId → List (MessageId × MessageId)) (shared : Shared) :
    Linked MessageCopier Connector → Prop
  | .reqLinker linker => ∀ exchange, linker.exchange = some exchange → Carried pairs shared exchange
  | .connector connector => Connecting forwards pairs shared connector

/-- The clients, and the objects upstream that work for them. -/
structure Working (forwards : Prop) (pairs : ClientId → List (MessageId × MessageId))
    (shared : Shared)
    (linked : ObjectId → Option (Linked MessageCopier Connector))
    (finished : List MessageCopier) : Prop where
  clients : ∀ id, (shared.clients id).Sound forwards (pairs id)
  objects : ∀ id object, linked id = some object → Fits forwards pairs shared object
  relayed : ∀ gen ∈ finished, Relayed pairs shared gen

/-! ### Steps that leave the pairs alone -/

/-- A message that goes on may be drained as well. -/
structure HttpMessage.Onward (msg next : HttpMessage) : Prop where
  state : msg.state.rank ≤ next.state.rank
  headers : 1 ≤ msg.state.rank → next.headers = msg.headers ∨ next.headers = []
  entity : 2 ≤ msg.state.rank → next.entity = msg.entity ∨ next.entity = []
  footers : 3 ≤ msg.state.rank → next.footers = msg.footers ∨ next.footers = []
  inStep : InStep msg → InStep next

namespace HttpMessage.Onward

variable {msg next last : HttpMessage}

theorem ofDrains (drains : Drains msg next) : Onward msg next where
  state := by rw [drains.state]
  headers _ := drains.headers
  entity _ := drains.entity
  footers _ := drains.footers
  inStep inStep := by
    constructor
    · intro before
      rw [drains.state] at before
      exact drains.entity.elim (fun same => same.trans (inStep.entity before)) id
    · intro before
      rw [drains.state] at before
      exact drains.footers.elim (fun same => same.trans (inStep.footers before)) id

theorem ofExtends (longer : Extends msg next) : Onward msg next where
  state := longer.state
  headers past := Or.inl (longer.headers past)
  entity past := Or.inl (longer.entity past)
  footers past := Or.inl (longer.footers past)
  inStep inStep := inStep.extends longer

theorem trans (first : Onward msg next) (second : Onward next last) : Onward msg last where
  state := first.state.trans second.state
  headers past :=
    (second.headers (past.trans first.state)).elim (fun same => same ▸ first.headers past) Or.inr
  entity past :=
    (second.entity (past.trans first.state)).elim (fun same => same ▸ first.entity past) Or.inr
  footers past :=
    (second.footers (past.trans first.state)).elim (fun same => same ▸ first.footers past) Or.inr
  inStep inStep := second.inStep (first.inStep inStep)

/-- A message that is sent stays so. -/
theorem isSent (onward : Onward msg next) (sent : msg.isSent = true) : next.isSent = true := by
  obtain ⟨done, headers, entity, footers⟩ := (isSent_iff msg).mp sent
  have past := onward.state
  rw [done] at past
  refine (isSent_iff next).mpr ⟨?_, ?_, ?_, ?_⟩
  · exact MessageState.rank_injective (le_antisymm next.state.rank_le_three past)
  · exact (onward.headers (by simp [done])).elim (fun same => same.trans headers) id
  · exact (onward.entity (by simp [done])).elim (fun same => same.trans entity) id
  · exact (onward.footers (by simp [done])).elim (fun same => same.trans footers) id

end HttpMessage.Onward

open HttpMessage (Onward)

theorem Copying.onward {src src' dst : HttpMessage} (copying : Copying src dst)
    (onward : Onward src src') : Copying src' dst where
  behind := copying.behind.trans onward.state
  headers past := (onward.headers (past.trans copying.behind)).elim
    (fun same => same.trans (copying.headers past)) id
  entity past := (onward.entity (past.trans copying.behind)).elim
    (fun same => same.trans (copying.entity past)) id
  footers past := (onward.footers (past.trans copying.behind)).elim
    (fun same => same.trans (copying.footers past)) id
  inStep := onward.inStep copying.inStep

/-- Requests go on, responses are drained. -/
structure Shared.Keeps (pairs : ClientId → List (MessageId × MessageId))
    (shared shared' : Shared) : Prop where
  request : ∀ id, ∀ pair ∈ pairs id, Onward (shared.message id pair.1) (shared'.message id pair.1)
  response : ∀ id, ∀ pair ∈ pairs id, Drains (shared.message id pair.2) (shared'.message id pair.2)
  tunneler : ∀ id, (shared.linker id).tunneler = true → (shared'.linker id).tunneler = true
  next : ∀ id, (shared.linker id).next ≤ (shared'.linker id).next

theorem Shared.Keeps.trans {pairs : ClientId → List (MessageId × MessageId)}
    {shared shared' shared'' : Shared} (first : shared.Keeps pairs shared')
    (second : shared'.Keeps pairs shared'') : shared.Keeps pairs shared'' where
  request id pair member := (first.request id pair member).trans (second.request id pair member)
  response id pair member := (first.response id pair member).trans (second.response id pair member)
  tunneler id tunnel := second.tunneler id (first.tunneler id tunnel)
  next id := (first.next id).trans (second.next id)

section Keeps

variable {forwards : Prop} {pairs : ClientId → List (MessageId × MessageId)}
    {shared shared' : Shared}
  {exchange : Exchange MessageCopier} {connector : Connector} {gen : MessageCopier}
  {linked : ObjectId → Option (Linked MessageCopier Connector)} {finished : List MessageCopier}

theorem Carrying.keeps (carrying : Carrying pairs shared exchange)
    (keeps : shared.Keeps pairs shared') : Carrying pairs shared' exchange where
  pair := carrying.pair
  request := carrying.request.onward (keeps.request _ _ carrying.pair)
  response := by
    obtain ⟨state, headers, entity, footers⟩ := carrying.response
    exact ⟨(keeps.response _ _ carrying.pair).state.trans state, headers, entity, footers⟩

theorem Carried.keeps (carried : Carried pairs shared exchange)
    (keeps : shared.Keeps pairs shared') : Carried pairs shared' exchange :=
  ⟨carried.toCarrying.keeps keeps, carried.going⟩

theorem Relayed.keeps (relayed : Relayed pairs shared gen) (keeps : shared.Keeps pairs shared') :
    Relayed pairs shared' gen where
  pair := relayed.pair
  request := (keeps.request _ _ relayed.pair).isSent relayed.request
  response := (keeps.response _ _ relayed.pair).state.trans relayed.response

theorem Connecting.keeps (connecting : Connecting forwards pairs shared connector)
    (keeps : shared.Keeps pairs shared') : Connecting forwards pairs shared' connector where
  tunneler := keeps.tunneler _ connecting.tunneler
  message sink id writer := by
    obtain ⟨host, below, apart⟩ := connecting.message sink id writer
    exact ⟨host, below.trans_le (keeps.next _), apart⟩

theorem Fits.keeps {object : Linked MessageCopier Connector}
    (fits : Fits forwards pairs shared object)
    (keeps : shared.Keeps pairs shared') : Fits forwards pairs shared' object := by
  cases object with
  | reqLinker linker => exact fun exchange busy => (fits exchange busy).keeps keeps
  | connector connector => exact Connecting.keeps fits keeps

theorem Working.keeps (working : Working forwards pairs shared linked finished)
    (keeps : shared.Keeps pairs shared')
    (clients : ∀ id, (shared'.clients id).Sound forwards (pairs id)) :
    Working forwards pairs shared' linked finished where
  clients := clients
  objects id object found := (working.objects id object found).keeps keeps
  relayed gen member := (working.relayed gen member).keeps keeps

end Keeps

/-! ### What upstream does to a client -/

/-- Messages are drained, and bytes move in the buffers of the tunnel. -/
structure Client.Drains (client later : Client) : Prop where
  reader : later.linker.reader = client.linker.reader
  connected : later.linker.connected = client.linker.connected
  next : later.linker.next = client.linker.next
  writer : later.linker.writer = client.linker.writer
  tunneler : later.linker.tunneler = client.linker.tunneler
  responseQueue : later.linker.responseQueue = client.linker.responseQueue
  alive : later.alive = client.alive
  popped : later.popped = client.popped
  forwarded : later.forwarded = client.forwarded
  messages : ∀ id, HttpMessage.Drains (client.linker.messages id) (later.linker.messages id)

namespace Client.Drains

variable {client later last : Client} {pairs : List (MessageId × MessageId)}

theorem refl (client : Client) : Drains client client :=
  ⟨rfl, rfl, rfl, rfl, rfl, rfl, rfl, rfl, rfl, fun _ => .refl _⟩

theorem trans (first : Drains client later) (second : Drains later last) : Drains client last where
  reader := second.reader.trans first.reader
  connected := second.connected.trans first.connected
  next := second.next.trans first.next
  writer := second.writer.trans first.writer
  tunneler := second.tunneler.trans first.tunneler
  responseQueue := second.responseQueue.trans first.responseQueue
  alive := second.alive.trans first.alive
  popped := second.popped.trans first.popped
  forwarded := second.forwarded.trans first.forwarded
  messages id := (first.messages id).trans (second.messages id)

theorem readerMsg (drains : Drains client later) :
    later.linker.readerMsg = client.linker.readerMsg := by
  rw [ALinker.readerMsg, drains.reader, ALinker.readerMsg]

end Client.Drains

theorem Client.Sound.drains {forwards : Prop} {client later : Client}
    {pairs : List (MessageId × MessageId)} (sound : client.Sound forwards pairs)
    (drains : client.Drains later) : later.Sound forwards pairs where
  once := sound.once
  below id member := by
    rw [drains.next]
    exact sound.below id member
  first sink own writer := by
    rw [drains.writer] at writer
    rw [drains.responseQueue]
    exact sound.first sink own writer
  reading id current := by
    rw [drains.readerMsg] at current
    rw [drains.next]
    obtain ⟨below, inStep, apart⟩ := sound.reading id current
    exact ⟨below, (Onward.ofDrains (drains.messages id)).inStep inStep, apart⟩
  forwarded id member := by
    rw [drains.forwarded] at member
    rw [drains.tunneler, drains.next]
    exact sound.forwarded id member

namespace Shared

variable {shared shared' shared'' : Shared} {id : ClientId} {msg : MessageId} {value : HttpMessage}

/-- Every client is drained. -/
def Drains (shared shared' : Shared) : Prop :=
  ∀ id, (shared.clients id).Drains (shared'.clients id)

theorem Drains.refl (shared : Shared) : shared.Drains shared := fun _ => .refl _

theorem Drains.trans (first : shared.Drains shared') (second : shared'.Drains shared'') :
    shared.Drains shared'' := fun id => (first id).trans (second id)

/-- Only one client changes. -/
theorem drains_setClient {client : Client} (drains : (shared.clients id).Drains client) :
    shared.Drains (shared.setClient id client) :=
  forall_setClient.mpr ⟨drains, fun _ _ => .refl _⟩

theorem drains_setMessage (drains : HttpMessage.Drains (shared.message id msg) value) :
    shared.Drains (shared.setMessage id msg value) :=
  drains_setClient ⟨rfl, rfl, rfl, rfl, rfl, rfl, rfl, rfl, rfl,
    ALinker.drains_setMessage drains⟩

theorem drains_setTrace (shared : Shared) (id : ClientId) (trace : Trace) :
    shared.Drains (shared.setTrace id trace) :=
  drains_setClient ⟨rfl, rfl, rfl, rfl, rfl, rfl, rfl, rfl, rfl, fun _ => .refl _⟩

theorem Drains.keeps (drains : shared.Drains shared')
    (pairs : ClientId → List (MessageId × MessageId)) : shared.Keeps pairs shared' where
  request id pair _ := Onward.ofDrains ((drains id).messages pair.1)
  response id pair _ := (drains id).messages pair.2
  tunneler id tunnel := (drains id).tunneler.trans tunnel
  next id := (drains id).next.ge

/-- `delete connect_msg` changes the record only. -/
theorem keeps_forget (shared : Shared) (id : ClientId) (msg : MessageId)
    (pairs : ClientId → List (MessageId × MessageId)) :
    shared.Keeps pairs (shared.forget id msg) := by
  have linkers (other : ClientId) :
      (shared.forget id msg).linker other = shared.linker other := by
    by_cases same : other = id
    · subst same
      simp [forget, Shared.linker]
    · simp [forget, Shared.linker, clients_setClient_ne same]
  constructor
  · intro other pair _
    rw [message, message, linkers]
    exact Onward.ofDrains (.refl _)
  · intro other pair _
    rw [message, message, linkers]
    exact .refl _
  · intro other tunnel
    rwa [linkers]
  · intro other
    rw [linkers]

end Shared

theorem Client.Sound.forget {forwards : Prop} {client : Client}
    {pairs : List (MessageId × MessageId)} {id : MessageId} (sound : client.Sound forwards pairs)
    (tunnel : client.linker.tunneler = true) (host : forwards) (below : id < client.linker.next)
    (apart : id ∉ messageIds pairs) :
    Client.Sound forwards { client with forwarded := client.forwarded ++ [id] } pairs where
  once := sound.once
  below := sound.below
  first := sound.first
  reading := sound.reading
  forwarded other member := by
    rcases List.mem_append.mp member with old | new
    · exact sound.forwarded other old
    · rw [List.mem_singleton.mp new]
      exact ⟨tunnel, host, below, apart⟩

/-! ### The connector -/

theorem Tunnel.drains_call {tunnel : Tunnel} {asked : Call} {shared shared' : Shared}
    {answer : Answer} (outcome : tunnel.call asked shared = .ok (shared', answer)) :
    shared.Drains shared' := by
  unfold Tunnel.call at outcome
  split at outcome
  · cases outcome
  · split at outcome
    · cases outcome
      exact .refl _
    · split at outcome
      · cases asked with
        | getWriteSize =>
            cases outcome
            exact .refl _
        | write maxWrite amount | read rbuf =>
            cases outcome
            refine (Shared.drains_setClient ?_).trans (Shared.drains_setTrace _ _ _)
            exact ⟨rfl, rfl, rfl, rfl, rfl, rfl, rfl, rfl, rfl, fun _ => .refl _⟩
      · cases outcome

/-- A call keeps the message, drained, or it is sent and deleted. -/
theorem Connector.call_cases {connector connector' : Connector} {asked : Call}
    {shared shared' : Shared} {answer : Answer}
    (outcome : connector.call asked shared = .ok (shared', connector', answer)) :
    connector'.conn = connector.conn ∧
      (shared.Drains shared' ∧ connector'.writer.map (·.2) = connector.writer.map (·.2) ∨
        ∃ sink id middle, connector.writer = some (sink, id) ∧ connector'.writer = none ∧
          shared.Drains middle ∧ (middle.message connector.conn.client id).isSent = true ∧
          (middle.forget connector.conn.client id).Drains shared') := by
  have tunnelled (outcome : connector.tunnelled asked shared = .ok (shared', connector', answer)) :
      connector'.conn = connector.conn ∧ shared.Drains shared' ∧
        connector'.writer.map (·.2) = connector.writer.map (·.2) := by
    obtain ⟨⟨after, answer₁⟩, called, same⟩ := bind_eq_ok.mp outcome
    cases same
    exact ⟨rfl, Tunnel.drains_call called, rfl⟩
  unfold Connector.call at outcome
  split at outcome
  · rename_i sink id writer
    obtain ⟨⟨⟨sink', msg⟩, amt⟩, size_eq, further⟩ := bind_eq_ok.mp outcome
    have drains := Shared.drains_setMessage (MessageSink.drains_getWriteSize size_eq).2
    simp only at further
    split at further
    · rename_i concluded
      obtain ⟨⟨after, answer₁⟩, called, same⟩ := bind_eq_ok.mp further
      cases same
      refine ⟨rfl, Or.inr ⟨sink, id, _, writer, rfl, drains, ?_, Tunnel.drains_call called⟩⟩
      rw [Shared.message_setMessage_self]
      exact concluded.2
    · cases further
      exact ⟨rfl, Or.inl ⟨drains, by rw [writer]; rfl⟩⟩
  · rename_i sink id maxWrite amount writer
    obtain ⟨⟨⟨sink', msg⟩, sent⟩, write_eq, further⟩ := bind_eq_ok.mp outcome
    cases further
    refine ⟨rfl, Or.inl ⟨?_, by rw [writer]; rfl⟩⟩
    exact (Shared.drains_setMessage (MessageSink.drains_write write_eq)).trans
      (Shared.drains_setTrace _ _ _)
  · obtain ⟨conn, drains, writer⟩ := tunnelled outcome
    exact ⟨conn, Or.inl ⟨drains, writer⟩⟩

/-! ### The exchange -/

section Exchange

variable {pairs : ClientId → List (MessageId × MessageId)} {shared shared' : Shared}
  {exchange : Exchange MessageCopier} {left : Option (Exchange MessageCopier)} {asked : Call}
  {answer : Answer}

/-- What is left of an exchange: nothing if the copier is done, or the same copier. -/
def Remains (pairs : ClientId → List (MessageId × MessageId)) (shared : Shared)
    (gen : MessageCopier) : Option (Exchange MessageCopier) → Prop
  | none => Relayed pairs shared gen
  | some exchange => exchange.gen = gen ∧ Carried pairs shared exchange

/-- Two pairs have no message in common. -/
theorem pair_unique {queue : List (MessageId × MessageId)} (once : (messageIds queue).Nodup)
    {pair other : MessageId × MessageId} (member : pair ∈ queue) (member' : other ∈ queue)
    {id : MessageId} (here : id = pair.1 ∨ id = pair.2) (there : id = other.1 ∨ id = other.2) :
    pair = other := by
  induction queue with
  | nil => cases member
  | cons head queue ih =>
      simp only [messageIds_cons, List.nodup_cons, List.mem_cons, not_or] at once
      obtain ⟨⟨-, request⟩, response, once⟩ := once
      -- no message of the head is behind it
      have behind (behind : MessageId × MessageId) (inside : behind ∈ queue)
          (shares : id = behind.1 ∨ id = behind.2) (first : id = head.1 ∨ id = head.2) : False := by
        have inside' := mem_messageIds.mpr ⟨behind, inside, shares⟩
        rcases first with rfl | rfl
        · exact request inside'
        · exact response inside'
      rcases List.mem_cons.mp member with rfl | later
      · rcases List.mem_cons.mp member' with rfl | later'
        · rfl
        · exact (behind other later' there here).elim
      · rcases List.mem_cons.mp member' with rfl | later'
        · exact (behind pair later here there).elim
        · exact ih once later later'

theorem pair_apart {queue : List (MessageId × MessageId)} (once : (messageIds queue).Nodup)
    {pair : MessageId × MessageId} (member : pair ∈ queue) : pair.1 ≠ pair.2 := by
  have both : [pair.1, pair.2].Nodup := (List.nodup_flatMap.mp once).1 pair member
  simpa using both

theorem checkDone_cases (outcome : exchange.checkDone = .ok left) :
    ∃ writer outMsg size,
      exchange.writer.getWriteSize exchange.outMsg = .ok ((writer, outMsg), size) ∧
      (left = none ∧ exchange.inMsg.isSent = true ∧ outMsg.isSent = true ∨
        left = some { exchange with writer, outMsg } ∧
          ¬(size = 0 ∧ exchange.inMsg.isSent = true ∧ outMsg.isSent = true)) := by
  obtain ⟨⟨⟨writer, outMsg⟩, size⟩, size_eq, outcome⟩ := bind_eq_ok.mp outcome
  refine ⟨writer, outMsg, size, size_eq, ?_⟩
  simp only at outcome
  split at outcome
  · rename_i concluded
    exact Or.inl ⟨(Except.ok.inj outcome).symm, concluded.2⟩
  · rename_i going
    exact Or.inr ⟨(Except.ok.inj outcome).symm, going⟩

/-- The writer takes from the copy only, of which the section matters. -/
theorem Carrying.checkDone (carrying : Carrying pairs shared exchange)
    (outcome : exchange.checkDone = .ok left) : Remains pairs shared exchange.gen left := by
  obtain ⟨writer, outMsg, size, size_eq, concluded⟩ := checkDone_cases outcome
  obtain ⟨size_all, drains⟩ := MessageSink.drains_getWriteSize size_eq
  have request := carrying.request.congr drains.state
  rcases concluded with ⟨rfl, received, sent⟩ | ⟨rfl, going⟩
  · refine ⟨carrying.pair, ?_, ?_⟩
    · have done := ((HttpMessage.isSent_iff outMsg).mp sent).1
      have past : 3 ≤ outMsg.state.rank := by simp [done]
      have ended : (shared.message exchange.gen.client exchange.gen.msgReq).state = .done :=
        MessageState.rank_injective
          (le_antisymm (MessageState.rank_le_three _) (past.trans request.behind))
      exact (HttpMessage.isSent_iff _).mpr ⟨ended, request.headers (by omega),
        request.entity (by omega), request.footers past⟩
    · rw [← ((HttpMessage.isSent_iff exchange.inMsg).mp received).1]
      exact carrying.response.state
  · refine ⟨rfl, ⟨carrying.pair, request, carrying.response⟩, fun concluded => going ?_⟩
    rw [size_all]
    exact ⟨List.length_eq_zero_iff.mpr concluded.1, concluded.2⟩

theorem HttpMessage.drains_drained (msg : HttpMessage) : Drains msg msg.drained :=
  ⟨rfl, rfl, rfl, rfl, rfl, Or.inr rfl, Or.inr rfl, Or.inr rfl⟩

theorem Carrying.drained (carrying : Carrying pairs shared exchange) {outMsg : HttpMessage}
    (drains : Drains exchange.outMsg outMsg) (writer : MessageSink) :
    Carrying pairs shared { exchange with writer, outMsg } :=
  ⟨carrying.pair, carrying.request.congr drains.state, carrying.response⟩

/-- The request is asked for, and the writer takes what there is. -/
theorem Carrying.getWriteSize (carrying : Carrying pairs shared exchange)
    (outcome : exchange.call shared .getWriteSize = .ok (shared', left, answer)) :
    shared.Drains shared' ∧ Remains pairs shared' exchange.gen left := by
  obtain ⟨⟨after, outMsg⟩, generated, outcome⟩ := bind_eq_ok.mp outcome
  obtain ⟨⟨⟨writer, outMsg₁⟩, ret⟩, size_eq, outcome⟩ := bind_eq_ok.mp outcome
  obtain ⟨left₁, check_eq, outcome⟩ := bind_eq_ok.mp outcome
  cases outcome
  obtain ⟨copy, dump_eq, -, copied⟩ := carrying.request.dump_copied
  obtain ⟨⟨msgReq, copy₁⟩, dump_eq₁, same⟩ := bind_eq_ok.mp generated
  obtain ⟨rfl, rfl⟩ := Prod.mk.inj (Except.ok.inj (dump_eq.symm.trans dump_eq₁))
  cases same
  have drains : shared.Drains (shared.setMessage exchange.gen.client exchange.gen.msgReq
      (shared.message exchange.gen.client exchange.gen.msgReq).drained) :=
    Shared.drains_setMessage (HttpMessage.drains_drained _)
  refine ⟨drains, ?_⟩
  have middle : Carrying pairs (shared.setMessage exchange.gen.client exchange.gen.msgReq
      (shared.message exchange.gen.client exchange.gen.msgReq).drained)
        { exchange with outMsg } := by
    refine ⟨carrying.pair, ?_, (carrying.keeps (drains.keeps pairs)).response⟩
    rw [Shared.message_setMessage_self]
    exact copied.copying
  exact (middle.drained (MessageSink.drains_getWriteSize size_eq).2 writer).checkDone check_eq

theorem Carrying.write {maxWrite amount : Nat} (carrying : Carrying pairs shared exchange)
    (outcome : exchange.call shared (.write maxWrite amount) = .ok (shared', left, answer)) :
    shared' = shared ∧ Remains pairs shared' exchange.gen left := by
  obtain ⟨⟨⟨writer, outMsg⟩, sent⟩, write_eq, outcome⟩ := bind_eq_ok.mp outcome
  obtain ⟨left₁, check_eq, outcome⟩ := bind_eq_ok.mp outcome
  cases outcome
  exact ⟨rfl, (carrying.drained (MessageSink.drains_write write_eq) writer).checkDone check_eq⟩

/-- What is read goes on to the response of the client. -/
theorem Carrying.read {rbuf : Str} (carrying : Carrying pairs shared exchange)
    (apart : exchange.gen.msgReq ≠ exchange.gen.msgRes)
    (outcome : exchange.call shared (.read rbuf) = .ok (shared', left, answer)) :
    (∃ msgRes, shared' = shared.setMessage exchange.gen.client exchange.gen.msgRes msgRes ∧
        (shared.message exchange.gen.client exchange.gen.msgRes).state.rank ≤ msgRes.state.rank) ∧
      Remains pairs shared' exchange.gen left := by
  obtain ⟨⟨⟨reader, inMsg⟩, ret⟩, read_eq, outcome⟩ := bind_eq_ok.mp outcome
  obtain ⟨⟨after, inMsg₁⟩, given, outcome⟩ := bind_eq_ok.mp outcome
  obtain ⟨left₁, check_eq, outcome⟩ := bind_eq_ok.mp outcome
  cases outcome
  obtain ⟨updates, -, filled, -⟩ := MessageSource.read_fills read_eq
  obtain ⟨msgRes, dump_eq, -, copied⟩ :=
    (carrying.response.copying.extends (Extends.fill filled)).dump_copied
  obtain ⟨⟨drained, msgRes₁⟩, dump_eq₁, same⟩ := bind_eq_ok.mp given
  obtain ⟨rfl, rfl⟩ := Prod.mk.inj (Except.ok.inj (dump_eq.symm.trans dump_eq₁))
  cases same
  refine ⟨⟨msgRes, rfl, ?_⟩, ?_⟩
  · rw [copied.state, carrying.response.state]
    exact (Extends.fill filled).state
  have later : Carrying pairs
      (shared.setMessage exchange.gen.client exchange.gen.msgRes msgRes)
        { exchange with reader, inMsg := inMsg.drained } := by
    refine ⟨carrying.pair, ?_, ?_⟩
    · rw [Shared.message_setMessage_ne fun _ => apart]
      exact carrying.request
    · rw [Shared.message_setMessage_self]
      exact copied
  exact later.checkDone check_eq

end Exchange

/-! ### The requester -/

section Requester

variable {forwards : Prop} {pairs : ClientId → List (MessageId × MessageId)}
    {shared shared' : Shared}
  {requester requester' : Requester MessageCopier Connector} {id : ObjectId} {asked : Call}
  {answer : Answer} {accepted : List (Endpoint × MessageCopier)}
  {linked : ObjectId → Option (Linked MessageCopier Connector)} {finished : List MessageCopier}
  {gen other : MessageCopier}

/-- An object is replaced, and the others fit. -/
theorem Working.replace {object : Linked MessageCopier Connector}
    (clients : ∀ client, (shared.clients client).Sound forwards (pairs client))
    (objects : ∀ other object, other ≠ id → linked other = some object →
      Fits forwards pairs shared object)
    (relayed : ∀ gen ∈ finished, Relayed pairs shared gen)
    (fits : Fits forwards pairs shared object) :
    Working forwards pairs shared (Function.update linked id (some object)) finished where
  clients := clients
  objects other object' found := by
    rcases of_update_some found with ⟨-, rfl⟩ | ⟨differs, found⟩
    · exact fits
    · exact objects other object' differs found
  relayed := relayed

theorem Working.update (working : Working forwards pairs shared linked finished)
    {object : Linked MessageCopier Connector} (fits : Fits forwards pairs shared object) :
    Working forwards pairs shared (Function.update linked id (some object)) finished :=
  Working.replace working.clients (fun other object _ found => working.objects other object found)
    working.relayed fits

theorem Working.drains (working : Working forwards pairs shared linked finished)
    (drains : shared.Drains shared') : Working forwards pairs shared' linked finished :=
  working.keeps (drains.keeps pairs) fun id => (working.clients id).drains (drains id)

theorem Shared.sound_setClient {id : ClientId} {client : Client}
    (sound : ∀ other, (shared.clients other).Sound forwards (pairs other))
    (here : client.Sound forwards (pairs id)) (other : ClientId) :
    ((shared.setClient id client).clients other).Sound forwards (pairs other) :=
  (Shared.forall_setClient (P := fun id client => client.Sound forwards (pairs id))).mpr
    ⟨here, fun other _ => sound other⟩ other

theorem Working.forget {client : ClientId} {msg : MessageId}
    (working : Working forwards pairs shared linked finished)
    (tunnel : (shared.linker client).tunneler = true) (host : forwards)
    (below : msg < (shared.linker client).next) (apart : msg ∉ messageIds (pairs client)) :
    Working forwards pairs (shared.forget client msg) linked finished := by
  refine working.keeps (Shared.keeps_forget shared client msg pairs) ?_
  refine Shared.sound_setClient working.clients ?_
  exact (working.clients client).forget tunnel host below apart

theorem Working.connector {connector connector' : Connector}
    (working : Working forwards pairs shared linked finished)
    (found : linked id = some (.connector connector))
    (outcome : connector.call asked shared = .ok (shared', connector', answer)) :
    Working forwards pairs shared' (Function.update linked id (some (.connector connector')))
      finished := by
  have connecting : Connecting forwards pairs shared connector := working.objects id _ found
  obtain ⟨conn, ⟨drains, writer⟩ | ⟨sink, msg, middle, writer, none, before, -, behind⟩⟩ :=
    Connector.call_cases outcome
  · -- the message stays
    have kept := connecting.keeps (drains.keeps pairs)
    refine (working.drains drains).update
      (show Connecting forwards pairs shared' connector' from ⟨conn ▸ kept.tunneler, ?_⟩)
    intro sink id writer'
    rw [writer'] at writer
    obtain ⟨⟨sink₁, id₁⟩, writer₁, same⟩ := Option.map_eq_some_iff.mp writer.symm
    obtain rfl : id₁ = id := same
    rw [conn]
    exact kept.message sink₁ id₁ writer₁
  · -- it is deleted
    have kept := connecting.keeps (before.keeps pairs)
    obtain ⟨host, below, apart⟩ := kept.message sink msg writer
    have tunnel : (shared'.linker connector'.conn.client).tunneler = true := by
      have forgotten := (Shared.keeps_forget middle connector.conn.client msg pairs).trans
        (behind.keeps pairs)
      rw [conn]
      exact forgotten.tunneler _ kept.tunneler
    refine (((working.drains before).forget kept.tunneler host below apart).drains behind).update
      (show Connecting forwards pairs shared' connector' from ⟨tunnel, fun sink₁ id₁ writer₁ => ?_⟩)
    rw [none] at writer₁
    cases writer₁

/-- A call of a `ReqLinker` goes on with its exchange. -/
theorem reqLinker_cases {linker linker' : ReqLinker MessageCopier}
    (outcome : linker.call shared asked = .ok (shared', linker', answer)) :
    (linker.exchange = none ∧ linker' = linker ∧ shared' = shared) ∨
      ∃ exchange left, linker.exchange = some exchange ∧
        exchange.call shared asked = .ok (shared', left, answer) ∧
        linker' = { linker with exchange := left } := by
  unfold ReqLinker.call at outcome
  cases busy : linker.exchange with
  | none =>
      rw [busy] at outcome
      cases outcome
      exact Or.inl ⟨rfl, rfl, rfl⟩
  | some exchange =>
      rw [busy] at outcome
      obtain ⟨⟨after, left, answer₁⟩, called, outcome⟩ := bind_eq_ok.mp outcome
      cases outcome
      exact Or.inr ⟨exchange, left, rfl, called, rfl⟩

/-- What a call leaves of an exchange: others fit, and it remains. -/
structure Others (forwards : Prop) (pairs : ClientId → List (MessageId × MessageId))
    (shared : Shared)
    (linked : ObjectId → Option (Linked MessageCopier Connector))
    (finished : List MessageCopier) (id : ObjectId) : Prop where
  clients : ∀ id, (shared.clients id).Sound forwards (pairs id)
  objects : ∀ other object, other ≠ id → linked other = some object →
    Fits forwards pairs shared object
  relayed : ∀ gen ∈ finished, Relayed pairs shared gen

theorem Working.others (working : Working forwards pairs shared linked finished) (id : ObjectId) :
    Others forwards pairs shared linked finished id :=
  ⟨working.clients, fun other object _ found => working.objects other object found,
    working.relayed⟩

/-- A call of the requester, when what it does to an exchange is known. -/
theorem Working.ofCall (working : Working forwards pairs shared requester.linked requester.finished)
    (exchanges : ∀ endpoint exchange left,
      requester.linked id = some (.reqLinker ⟨endpoint, some exchange⟩) →
      exchange.call shared asked = .ok (shared', left, answer) →
      Others forwards pairs shared' requester.linked requester.finished id ∧
        Remains pairs shared' exchange.gen left)
    (outcome : requester.call shared id asked = .ok (shared', requester', answer)) :
    Working forwards pairs shared' requester'.linked requester'.finished := by
  rcases Requester.call_cases outcome with
    ⟨connector, connector', found, called, rfl⟩ | ⟨linker, linker', found, called, -, further⟩
  · exact working.connector found called
  · rcases reqLinker_cases called with ⟨idle, rfl, rfl⟩ | ⟨exchange, left, busy, went, rfl⟩
    · rcases further with ⟨-, rfl⟩ | ⟨gen, busy, -⟩
      · exact working.update (working.objects id _ found)
      · simp [ReqLinker.gen, idle] at busy
    · obtain ⟨endpoint, exchange₁⟩ := linker
      obtain rfl : exchange₁ = some exchange := busy
      obtain ⟨others, remains⟩ := exchanges endpoint exchange left found went
      cases left with
      | none =>
          rcases further with ⟨same, -⟩ | ⟨gen, same, -, rfl⟩
          · cases same
          · obtain rfl : exchange.gen = gen := Option.some.inj same
            refine Working.replace others.clients others.objects (fun gen member => ?_)
              (fun _ none => by cases none)
            rcases List.mem_append.mp member with old | new
            · exact others.relayed gen old
            · rw [List.mem_singleton.mp new]
              exact remains
      | some exchange' =>
          rcases further with ⟨-, rfl⟩ | ⟨gen, -, none, -⟩
          · refine Working.replace others.clients others.objects others.relayed
              (show ∀ found, some exchange' = some found → _ from fun found same => ?_)
            cases same
            exact remains.2
          · cases none

/-- A call that reads nothing. -/
theorem Working.call (working : Working forwards pairs shared requester.linked requester.finished)
    (quiet : ∀ rbuf, asked ≠ .read rbuf)
    (outcome : requester.call shared id asked = .ok (shared', requester', answer)) :
    Working forwards pairs shared' requester'.linked requester'.finished := by
  refine working.ofCall (fun endpoint exchange left found went => ?_) outcome
  have carried : Carried pairs shared exchange := working.objects id _ found exchange rfl
  have moved : shared.Drains shared' ∧ Remains pairs shared' exchange.gen left := by
    cases asked with
    | getWriteSize => exact carried.toCarrying.getWriteSize went
    | write maxWrite amount =>
        obtain ⟨same, remains⟩ := carried.toCarrying.write went
        rw [same] at remains ⊢
        exact ⟨.refl _, remains⟩
    | read rbuf => exact absurd rfl (quiet rbuf)
  obtain ⟨drains, remains⟩ := moved
  exact ⟨(working.drains drains).others id, remains⟩

/-! ### A response is read -/

theorem Client.Sound.setResponse {client : ClientId} {msgRes : MessageId} {value : HttpMessage}
    (sound : ∀ id, (shared.clients id).Sound forwards (pairs id))
    (response : msgRes ∈ (pairs client).map (·.2)) (id : ClientId) :
    ((shared.setMessage client msgRes value).clients id).Sound forwards (pairs id) := by
  have here := sound client
  refine Shared.sound_setClient sound ?_ id
  refine ⟨here.once, here.below, here.first, fun current reads => ?_, here.forwarded⟩
  obtain ⟨below, inStep, apart⟩ := here.reading current reads
  have differs : current ≠ msgRes := fun same => apart (same ▸ response)
  refine ⟨below, ?_, apart⟩
  simpa [ALinker.setMessage, Shared.linker, Function.update_of_ne differs] using inStep

theorem Carried.setMessage {exchange : Exchange MessageCopier} {client : ClientId}
    {msg : MessageId} {value : HttpMessage} (carried : Carried pairs shared exchange)
    (apart : exchange.gen.client = client →
      exchange.gen.msgReq ≠ msg ∧ exchange.gen.msgRes ≠ msg) :
    Carried pairs (shared.setMessage client msg value) exchange := by
  refine ⟨⟨carried.pair, ?_, ?_⟩, carried.going⟩
  · rw [Shared.message_setMessage_ne fun same => (apart same).1]
    exact carried.request
  · rw [Shared.message_setMessage_ne fun same => (apart same).2]
    exact carried.response

theorem Relayed.setMessage {gen : MessageCopier} {client : ClientId} {msg : MessageId}
    {value : HttpMessage} (relayed : Relayed pairs shared gen)
    (apart : gen.client = client → gen.msgReq ≠ msg ∧ gen.msgRes ≠ msg) :
    Relayed pairs (shared.setMessage client msg value) gen := by
  refine ⟨relayed.pair, ?_, ?_⟩
  · rw [Shared.message_setMessage_ne fun same => (apart same).1]
    exact relayed.request
  · rw [Shared.message_setMessage_ne fun same => (apart same).2]
    exact relayed.response

theorem Connecting.setMessage {connector : Connector} {client : ClientId} {msg : MessageId}
    {value : HttpMessage} (connecting : Connecting forwards pairs shared connector) :
    Connecting forwards pairs (shared.setMessage client msg value) connector := by
  have linkers (id : ClientId) :
      ((shared.setMessage client msg value).linker id).tunneler = (shared.linker id).tunneler ∧
        ((shared.setMessage client msg value).linker id).next = (shared.linker id).next := by
    by_cases same : id = client
    · subst same
      simp [Shared.setMessage, ALinker.setMessage]
    · simp [Shared.setMessage, Shared.linker_setLinker_ne same]
  refine ⟨(linkers _).1.trans connecting.tunneler, fun sink id writer => ?_⟩
  rw [(linkers _).2]
  exact connecting.message sink id writer

/-- Copiers differ in their messages. -/
theorem apart_of_ne (once : (messageIds (pairs gen.client)).Nodup)
    (member : gen.pair ∈ pairs gen.client)
    (member' : other.pair ∈ pairs other.client) (differs : other ≠ gen)
    (same : other.client = gen.client) : other.msgReq ≠ gen.msgRes ∧ other.msgRes ≠ gen.msgRes := by
  rw [same] at member'
  have unique (msg : MessageId) (here : msg = other.msgReq ∨ msg = other.msgRes) :
      msg ≠ gen.msgRes := by
    intro response
    have pair := pair_unique once member' member here (Or.inr response)
    obtain ⟨client, msgReq, msgRes⟩ := gen
    obtain ⟨client', msgReq', msgRes'⟩ := other
    obtain ⟨rfl, rfl⟩ := Prod.mk.inj pair
    exact differs (congrArg (MessageCopier.mk · _ _) same)
  exact ⟨unique _ (Or.inl rfl), unique _ (Or.inr rfl)⟩

/-- A call of any kind; no other copier works on the same messages. -/
theorem Working.callAny
    (working : Working forwards pairs shared requester.linked requester.finished)
    (assigned : Requester.Assigned requester.Attached requester.Deleted accepted)
    (outcome : requester.call shared id asked = .ok (shared', requester', answer)) :
    Working forwards pairs shared' requester'.linked requester'.finished := by
  by_cases reads : ∃ rbuf, asked = .read rbuf
  · obtain ⟨rbuf, rfl⟩ := reads
    refine working.ofCall (fun endpoint exchange left found went => ?_) outcome
    have carried : Carried pairs shared exchange := working.objects id _ found exchange rfl
    have once := (working.clients exchange.gen.client).once
    have here : requester.Attached id endpoint exchange.gen := ⟨_, found, rfl, rfl⟩
    obtain ⟨⟨msgRes, rfl, -⟩, remains⟩ :=
      carried.toCarrying.read (pair_apart once carried.pair) went
    refine ⟨⟨Client.Sound.setResponse working.clients (List.mem_map_of_mem carried.pair),
      fun other object differs there => ?_, fun gen member => ?_⟩, remains⟩
    · have fits := working.objects other object there
      cases object with
      | connector connector => exact Connecting.setMessage fits
      | reqLinker linker =>
          intro exchange₁ busy
          have carried₁ := fits exchange₁ busy
          refine carried₁.setMessage (apart_of_ne once carried.pair carried₁.pair fun same => ?_)
          have there₁ : requester.Attached other linker.endpoint exchange.gen :=
            ⟨linker, there, rfl, by rw [ReqLinker.gen, busy, ← same]; rfl⟩
          exact differs (assigned.once _ _ _ _ _ there₁ here).1
    · have relayed := working.relayed gen member
      refine relayed.setMessage (apart_of_ne once carried.pair relayed.pair fun same => ?_)
      exact (assigned.known _ _ _ here).2 (Or.inl (same ▸ member))
  · exact working.call (fun rbuf same => reads ⟨rbuf, same⟩) outcome

/-! ### New objects, and objects that go -/

variable {config : Requester.Config} {endpoint : Endpoint} {connects made : Bool}
  {object : Linked MessageCopier Connector}

theorem Working.connectionMaker
    (working : Working forwards pairs shared requester.linked requester.finished)
    (fits : Fits forwards pairs shared object)
    (outcome : requester.connectionMaker shared id object = .ok (shared', requester', true)) :
    Working forwards pairs shared' requester'.linked requester'.finished := by
  rcases Requester.connectionMaker_cases outcome with
    ⟨none, -⟩ | ⟨-, endpoint, vconn, index, answer, -, called⟩
  · cases none
  · have created : Working forwards pairs shared
        (requester.created id endpoint vconn index object).linked
        (requester.created id endpoint vconn index object).finished := working.update fits
    have quiet (rbuf : Str) : Call.getWriteSize ≠ .read rbuf := nofun
    exact created.call quiet called

/-- An object that fits is connected, or nothing changes. -/
theorem Working.connect
    (working : Working forwards pairs shared requester.linked requester.finished)
    (fits : Fits forwards pairs shared object)
    (outcome : requester.connect config shared endpoint object connects =
      .ok (shared', requester', made)) :
    made = true ∧ Working forwards pairs shared' requester'.linked requester'.finished ∨
      made = false ∧ shared' = shared ∧ requester' = requester := by
  rcases Requester.connect_cases outcome with
    ⟨none, same⟩ | ⟨rfl, ⟨id, maker⟩ | ⟨-, ⟨rfl, rfl⟩ | maker⟩⟩
  · exact Or.inr ⟨none, same⟩
  · exact Or.inl ⟨rfl, working.connectionMaker fits maker⟩
  · exact Or.inl ⟨rfl, working.update fits⟩
  · have opened : Working forwards pairs shared
        (requester.newWrapper ⟨endpoint, .multiconn fun _ => none⟩).linked
        (requester.newWrapper ⟨endpoint, .multiconn fun _ => none⟩).finished := working
    exact Or.inl ⟨rfl, opened.connectionMaker fits maker⟩

theorem fits_create {gen : MessageCopier}
    (carried : Carried pairs shared (.create config.reader config.writer gen)) :
    Fits forwards pairs shared
      (.reqLinker ⟨endpoint, some (.create config.reader config.writer gen)⟩) := by
  rintro exchange ⟨⟩
  exact carried

theorem Working.addRequest {gen : MessageCopier}
    (working : Working forwards pairs shared requester.linked requester.finished)
    (pooled : Requester.Pooled config requester)
    (carried : Carried pairs shared (.create config.reader config.writer gen))
    (outcome : requester.addRequest config shared endpoint gen connects =
      .ok (shared', requester', made)) :
    made = true ∧ Working forwards pairs shared' requester'.linked requester'.finished ∨
      made = false ∧ shared' = shared ∧ requester' = requester := by
  have fits : Fits forwards pairs shared
      (.reqLinker ⟨endpoint, some (.create config.reader config.writer gen)⟩) :=
    fits_create carried
  rcases Requester.addRequest_cases pooled outcome with ⟨id, -, rfl, rfl, rfl⟩ | connected
  · exact Or.inl ⟨rfl, working.update fits⟩
  · exact working.connect fits connected

theorem Shared.drains_unlink (shared : Shared) (cell : CellId) :
    shared.Drains (shared.unlink cell) := by
  intro id
  unfold unlink
  split
  · exact .refl _
  · split
    · exact .refl _
    · exact .refl _

theorem Working.delete (working : Working forwards pairs shared requester.linked requester.finished)
    (id : ObjectId) :
    Working forwards pairs (requester.delete shared id).1 (requester.delete shared id).2.linked
      (requester.delete shared id).2.finished := by
  have without {shared : Shared} {finished : List MessageCopier}
      (working : Working forwards pairs shared requester.linked finished) :
      Working forwards pairs shared (Function.update requester.linked id none) finished := by
    exact ⟨working.clients, fun other object found =>
      working.objects other object (of_update_none found).2, working.relayed⟩
  cases found : requester.linked id with
  | none =>
      rw [Requester.delete_of_none found]
      exact working
  | some object =>
      cases object with
      | connector connector =>
          rw [Requester.delete_connector found]
          refine without (Working.drains ?_ (Shared.drains_unlink _ _))
          have connecting : Connecting forwards pairs shared connector := working.objects id _ found
          cases writer : connector.writer with
          | none => exact working
          | some own =>
              obtain ⟨host, below, apart⟩ := connecting.message own.1 own.2 writer
              exact working.forget connecting.tunneler host below apart
      | reqLinker linker =>
          cases gen : linker.gen with
          | none =>
              rw [Requester.delete_idle found gen]
              exact without working
          | some gen =>
              rw [Requester.delete_attached found gen]
              exact without working

theorem Working.close (working : Working forwards pairs shared requester.linked requester.finished)
    (id : ObjectId) :
    Working forwards pairs (requester.close shared id).1 (requester.close shared id).2.linked
      (requester.close shared id).2.finished := by
  rcases Requester.close_cases requester shared id with ⟨-, same⟩ | ⟨wrapper, -, same⟩
  · rw [same]
    exact working
  · rw [same]
    exact Requester.foldl_delete (P := fun shared requester =>
      Working forwards pairs shared requester.linked requester.finished)
      (fun requester shared other _ holds => holds.delete other) working

end Requester

/-! ### What a client sees of it -/

/-- Upstream does not touch the connection, and fills responses only. -/
structure Client.Stays (responses : List MessageId) (client later : Client) : Prop where
  reader : later.linker.reader = client.linker.reader
  connected : later.linker.connected = client.linker.connected
  next : later.linker.next = client.linker.next
  writer : later.linker.writer = client.linker.writer
  tunneler : later.linker.tunneler = client.linker.tunneler
  responseQueue : later.linker.responseQueue = client.linker.responseQueue
  alive : later.alive = client.alive
  popped : later.popped = client.popped
  state : ∀ id ∉ responses,
    (later.linker.messages id).state = (client.linker.messages id).state
  rank : ∀ id,
    (client.linker.messages id).state.rank ≤ (later.linker.messages id).state.rank

/-- A message that is deleted was sent. -/
structure Client.Served (responses : List MessageId) (client later : Client) : Prop
    extends Client.Stays responses client later where
  forwarded : ∀ id ∈ later.forwarded, id ∈ client.forwarded ∨
    id ∉ responses ∧ (later.linker.messages id).state = .done

namespace Client

variable {responses : List MessageId} {client later last : Client}

theorem Stays.refl (responses : List MessageId) (client : Client) :
    Stays responses client client :=
  ⟨rfl, rfl, rfl, rfl, rfl, rfl, rfl, rfl, fun _ _ => rfl, fun _ => le_rfl⟩

theorem Stays.trans (first : Stays responses client later) (second : Stays responses later last) :
    Stays responses client last where
  reader := second.reader.trans first.reader
  connected := second.connected.trans first.connected
  next := second.next.trans first.next
  writer := second.writer.trans first.writer
  tunneler := second.tunneler.trans first.tunneler
  responseQueue := second.responseQueue.trans first.responseQueue
  alive := second.alive.trans first.alive
  popped := second.popped.trans first.popped
  state id apart := (second.state id apart).trans (first.state id apart)
  rank id := (first.rank id).trans (second.rank id)

theorem Stays.readerMsg (stays : Stays responses client later) :
    later.linker.readerMsg = client.linker.readerMsg := by
  rw [ALinker.readerMsg, stays.reader, ALinker.readerMsg]

theorem Served.refl (responses : List MessageId) (client : Client) :
    Served responses client client := ⟨.refl _ _, fun _ member => Or.inl member⟩

theorem Served.trans (first : Served responses client later)
    (second : Served responses later last) : Served responses client last := by
  refine ⟨first.toStays.trans second.toStays, fun id member => ?_⟩
  rcases second.forwarded id member with before | here
  · rcases first.forwarded id before with old | ⟨apart, done⟩
    · exact Or.inl old
    · exact Or.inr ⟨apart, (second.state id apart).trans done⟩
  · exact Or.inr here

theorem Drains.served (drains : Client.Drains client later) (responses : List MessageId) :
    Served responses client later where
  reader := drains.reader
  connected := drains.connected
  next := drains.next
  writer := drains.writer
  tunneler := drains.tunneler
  responseQueue := drains.responseQueue
  alive := drains.alive
  popped := drains.popped
  state id _ := (drains.messages id).state
  rank id := by rw [(drains.messages id).state]
  forwarded id member := Or.inl (drains.forwarded ▸ member)

end Client

/-- The messages of the responses. -/
def responseIds (pairs : ClientId → List (MessageId × MessageId)) (id : ClientId) :
    List MessageId := (pairs id).map (·.2)

namespace Shared

variable {pairs : ClientId → List (MessageId × MessageId)} {shared shared' shared'' : Shared}

/-- Every client stays as it is, but for its messages. -/
def Stays (pairs : ClientId → List (MessageId × MessageId)) (shared shared' : Shared) : Prop :=
  ∀ id, (shared.clients id).Stays (responseIds pairs id) (shared'.clients id)

def Served (pairs : ClientId → List (MessageId × MessageId)) (shared shared' : Shared) : Prop :=
  ∀ id, (shared.clients id).Served (responseIds pairs id) (shared'.clients id)

theorem Served.refl (shared : Shared) : shared.Served pairs shared := fun _ => .refl _ _

theorem Served.trans (first : shared.Served pairs shared')
    (second : shared'.Served pairs shared'') :
    shared.Served pairs shared'' := fun id => (first id).trans (second id)

theorem Stays.trans (first : shared.Stays pairs shared') (second : shared'.Stays pairs shared'') :
    shared.Stays pairs shared'' := fun id => (first id).trans (second id)

theorem Drains.served (drains : shared.Drains shared')
    (pairs : ClientId → List (MessageId × MessageId)) : shared.Served pairs shared' :=
  fun id => (drains id).served _

theorem stays_forget (shared : Shared) (client : ClientId) (msg : MessageId)
    (pairs : ClientId → List (MessageId × MessageId)) :
    shared.Stays pairs (shared.forget client msg) :=
  forall_setClient.mpr ⟨⟨rfl, rfl, rfl, rfl, rfl, rfl, rfl, rfl, fun _ _ => rfl, fun _ => le_rfl⟩,
    fun _ _ => .refl _ _⟩

theorem served_forget {client : ClientId} {msg : MessageId}
    (apart : msg ∉ responseIds pairs client) (sent : (shared.message client msg).isSent = true) :
    shared.Served pairs (shared.forget client msg) := by
  refine forall_setClient.mpr ⟨⟨?_, fun other member => ?_⟩, fun _ _ => .refl _ _⟩
  · simpa only [forget, clients_setClient_self] using stays_forget shared client msg pairs client
  · rcases List.mem_append.mp member with old | new
    · exact Or.inl old
    · rw [List.mem_singleton.mp new]
      exact Or.inr ⟨apart, ((HttpMessage.isSent_iff _).mp sent).1⟩

theorem served_setMessage {client : ClientId} {msg : MessageId} {value : HttpMessage}
    (response : msg ∈ responseIds pairs client)
    (rank : (shared.message client msg).state.rank ≤ value.state.rank) :
    shared.Served pairs (shared.setMessage client msg value) := by
  refine forall_setClient.mpr ⟨⟨⟨rfl, rfl, rfl, rfl, rfl, rfl, rfl, rfl, fun other apart => ?_,
    fun other => ?_⟩, fun _ member => Or.inl member⟩, fun _ _ => .refl _ _⟩
  · have differs : other ≠ msg := fun same => apart (same ▸ response)
    simp [ALinker.setMessage, Shared.linker, Function.update_of_ne differs]
  · by_cases same : other = msg
    · subst same
      simpa [ALinker.setMessage, Shared.message, Shared.linker] using rank
    · simp [ALinker.setMessage, Shared.linker, Function.update_of_ne same]

end Shared

section Served

variable {forwards : Prop} {pairs : ClientId → List (MessageId × MessageId)}
  {shared shared' : Shared} {requester requester' : Requester MessageCopier Connector}
  {id : ObjectId} {asked : Call} {answer : Answer} {config : Requester.Config}
  {endpoint : Endpoint} {connects made : Bool} {object : Linked MessageCopier Connector}

theorem not_mem_responseIds {client : ClientId} {msg : MessageId}
    (apart : msg ∉ messageIds (pairs client)) : msg ∉ responseIds pairs client := by
  intro member
  obtain ⟨pair, inside, rfl⟩ := List.mem_map.mp member
  exact apart (mem_messageIds.mpr ⟨pair, inside, Or.inr rfl⟩)

theorem Working.served_call
    (working : Working forwards pairs shared requester.linked requester.finished)
    (outcome : requester.call shared id asked = .ok (shared', requester', answer)) :
    shared.Served pairs shared' := by
  rcases Requester.call_cases outcome with
    ⟨connector, connector', found, called, -⟩ | ⟨linker, linker', found, called, -⟩
  · have connecting : Connecting forwards pairs shared connector := working.objects id _ found
    obtain ⟨-, ⟨drains, -⟩ | ⟨sink, msg, middle, writer, -, before, sent, behind⟩⟩ :=
      Connector.call_cases called
    · exact drains.served pairs
    · have apart := (connecting.message sink msg writer).2.2
      have forgotten : middle.Served pairs (middle.forget connector.conn.client msg) :=
        Shared.served_forget (not_mem_responseIds apart) sent
      exact ((before.served pairs).trans forgotten).trans (behind.served pairs)
  · rcases reqLinker_cases called with ⟨-, -, rfl⟩ | ⟨exchange, left, busy, went, -⟩
    · exact .refl _
    · have carried : Carried pairs shared exchange := working.objects id _ found exchange busy
      have once := (working.clients exchange.gen.client).once
      cases asked with
      | getWriteSize => exact (carried.toCarrying.getWriteSize went).1.served pairs
      | write maxWrite amount =>
          rw [(carried.toCarrying.write went).1]
          exact .refl _
      | read rbuf =>
          obtain ⟨⟨msgRes, rfl, rank⟩, -⟩ :=
            carried.toCarrying.read (pair_apart once carried.pair) went
          exact Shared.served_setMessage (List.mem_map_of_mem carried.pair) rank

theorem Working.served_connectionMaker
    (working : Working forwards pairs shared requester.linked requester.finished)
    (fits : Fits forwards pairs shared object)
    (outcome : requester.connectionMaker shared id object = .ok (shared', requester', true)) :
    shared.Served pairs shared' := by
  rcases Requester.connectionMaker_cases outcome with
    ⟨none, -⟩ | ⟨-, endpoint, vconn, index, answer, -, called⟩
  · cases none
  · have created : Working forwards pairs shared
        (requester.created id endpoint vconn index object).linked
        (requester.created id endpoint vconn index object).finished := working.update fits
    exact created.served_call called

theorem Working.served_connect
    (working : Working forwards pairs shared requester.linked requester.finished)
    (fits : Fits forwards pairs shared object)
    (outcome : requester.connect config shared endpoint object connects =
      .ok (shared', requester', made)) : shared.Served pairs shared' := by
  rcases Requester.connect_cases outcome with
    ⟨-, rfl, -⟩ | ⟨-, ⟨id, maker⟩ | ⟨-, ⟨rfl, -⟩ | maker⟩⟩
  · exact .refl _
  · exact working.served_connectionMaker fits maker
  · exact .refl _
  · have opened : Working forwards pairs shared
        (requester.newWrapper ⟨endpoint, .multiconn fun _ => none⟩).linked
        (requester.newWrapper ⟨endpoint, .multiconn fun _ => none⟩).finished := working
    exact opened.served_connectionMaker fits maker

theorem Working.served_addRequest {gen : MessageCopier}
    (working : Working forwards pairs shared requester.linked requester.finished)
    (pooled : Requester.Pooled config requester)
    (carried : Carried pairs shared (.create config.reader config.writer gen))
    (outcome : requester.addRequest config shared endpoint gen connects =
      .ok (shared', requester', made)) : shared.Served pairs shared' := by
  rcases Requester.addRequest_cases pooled outcome with ⟨id, -, -, rfl, -⟩ | connected
  · exact .refl _
  · exact working.served_connect (fits_create carried) connected

theorem Shared.stays_close (shared : Shared) (requester : Requester MessageCopier Connector)
    (id : ObjectId) (pairs : ClientId → List (MessageId × MessageId)) :
    shared.Stays pairs (requester.close shared id).1 := by
  have deletes (requester : Requester MessageCopier Connector) (state : Shared) (id : ObjectId)
      (before : shared.Stays pairs state) : shared.Stays pairs (requester.delete state id).1 := by
    rcases requester.delete_state state id with ⟨connector, -, same⟩ | ⟨-, same⟩
    · rw [same]
      refine Stays.trans ?_ fun id => ((Shared.drains_unlink _ _).served pairs id).toStays
      cases connector.writer with
      | none => exact before
      | some own => exact before.trans (Shared.stays_forget _ _ _ pairs)
    · rw [same]
      exact before
  rcases Requester.close_cases requester shared id with ⟨-, same⟩ | ⟨wrapper, -, same⟩
  · rw [same]
    exact fun id => .refl _ _
  · rw [same]
    exact Requester.foldl_delete (P := fun state _ => shared.Stays pairs state)
      (fun requester state other _ holds => deletes requester state other holds)
      fun _ => .refl _ _

end Served

end GnyProxy
