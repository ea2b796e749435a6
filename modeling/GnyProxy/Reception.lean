import GnyProxy.Accounts
import GnyProxy.ReadBack

/-!
# What a client reads is left alone

Upstream takes from the requests of a client and fills its responses; the reader, and the stage of
the message that it reads, are the client's own.  So are the pieces that a ledger has of a request.
-/

namespace GnyProxy

/-! ## Upstream -/

section Spares

variable {forwards : Prop} {pairs : ClientId → List (MessageId × MessageId)}
  {shared shared' shared'' : Shared} {requester requester' : Requester MessageCopier Connector}
  {place : ObjectId} {asked : Call} {answer : Answer} {config : Requester.Config}
  {endpoint : Endpoint} {connects made : Bool} {object : Linked MessageCopier Connector}

/-- Messages that are no responses are only taken from. -/
def Shared.Spares (pairs : ClientId → List (MessageId × MessageId)) (shared shared' : Shared) :
    Prop :=
  ∀ id, ∀ msg ∉ responseIds pairs id,
    HttpMessage.Drains (shared.message id msg) (shared'.message id msg)

namespace Shared

theorem Spares.refl (pairs : ClientId → List (MessageId × MessageId)) (shared : Shared) :
    shared.Spares pairs shared := fun _ _ _ => .refl _

theorem Spares.trans (first : shared.Spares pairs shared')
    (second : shared'.Spares pairs shared'') : shared.Spares pairs shared'' :=
  fun id msg apart => (first id msg apart).trans (second id msg apart)

theorem Drains.spares (drains : shared.Drains shared')
    (pairs : ClientId → List (MessageId × MessageId)) : shared.Spares pairs shared' :=
  fun id msg _ => (drains id).messages msg

theorem spares_forget (shared : Shared) (client : ClientId) (msg : MessageId)
    (pairs : ClientId → List (MessageId × MessageId)) :
    shared.Spares pairs (shared.forget client msg) := by
  intro id own _
  have same : (shared.forget client msg).message id own = shared.message id own := by
    by_cases here : id = client
    · subst here
      simp [Shared.message, Shared.linker, Shared.forget]
    · simp [Shared.message, Shared.linker, Shared.forget, Shared.clients_setClient_ne here]
  rw [same]
  exact .refl _

theorem spares_setMessage {client : ClientId} {msg : MessageId} {value : HttpMessage}
    (response : msg ∈ responseIds pairs client) :
    shared.Spares pairs (shared.setMessage client msg value) := by
  intro id own apart
  have same : (shared.setMessage client msg value).message id own = shared.message id own := by
    refine Shared.message_setMessage_ne fun here same => apart ?_
    rwa [here, same]
  rw [same]
  exact .refl _

end Shared

theorem Working.spares_call
    (working : Working forwards pairs shared requester.linked requester.finished)
    (outcome : requester.call shared place asked = .ok (shared', requester', answer)) :
    shared.Spares pairs shared' := by
  rcases Requester.call_cases outcome with
    ⟨connector, connector', found, called, -⟩ | ⟨linker, linker', found, called, -⟩
  · obtain ⟨-, ⟨drains, -⟩ | ⟨sink, msg, middle, writer, -, before, sent, behind⟩⟩ :=
      Connector.call_cases called
    · exact drains.spares pairs
    · exact ((before.spares pairs).trans (middle.spares_forget _ _ pairs)).trans
        (behind.spares pairs)
  · rcases reqLinker_cases called with ⟨-, -, rfl⟩ | ⟨exchange, left, busy, went, -⟩
    · exact .refl _ _
    · have carried : Carried pairs shared exchange := working.objects place _ found exchange busy
      have once := (working.clients exchange.gen.client).once
      cases asked with
      | getWriteSize => exact (carried.toCarrying.getWriteSize went).1.spares pairs
      | write maxWrite amount =>
          rw [(carried.toCarrying.write went).1]
          exact .refl _ _
      | read rbuf =>
          obtain ⟨⟨msgRes, rfl, -⟩, -⟩ :=
            carried.toCarrying.read (pair_apart once carried.pair) went
          exact Shared.spares_setMessage (List.mem_map_of_mem carried.pair)

theorem Working.spares_connectionMaker
    (working : Working forwards pairs shared requester.linked requester.finished)
    (fits : Fits forwards pairs shared object)
    (outcome : requester.connectionMaker shared place object = .ok (shared', requester', true)) :
    shared.Spares pairs shared' := by
  rcases Requester.connectionMaker_cases outcome with
    ⟨none, -⟩ | ⟨-, endpoint, vconn, index, answer, -, called⟩
  · cases none
  · have created : Working forwards pairs shared
        (requester.created place endpoint vconn index object).linked
        (requester.created place endpoint vconn index object).finished := working.update fits
    exact created.spares_call called

theorem Working.spares_connect
    (working : Working forwards pairs shared requester.linked requester.finished)
    (fits : Fits forwards pairs shared object)
    (outcome : requester.connect config shared endpoint object connects =
      .ok (shared', requester', made)) : shared.Spares pairs shared' := by
  rcases Requester.connect_cases outcome with
    ⟨-, rfl, -⟩ | ⟨-, ⟨place, maker⟩ | ⟨-, ⟨rfl, -⟩ | maker⟩⟩
  · exact .refl _ _
  · exact working.spares_connectionMaker fits maker
  · exact .refl _ _
  · have opened : Working forwards pairs shared
        (requester.newWrapper ⟨endpoint, .multiconn fun _ => none⟩).linked
        (requester.newWrapper ⟨endpoint, .multiconn fun _ => none⟩).finished := working
    exact opened.spares_connectionMaker fits maker

theorem Working.spares_addRequest {gen : MessageCopier}
    (working : Working forwards pairs shared requester.linked requester.finished)
    (pooled : Requester.Pooled config requester)
    (carried : Carried pairs shared (.create config.reader config.writer gen))
    (outcome : requester.addRequest config shared endpoint gen connects =
      .ok (shared', requester', made)) : shared.Spares pairs shared' := by
  rcases Requester.addRequest_cases pooled outcome with ⟨place, -, -, rfl, -⟩ | connected
  · exact .refl _ _
  · exact working.spares_connect (fits_create carried) connected

theorem Shared.spares_close (shared : Shared) (requester : Requester MessageCopier Connector)
    (place : ObjectId) (pairs : ClientId → List (MessageId × MessageId)) :
    shared.Spares pairs (requester.close shared place).1 := by
  have deletes (requester : Requester MessageCopier Connector) (state : Shared) (place : ObjectId)
      (before : shared.Spares pairs state) :
      shared.Spares pairs (requester.delete state place).1 := by
    rcases requester.delete_state state place with ⟨connector, -, same⟩ | ⟨-, same⟩
    · rw [same]
      refine Spares.trans ?_ ((Shared.drains_unlink _ _).spares pairs)
      cases connector.writer with
      | none => exact before
      | some own => exact before.trans (Shared.spares_forget _ _ _ pairs)
    · rw [same]
      exact before
  rcases Requester.close_cases requester shared place with ⟨-, same⟩ | ⟨wrapper, -, same⟩
  · rw [same]
    exact .refl _ _
  · rw [same]
    exact Requester.foldl_delete (P := fun state _ => shared.Spares pairs state)
      (fun requester state other _ holds => deletes requester state other holds) (.refl _ _)

end Spares

/-! ## One client -/

/-- Nothing happens to what a client reads. -/
structure Unmoved (id : ClientId) (shared shared' : Shared) (ledger ledger' : Ledger) : Prop where
  reader : (shared'.linker id).reader = (shared.linker id).reader
  connected : (shared'.linker id).connected = (shared.linker id).connected
  tunneler : (shared'.linker id).tunneler = (shared.linker id).tunneler
  next : (shared'.linker id).next = (shared.linker id).next
  pairs : shared'.pairs id = shared.pairs id
  drains : ∀ msg ∉ responseIds shared.pairs id,
    HttpMessage.Drains (shared.message id msg) (shared'.message id msg)
  given : ∀ msg ∉ responseIds shared.pairs id, (ledger' id msg).given = (ledger id msg).given

namespace Unmoved

variable {id : ClientId} {shared shared' shared'' : Shared} {ledger ledger' ledger'' : Ledger}
  {pairs : ClientId → List (MessageId × MessageId)}

theorem refl (id : ClientId) (shared : Shared) (ledger : Ledger) :
    Unmoved id shared shared ledger ledger :=
  ⟨rfl, rfl, rfl, rfl, rfl, fun _ _ => .refl _, fun _ _ => rfl⟩

theorem trans (first : Unmoved id shared shared' ledger ledger')
    (second : Unmoved id shared' shared'' ledger' ledger'') :
    Unmoved id shared shared'' ledger ledger'' := by
  have same : responseIds shared'.pairs id = responseIds shared.pairs id :=
    congrArg (List.map _) first.pairs
  refine ⟨second.reader.trans first.reader, second.connected.trans first.connected,
    second.tunneler.trans first.tunneler, second.next.trans first.next,
    second.pairs.trans first.pairs, fun msg apart => ?_, fun msg apart => ?_⟩
  · exact (first.drains msg apart).trans (second.drains msg (same ▸ apart))
  · exact (second.given msg (same ▸ apart)).trans (first.given msg apart)

/-- The client is as it was. -/
theorem ofClient (same : shared'.clients id = shared.clients id)
    (given : ∀ msg ∉ responseIds shared.pairs id, (ledger' id msg).given = (ledger id msg).given) :
    Unmoved id shared shared' ledger ledger' := by
  refine ⟨?_, ?_, ?_, ?_, ?_, fun msg _ => ?_, given⟩
  all_goals simp only [Shared.linker, Shared.pairs, Shared.message, same]
  exact .refl _

/-- Only upstream did something. -/
theorem ofStays (stays : shared.Stays pairs shared') (spares : shared.Spares pairs shared')
    (same : pairs id = shared.pairs id)
    (given : ∀ msg ∉ responseIds shared.pairs id, (ledger' id msg).given = (ledger id msg).given) :
    Unmoved id shared shared' ledger ledger' where
  reader := (stays id).reader
  connected := (stays id).connected
  tunneler := (stays id).tunneler
  next := (stays id).next
  pairs := Client.pairs_stays (stays id)
  drains msg apart := spares id msg (by rwa [responseIds, same])
  given := given

/-- The client is written to. -/
theorem ofSameInput {client : Client} (input : (shared.linker id).SameInput client.linker)
    (pairs : client.pairs = shared.pairs id)
    (given : ∀ msg ∉ responseIds shared.pairs id, (ledger' id msg).given = (ledger id msg).given) :
    Unmoved id shared (shared.setClient id client) ledger ledger' := by
  refine ⟨?_, ?_, ?_, ?_, ?_, fun msg _ => ?_, given⟩
  all_goals simp only [Shared.linker, Shared.pairs, Shared.message, Shared.clients_setClient_self]
  · exact input.reader
  · exact input.connected
  · exact input.tunneler
  · exact input.next
  · exact pairs
  · exact input.drains msg

end Unmoved

/-! ## What the ledger has of requests -/

theorem Ledger.given_send (ledger : Ledger) (id other : ClientId) (msg msg' : MessageId)
    (bytes : Str) : (ledger.send id msg bytes other msg').given = (ledger other msg').given := by
  by_cases same : other = id ∧ msg' = msg
  · obtain ⟨rfl, rfl⟩ := same
    simp [Ledger.send]
  · rw [Ledger.send, Ledger.setTransit_ne fun here own => same ⟨here, own⟩]

theorem Ledger.record_write (ledger : Ledger) (world : World) (id : ClientId)
    (maxWrite amount : Nat) : ledger.record world (.write id maxWrite amount) = ledger ∨
      ∃ own sent, ledger.record world (.write id maxWrite amount) = ledger.send id own sent := by
  simp only [Ledger.record]
  split
  · split
    · exact Or.inr ⟨_, _, rfl⟩
    · exact Or.inl rfl
  · exact Or.inl rfl

theorem given_recordCall {forwards : Prop} {pairs : ClientId → List (MessageId × MessageId)}
    {shared : Shared} {requester : Requester MessageCopier Connector}
    (working : Working forwards pairs shared requester.linked requester.finished)
    (ledger : Ledger) (place : ObjectId) (asked : Call) {id : ClientId} {msg : MessageId}
    (apart : msg ∉ responseIds pairs id) :
    (ledger.recordCall requester place asked id msg).given = (ledger id msg).given := by
  unfold Ledger.recordCall
  cases found : requester.exchangeAt place with
  | none => rfl
  | some exchange =>
      have carried : Carried pairs shared exchange := by
        unfold Requester.exchangeAt at found
        split at found
        · rename_i linker here
          exact working.objects place _ here exchange found
        · cases found
      change (exchange.record ledger asked id msg).given = (ledger id msg).given
      cases asked with
      | getWriteSize => rfl
      | write maxWrite amount =>
          cases written : exchange.writer.write exchange.outMsg maxWrite amount with
          | error fault => simp only [Exchange.record, written]
          | ok sent =>
              simp only [Exchange.record, written]
              exact ledger.given_send _ _ _ _ _
      | read rbuf =>
          have other : exchange.record ledger (.read rbuf) id msg = ledger id msg := by
            refine Ledger.setTransit_ne fun here same => apart ?_
            rw [here, same]
            exact List.mem_map_of_mem carried.pair
          rw [other]

/-! ## Steps -/

namespace World

section Steps

variable {config : Config} {world next : World} {id other : ClientId} {ledger : Ledger}
  {msgReq : MessageId} {source : MessageSource} {rbuf : Str} {connects : Bool} {endpoint : Endpoint}

theorem Invariant.unmoved_getWriteSize (invariant : world.Invariant config)
    (outcome : world.getWriteSize config other = .ok next) (id : ClientId) (ledger : Ledger) :
    Unmoved id world.shared next.shared ledger ledger := by
  obtain ⟨linker, size, popped, same, -, -, -, queue, -, rfl⟩ :=
    invariant.getWriteSize_cases outcome
  by_cases here : id = other
  · subst here
    refine .ofSameInput same ?_ fun _ _ => rfl
    have before : (world.shared.clients id).linker.responseQueue = popped ++ linker.responseQueue :=
      queue
    simp [Client.pairs, Shared.pairs, before]
  · exact .ofClient (Shared.clients_setClient_ne here) fun _ _ => rfl

theorem Invariant.unmoved_write {maxWrite amount : Nat} (invariant : world.Invariant config)
    (outcome : world.write other maxWrite amount = .ok next) (id : ClientId) (ledger : Ledger) :
    Unmoved id world.shared next.shared ledger
      (ledger.record world (.write other maxWrite amount)) := by
  have given (msg : MessageId) :
      (ledger.record world (.write other maxWrite amount) id msg).given =
        (ledger id msg).given := by
    rcases ledger.record_write world other maxWrite amount with same | ⟨own, sent, same⟩
    · rw [same]
    · rw [same, Ledger.given_send]
  unfold World.write at outcome
  simp only at outcome
  split at outcome
  · obtain ⟨⟨linker, sent⟩, write_eq, outcome⟩ := bind_eq_ok.mp outcome
    cases outcome
    by_cases here : id = other
    · subst here
      obtain ⟨same, -, queue, -⟩ :=
        ALinker.write_spec (invariant.working.clients id).first write_eq
      refine .ofSameInput same ?_ fun msg _ => given msg
      simp [Client.pairs, Shared.pairs, queue]
    · exact .ofClient (Shared.clients_setClient_ne here) fun msg _ => given msg
  · cases outcome
    exact .ofClient rfl fun msg _ => given msg

theorem unmoved_delete (world : World) (other id : ClientId) (ledger : Ledger) :
    Unmoved id world.shared (world.delete other).shared ledger ledger := by
  have gone (shared : Shared) (same : shared.clients =
      (world.shared.setClient other { world.shared.clients other with alive := false }).clients) :
      Unmoved id world.shared shared ledger ledger := by
    by_cases here : id = other
    · subst here
      have input : (world.shared.linker id).SameInput (world.shared.linker id) :=
        ⟨rfl, rfl, rfl, rfl, rfl, fun _ => .refl _⟩
      have left : Unmoved id world.shared (world.shared.setClient id
          { world.shared.clients id with alive := false }) ledger ledger :=
        .ofSameInput input rfl fun _ _ => rfl
      exact left.trans (.ofClient (congrFun same id) fun _ _ => rfl)
    · refine .ofClient ?_ fun _ _ => rfl
      rw [same, Shared.clients_setClient_ne here]
  simp only [World.delete]
  split
  · exact gone _ clients_unlink
  · exact gone _ rfl

theorem Invariant.unmoved_call {place : ObjectId} {asked : Call} {shared : Shared}
    {requester : Requester MessageCopier Connector} {answer : Answer}
    (invariant : world.Invariant config)
    (outcome : world.requester.call world.shared place asked = .ok (shared, requester, answer))
    (id : ClientId) (ledger : Ledger) :
    Unmoved id world.shared shared ledger (ledger.recordCall world.requester place asked) :=
  .ofStays (fun id => (invariant.working.served_call outcome id).toStays)
    (invariant.working.spares_call outcome) rfl
    fun _ apart => given_recordCall invariant.working ledger place asked apart

theorem unmoved_close (world : World) (place : ObjectId) (id : ClientId) (ledger : Ledger) :
    Unmoved id world.shared (world.requester.close world.shared place).1 ledger ledger :=
  .ofStays (Shared.stays_close world.shared world.requester place world.shared.pairs)
    (Shared.spares_close world.shared world.requester place world.shared.pairs) rfl fun _ _ => rfl

/-! ### A request is connected -/

/-- The request that a client reads is connected: it is queued, or makes a tunnel. -/
structure Links (id : ClientId) (msgReq : MessageId) (shared shared' : Shared) : Prop where
  reader : (shared'.linker id).reader = (shared.linker id).reader
  next : (shared.linker id).next ≤ (shared'.linker id).next
  connected : (shared'.linker id).connected = true
  pairs : shared'.pairs id = shared.pairs id ∧ (shared'.linker id).tunneler = true ∨
    shared'.pairs id = shared.pairs id ++ [(msgReq, (shared.linker id).next)]
  drains : ∀ msg < (shared.linker id).next, msg ∉ responseIds shared.pairs id →
    HttpMessage.Drains (shared.message id msg) (shared'.message id msg)

/-- A client is answered by the proxy. -/
theorem links_responded {shared shared' : Shared} {client : Client} {response : HttpMessage}
    {tunneler : Bool} (here : shared'.clients id = client)
    (linker : client.linker = (responded (shared.clients id) msgReq response true tunneler).linker)
    (popped : client.popped = (shared.clients id).popped) : Links id msgReq shared shared' := by
  refine ⟨?_, ?_, ?_, Or.inr ?_, fun msg below _ => ?_⟩
  all_goals
    simp only [Shared.linker, Shared.pairs, Client.pairs, Shared.message, here, linker, popped]
  · rfl
  · exact Nat.le_succ _
  · rfl
  · exact (List.append_assoc _ _ _).symm
  · have kept : (responded (shared.clients id) msgReq response true tunneler).linker.messages msg =
        (shared.clients id).linker.messages msg := ALinker.messages_newMessage below
    rw [kept]
    exact .refl _

theorem Links.after {shared middle shared' : Shared}
    (unmoved : Unmoved id shared middle ledger ledger) (links : Links id msgReq middle shared') :
    Links id msgReq shared shared' := by
  refine ⟨links.reader.trans unmoved.reader, unmoved.next ▸ links.next, links.connected, ?_,
    fun msg below apart => ?_⟩
  · rw [← unmoved.pairs, ← unmoved.next]
    exact links.pairs
  · refine (unmoved.drains msg apart).trans (links.drains msg (unmoved.next.symm ▸ below) ?_)
    rwa [responseIds, unmoved.pairs]

/-- Nothing happens to the other clients. -/
theorem Invariant.connectRequest_links (invariant : world.Invariant config)
    (reads : (world.shared.linker id).readerMsg = some msgReq)
    (unconnected : (world.shared.linker id).connected = false)
    (outcome : world.connectRequest config id msgReq endpoint connects = .ok next) :
    Links id msgReq world.shared next.shared ∧
      ∀ other, other ≠ id → ∀ ledger, Unmoved other world.shared next.shared ledger ledger := by
  have none := invariant.no_tunnel reads unconnected
  have unqueued := (invariant.settled id).unqueued msgReq reads unconnected
  rcases connectRequest_cases invariant.toCore outcome with
    ⟨shared, requester, added, rfl⟩ | ⟨response, -, rfl⟩
  · obtain ⟨awaiting, new, request, response⟩ := invariant.toCore.awaiting reads unqueued
    obtain ⟨working, carried⟩ := @Core.accepts config world.shared.pairs _ world.requester
      ⟨id, msgReq, (world.shared.linker id).next⟩ awaiting new
      (Or.inl (linker_awaited.trans none)) request response
    obtain ⟨-, stays, -⟩ := invariant.toCore.connectRequest reads unqueued none added
    have spares := working.spares_addRequest awaiting.pooled carried added
    refine ⟨⟨?_, ?_, ?_, Or.inr ?_, fun msg below apart => ?_⟩, fun other differs ledger => ?_⟩
    · simp only [Shared.linker, Shared.clients_setClient_self]
      exact (stays id).reader.trans (by rw [Shared.clients_setClient_self]; rfl)
    · have next_eq := (stays id).next
      rw [Shared.clients_setClient_self] at next_eq
      simp only [Shared.linker, Shared.clients_setClient_self]
      exact (Nat.le_succ _).trans next_eq.ge
    · simp only [Shared.linker, Shared.clients_setClient_self]
      rfl
    · have pairs_eq := Client.pairs_stays (stays id)
      rw [Shared.clients_setClient_self] at pairs_eq
      rw [Shared.pairs, Shared.clients_setClient_self, pairs_queued, pairs_eq]
      rfl
    · have kept : (world.shared.setClient id (awaited (world.shared.clients id))).message id msg =
          world.shared.message id msg := by
        simp only [Shared.message, Shared.linker, Shared.clients_setClient_self]
        exact ALinker.messages_newMessage below
      have drains := spares id msg fun member => by
        simp only [responseIds, extended_self, List.map_append, List.mem_append, List.map_cons,
          List.map_nil, List.mem_singleton] at member
        rcases member with old | new
        · exact apart old
        · exact below.ne new
      rw [kept] at drains
      simp only [Shared.message, Shared.linker, Shared.clients_setClient_self] at drains ⊢
      exact drains
    · have before : Unmoved other world.shared
          (world.shared.setClient id (awaited (world.shared.clients id))) ledger ledger :=
        .ofClient (Shared.clients_setClient_ne differs) fun _ _ => rfl
      have served : Unmoved other (world.shared.setClient id (awaited (world.shared.clients id)))
          shared ledger ledger := by
        refine .ofStays stays spares ?_ fun _ _ => rfl
        rw [extended_ne differs]
        exact before.pairs.symm
      exact (before.trans served).trans
        (.ofClient (Shared.clients_setClient_ne differs) fun _ _ => rfl)
  · exact ⟨links_responded Shared.clients_setClient_self rfl rfl, fun other differs ledger =>
      .ofClient (Shared.clients_setClient_ne differs) fun _ _ => rfl⟩

theorem Invariant.connectTunnel_links (invariant : world.Invariant config)
    (reads : (world.shared.linker id).readerMsg = some msgReq)
    (unconnected : (world.shared.linker id).connected = false)
    (outcome : world.connectTunnel config id msgReq endpoint connects = .ok next) :
    Links id msgReq world.shared next.shared ∧
      ∀ other, other ≠ id → ∀ ledger, Unmoved other world.shared next.shared ledger ledger := by
  have unqueued := (invariant.settled id).unqueued msgReq reads unconnected
  rcases connectTunnel_cases outcome with ⟨shared, requester, added, direct⟩ | ⟨response, done, rfl⟩
  · have connecting := connecting_new (invariant.working.clients id)
      (fun forwards => forwards) reads unqueued
    have core := invariant.toCore.opened id
    obtain ⟨-, stays, -⟩ := core.addConnection connecting added
    have fits : Fits config.Forwards world.shared.pairs (opened world.shared id)
        (.connector (newConnector config world.shared id msgReq)) := connecting
    have spares := core.working.spares_connect fits added
    have served (ledger : Ledger) (other : ClientId) :
        Unmoved other (opened world.shared id) shared ledger ledger := by
      refine .ofStays stays spares ?_ fun _ _ => rfl
      rw [pairs_opened]
    have opened_eq : (opened world.shared id).linker id =
        { world.shared.linker id with tunneler := true } :=
      congrArg Client.linker clients_opened
    have tunneler : (shared.linker id).tunneler = true :=
      (served (fun _ _ => {}) id).tunneler.trans (by rw [opened_eq])
    have start : Links id msgReq (opened world.shared id) next.shared →
        Links id msgReq world.shared next.shared := by
      intro links
      have pairs_eq : (opened world.shared id).pairs = world.shared.pairs := pairs_opened
      refine ⟨?_, ?_, links.connected, ?_, fun msg below apart => ?_⟩
      · rw [links.reader, opened_eq]
      · have next_le := links.next
        rwa [opened_eq] at next_le
      · have pairs := links.pairs
        rwa [opened_eq, pairs_eq] at pairs
      · have drains := links.drains msg (by rwa [opened_eq]) (by rwa [responseIds, pairs_eq])
        rwa [Shared.message, opened_eq] at drains
    have others (client : Client) (other : ClientId) (differs : other ≠ id) (ledger : Ledger) :
        Unmoved other world.shared (shared.setClient id client) ledger ledger := by
      have before : Unmoved other world.shared (opened world.shared id) ledger ledger :=
        .ofClient (clients_opened_ne differs) fun _ _ => rfl
      exact (before.trans (served ledger other)).trans
        (.ofClient (Shared.clients_setClient_ne differs) fun _ _ => rfl)
    rcases direct with ⟨-, response, -, rfl⟩ | ⟨-, rfl⟩
    · exact ⟨start (.after (served (fun _ _ => {}) id)
        (links_responded Shared.clients_setClient_self rfl rfl)), others _⟩
    · refine ⟨start (.after (served (fun _ _ => {}) id) ?_), others _⟩
      refine ⟨?_, ?_, ?_, Or.inl ⟨?_, ?_⟩, fun msg _ _ => ?_⟩
      all_goals
        simp only [Shared.linker, Shared.pairs, Client.pairs, Shared.message,
          Shared.clients_setClient_self, linked]
      · exact le_rfl
      · exact tunneler
      · exact .refl _
  · refine ⟨links_responded Shared.clients_setClient_self rfl rfl,
      fun other differs ledger => .ofClient ?_ fun _ _ => rfl⟩
    rw [Shared.clients_setClient_ne differs, clients_release, clients_unlink,
      clients_opened_ne differs]

theorem Invariant.connect_links (invariant : world.Invariant config)
    (reads : (world.shared.linker id).readerMsg = some msgReq)
    (outcome : world.connect config id msgReq connects = .ok next) :
    (next = world ∨ (world.shared.linker id).connected = false ∧
        Links id msgReq world.shared next.shared) ∧
      ∀ other, other ≠ id → ∀ ledger, Unmoved other world.shared next.shared ledger ledger := by
  unfold World.connect at outcome
  simp only at outcome
  split at outcome
  · rename_i found
    split at outcome
    · obtain ⟨links, others⟩ := invariant.connectRequest_links reads found.1 outcome
      exact ⟨Or.inr ⟨found.1, links⟩, others⟩
    · obtain ⟨links, others⟩ := invariant.connectTunnel_links reads found.1 outcome
      exact ⟨Or.inr ⟨found.1, links⟩, others⟩
  · cases outcome
    exact ⟨Or.inl rfl, fun _ _ _ => .refl _ _ _⟩

/-- Another client reads. -/
theorem Invariant.unmoved_read (invariant : world.Invariant config) (differs : id ≠ other)
    (ledger : Ledger) (outcome : world.read config other rbuf connects = .ok next) :
    Unmoved id world.shared next.shared ledger
      (ledger.record world (.read other rbuf connects)) := by
  rcases read_cases outcome with
    ⟨none, -, rfl⟩ | ⟨source, msgReq, world₁, world₂, reader, receive_eq, connect_eq, finish_eq⟩
  · have same : ledger.record world (.read other rbuf connects) = ledger := by
      simp [Ledger.record, none]
    rw [same]
    exact .ofClient (Shared.clients_setClient_ne differs) fun _ _ => rfl
  · have recorded : ledger.record world (.read other rbuf connects) =
        ledger.give other msgReq rbuf := by
      simp only [Ledger.record, reader]
    rw [recorded]
    obtain ⟨invariant₁, -⟩ := invariant.read_stages reader receive_eq connect_eq finish_eq
    have reads₁ := readerMsg_receive receive_eq
    have connected := (invariant₁.connect_links reads₁ connect_eq).2 id differs
    obtain ⟨linker, trace, rfl, -⟩ := finishRequest_cases finish_eq
    obtain ⟨source', msg, amount, -, rfl⟩ := receive_reads receive_eq
    have received : Unmoved id world.shared (world.shared.setClient other
        (followed (world.shared.clients other) source source' msgReq msg rbuf)) ledger
        (ledger.give other msgReq rbuf) := by
      refine .ofClient (Shared.clients_setClient_ne differs) fun own _ => ?_
      rw [Ledger.give, Ledger.setTransit_ne fun same => absurd same differs]
    exact (received.trans (connected _)).trans
      (.ofClient (Shared.clients_setClient_ne differs) fun _ _ => rfl)

end Steps

end World
end GnyProxy
