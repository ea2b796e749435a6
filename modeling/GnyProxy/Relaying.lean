import GnyProxy.Ledgers

/-!
# Messages go through the proxy as they are

Every step keeps what was sent of a message an encoding of what was read of it, on either side: a
step moves the messages of one copier on, and leaves those of the others where they are.
-/

namespace GnyProxy

open HttpMessage (InStep SameStage)
open Transfer (Asking Replying EncodesRequest EncodesMessage)

/-! ## Messages that stay -/

/-- Nothing happens to some messages. -/
structure Still (P : ClientId → MessageId → Prop) (shared shared' : Shared)
    (ledger ledger' : Ledger) : Prop where
  message : ∀ id msg, P id msg → shared'.message id msg = shared.message id msg
  reader : ∀ id source msg, P id msg → (shared'.linker id).reader = some (source, msg) →
    (shared.linker id).reader = some (source, msg)
  writer : ∀ id msg proxy, P id msg →
    (shared'.linker id).writerOf proxy msg = (shared.linker id).writerOf proxy msg
  popped : ∀ id msgReq msgRes, P id msgRes → ((msgReq, msgRes) ∈ (shared'.clients id).popped ↔
    (msgReq, msgRes) ∈ (shared.clients id).popped)
  ledger : ∀ id msg, P id msg → ledger' id msg = ledger id msg

namespace Still

variable {P Q : ClientId → MessageId → Prop} {shared shared' shared'' : Shared}
  {ledger ledger' ledger'' : Ledger} {gen : MessageCopier}
  {pairs : ClientId → List (MessageId × MessageId)}

theorem refl (P : ClientId → MessageId → Prop) (shared : Shared) (ledger : Ledger) :
    Still P shared shared ledger ledger :=
  ⟨fun _ _ _ => rfl, fun _ _ _ _ here => here, fun _ _ _ _ => rfl, fun _ _ _ _ => Iff.rfl,
    fun _ _ _ => rfl⟩

theorem trans (first : Still P shared shared' ledger ledger')
    (second : Still P shared' shared'' ledger' ledger'') :
    Still P shared shared'' ledger ledger'' where
  message id msg here := (second.message id msg here).trans (first.message id msg here)
  reader id source msg here later :=
    first.reader id source msg here (second.reader id source msg here later)
  writer id msg proxy here := (second.writer id msg proxy here).trans
    (first.writer id msg proxy here)
  popped id msgReq msgRes here := (second.popped id msgReq msgRes here).trans
    (first.popped id msgReq msgRes here)
  ledger id msg here := (second.ledger id msg here).trans (first.ledger id msg here)

theorem mono (still : Still P shared shared' ledger ledger') (sub : ∀ id msg, Q id msg → P id msg) :
    Still Q shared shared' ledger ledger' where
  message id msg here := still.message id msg (sub id msg here)
  reader id source msg here := still.reader id source msg (sub id msg here)
  writer id msg proxy here := still.writer id msg proxy (sub id msg here)
  popped id msgReq msgRes here := still.popped id msgReq msgRes (sub id msgRes here)
  ledger id msg here := still.ledger id msg (sub id msg here)

theorem request (still : Still P shared shared' ledger ledger') (here : P gen.client gen.msgReq) :
    SameRequest gen shared shared' ledger ledger' :=
  ⟨still.message _ _ here, fun source => still.reader _ source _ here, still.ledger _ _ here⟩

theorem response (still : Still P shared shared' ledger ledger') (here : P gen.client gen.msgRes) :
    SameResponse gen shared shared' ledger ledger' :=
  ⟨still.message _ _ here, fun proxy => still.writer _ _ proxy here, still.popped _ _ _ here,
    still.ledger _ _ here⟩

/-- Upstream leaves the connections of the clients alone. -/
theorem ofStays (stays : shared.Stays pairs shared')
    (message : ∀ id msg, P id msg → shared'.message id msg = shared.message id msg)
    (ledger_eq : ∀ id msg, P id msg → ledger' id msg = ledger id msg) :
    Still P shared shared' ledger ledger' where
  message := message
  reader id source msg _ later := by
    rwa [Shared.linker, (stays id).reader] at later
  writer id msg proxy _ := writerOf_congr (stays id).writer proxy msg
  popped id msgReq msgRes _ := by rw [(stays id).popped]
  ledger := ledger_eq

/-- One client changes. -/
theorem ofClient {id : ClientId} {client : Client}
    (message : ∀ msg, P id msg → client.linker.messages msg = shared.message id msg)
    (reader : ∀ source msg, P id msg → client.linker.reader = some (source, msg) →
      (shared.linker id).reader = some (source, msg))
    (writer : ∀ msg proxy, P id msg →
      client.linker.writerOf proxy msg = (shared.linker id).writerOf proxy msg)
    (popped : ∀ msgReq msgRes, P id msgRes → ((msgReq, msgRes) ∈ client.popped ↔
      (msgReq, msgRes) ∈ (shared.clients id).popped))
    (ledger_eq : ∀ other msg, P other msg → ledger' other msg = ledger other msg) :
    Still P shared (shared.setClient id client) ledger ledger' where
  message := Shared.forall_setClient (P := fun other client => ∀ msg, P other msg →
    client.linker.messages msg = shared.message other msg) |>.mpr ⟨message, fun _ _ _ _ => rfl⟩
  reader := Shared.forall_setClient (P := fun other client => ∀ source msg, P other msg →
    client.linker.reader = some (source, msg) →
      (shared.linker other).reader = some (source, msg)) |>.mpr
    ⟨reader, fun _ _ _ _ _ here => here⟩
  writer := Shared.forall_setClient (P := fun other client => ∀ msg proxy, P other msg →
    client.linker.writerOf proxy msg = (shared.linker other).writerOf proxy msg) |>.mpr
    ⟨writer, fun _ _ _ _ _ => rfl⟩
  popped := Shared.forall_setClient (P := fun other client => ∀ msgReq msgRes, P other msgRes →
    ((msgReq, msgRes) ∈ client.popped ↔ (msgReq, msgRes) ∈ (shared.clients other).popped)) |>.mpr
    ⟨popped, fun _ _ _ _ _ => Iff.rfl⟩
  ledger := ledger_eq

end Still

/-! ## The copiers -/

/-- Every copier keeps its account. -/
structure Relaying (config : World.Config) (shared : Shared) (ledger : Ledger)
    (linked : ObjectId → Option (Linked MessageCopier Connector))
    (finished : List MessageCopier) : Prop where
  deals : ∀ place linker exchange, linked place = some (.reqLinker linker) →
    linker.exchange = some exchange → Deals config shared ledger exchange
  dealt : ∀ gen ∈ finished, Dealt config shared ledger gen

section Relaying

variable {config : World.Config} {forwards : Prop} {P : ClientId → MessageId → Prop}
  {pairs : ClientId → List (MessageId × MessageId)} {shared shared' : Shared}
  {ledger ledger' : Ledger} {linked : ObjectId → Option (Linked MessageCopier Connector)}
  {finished : List MessageCopier} {requester requester' : Requester MessageCopier Connector}
  {place : ObjectId} {asked : Call} {answer : Answer} {exchange : Exchange MessageCopier}
  {gen other : MessageCopier}

/-- The messages of every pair stay. -/
theorem Relaying.still (relaying : Relaying config shared ledger linked finished)
    (working : Working forwards pairs shared linked finished)
    (still : Still P shared shared' ledger ledger')
    (inside : ∀ id, ∀ msg ∈ messageIds (pairs id), P id msg) :
    Relaying config shared' ledger' linked finished := by
  have both (gen : MessageCopier) (member : gen.pair ∈ pairs gen.client) :
      P gen.client gen.msgReq ∧ P gen.client gen.msgRes :=
    ⟨inside _ _ (mem_messageIds.mpr ⟨_, member, Or.inl rfl⟩),
      inside _ _ (mem_messageIds.mpr ⟨_, member, Or.inr rfl⟩)⟩
  refine ⟨fun place linker exchange found busy => ?_, fun gen member => ?_⟩
  · have carried : Carried pairs shared exchange := working.objects place _ found exchange busy
    obtain ⟨request, response⟩ := both exchange.gen carried.pair
    exact (relaying.deals place linker exchange found busy).congr (still.request request)
      (still.response response)
  · obtain ⟨request, response⟩ := both gen (working.relayed gen member).pair
    exact (relaying.dealt gen member).congr (still.request request) (still.response response)

/-- An object is put in or replaced, whose copier has an account. -/
theorem Relaying.update (relaying : Relaying config shared ledger linked finished)
    {object : Option (Linked MessageCopier Connector)}
    (deals : ∀ linker exchange, object = some (.reqLinker linker) →
      linker.exchange = some exchange → Deals config shared ledger exchange) :
    Relaying config shared ledger (Function.update linked place object) finished := by
  refine ⟨fun other linker exchange found busy => ?_, relaying.dealt⟩
  by_cases same : other = place
  · subst same
    rw [Function.update_self] at found
    exact deals linker exchange found busy
  · rw [Function.update_of_ne same] at found
    exact relaying.deals other linker exchange found busy

/-- Copiers have no message in common. -/
theorem apart_copiers (once : (messageIds (pairs gen.client)).Nodup)
    (member : gen.pair ∈ pairs gen.client) (member' : other.pair ∈ pairs other.client)
    (differs : other ≠ gen) {msg : MessageId} (own : msg = gen.msgReq ∨ msg = gen.msgRes)
    (same : other.client = gen.client) : other.msgReq ≠ msg ∧ other.msgRes ≠ msg := by
  rw [same] at member'
  have unique (msg' : MessageId) (here : msg' = other.msgReq ∨ msg' = other.msgRes) :
      msg' ≠ msg := by
    rintro rfl
    have pair := pair_unique once member' member here own
    obtain ⟨client, msgReq, msgRes⟩ := gen
    obtain ⟨client', msgReq', msgRes'⟩ := other
    obtain ⟨rfl, rfl⟩ := Prod.mk.inj pair
    exact differs (congrArg (MessageCopier.mk · _ _) same)
  exact ⟨unique _ (Or.inl rfl), unique _ (Or.inr rfl)⟩

/-- A call that moves one message of a copier on. -/
theorem Relaying.moves (relaying : Relaying config shared ledger linked finished)
    (working : Working forwards pairs shared linked finished)
    (member : gen.pair ∈ pairs gen.client)
    {msg : MessageId} (own : msg = gen.msgReq ∨ msg = gen.msgRes)
    (still : Still (fun id msg' => id = gen.client → msg' ≠ msg) shared shared' ledger ledger') :
    (∀ other linker exchange, linked other = some (.reqLinker linker) →
        linker.exchange = some exchange → exchange.gen ≠ gen →
          Deals config shared' ledger' exchange) ∧
      ∀ other ∈ finished, other ≠ gen → Dealt config shared' ledger' other := by
  have once := (working.clients gen.client).once
  refine ⟨fun other linker exchange found busy differs => ?_, fun other inside differs => ?_⟩
  · have carried : Carried pairs shared exchange := working.objects other _ found exchange busy
    have apart := apart_copiers once member carried.pair differs own
    exact (relaying.deals other linker exchange found busy).congr
      (still.request fun same => (apart same).1) (still.response fun same => (apart same).2)
  · have apart := apart_copiers once member (working.relayed other inside).pair differs own
    exact (relaying.dealt other inside).congr
      (still.request fun same => (apart same).1) (still.response fun same => (apart same).2)

/-! ### A call upstream -/

/-- A message changes, or none. -/
theorem still_setMessage {client : ClientId} {msg : MessageId} {value : HttpMessage}
    (ledger_eq : ∀ id msg', (id = client → msg' ≠ msg) → ledger' id msg' = ledger id msg') :
    Still (fun id msg' => id = client → msg' ≠ msg) shared (shared.setMessage client msg value)
      ledger ledger' where
  message id msg' apart := Shared.message_setMessage_ne apart
  reader id source msg' _ later := by
    rwa [(linker_setMessage shared client id msg value).1] at later
  writer id msg' proxy _ :=
    writerOf_congr (linker_setMessage shared client id msg value).2 proxy msg'
  popped id msgReq msgRes _ := by rw [clients_setMessage]
  ledger := ledger_eq

/-- An exchange moves one of its messages on. -/
theorem Deals.call {left : Option (Exchange MessageCopier)}
    (deals : Deals config shared ledger exchange) (carrying : Carrying pairs shared exchange)
    (apart : exchange.gen.msgReq ≠ exchange.gen.msgRes)
    (queued : ∀ rbuf, asked = .read rbuf →
      exchange.gen.pair ∉ (shared.clients exchange.gen.client).popped)
    (outcome : exchange.call shared asked = .ok (shared', left, answer)) :
    (∃ msg, (msg = exchange.gen.msgReq ∨ msg = exchange.gen.msgRes) ∧
      Still (fun id msg' => id = exchange.gen.client → msg' ≠ msg) shared shared' ledger
        (exchange.record ledger asked)) ∧
      Settles config shared' (exchange.record ledger asked) exchange.gen left := by
  cases asked with
  | getWriteSize =>
      obtain ⟨⟨msgReq, rfl⟩, settles⟩ := deals.getWriteSize carrying apart outcome
      exact ⟨⟨_, Or.inl rfl, still_setMessage fun _ _ _ => rfl⟩, settles⟩
  | write maxWrite amount =>
      obtain ⟨rfl, settles⟩ := deals.write apart outcome
      refine ⟨⟨_, Or.inl rfl, fun _ _ _ => rfl, fun _ _ _ _ here => here, fun _ _ _ _ => rfl,
        fun _ _ _ _ => Iff.rfl, fun id msg differs => ?_⟩, settles⟩
      obtain ⟨⟨⟨writer, outMsg⟩, sent⟩, write_eq, -⟩ := bind_eq_ok.mp outcome
      simp only [Exchange.record, write_eq]
      exact Ledger.setTransit_ne differs
  | read rbuf =>
      obtain ⟨⟨msgRes, rfl⟩, settles⟩ := deals.read carrying apart (queued rbuf rfl) outcome
      exact ⟨⟨_, Or.inr rfl, still_setMessage fun _ _ => Ledger.setTransit_ne⟩, settles⟩

theorem Tunnel.message_call {tunnel : Tunnel} (id : ClientId) (msg : MessageId)
    (outcome : tunnel.call asked shared = .ok (shared', answer)) :
    shared'.message id msg = shared.message id msg := by
  unfold Tunnel.call at outcome
  split at outcome
  · cases outcome
  · split at outcome
    · cases outcome
      rfl
    · split at outcome
      · have kept {linker : ALinker} (trace : Trace)
            (same : linker.messages = (shared.linker tunnel.client).messages) :
            ((shared.setLinker tunnel.client linker).setTrace tunnel.client trace).message id msg =
              shared.message id msg := by
          rw [Shared.message, Shared.linker_setTrace]
          by_cases here : id = tunnel.client
          · subst here
            rw [Shared.linker_setLinker_self, same]
            rfl
          · rw [Shared.linker_setLinker_ne here]
            rfl
        cases asked with
        | getWriteSize =>
            cases outcome
            rfl
        | write maxWrite amount | read rbuf =>
            cases outcome
            exact kept _ rfl
      · cases outcome

/-- A connector works on its own message only. -/
theorem Connector.message_call {connector connector' : Connector} {id : ClientId}
    {msg : MessageId}
    (outcome : connector.call asked shared = .ok (shared', connector', answer))
    (apart : id = connector.conn.client → ∀ sink own, connector.writer = some (sink, own) →
      msg ≠ own) : shared'.message id msg = shared.message id msg := by
  unfold Connector.call at outcome
  split at outcome
  · rename_i sink own writer
    have differs := fun same => apart same sink own writer
    obtain ⟨⟨⟨sink', value⟩, amt⟩, -, further⟩ := bind_eq_ok.mp outcome
    simp only at further
    split at further
    · obtain ⟨⟨after, answer₁⟩, called, same⟩ := bind_eq_ok.mp further
      cases same
      rw [Tunnel.message_call id msg called]
      have forgotten (shared : Shared) :
          (shared.forget connector.conn.client own).message id msg = shared.message id msg := by
        by_cases here : id = connector.conn.client
        · subst here
          simp [Shared.message, Shared.linker, Shared.forget]
        · simp [Shared.message, Shared.linker, Shared.forget, Shared.clients_setClient_ne here]
      rw [forgotten, Shared.message_setMessage_ne differs]
    · cases further
      exact Shared.message_setMessage_ne differs
  · rename_i sink own maxWrite amount writer
    have differs := fun same => apart same sink own writer
    obtain ⟨⟨⟨sink', value⟩, sent⟩, -, further⟩ := bind_eq_ok.mp outcome
    cases further
    rw [Shared.message, Shared.linker_setTrace]
    exact Shared.message_setMessage_ne differs
  · obtain ⟨⟨after, answer₁⟩, called, same⟩ := bind_eq_ok.mp outcome
    cases same
    exact Tunnel.message_call id msg called

/-- The copier of an object is at no other one, and not done. -/
def Requester.Alone (requester : Requester MessageCopier Connector) (place : ObjectId) : Prop :=
  ∀ endpoint gen, requester.Attached place endpoint gen →
    (∀ other endpoint', requester.Attached other endpoint' gen → other = place) ∧
      gen ∉ requester.finished

/-- A call moves a message of a copier on, or one that is in no pair. -/
theorem Relaying.call
    (relaying : Relaying config shared ledger requester.linked requester.finished)
    (working : Working forwards pairs shared requester.linked requester.finished)
    (alone : requester.Alone place)
    (queued : ∀ rbuf, asked = .read rbuf → ∀ endpoint gen, requester.Attached place endpoint gen →
      gen.pair ∉ (shared.clients gen.client).popped)
    (outcome : requester.call shared place asked = .ok (shared', requester', answer)) :
    Relaying config shared' (ledger.recordCall requester place asked) requester'.linked
        requester'.finished ∧
      Still (fun id msg => (shared.linker id).tunneler = false ∧ msg ∉ messageIds (pairs id))
        shared shared' ledger (ledger.recordCall requester place asked) := by
  have stays : shared.Stays pairs shared' := fun id => (working.served_call outcome id).toStays
  rcases Requester.call_cases outcome with
    ⟨connector, connector', found, called, rfl⟩ | ⟨linker, linker', found, called, -, further⟩
  · -- the message of a connector
    have connecting : Connecting forwards pairs shared connector := working.objects place _ found
    have same : ledger.recordCall requester place asked = ledger := by
      simp [Ledger.recordCall, Requester.exchangeAt, found]
    rw [same]
    have still : Still (fun id msg => id = connector.conn.client → ∀ sink own,
        connector.writer = some (sink, own) → msg ≠ own) shared shared' ledger ledger :=
      Still.ofStays stays (fun id msg apart => Connector.message_call called apart)
        fun _ _ _ => rfl
    refine ⟨(relaying.still working still fun id msg member same sink own writer => ?_).update
      fun linker₁ exchange absent => ?_, still.mono fun id msg free same => ?_⟩
    · rintro rfl
      exact (connecting.message sink msg writer).2.2 (same ▸ member)
    · cases absent
    · have tunnel := connecting.tunneler
      rw [← same, free.1] at tunnel
      cases tunnel
  · rcases reqLinker_cases called with ⟨idle, rfl, rfl⟩ | ⟨exchange, left, busy, went, rfl⟩
    · have same : ledger.recordCall requester place asked = ledger := by
        simp [Ledger.recordCall, Requester.exchangeAt, found, idle]
      rw [same]
      rcases further with ⟨-, rfl⟩ | ⟨gen, some, -⟩
      · refine ⟨relaying.update fun linker₁ exchange same₁ busy => ?_, .refl _ _ _⟩
        cases same₁
        cases idle.symm.trans busy
      · simp [ReqLinker.gen, idle] at some
    · obtain ⟨endpoint, exchange₁⟩ := linker
      obtain rfl : exchange₁ = some exchange := busy
      have carried : Carried pairs shared exchange := working.objects place _ found exchange rfl
      have once := (working.clients exchange.gen.client).once
      have here : requester.Attached place endpoint exchange.gen := ⟨_, found, rfl, rfl⟩
      have recorded : ledger.recordCall requester place asked = exchange.record ledger asked := by
        simp [Ledger.recordCall, Requester.exchangeAt, found]
      rw [recorded]
      obtain ⟨⟨msg, own, still⟩, settles⟩ :=
        (relaying.deals place _ exchange found rfl).call carried.toCarrying
          (pair_apart once carried.pair) (fun rbuf same => queued rbuf same _ _ here) went
      have inside : msg ∈ messageIds (pairs exchange.gen.client) :=
        mem_messageIds.mpr ⟨_, carried.pair, own⟩
      refine ⟨?_, still.mono fun id msg' free same same' => free.2 ?_⟩
      swap
      · rw [same, same']
        exact inside
      obtain ⟨deals, dealt⟩ := relaying.moves working carried.pair own still
      have others (other : ObjectId) (differs : other ≠ place) (linker : ReqLinker MessageCopier)
          (exchange₁ : Exchange MessageCopier)
          (there : requester.linked other = some (.reqLinker linker))
          (busy : linker.exchange = some exchange₁) :
          Deals config shared' (exchange.record ledger asked) exchange₁ := by
        refine deals other linker exchange₁ there busy fun same => differs ?_
        exact (alone endpoint exchange.gen here).1 other linker.endpoint
          ⟨linker, there, rfl, by rw [ReqLinker.gen, busy, ← same]; rfl⟩
      have done (gen : MessageCopier) (member : gen ∈ requester.finished) :
          Dealt config shared' (exchange.record ledger asked) gen :=
        dealt gen member fun same => (alone endpoint exchange.gen here).2 (same ▸ member)
      cases left with
      | none =>
          rcases further with ⟨same, -⟩ | ⟨gen, same, -, rfl⟩
          · cases same
          · obtain rfl : exchange.gen = gen := Option.some.inj same
            refine ⟨fun other linker exchange₁ there busy => ?_, fun gen member => ?_⟩
            · rcases of_update_some there with ⟨-, same⟩ | ⟨differs, there⟩
              · cases same
                cases busy
              · exact others other differs linker exchange₁ there busy
            · rcases List.mem_append.mp member with old | new
              · exact done gen old
              · rw [List.mem_singleton.mp new]
                exact settles
      | some exchange' =>
          rcases further with ⟨-, rfl⟩ | ⟨gen, -, none, -⟩
          · refine ⟨fun other linker exchange₁ there busy => ?_, done⟩
            rcases of_update_some there with ⟨-, same⟩ | ⟨differs, there⟩
            · cases same
              cases busy
              exact settles.2
            · exact others other differs linker exchange₁ there busy
          · cases none

/-! ### Objects that come and go -/

variable {endpoint : Endpoint} {connects made : Bool} {object : Linked MessageCopier Connector}

theorem recordCall_getWriteSize (ledger : Ledger) (requester : Requester MessageCopier Connector)
    (place : ObjectId) : ledger.recordCall requester place .getWriteSize = ledger := by
  unfold Ledger.recordCall
  split <;> rfl

/-- The copier of an object has an account, and is known nowhere. -/
structure Arrives (config : World.Config) (shared : Shared) (ledger : Ledger)
    (requester : Requester MessageCopier Connector) (object : Linked MessageCopier Connector) :
    Prop where
  deals : ∀ linker exchange, object = .reqLinker linker → linker.exchange = some exchange →
    Deals config shared ledger exchange
  unknown : ∀ linker gen, object = .reqLinker linker → linker.gen = some gen →
    (∀ place endpoint, ¬requester.Attached place endpoint gen) ∧ gen ∉ requester.finished

theorem Relaying.connectionMaker
    (relaying : Relaying config shared ledger requester.linked requester.finished)
    (working : Working forwards pairs shared requester.linked requester.finished)
    (fits : Fits forwards pairs shared object)
    (arrives : Arrives config shared ledger requester object)
    (outcome : requester.connectionMaker shared place object = .ok (shared', requester', true)) :
    Relaying config shared' ledger requester'.linked requester'.finished ∧
      Still (fun id msg => (shared.linker id).tunneler = false ∧ msg ∉ messageIds (pairs id))
        shared shared' ledger ledger := by
  rcases Requester.connectionMaker_cases outcome with
    ⟨none, -⟩ | ⟨-, endpoint, vconn, index, answer, -, called⟩
  · cases none
  · have created : Relaying config shared ledger
        (requester.created place endpoint vconn index object).linked
        (requester.created place endpoint vconn index object).finished :=
      relaying.update fun linker exchange same busy =>
        arrives.deals linker exchange (Option.some.inj same) busy
    have created_works : Working forwards pairs shared
        (requester.created place endpoint vconn index object).linked
        (requester.created place endpoint vconn index object).finished := working.update fits
    have alone : (requester.created place endpoint vconn index object).Alone requester.next := by
      have linked : (requester.created place endpoint vconn index object).linked =
          Function.update requester.linked requester.next (some object) := rfl
      rintro at_ gen ⟨linker, here, -, gen_eq⟩
      rw [linked, Function.update_self] at here
      obtain ⟨unattached, unfinished⟩ :=
        arrives.unknown linker gen (Option.some.inj here) gen_eq
      refine ⟨fun other endpoint' there => ?_, unfinished⟩
      by_contra differs
      obtain ⟨linker', found, endpoint_eq, gen_eq'⟩ := there
      rw [linked, Function.update_of_ne differs] at found
      exact unattached other endpoint' ⟨linker', found, endpoint_eq, gen_eq'⟩
    have quiet (rbuf : Str) : Call.getWriteSize ≠ .read rbuf := nofun
    have later := created.call created_works alone (fun rbuf other => absurd other (quiet rbuf))
      called
    rwa [recordCall_getWriteSize] at later

theorem Relaying.connect
    (relaying : Relaying config shared ledger requester.linked requester.finished)
    (working : Working forwards pairs shared requester.linked requester.finished)
    (fits : Fits forwards pairs shared object)
    (arrives : Arrives config shared ledger requester object)
    (outcome : requester.connect config.requester shared endpoint object connects =
      .ok (shared', requester', made)) :
    Relaying config shared' ledger requester'.linked requester'.finished ∧
      Still (fun id msg => (shared.linker id).tunneler = false ∧ msg ∉ messageIds (pairs id))
        shared shared' ledger ledger := by
  rcases Requester.connect_cases outcome with
    ⟨-, rfl, rfl⟩ | ⟨rfl, ⟨place, maker⟩ | ⟨-, ⟨rfl, rfl⟩ | maker⟩⟩
  · exact ⟨relaying, .refl _ _ _⟩
  · exact relaying.connectionMaker working fits arrives maker
  · refine ⟨?_, .refl _ _ _⟩
    exact relaying.update fun linker exchange same busy =>
      arrives.deals linker exchange (Option.some.inj same) busy
  · have opened : Relaying config shared ledger
        (requester.newWrapper ⟨endpoint, .multiconn fun _ => none⟩).linked
        (requester.newWrapper ⟨endpoint, .multiconn fun _ => none⟩).finished := relaying
    have arrives' : Arrives config shared ledger
        (requester.newWrapper ⟨endpoint, .multiconn fun _ => none⟩) object :=
      ⟨arrives.deals, arrives.unknown⟩
    exact opened.connectionMaker working fits arrives' maker

/-- Upstream takes a copier, or refuses it. -/
theorem Relaying.addRequest
    (relaying : Relaying config shared ledger requester.linked requester.finished)
    (working : Working forwards pairs shared requester.linked requester.finished)
    (pooled : Requester.Pooled config.requester requester)
    (carried : Carried pairs shared (.create config.requester.reader config.requester.writer gen))
    (deals : Deals config shared ledger
      (.create config.requester.reader config.requester.writer gen))
    (unknown : (∀ place endpoint, ¬requester.Attached place endpoint gen) ∧
      gen ∉ requester.finished)
    (outcome : requester.addRequest config.requester shared endpoint gen connects =
      .ok (shared', requester', made)) :
    Relaying config shared' ledger requester'.linked requester'.finished ∧
      Still (fun id msg => (shared.linker id).tunneler = false ∧ msg ∉ messageIds (pairs id))
        shared shared' ledger ledger := by
  rcases Requester.addRequest_cases pooled outcome with ⟨place, -, -, rfl, rfl⟩ | connected
  · refine ⟨relaying.update fun linker exchange same busy => ?_, .refl _ _ _⟩
    cases same
    cases busy
    exact deals
  · refine relaying.connect working (fits_create carried) ⟨?_, ?_⟩ connected
    · rintro linker exchange ⟨⟩ ⟨⟩
      exact deals
    · rintro linker gen' ⟨⟩ ⟨⟩
      exact unknown

/-- The messages stay where a connection is deleted. -/
theorem still_delete (shared : Shared) (connector : Connector) (ledger : Ledger) :
    Still (fun _ _ => True) shared (connector.delete shared) ledger ledger := by
  have unlinked (shared : Shared) (cell : CellId) :
      Still (fun _ _ => True) shared (shared.unlink cell) ledger ledger := by
    have same : (shared.unlink cell).clients = shared.clients := World.clients_unlink
    refine ⟨fun id msg _ => ?_, fun id source msg _ here => ?_, fun id msg proxy _ => ?_,
      fun id msgReq msgRes _ => ?_, fun _ _ _ => rfl⟩
    · rw [Shared.message, Shared.linker, same]
      rfl
    · rwa [Shared.linker, same] at here
    · rw [Shared.linker, same]
      rfl
    · rw [same]
  have forgotten (msg : MessageId) : Still (fun _ _ => True) shared
      (shared.forget connector.conn.client msg) ledger ledger :=
    Still.ofClient (fun _ _ => rfl) (fun _ _ _ here => here) (fun _ _ _ => rfl)
      (fun _ _ _ => Iff.rfl) fun _ _ _ => rfl
  unfold Connector.delete
  split
  · rename_i sink own writer
    exact (forgotten own).trans (unlinked _ _)
  · exact unlinked _ _

/-- The copiers that are left keep their accounts when a socket is closed. -/
theorem Relaying.close
    (relaying : Relaying config shared ledger requester.linked requester.finished)
    (place : ObjectId) :
    Relaying config (requester.close shared place).1 ledger (requester.close shared place).2.linked
        (requester.close shared place).2.finished ∧
      Still (fun _ _ => True) shared (requester.close shared place).1 ledger ledger := by
  have deletes (requester : Requester MessageCopier Connector) (state : Shared) (place : ObjectId)
      (holds : Relaying config state ledger requester.linked requester.finished ∧
        Still (fun _ _ => True) shared state ledger ledger) :
      Relaying config (requester.delete state place).1 ledger
          (requester.delete state place).2.linked (requester.delete state place).2.finished ∧
        Still (fun _ _ => True) shared (requester.delete state place).1 ledger ledger := by
    obtain ⟨relaying, still⟩ := holds
    have without {finished : List MessageCopier}
        (relaying : Relaying config state ledger requester.linked finished) :
        Relaying config state ledger (Function.update requester.linked place none) finished :=
      relaying.update fun _ _ none => nomatch none
    cases found : requester.linked place with
    | none =>
        rw [Requester.delete_of_none found]
        exact ⟨relaying, still⟩
    | some object =>
        cases object with
        | connector connector =>
            rw [Requester.delete_connector found]
            have gone := still_delete state connector ledger
            obtain ⟨deals, dealt⟩ := without relaying
            refine ⟨⟨fun other linker exchange there busy => ?_, fun gen member => ?_⟩,
              still.trans gone⟩
            · exact (deals other linker exchange there busy).congr (gone.request trivial)
                (gone.response trivial)
            · exact (dealt gen member).congr (gone.request trivial) (gone.response trivial)
        | reqLinker linker =>
            cases gen : linker.gen with
            | none =>
                rw [Requester.delete_idle found gen]
                exact ⟨without relaying, still⟩
            | some gen =>
                rw [Requester.delete_attached found gen]
                exact ⟨without relaying, still⟩
  rcases Requester.close_cases requester shared place with ⟨-, same⟩ | ⟨wrapper, -, same⟩
  · rw [same]
    exact ⟨relaying, .refl _ _ _⟩
  · rw [same]
    exact Requester.foldl_delete (P := fun state requester =>
      Relaying config state ledger requester.linked requester.finished ∧
        Still (fun _ _ => True) shared state ledger ledger)
      (fun requester state other _ holds => deletes requester state other holds)
      ⟨relaying, .refl _ _ _⟩

end Relaying
end GnyProxy
