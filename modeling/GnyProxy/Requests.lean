import GnyProxy.Transactions

/-!
# Requests that are read

What `read` does to a client and upstream: the request goes on, it is queued or makes a tunnel when
it is connected, and behind its end the next one begins.  With that every step of the proxy keeps
the invariant.
-/

namespace GnyProxy

open HttpMessage (Drains Extends InStep Onward)

/-! ## What upstream has to do -/

namespace Requester

variable {γ δ σ : Type}

/-- Nothing is attached but what was, or is new. -/
structure Admits (new : List γ) (requester requester' : Requester γ δ) : Prop where
  attached : ∀ id endpoint gen, requester'.Attached id endpoint gen →
    requester.Attached id endpoint gen ∨ gen ∈ new
  abandoned : requester'.abandoned = requester.abandoned

variable [RequestGenerator γ σ] [Connection δ σ] {config : Config} {new : List γ}
  {requester requester' requester'' : Requester γ δ} {state state' : σ} {id : ObjectId}
  {object : Linked γ δ} {asked : Call} {answer : Answer} {endpoint : Endpoint}
  {connects made : Bool} {gen : γ}

theorem Admits.refl (new : List γ) (requester : Requester γ δ) : Admits new requester requester :=
  ⟨fun _ _ _ here => Or.inl here, rfl⟩

theorem Admits.trans (first : Admits new requester requester')
    (second : Admits new requester' requester'') : Admits new requester requester'' where
  attached id endpoint gen here := by
    rcases second.attached id endpoint gen here with before | here
    · exact first.attached id endpoint gen before
    · exact Or.inr here
  abandoned := second.abandoned.trans first.abandoned

/-- An object is put in, or replaced. -/
theorem Admits.setLinked (gens : ∀ linker, object = .reqLinker linker → ∀ gen,
      linker.gen = some gen → requester.Attached id linker.endpoint gen ∨ gen ∈ new) :
    Admits new requester (requester.setLinked id object) where
  attached other endpoint gen here := by
    rcases attached_setLinked.mp here with ⟨rfl, linker, rfl, rfl, gen_eq⟩ | ⟨-, before⟩
    · exact gens linker rfl gen gen_eq
    · exact Or.inl before
  abandoned := rfl

theorem Admits.newLinked (gens : ∀ accepted ∈ accepts object, accepted.2 ∈ new) :
    Admits new requester (requester.newLinked object) := by
  have inside : Admits new requester (requester.setLinked requester.next object) := by
    refine .setLinked fun linker same gen gen_eq => Or.inr ?_
    exact gens (linker.endpoint, gen) (by simp [same, accepts, gen_eq])
  exact ⟨inside.attached, rfl⟩

theorem Admits.call (outcome : requester.call state id asked = .ok (state', requester', answer)) :
    Admits new requester requester' := by
  obtain ⟨connector, connector', -, -, rfl⟩ | ⟨linker, linker', found, called, endpoint, further⟩ :=
    call_cases outcome
  · refine .setLinked fun linker same => ?_
    cases same
  · have same : Admits new requester (requester.setLinked id (.reqLinker linker')) := by
      refine .setLinked fun linker₁ same gen gen_eq => Or.inl ?_
      cases same
      rcases (gen_reqLinker called).2 with none | gen_eq'
      · cases none.symm.trans gen_eq
      · exact ⟨linker, found, endpoint.symm, gen_eq'.symm.trans gen_eq⟩
    rcases further with ⟨-, rfl⟩ | ⟨gen, -, -, rfl⟩
    · exact same
    · exact ⟨same.attached, same.abandoned⟩

theorem Admits.connectionMaker (gens : ∀ accepted ∈ accepts object, accepted.2 ∈ new)
    (outcome : requester.connectionMaker state id object = .ok (state', requester', made)) :
    Admits new requester requester' := by
  obtain ⟨-, -, rfl⟩ | ⟨-, endpoint, vconn, index, answer, -, called⟩ :=
    connectionMaker_cases outcome
  · exact .refl _ _
  · have created : Admits new requester (requester.created id endpoint vconn index object) := by
      have inside := @Admits.newLinked γ δ new requester object gens
      exact ⟨inside.attached, rfl⟩
    exact created.trans (.call called)

theorem Admits.connect (gens : ∀ accepted ∈ accepts object, accepted.2 ∈ new)
    (outcome : requester.connect config state endpoint object connects =
      .ok (state', requester', made)) : Admits new requester requester' := by
  obtain ⟨-, -, rfl⟩ | ⟨-, ⟨id, maker⟩ | ⟨-, ⟨-, rfl⟩ | maker⟩⟩ := connect_cases outcome
  · exact .refl _ _
  · exact .connectionMaker gens maker
  · have inside := @Admits.newLinked γ δ new requester object gens
    exact ⟨inside.attached, rfl⟩
  · have opened : Admits new requester
        (requester.newWrapper ⟨endpoint, .multiconn fun _ => none⟩) := ⟨fun _ _ _ => Or.inl, rfl⟩
    exact opened.trans (.connectionMaker gens maker)

theorem Admits.addRequest (pooled : Pooled config requester)
    (outcome : requester.addRequest config state endpoint gen connects =
      .ok (state', requester', made)) : Admits [gen] requester requester' := by
  obtain ⟨id, -, -, -, rfl⟩ | connected := addRequest_cases pooled outcome
  · have inside := @Admits.setLinked γ δ [gen] requester id
      (.reqLinker ⟨endpoint, some (.create config.reader config.writer gen)⟩)
      fun linker same gen' gen_eq => Or.inr (by
        cases same
        rw [← Option.some.inj gen_eq]
        exact List.mem_singleton_self _)
    exact ⟨inside.attached, rfl⟩
  · refine .connect (fun accepted member => ?_) connected
    have same : accepted = (endpoint, gen) := List.mem_singleton.mp member
    rw [same]
    exact List.mem_singleton_self _

end Requester

/-! ## New messages -/

/-- New messages come up and the old ones stay as they are. -/
structure ALinker.Grows (linker later : ALinker) : Prop where
  messages : ∀ id < linker.next, later.messages id = linker.messages id
  next : linker.next ≤ later.next
  tunneler : linker.tunneler = true → later.tunneler = true
  reading : ∀ id, later.readerMsg = some id → linker.readerMsg = some id ∨
    linker.next ≤ id ∧ id < later.next ∧ InStep (later.messages id)

namespace ALinker

variable {linker : ALinker} {msgReq : MessageId} {response : HttpMessage}

theorem Grows.refl (linker : ALinker) : linker.Grows linker :=
  ⟨fun _ _ => rfl, le_rfl, fun tunnel => tunnel, fun _ reads => Or.inl reads⟩

theorem messages_newMessage {id : MessageId} (below : id < linker.next) :
    (linker.newMessage response).messages id = linker.messages id :=
  Function.update_of_ne (ne_of_lt below) _ _

theorem grows_newMessage : linker.Grows (linker.newMessage response) where
  messages _ below := messages_newMessage below
  next := Nat.le_succ _
  tunneler tunnel := tunnel
  reading _ reads := Or.inl reads

theorem grows_nextRequest (proxy : HttpProxy) : linker.Grows (nextRequest proxy linker) where
  messages _ below := messages_newMessage below
  next := Nat.le_succ _
  tunneler tunnel := tunnel
  reading id reads := by
    obtain rfl : linker.next = id := by simpa [nextRequest, readerMsg] using reads
    refine Or.inr ⟨le_rfl, Nat.lt_succ_self _, ?_⟩
    have fresh : (nextRequest proxy linker).messages linker.next = .fresh true :=
      Function.update_self _ _ _
    rw [fresh]
    exact .fresh true

theorem Grows.trans {later last : ALinker} (first : linker.Grows later)
    (second : later.Grows last) : linker.Grows last where
  messages id below := (second.messages id (below.trans_le first.next)).trans
    (first.messages id below)
  next := first.next.trans second.next
  tunneler tunnel := second.tunneler (first.tunneler tunnel)
  reading id reads := by
    rcases second.reading id reads with before | ⟨low, high, inStep⟩
    · rcases first.reading id before with before | ⟨low, high, inStep⟩
      · exact Or.inl before
      · rw [← second.messages id high] at inStep
        exact Or.inr ⟨low, high.trans_le second.next, inStep⟩
    · exact Or.inr ⟨first.next.trans low, high, inStep⟩

end ALinker

/-! ## Clients that go on -/

/-- A client goes on: what it reads is where it was, and of its messages only those that are done
are deleted. -/
structure Client.Tends (client later : Client) : Prop where
  alive : later.alive = true → client.alive = true
  popped : later.popped = client.popped
  pairs : client.pairs ⊆ later.pairs
  next : client.linker.next ≤ later.linker.next
  readerMsg : later.linker.readerMsg = client.linker.readerMsg
  state : ∀ id, client.linker.readerMsg = some id →
    (later.linker.messages id).state = (client.linker.messages id).state
  rank : ∀ id < client.linker.next,
    (client.linker.messages id).state.rank ≤ (later.linker.messages id).state.rank
  forwarded : ∀ id ∈ later.forwarded, id ∈ client.forwarded ∨
    id < later.linker.next ∧ (later.linker.messages id).state = .done

theorem MessageState.done_of_rank {state later : MessageState} (rank : state.rank ≤ later.rank)
    (done : state = .done) : later = .done := by
  rw [done] at rank
  exact MessageState.rank_injective (le_antisymm later.rank_le_three rank)

namespace Client

variable {forwards : Prop} {client later last : Client} {pairs : List (MessageId × MessageId)}

theorem Tends.refl (client : Client) : Tends client client :=
  ⟨fun alive => alive, rfl, fun _ member => member, le_rfl, rfl, fun _ _ => rfl,
    fun _ _ => le_rfl, fun _ member => Or.inl member⟩

theorem Tends.trans (first : Tends client later) (second : Tends later last) :
    Tends client last where
  alive alive := first.alive (second.alive alive)
  popped := second.popped.trans first.popped
  pairs := fun _ member => second.pairs (first.pairs member)
  next := first.next.trans second.next
  readerMsg := second.readerMsg.trans first.readerMsg
  state id reads := (second.state id (first.readerMsg.trans reads)).trans (first.state id reads)
  rank id below := (first.rank id below).trans (second.rank id (below.trans_le first.next))
  forwarded id member := by
    rcases second.forwarded id member with before | here
    · rcases first.forwarded id before with old | ⟨below, done⟩
      · exact Or.inl old
      · exact Or.inr ⟨below.trans_le second.next,
          MessageState.done_of_rank (second.rank id below) done⟩
    · exact Or.inr here

/-- What upstream does to a client. -/
theorem Served.tends (served : Served (pairs.map (·.2)) client later)
    (sound : client.Sound forwards pairs) (sound' : later.Sound forwards pairs) :
    Tends client later where
  alive alive := served.alive.symm.trans alive
  popped := served.popped
  pairs := by rw [pairs_stays served.toStays]; exact fun _ member => member
  next := served.next.ge
  readerMsg := served.readerMsg
  state id reads := served.state id (sound.reading id reads).2.2
  rank id _ := served.rank id
  forwarded id member := (served.forwarded id member).imp_right fun done =>
    ⟨(sound'.forwarded id member).2.2.1, done.2⟩

theorem Drains.tends (drains : Client.Drains client later) : Tends client later where
  alive alive := drains.alive.symm.trans alive
  popped := drains.popped
  pairs := by
    rw [pairs_stays (drains.served []).toStays]
    exact fun _ member => member
  next := drains.next.ge
  readerMsg := drains.readerMsg
  state id _ := (drains.messages id).state
  rank id _ := by rw [(drains.messages id).state]
  forwarded id member := Or.inl (drains.forwarded ▸ member)

/-- New messages change nothing for the others. -/
theorem tends_grow (grows : client.linker.Grows later.linker)
    (sound : client.Sound forwards pairs) (alive : later.alive = client.alive)
    (popped : later.popped = client.popped) (queued : client.pairs ⊆ later.pairs)
    (readerMsg : later.linker.readerMsg = client.linker.readerMsg)
    (forwarded : later.forwarded = client.forwarded) : Tends client later where
  alive living := alive.symm.trans living
  popped := popped
  pairs := queued
  next := grows.next
  readerMsg := readerMsg
  state id reads := by rw [grows.messages id (sound.reading id reads).1]
  rank id below := by rw [grows.messages id below]
  forwarded _ member := Or.inl (forwarded ▸ member)

end Client

/-- Every client goes on. -/
def Shared.Tends (shared shared' : Shared) : Prop :=
  ∀ id, (shared.clients id).Tends (shared'.clients id)

theorem Shared.Tends.trans {shared shared' shared'' : Shared} (first : shared.Tends shared')
    (second : shared'.Tends shared'') : shared.Tends shared'' :=
  fun id => (first id).trans (second id)

theorem Shared.tends_setClient {shared : Shared} {id : ClientId} {client : Client}
    (tends : (shared.clients id).Tends client) : shared.Tends (shared.setClient id client) := by
  intro other
  by_cases same : other = id
  · subst same
    rwa [clients_setClient_self]
  · rw [clients_setClient_ne same]
    exact .refl _

namespace World

section Steps

variable {config : Config} {pairs : ClientId → List (MessageId × MessageId)}
  {shared shared' : Shared} {requester requester' : Requester MessageCopier Connector}
  {id : ClientId} {client : Client} {pair : MessageId × MessageId} {msgReq : MessageId}
  {endpoint : Endpoint} {gen : MessageCopier} {connects : Bool}

/-- The pairs of one client, with another one. -/
def extended (pairs : ClientId → List (MessageId × MessageId)) (id : ClientId)
    (pair : MessageId × MessageId) : ClientId → List (MessageId × MessageId) :=
  Function.update pairs id (pairs id ++ [pair])

@[simp] theorem extended_self : extended pairs id pair id = pairs id ++ [pair] :=
  Function.update_self _ _ _

theorem extended_ne {other : ClientId} (differs : other ≠ id) :
    extended pairs id pair other = pairs other := Function.update_of_ne differs _ _

theorem mem_extended {other : ClientId} {old : MessageId × MessageId} :
    old ∈ extended pairs id pair other ↔ old ∈ pairs other ∨ other = id ∧ old = pair := by
  by_cases same : other = id
  · subst same
    simp
  · simp [extended_ne same, same]

theorem Core.grow (core : Core config pairs shared requester)
    (grows : (shared.linker id).Grows client.linker)
    (first : client.linker.WritesFirst client.linker.responseQueue)
    (forwarded : client.forwarded = (shared.clients id).forwarded) :
    Core config pairs (shared.setClient id client) requester := by
  have sound := core.working.clients id
  have same {msg : MessageId} (member : msg ∈ messageIds (pairs id)) :
      client.linker.messages msg = (shared.linker id).messages msg :=
    grows.messages msg (sound.below msg member)
  refine core.setClient (fun pair member => ?_) (fun pair member => ?_) grows.tunneler grows.next
    ⟨sound.once, fun msg member => (sound.below msg member).trans_le grows.next, first,
      fun msg reads => ?_, fun msg member => ?_⟩
  · rw [same (mem_messageIds.mpr ⟨pair, member, Or.inl rfl⟩)]
    exact Onward.ofDrains (.refl _)
  · rw [same (mem_messageIds.mpr ⟨pair, member, Or.inr rfl⟩)]
    exact .refl _
  · rcases grows.reading msg reads with before | ⟨low, high, inStep⟩
    · obtain ⟨below, inStep, apart⟩ := sound.reading msg before
      exact ⟨below.trans_le grows.next, (grows.messages msg below).symm ▸ inStep, apart⟩
    · refine ⟨high, inStep, fun member => ?_⟩
      obtain ⟨pair, inside, rfl⟩ := List.mem_map.mp member
      exact absurd (sound.below pair.2 (mem_messageIds.mpr ⟨pair, inside, Or.inr rfl⟩))
        (not_lt.mpr low)
  · rw [forwarded] at member
    obtain ⟨tunnel, host, below, apart⟩ := sound.forwarded msg member
    exact ⟨grows.tunneler tunnel, host, below.trans_le grows.next, apart⟩

/-- Another pair, whose response is done already. -/
theorem Core.extend (core : Core config pairs shared requester)
    (new : (shared.clients id).New (pairs id) pair)
    (free : (shared.linker id).tunneler = false ∨ ¬config.Forwards)
    (done : (shared.message id pair.2).state = .done) :
    Core config (extended pairs id pair) shared requester := by
  obtain ⟨accepted, tracked⟩ := core.tracked
  refine ⟨core.pooled, ⟨accepted, tracked.assigned, fun endpoint gen member => ?_,
    fun other old member open_ => ?_⟩, core.working.extend new free⟩
  · exact mem_extended.mpr (Or.inl (tracked.known endpoint gen member))
  · rcases mem_extended.mp member with before | ⟨rfl, rfl⟩
    · exact tracked.waiting other old before open_
    · exact absurd done open_

/-- A request is queued with a new message as its response, which is done. -/
theorem Core.queue (core : Core config pairs shared requester)
    (grows : (shared.linker id).Grows client.linker)
    (first : client.linker.WritesFirst client.linker.responseQueue)
    (forwarded : client.forwarded = (shared.clients id).forwarded)
    (request : msgReq ∉ messageIds (pairs id)) (known : msgReq < (shared.linker id).next)
    (later : (shared.linker id).next < client.linker.next)
    (unread : client.linker.readerMsg ≠ some (shared.linker id).next)
    (free : client.linker.tunneler = false ∨ ¬config.Forwards)
    (done : (client.linker.messages (shared.linker id).next).state = .done) :
    Core config (extended pairs id (msgReq, (shared.linker id).next))
      (shared.setClient id client) requester := by
  have sound := core.working.clients id
  have here : (shared.setClient id client).linker id = client.linker := by simp [Shared.linker]
  refine (core.grow grows first forwarded).extend ?_ (here.symm ▸ free) ?_
  · rw [Shared.clients_setClient_self]
    exact ⟨request, fun member => absurd (sound.below _ member) (lt_irrefl _), ne_of_lt known,
      ⟨known.trans later, later⟩, unread⟩
  · rw [Shared.message, here]
    exact done

/-- A new pair, with what upstream makes for it. -/
theorem Core.accepts (core : Core config pairs shared requester)
    (new : (shared.clients gen.client).New (pairs gen.client) gen.pair)
    (free : (shared.linker gen.client).tunneler = false ∨ ¬config.Forwards)
    (request : InStep (shared.message gen.client gen.msgReq))
    (response : shared.message gen.client gen.msgRes = .fresh false) :
    Working config.Forwards (extended pairs gen.client gen.pair) shared requester.linked
        requester.finished ∧
      Carried (extended pairs gen.client gen.pair) shared
        (.create config.requester.reader config.requester.writer gen) := by
  refine ⟨core.working.extend new free,
    ⟨mem_extended.mpr (Or.inr ⟨rfl, rfl⟩), .fresh request true, ?_⟩, fun concluded => ?_⟩
  · simp only [Exchange.create, response]
    exact ⟨rfl, rfl, rfl, rfl⟩
  · exact absurd concluded.2.1 (by simp [Exchange.create, HttpMessage.isSent, HttpMessage.fresh])

/-- Upstream takes a new request. -/
theorem Core.addRequest (core : Core config pairs shared requester)
    (new : (shared.clients gen.client).New (pairs gen.client) gen.pair)
    (free : (shared.linker gen.client).tunneler = false ∨ ¬config.Forwards)
    (request : InStep (shared.message gen.client gen.msgReq))
    (response : shared.message gen.client gen.msgRes = .fresh false)
    (outcome : requester.addRequest config.requester shared endpoint gen connects =
      .ok (shared', requester', true)) :
    Core config (extended pairs gen.client gen.pair) shared' requester' ∧
      shared.Stays (extended pairs gen.client gen.pair) shared' ∧ shared.Tends shared' := by
  obtain ⟨accepted, tracked⟩ := core.tracked
  obtain ⟨working, carried⟩ := core.accepts new free request response
  have served := working.served_addRequest core.pooled carried outcome
  have unknown (endpoint : Endpoint) : (endpoint, gen) ∉ accepted := fun member =>
    new.request (mem_messageIds.mpr ⟨gen.pair, tracked.known endpoint gen member, Or.inl rfl⟩)
  have assigned := tracked.assigned.addRequest core.pooled unknown outcome
  have working' : Working config.Forwards (extended pairs gen.client gen.pair) shared'
      requester'.linked requester'.finished := by
    rcases working.addRequest core.pooled carried outcome with ⟨-, working'⟩ | ⟨refused, -⟩
    · exact working'
    · cases refused
  refine ⟨⟨core.pooled.addRequest outcome, ⟨_, assigned, fun at_ other member => ?_,
    fun other old member open_ => ?_⟩, working'⟩, fun id => (served id).toStays,
    fun id => (served id).tends (working.clients id) (working'.clients id)⟩
  · rw [if_pos rfl] at member
    rcases List.mem_append.mp member with before | here
    · exact mem_extended.mpr (Or.inl (tracked.known at_ other before))
    · obtain ⟨-, rfl⟩ := Prod.mk.inj (List.mem_singleton.mp here)
      exact mem_extended.mpr (Or.inr ⟨rfl, rfl⟩)
  · rw [if_pos rfl]
    rcases mem_extended.mp member with before | ⟨rfl, rfl⟩
    · have rank := (served other).rank old.2
      obtain ⟨at_, waits⟩ := tracked.waiting other old before fun done => open_ <|
        MessageState.rank_injective (le_antisymm (MessageState.rank_le_three _)
          ((congrArg MessageState.rank done).symm.trans_le rank))
      exact ⟨at_, List.mem_append_left _ waits⟩
    · exact ⟨endpoint, by simp [MessageCopier.pair]⟩

theorem Core.addRequest_refused (core : Core config pairs shared requester)
    (outcome : requester.addRequest config.requester shared endpoint gen connects =
      .ok (shared', requester', false)) : shared' = shared ∧ requester' = requester := by
  rcases Requester.addRequest_cases core.pooled outcome with ⟨id, -, made, -⟩ | connected
  · cases made
  · rcases Requester.connect_cases connected with ⟨-, same⟩ | ⟨made, -⟩
    · exact same
    · cases made

/-- Upstream takes the connector of a tunnel. -/
theorem Core.addConnection {connector : Connector} (core : Core config pairs shared requester)
    (connecting : Connecting config.Forwards pairs shared connector)
    (outcome : requester.addConnection config.requester shared endpoint connector connects =
      .ok (shared', requester', true)) :
    Core config pairs shared' requester' ∧ shared.Stays pairs shared' ∧
      shared.Tends shared' := by
  obtain ⟨accepted, tracked⟩ := core.tracked
  have fits : Fits config.Forwards pairs shared
      (.connector connector : Linked MessageCopier Connector) := connecting
  have served := core.working.served_connect fits outcome
  have busy : Requester.Busy (.connector connector : Linked MessageCopier Connector) := by
    rintro linker ⟨⟩
  have none (pair : Endpoint × MessageCopier) (member : pair ∈
      Requester.accepts (.connector connector : Linked MessageCopier Connector)) : False := by
    cases member
  have assigned := tracked.assigned.connect core.pooled
    (fun pair member => (none pair member).elim) outcome
  have working : Working config.Forwards pairs shared' requester'.linked requester'.finished := by
    rcases core.working.connect fits outcome with ⟨-, working⟩ | ⟨refused, -⟩
    · exact working
    · cases refused
  refine ⟨⟨core.pooled.connect busy outcome, ⟨accepted, ?_⟩, working⟩,
    fun id => (served id).toStays,
    fun id => (served id).tends (core.working.clients id) (working.clients id)⟩
  refine tracked.stays (fun id => (served id).toStays) ?_
  simpa [Requester.accepts] using assigned

theorem addConnection_refused {connector : Connector}
    (outcome : requester.addConnection config.requester shared endpoint connector connects =
      .ok (shared', requester', false)) : shared' = shared ∧ requester' = requester := by
  rcases Requester.connect_cases outcome with ⟨-, same⟩ | ⟨made, -⟩
  · exact same
  · cases made

end Steps

/-! ## A request is connected -/

/-- The other clients go on, and upstream is asked for no more than a new pair. -/
structure Continues (world next : World) : Prop where
  clients : ∀ id, (world.shared.clients id).Tends (next.shared.clients id)
  attached : ∀ place endpoint gen, next.requester.Attached place endpoint gen →
    world.requester.Attached place endpoint gen ∨ gen.pair ∉ world.shared.pairs gen.client
  abandoned : next.requester.abandoned = world.requester.abandoned

theorem Continues.refl (world : World) : world.Continues world :=
  ⟨fun _ => .refl _, fun _ _ _ here => Or.inl here, rfl⟩

theorem Continues.trans {world next last : World} (first : world.Continues next)
    (second : next.Continues last) : world.Continues last where
  clients id := (first.clients id).trans (second.clients id)
  attached place endpoint gen here := by
    rcases second.attached place endpoint gen here with before | new
    · exact first.attached place endpoint gen before
    · exact Or.inr fun member => new ((first.clients gen.client).pairs member)
  abandoned := second.abandoned.trans first.abandoned

section Reading

variable {config : Config} {world next : World} {id : ClientId} {msgReq : MessageId}
  {endpoint : Endpoint} {connects : Bool} {rbuf : Str} {source : MessageSource}

theorem setTrace_setLinker {shared : Shared} {linker : ALinker} {trace : Trace} :
    (shared.setLinker id linker).setTrace id trace =
      shared.setClient id { shared.clients id with linker, trace } := by
  simp [Shared.setTrace, Shared.setLinker, Shared.setClient]

/-- A client whose reader went on with its message. -/
def received (client : Client) (source : MessageSource) (msgReq : MessageId) (msg : HttpMessage)
    (trace : Trace) : Client :=
  { client with
    linker := { client.linker.setMessage msgReq msg with reader := some (source, msgReq) }
    trace }

theorem receive_reads (outcome : world.receive id source msgReq rbuf = .ok next) :
    ∃ source' msg amount,
      source.read (world.shared.message id msgReq) rbuf = .ok ((source', msg), amount) ∧
      next = ⟨world.shared.setClient id (received (world.shared.clients id) source' msgReq msg
        { (world.shared.clients id).trace with
          whole := follow source (world.shared.clients id).trace.whole rbuf }),
        world.requester⟩ := by
  obtain ⟨⟨⟨source', msg⟩, amount⟩, read_eq, outcome⟩ := bind_eq_ok.mp outcome
  cases outcome
  exact ⟨source', msg, amount, read_eq,
    congrArg (World.mk · world.requester) setTrace_setLinker⟩

theorem receive_cases (outcome : world.receive id source msgReq rbuf = .ok next) :
    ∃ source' msg trace, Extends (world.shared.message id msgReq) msg ∧
      next = ⟨world.shared.setClient id
        (received (world.shared.clients id) source' msgReq msg trace), world.requester⟩ := by
  obtain ⟨source', msg, amount, read_eq, rfl⟩ := receive_reads outcome
  obtain ⟨updates, -, filled, -⟩ := MessageSource.read_fills read_eq
  exact ⟨source', msg, _, Extends.fill filled, rfl⟩

theorem messages_received {client : Client} {msg : HttpMessage} {trace : Trace} :
    (received client source msgReq msg trace).linker.messages =
      Function.update client.linker.messages msgReq msg := rfl

theorem readerMsg_received {client : Client} {msg : HttpMessage} {trace : Trace}
    {other : MessageId} : (received client source msgReq msg trace).linker.readerMsg = some other ↔
      msgReq = other := by
  simp [received, ALinker.readerMsg]

theorem Invariant.receive (invariant : world.Invariant config)
    (reads : (world.shared.linker id).readerMsg = some msgReq)
    (outcome : world.receive id source msgReq rbuf = .ok next) : next.Invariant config := by
  obtain ⟨source', msg, trace, longer, rfl⟩ := receive_cases outcome
  have sound := invariant.working.clients id
  have settled := invariant.settled id
  obtain ⟨below, inStep, apart⟩ := sound.reading msgReq reads
  refine .replace (fun other _ => invariant.settled other) ⟨fun tunnel other same => ?_,
    fun other same unconnected => ?_⟩ rfl ?_
  · obtain rfl := readerMsg_received.mp same
    exact settled.tunnel tunnel msgReq reads
  · obtain rfl := readerMsg_received.mp same
    exact settled.unqueued msgReq reads unconnected
  · refine invariant.toCore.setClient (fun pair member => ?_) (fun pair member => ?_) (fun t => t)
      le_rfl ⟨sound.once, sound.below, sound.first, fun other same => ?_, sound.forwarded⟩
    · rw [messages_received]
      by_cases same : pair.1 = msgReq
      · subst same
        rw [Function.update_self]
        exact Onward.ofExtends longer
      · rw [Function.update_of_ne same]
        exact Onward.ofDrains (.refl _)
    · have differs : pair.2 ≠ msgReq := fun same => apart (same ▸ List.mem_map_of_mem member)
      rw [messages_received, Function.update_of_ne differs]
      exact .refl _
    · obtain rfl := readerMsg_received.mp same
      refine ⟨below, ?_, apart⟩
      rw [messages_received, Function.update_self]
      exact inStep.extends longer

/-! ### Queueing -/

theorem state_generateMessage {msg response : HttpMessage} {status : Int} {info : Str}
    (generated : generateMessage msg status info = .ok response) : response.state = .done := by
  obtain ⟨msg₁, -, generated⟩ := bind_eq_ok.mp generated
  obtain ⟨msg₂, -, generated⟩ := bind_eq_ok.mp generated
  obtain ⟨msg₃, -, generated⟩ := bind_eq_ok.mp generated
  obtain ⟨msg₄, -, ended⟩ := bind_eq_ok.mp generated
  obtain ⟨-, rfl⟩ := HttpMessage.endFooter_eq_ok.mp ended
  rfl

theorem settled_of_connected {client : Client} (connected : client.linker.connected = true) :
    client.Settled where
  tunnel _ _ _ := connected
  unqueued _ _ unconnected := absurd (connected.symm.trans unconnected) (by simp)

/-- Before a request is connected there is no tunnel. -/
theorem Invariant.no_tunnel (invariant : world.Invariant config)
    (reads : (world.shared.linker id).readerMsg = some msgReq)
    (unconnected : (world.shared.linker id).connected = false) :
    (world.shared.linker id).tunneler = false := by
  cases tunneler : (world.shared.linker id).tunneler with
  | false => rfl
  | true => exact absurd (((invariant.settled id).tunnel tunneler msgReq reads).symm.trans
      unconnected) (by simp)

/-- A client that is connected, or not, with another pair in its queue, whose response is new. -/
def responded (client : Client) (msgReq : MessageId) (response : HttpMessage)
    (connected tunneler : Bool) : Client :=
  { client with linker :=
      { client.linker.respond msgReq response with connected, tunneler } }

theorem grows_responded {client : Client} {response : HttpMessage} {connected tunneler : Bool}
    (tunnel : client.linker.tunneler = true → tunneler = true) :
    client.linker.Grows (responded client msgReq response connected tunneler).linker where
  messages _ below := ALinker.messages_newMessage below
  next := Nat.le_succ _
  tunneler := tunnel
  reading _ reads := Or.inl reads

/-- What it takes to queue a request: it is read, and was not queued before. -/
theorem Core.respond {pairs : ClientId → List (MessageId × MessageId)} {shared : Shared}
    {requester : Requester MessageCopier Connector} {response : HttpMessage}
    {connected tunneler : Bool} (core : Core config pairs shared requester)
    (reads : (shared.linker id).readerMsg = some msgReq) (unqueued : msgReq ∉ messageIds (pairs id))
    (tunnel : (shared.linker id).tunneler = true → tunneler = true)
    (free : tunneler = false ∨ ¬config.Forwards) (done : response.state = .done) :
    Core config (extended pairs id (msgReq, (shared.linker id).next))
      (shared.setClient id (responded (shared.clients id) msgReq response connected tunneler))
      requester := by
  have sound := core.working.clients id
  have known : msgReq < (shared.linker id).next := (sound.reading msgReq reads).1
  refine core.queue (grows_responded tunnel) (Client.WritesFirst.append sound.first _) rfl unqueued
    known (Nat.lt_succ_self _) (fun same => ?_) free ?_
  · obtain rfl := Option.some.inj (reads.symm.trans same)
    exact lt_irrefl _ known
  · have here : (responded (shared.clients id) msgReq response connected tunneler).linker.messages
        (shared.linker id).next = response := Function.update_self _ _ _
    rw [here]
    exact done

theorem pairs_responded {client : Client} {response : HttpMessage} {connected tunneler : Bool} :
    (responded client msgReq response connected tunneler).pairs =
      client.pairs ++ [(msgReq, client.linker.next)] :=
  (List.append_assoc _ _ _).symm

theorem tends_responded {forwards : Prop} {client : Client} {pairs : List (MessageId × MessageId)}
    {response : HttpMessage} {connected tunneler : Bool} (sound : client.Sound forwards pairs)
    (tunnel : client.linker.tunneler = true → tunneler = true) :
    client.Tends (responded client msgReq response connected tunneler) := by
  refine Client.tends_grow (grows_responded tunnel) sound rfl rfl ?_ rfl rfl
  rw [pairs_responded]
  exact List.subset_append_left _ _

/-- The proxy answers the request that is read itself. -/
theorem Invariant.respond {response : HttpMessage} (invariant : world.Invariant config)
    (reads : (world.shared.linker id).readerMsg = some msgReq)
    (unconnected : (world.shared.linker id).connected = false) (done : response.state = .done) :
    Invariant config ⟨world.shared.setClient id
        (responded (world.shared.clients id) msgReq response true false), world.requester⟩ ∧
      world.Continues ⟨world.shared.setClient id
        (responded (world.shared.clients id) msgReq response true false), world.requester⟩ := by
  have none := invariant.no_tunnel reads unconnected
  have unqueued := (invariant.settled id).unqueued msgReq reads unconnected
  have tunnel : (world.shared.linker id).tunneler = true → false = true :=
    fun some => none.symm.trans some
  refine ⟨.setClient (fun other _ => invariant.settled other) (settled_of_connected rfl) ?_,
    Shared.tends_setClient (tends_responded (invariant.working.clients id) tunnel),
    fun _ _ _ here => Or.inl here, rfl⟩
  rw [pairs_responded]
  exact invariant.toCore.respond reads unqueued tunnel (Or.inl rfl) done

/-! ### A request for upstream -/

/-- A client with a new message. -/
def awaited (client : Client) : Client :=
  { client with linker := client.linker.newMessage (.fresh false) }

/-- The request is queued with the response that upstream fills. -/
def queued (client : Client) (pair : MessageId × MessageId) : Client :=
  { client with linker := { client.linker.appendResponse pair.1 pair.2 with connected := true } }

theorem setMessage_same (linker : ALinker) (id : MessageId) :
    linker.setMessage id (linker.messages id) = linker := by
  simp [ALinker.setMessage]

/-- What a request does when upstream takes it, or not. -/
theorem connectRequest_cases (core : Core config world.shared.pairs world.shared world.requester)
    (outcome : world.connectRequest config id msgReq endpoint connects = .ok next) :
    (∃ shared requester,
      world.requester.addRequest config.requester
        (world.shared.setClient id (awaited (world.shared.clients id))) endpoint
        ⟨id, msgReq, (world.shared.linker id).next⟩ connects = .ok (shared, requester, true) ∧
      next = ⟨shared.setClient id
        (queued (shared.clients id) (msgReq, (world.shared.linker id).next)), requester⟩) ∨
    ∃ response, response.state = .done ∧
      next = ⟨world.shared.setClient id
        (responded (world.shared.clients id) msgReq response true
          (world.shared.linker id).tunneler), world.requester⟩ := by
  obtain ⟨⟨shared, requester, added⟩, added_eq, outcome⟩ := bind_eq_ok.mp outcome
  obtain ⟨response, response_eq, outcome⟩ := bind_eq_ok.mp outcome
  cases outcome
  cases added with
  | true =>
      rw [answerRequest, if_pos rfl] at response_eq
      cases response_eq
      refine Or.inl ⟨shared, requester, added_eq, ?_⟩
      rw [setMessage_same]
      rfl
  | false =>
      have awaited_core := @Core.grow config world.shared.pairs world.shared world.requester id
        (awaited (world.shared.clients id)) core ALinker.grows_newMessage
        (core.working.clients id).first rfl
      obtain ⟨rfl, rfl⟩ := awaited_core.addRequest_refused added_eq
      rw [answerRequest, if_neg (by simp)] at response_eq
      refine Or.inr ⟨response, state_generateMessage response_eq, ?_⟩
      simp [Shared.setLinker, Shared.setClient, Shared.linker, awaited, responded,
        ALinker.respond, ALinker.newMessage, ALinker.setMessage, ALinker.appendResponse]

theorem grows_awaited (client : Client) : client.linker.Grows (awaited client).linker :=
  ALinker.grows_newMessage

theorem new_awaited {forwards : Prop} {client : Client} {pairs : List (MessageId × MessageId)}
    (sound : client.Sound forwards pairs) (reads : client.linker.readerMsg = some msgReq)
    (unqueued : msgReq ∉ messageIds pairs) :
    (awaited client).New pairs (msgReq, client.linker.next) := by
  have known := (sound.reading msgReq reads).1
  refine ⟨unqueued, fun member => lt_irrefl _ (sound.below _ member), ne_of_lt known,
    ⟨known.trans (Nat.lt_succ_self _), Nat.lt_succ_self _⟩, fun same => ?_⟩
  have unread : msgReq = client.linker.next := Option.some.inj (reads.symm.trans same)
  exact absurd unread (ne_of_lt known)

theorem pairs_queued {client : Client} {pair : MessageId × MessageId} :
    (queued client pair).pairs = client.pairs ++ [pair] :=
  (List.append_assoc _ _ _).symm

theorem grows_queued (client : Client) (pair : MessageId × MessageId) :
    client.linker.Grows (queued client pair).linker :=
  ⟨fun _ _ => rfl, le_rfl, fun tunnel => tunnel, fun _ reads => Or.inl reads⟩

/-- A client with a new message, which is in no pair. -/
theorem Core.awaiting {pairs : ClientId → List (MessageId × MessageId)} {shared : Shared}
    {requester : Requester MessageCopier Connector} (core : Core config pairs shared requester)
    (reads : (shared.linker id).readerMsg = some msgReq)
    (unqueued : msgReq ∉ messageIds (pairs id)) :
    Core config pairs (shared.setClient id (awaited (shared.clients id))) requester ∧
      ((shared.setClient id (awaited (shared.clients id))).clients id).New (pairs id)
        (msgReq, (shared.linker id).next) ∧
      InStep ((shared.setClient id (awaited (shared.clients id))).message id msgReq) ∧
      (shared.setClient id (awaited (shared.clients id))).message id (shared.linker id).next =
        .fresh false := by
  have sound := core.working.clients id
  obtain ⟨known, inStep, -⟩ := sound.reading msgReq reads
  have waits := grows_awaited (shared.clients id)
  have linker_eq : (shared.setClient id (awaited (shared.clients id))).linker id =
      (awaited (shared.clients id)).linker := congrArg Client.linker Shared.clients_setClient_self
  refine ⟨core.grow waits sound.first rfl, ?_, ?_, ?_⟩
  · rw [Shared.clients_setClient_self]
    exact new_awaited sound reads unqueued
  · rw [Shared.message, linker_eq, waits.messages msgReq known]
    exact inStep
  · rw [Shared.message, linker_eq]
    exact Function.update_self _ _ _

theorem linker_awaited {shared : Shared} :
    ((shared.setClient id (awaited (shared.clients id))).linker id).tunneler =
      (shared.linker id).tunneler := by
  rw [Shared.linker, Shared.clients_setClient_self]
  rfl

/-- A client is awaited, then upstream takes the request, then it is queued. -/
theorem Core.connectRequest {pairs : ClientId → List (MessageId × MessageId)}
    {shared shared' : Shared}
    {requester requester' : Requester MessageCopier Connector}
    (core : Core config pairs shared requester)
    (reads : (shared.linker id).readerMsg = some msgReq) (unqueued : msgReq ∉ messageIds (pairs id))
    (none : (shared.linker id).tunneler = false)
    (added : requester.addRequest config.requester
      (shared.setClient id (awaited (shared.clients id))) endpoint
      ⟨id, msgReq, (shared.linker id).next⟩ connects = .ok (shared', requester', true)) :
    Core config (extended pairs id (msgReq, (shared.linker id).next)) shared' requester' ∧
      (shared.setClient id (awaited (shared.clients id))).Stays
        (extended pairs id (msgReq, (shared.linker id).next)) shared' ∧ shared.Tends shared' := by
  obtain ⟨awaiting, new, request, response⟩ := core.awaiting reads unqueued
  obtain ⟨core', stays, tends⟩ := awaiting.addRequest new (Or.inl (linker_awaited.trans none))
    request response added
  refine ⟨core', stays, (Shared.tends_setClient ?_).trans tends⟩
  exact Client.tends_grow (grows_awaited _) (core.working.clients id) rfl rfl
    (fun _ member => member) rfl rfl

theorem Invariant.connectRequest (invariant : world.Invariant config)
    (reads : (world.shared.linker id).readerMsg = some msgReq)
    (unconnected : (world.shared.linker id).connected = false)
    (outcome : world.connectRequest config id msgReq endpoint connects = .ok next) :
    next.Invariant config ∧ world.Continues next := by
  have none := invariant.no_tunnel reads unconnected
  rcases connectRequest_cases invariant.toCore outcome with
    ⟨shared, requester, added, rfl⟩ | ⟨response, done, rfl⟩
  · have unqueued := (invariant.settled id).unqueued msgReq reads unconnected
    obtain ⟨core, stays, tends⟩ := invariant.toCore.connectRequest reads unqueued none added
    have pairs_eq : shared.pairs = world.shared.pairs := by
      rw [pairs_stays stays, pairs_setClient, show (awaited (world.shared.clients id)).pairs =
        world.shared.pairs id from rfl, Function.update_eq_self]
    have grows := grows_queued (shared.clients id) (msgReq, (world.shared.linker id).next)
    have sound := core.working.clients id
    have admits := Requester.Admits.addRequest invariant.pooled added
    refine ⟨.setClient (fun other differs => ?_) (settled_of_connected rfl) ?_, tends.trans
      (Shared.tends_setClient ?_), fun place endpoint gen here => ?_, admits.abandoned⟩
    · refine Client.Settled.stays ?_ (stays other)
      rw [Shared.clients_setClient_ne differs]
      exact invariant.settled other
    · rw [pairs_queued, show (shared.clients id).pairs = world.shared.pairs id from
        congrFun pairs_eq id, pairs_eq]
      exact core.grow grows (Client.WritesFirst.append sound.first _) rfl
    · refine Client.tends_grow grows sound rfl rfl ?_ rfl rfl
      rw [pairs_queued]
      exact List.subset_append_left _ _
    · refine (admits.attached place endpoint gen here).imp_right fun new member => ?_
      obtain rfl := List.mem_singleton.mp new
      exact unqueued (mem_messageIds.mpr ⟨_, member, Or.inl rfl⟩)
  · rw [none]
    exact invariant.respond reads unconnected done

/-! ### A tunnel -/

/-- A client with a tunnel. -/
def tunnelled (client : Client) (cell : CellId) : Client :=
  { client with
    linkedCount := some cell
    linker := { client.linker with tunneler := true } }

/-- A tunnel is connected, and its response will come through it. -/
def linked (client : Client) : Client :=
  { client with linker := { client.linker with connected := true } }

/-- The clients and the cell that a tunnel begins with. -/
def opened (shared : Shared) (id : ClientId) : Shared :=
  (shared.newCell 2).setClient id (tunnelled (shared.clients id) shared.nextCell)

@[simp] theorem clients_opened {shared : Shared} : (opened shared id).clients id =
    tunnelled (shared.clients id) shared.nextCell := Shared.clients_setClient_self

theorem clients_opened_ne {shared : Shared} {other : ClientId} (differs : other ≠ id) :
    (opened shared id).clients other = shared.clients other :=
  Shared.clients_setClient_ne differs

theorem pairs_opened {shared : Shared} : (opened shared id).pairs = shared.pairs :=
  pairs_setClient_self rfl

@[simp] theorem clients_release {shared : Shared} {cell : CellId} :
    (shared.release cell).clients = shared.clients := rfl

@[simp] theorem clients_unlink {shared : Shared} {cell : CellId} :
    (shared.unlink cell).clients = shared.clients := by
  unfold Shared.unlink
  split
  · rfl
  · split <;> rfl

/-- The connector of a tunnel. -/
def newConnector (config : Config) (shared : Shared) (id : ClientId) (msgReq : MessageId) :
    Connector where
  writer := config.proxy.forwardHost.map fun _ => (config.requester.writer.writerCreator, msgReq)
  conn := ⟨id, shared.nextCell⟩

/-- What a tunnel does when upstream takes it, with a response of the proxy or without, or not. -/
theorem connectTunnel_cases
    (outcome : world.connectTunnel config id msgReq endpoint connects = .ok next) :
    (∃ shared requester,
      world.requester.addConnection config.requester (opened world.shared id) endpoint
        (newConnector config world.shared id msgReq) connects = .ok (shared, requester, true) ∧
      ((config.proxy.forwardHost = none ∧ ∃ response,
          generateMessage (.fresh false) 200 [] = .ok response ∧
          next = ⟨shared.setClient id (responded (shared.clients id) msgReq response true
            (shared.linker id).tunneler), requester⟩) ∨
        config.proxy.forwardHost ≠ none ∧
          next = ⟨shared.setClient id (linked (shared.clients id)), requester⟩)) ∨
    ∃ response, response.state = .done ∧
      next = ⟨(((opened world.shared id).unlink world.shared.nextCell).release
          world.shared.nextCell).setClient id
        { responded (world.shared.clients id) msgReq response true false with linkedCount := none },
        world.requester⟩ := by
  obtain ⟨⟨shared, requester, added⟩, added_eq, outcome⟩ := bind_eq_ok.mp outcome
  obtain ⟨linker, linker_eq, outcome⟩ := bind_eq_ok.mp outcome
  unfold answerConnect at linker_eq
  cases added with
  | true =>
      rw [if_neg (by simp)] at linker_eq
      cases outcome
      refine Or.inl ⟨shared, requester, added_eq, ?_⟩
      split at linker_eq
      · rename_i host
        obtain ⟨response, response_eq, linker_eq⟩ := bind_eq_ok.mp linker_eq
        cases linker_eq
        exact Or.inl ⟨host, response, response_eq, rfl⟩
      · rename_i host
        cases linker_eq
        exact Or.inr ⟨host, rfl⟩
  | false =>
      rw [if_pos rfl] at linker_eq
      obtain ⟨response, response_eq, linker_eq⟩ := bind_eq_ok.mp linker_eq
      cases linker_eq
      cases outcome
      obtain ⟨rfl, rfl⟩ := addConnection_refused added_eq
      refine Or.inr ⟨response, state_generateMessage response_eq, ?_⟩
      have client : (((opened world.shared id).unlink world.shared.nextCell).release
          world.shared.nextCell).clients id =
            tunnelled (world.shared.clients id) world.shared.nextCell := by
        rw [clients_release, clients_unlink, clients_opened]
      have linker : (opened world.shared id).linker id =
          (tunnelled (world.shared.clients id) world.shared.nextCell).linker :=
        congrArg Client.linker clients_opened
      change World.mk (Shared.setClient (((opened world.shared id).unlink
        world.shared.nextCell).release world.shared.nextCell) id
          { (((opened world.shared id).unlink world.shared.nextCell).release
              world.shared.nextCell).clients id with
            linkedCount := none
            linker := { ((opened world.shared id).linker id).respond msgReq response with
              connected := true, tunneler := false } }) world.requester = _
      rw [client, linker]
      rfl

theorem grows_tunnelled (client : Client) (cell : CellId) :
    client.linker.Grows (tunnelled client cell).linker :=
  ⟨fun _ _ => rfl, le_rfl, fun _ => rfl, fun _ reads => Or.inl reads⟩

theorem grows_linked (client : Client) : client.linker.Grows (linked client).linker :=
  ⟨fun _ _ => rfl, le_rfl, fun tunnel => tunnel, fun _ reads => Or.inl reads⟩

theorem drains_of_clients {shared shared' : Shared} (same : shared'.clients = shared.clients) :
    shared.Drains shared' := by
  intro id
  rw [same]
  exact .refl _

theorem Core.opened {pairs : ClientId → List (MessageId × MessageId)} {shared : Shared}
    {requester : Requester MessageCopier Connector} (core : Core config pairs shared requester)
    (id : ClientId) : Core config pairs (opened shared id) requester := by
  have allocated : Core config pairs (shared.newCell 2) requester :=
    core.drains (drains_of_clients rfl)
  exact allocated.grow (grows_tunnelled _ _) (core.working.clients id).first rfl

theorem tends_opened {forwards : Prop} {shared : Shared} {pairs : List (MessageId × MessageId)}
    (sound : (shared.clients id).Sound forwards pairs) : shared.Tends (opened shared id) :=
  Shared.tends_setClient (Client.tends_grow (grows_tunnelled _ _) sound rfl rfl
    (fun _ member => member) rfl rfl)

/-- The message that a proxy upstream is sent is queued nowhere. -/
theorem connecting_new {pairs : ClientId → List (MessageId × MessageId)} {shared : Shared}
    {forwards : Prop} (sound : (shared.clients id).Sound forwards (pairs id))
    (forwards_iff : config.Forwards → forwards) (reads : (shared.linker id).readerMsg = some msgReq)
    (unqueued : msgReq ∉ messageIds (pairs id)) :
    Connecting forwards pairs (opened shared id) (newConnector config shared id msgReq) := by
  have linker :
      (opened shared id).linker id = (tunnelled (shared.clients id) shared.nextCell).linker :=
    congrArg Client.linker clients_opened
  refine ⟨?_, fun sink msg writer => ?_⟩
  · exact congrArg ALinker.tunneler linker
  · obtain ⟨host, host_eq, same⟩ := Option.map_eq_some_iff.mp writer
    cases same
    have below : msgReq < (shared.linker id).next := (sound.reading msgReq reads).1
    refine ⟨forwards_iff fun none => ?_, ?_, unqueued⟩
    · cases none.symm.trans host_eq
    · exact below.trans_eq (congrArg ALinker.next linker).symm

theorem Invariant.connectTunnel (invariant : world.Invariant config)
    (reads : (world.shared.linker id).readerMsg = some msgReq)
    (unconnected : (world.shared.linker id).connected = false)
    (outcome : world.connectTunnel config id msgReq endpoint connects = .ok next) :
    next.Invariant config ∧ world.Continues next := by
  have unqueued := (invariant.settled id).unqueued msgReq reads unconnected
  rcases connectTunnel_cases outcome with ⟨shared, requester, added, direct⟩ | ⟨response, done, rfl⟩
  · have connecting := connecting_new (invariant.working.clients id)
      (fun forwards => forwards) reads unqueued
    obtain ⟨core, stays, tends⟩ := (invariant.toCore.opened id).addConnection connecting added
    have pairs_eq : shared.pairs = world.shared.pairs := (pairs_stays stays).trans pairs_opened
    have pairs_here : (shared.clients id).pairs = world.shared.pairs id := congrFun pairs_eq id
    have sound := core.working.clients id
    have reads' : (shared.linker id).readerMsg = some msgReq :=
      ((tends_opened (invariant.working.clients id)).trans tends id).readerMsg.trans reads
    have settled (other : ClientId) (differs : other ≠ id) : (shared.clients other).Settled := by
      refine Client.Settled.stays ?_ (stays other)
      rw [clients_opened_ne differs]
      exact invariant.settled other
    have begins : world.shared.Tends shared :=
      (tends_opened (invariant.working.clients id)).trans tends
    have admits : Requester.Admits [] world.requester requester :=
      .connect (fun _ member => by cases member) added
    have attached (place : ObjectId) (endpoint : Endpoint) (gen : MessageCopier)
        (here : requester.Attached place endpoint gen) :
        world.requester.Attached place endpoint gen ∨ gen.pair ∉ world.shared.pairs gen.client :=
      (admits.attached place endpoint gen here).imp_right fun new => nomatch new
    rcases direct with ⟨host, response, response_eq, rfl⟩ | ⟨-, rfl⟩
    · have tunnel : (shared.linker id).tunneler = true → (shared.linker id).tunneler = true :=
        fun tunnel => tunnel
      refine ⟨.setClient settled (settled_of_connected rfl) ?_,
        begins.trans (Shared.tends_setClient (tends_responded sound tunnel)), attached,
        admits.abandoned⟩
      have direct : ¬config.Forwards := fun forwards => forwards host
      rw [pairs_responded, pairs_here, pairs_eq]
      exact core.respond reads' unqueued tunnel (Or.inr direct) (state_generateMessage response_eq)
    · refine ⟨.replace settled (settled_of_connected rfl) rfl ?_, begins.trans
        (Shared.tends_setClient (Client.tends_grow (grows_linked _) sound rfl rfl
          (fun _ member => member) rfl rfl)), attached, admits.abandoned⟩
      rw [pairs_eq]
      exact core.grow (grows_linked _) sound.first rfl
  · obtain ⟨responds, continues⟩ := invariant.respond reads unconnected done
    have drains : Shared.Drains
        (world.shared.setClient id (responded (world.shared.clients id) msgReq response true false))
        ((((opened world.shared id).unlink world.shared.nextCell).release
          world.shared.nextCell).setClient id
            { responded (world.shared.clients id) msgReq response true false with
              linkedCount := none }) := by
      intro other
      by_cases same : other = id
      · subst same
        rw [Shared.clients_setClient_self, Shared.clients_setClient_self]
        exact ⟨rfl, rfl, rfl, rfl, rfl, rfl, rfl, rfl, rfl, fun _ => .refl _⟩
      · rw [Shared.clients_setClient_ne same, Shared.clients_setClient_ne same, clients_release,
          clients_unlink, clients_opened_ne same]
        exact .refl _
    exact ⟨responds.drains drains, continues.trans
      ⟨fun other => (drains other).tends, fun _ _ _ here => Or.inl here, rfl⟩⟩

/-! ### The whole call -/

theorem Invariant.connect (invariant : world.Invariant config)
    (reads : (world.shared.linker id).readerMsg = some msgReq)
    (outcome : world.connect config id msgReq connects = .ok next) :
    next.Invariant config ∧ world.Continues next := by
  unfold World.connect at outcome
  simp only at outcome
  split at outcome
  · rename_i found
    split at outcome
    · exact invariant.connectRequest reads found.1 outcome
    · exact invariant.connectTunnel reads found.1 outcome
  · cases outcome
    exact ⟨invariant, .refl _⟩

/-- A client after `finishRequest`. -/
def finished (client : Client) (linker : ALinker) (trace : Trace) : Client :=
  { client with linker, trace }

/-- Behind its end a request is queued, and in a tunnel nothing more is read. -/
theorem finishRequest_cases (outcome : world.finishRequest config id msgReq = .ok next) :
    ∃ linker trace, next = ⟨world.shared.setClient id
        (finished (world.shared.clients id) linker trace), world.requester⟩ ∧
      trace = { (world.shared.clients id).trace with
        whole := if linker.readerMsg = some msgReq ∨ linker.reader.isNone then
          (world.shared.clients id).trace.whole else .fresh true } ∧
      ((world.shared.message id msgReq).state ≠ .done ∧ linker = world.shared.linker id ∨
        (world.shared.linker id).connected = true ∧ (world.shared.linker id).tunneler = true ∧
          linker = { world.shared.linker id with connected := false, reader := none } ∨
        (world.shared.linker id).connected = true ∧ (world.shared.linker id).tunneler = false ∧
          linker = ALinker.nextRequest config.proxy (world.shared.linker id) ∨
        (world.shared.linker id).connected = false ∧ ∃ response, response.state = .done ∧
          ((world.shared.linker id).tunneler = true ∨ linker = ALinker.nextRequest config.proxy
            ((world.shared.linker id).respond msgReq response))) := by
  obtain ⟨linker, linker_eq, outcome⟩ := bind_eq_ok.mp outcome
  cases outcome
  refine ⟨linker, _, congrArg (World.mk · world.requester) setTrace_setLinker, rfl, ?_⟩
  unfold ALinker.finishRequest at linker_eq
  split at linker_eq
  · obtain ⟨before, queue_eq, linker_eq⟩ := bind_eq_ok.mp linker_eq
    refine Or.inr ?_
    unfold ALinker.queueUnconnected at queue_eq
    split at queue_eq
    · rename_i connected
      cases queue_eq
      split at linker_eq
      · rename_i tunnel
        exact Or.inl ⟨connected, tunnel, (Except.ok.inj linker_eq).symm⟩
      · rename_i tunnel
        exact Or.inr (Or.inl ⟨connected, by simpa using tunnel, (Except.ok.inj linker_eq).symm⟩)
    · rename_i unconnected
      obtain ⟨response, response_eq, queue_eq⟩ := bind_eq_ok.mp queue_eq
      cases queue_eq
      refine Or.inr (Or.inr ⟨by simpa using unconnected, response,
        state_generateMessage response_eq, ?_⟩)
      split at linker_eq
      · rename_i tunnel
        exact Or.inl tunnel
      · exact Or.inr (Except.ok.inj linker_eq).symm
  · rename_i going
    exact Or.inl ⟨going, (Except.ok.inj linker_eq).symm⟩

/-- What `finishRequest` leaves: what is read is not finished, and it is new unless it was read
before. -/
structure Finishes (world next : World) (id : ClientId) (client : Client) : Prop where
  next : next = ⟨world.shared.setClient id client, world.requester⟩
  grows : (world.shared.linker id).Grows client.linker
  alive : client.alive = (world.shared.clients id).alive
  popped : client.popped = (world.shared.clients id).popped
  forwarded : client.forwarded = (world.shared.clients id).forwarded
  pairs : world.shared.pairs id ⊆ client.pairs
  unfinished : client.Unfinished

theorem unfinished_nextRequest {proxy : HttpProxy} {linker : ALinker} {client : Client}
    (next : client.linker = ALinker.nextRequest proxy linker) : client.Unfinished := by
  intro msg reads
  rw [next] at reads ⊢
  obtain rfl : linker.next = msg := by simpa [ALinker.nextRequest, ALinker.readerMsg] using reads
  have fresh : (ALinker.nextRequest proxy linker).messages linker.next = .fresh true :=
    Function.update_self _ _ _
  rw [fresh]
  simp [HttpMessage.fresh]

theorem settled_nextRequest {proxy : HttpProxy} {linker : ALinker} {client : Client}
    (next : client.linker = ALinker.nextRequest proxy linker) (tunnel : linker.tunneler = false)
    (below : ∀ msg ∈ messageIds client.pairs, msg < linker.next) : client.Settled := by
  refine ⟨fun some => ?_, fun msg reads _ member => ?_⟩
  · rw [next] at some
    cases tunnel.symm.trans some
  · rw [next] at reads
    obtain rfl : linker.next = msg := by simpa [ALinker.nextRequest, ALinker.readerMsg] using reads
    exact lt_irrefl _ (below _ member)

theorem Invariant.finishRequest (invariant : world.Invariant config)
    (reads : (world.shared.linker id).readerMsg = some msgReq)
    (outcome : world.finishRequest config id msgReq = .ok next) :
    next.Invariant config ∧ ∃ client, world.Finishes next id client := by
  obtain ⟨linker, trace, rfl, -, further⟩ := finishRequest_cases outcome
  have sound := invariant.working.clients id
  have settled (other : ClientId) (_ : other ≠ id) := invariant.settled other
  rcases further with ⟨going, rfl⟩ | ⟨-, -, rfl⟩ | ⟨-, tunnel, rfl⟩ |
    ⟨unconnected, response, done, tunnel⟩
  · -- the request goes on
    have drains : (world.shared.clients id).Drains
        (finished (world.shared.clients id) (world.shared.linker id) trace) :=
      ⟨rfl, rfl, rfl, rfl, rfl, rfl, rfl, rfl, rfl, fun _ => .refl _⟩
    refine ⟨invariant.drains (Shared.drains_setClient drains), _, rfl, .refl _, rfl, rfl, rfl,
      fun _ member => member, fun msg same => ?_⟩
    obtain rfl := Option.some.inj (reads.symm.trans same)
    exact going
  · -- nothing more is read
    have grows : (world.shared.linker id).Grows
        { world.shared.linker id with connected := false, reader := none } :=
      ⟨fun _ _ => rfl, le_rfl, fun tunnel => tunnel, fun _ none => nomatch none⟩
    refine ⟨.replace settled ⟨fun _ _ none => (nomatch none), fun _ none => (nomatch none)⟩ rfl
      (invariant.toCore.grow grows sound.first rfl), _, rfl, grows, rfl, rfl, rfl,
      fun _ member => member, fun _ none => nomatch none⟩
  · -- the next request begins
    have grows : (world.shared.linker id).Grows
        (ALinker.nextRequest config.proxy (world.shared.linker id)) :=
      ALinker.grows_nextRequest config.proxy
    refine ⟨.replace settled (settled_nextRequest rfl tunnel sound.below) rfl
      (invariant.toCore.grow grows sound.first rfl), _, rfl, grows, rfl, rfl, rfl,
      fun _ member => member, unfinished_nextRequest rfl⟩
  · -- the request is queued as well
    have none := invariant.no_tunnel reads unconnected
    have unqueued := (invariant.settled id).unqueued msgReq reads unconnected
    obtain tunnel | rfl := tunnel
    · cases none.symm.trans tunnel
    have responds : (world.shared.linker id).Grows
        ((world.shared.linker id).respond msgReq response) :=
      @grows_responded msgReq (world.shared.clients id) response _ _ fun tunnel => tunnel
    have grows := responds.trans (ALinker.grows_nextRequest config.proxy)
    have known : msgReq < (world.shared.linker id).next := (sound.reading msgReq reads).1
    have pairs_eq : (finished (world.shared.clients id) (ALinker.nextRequest config.proxy
        ((world.shared.linker id).respond msgReq response)) trace).pairs =
          world.shared.pairs id ++ [(msgReq, (world.shared.linker id).next)] :=
      (List.append_assoc _ _ _).symm
    have unread : (ALinker.nextRequest config.proxy
        ((world.shared.linker id).respond msgReq response)).readerMsg ≠
          some (world.shared.linker id).next := by
      simp [ALinker.nextRequest, ALinker.readerMsg, ALinker.respond, ALinker.newMessage,
        ALinker.appendResponse]
    have answered : ((ALinker.nextRequest config.proxy
        ((world.shared.linker id).respond msgReq response)).messages
          (world.shared.linker id).next).state = .done := by
      rw [(ALinker.grows_nextRequest config.proxy).messages _ (Nat.lt_succ_self _),
        show ((world.shared.linker id).respond msgReq response).messages
          (world.shared.linker id).next = response from Function.update_self _ _ _]
      exact done
    have core := @Core.queue config world.shared.pairs world.shared world.requester id
      (finished (world.shared.clients id) (ALinker.nextRequest config.proxy
        ((world.shared.linker id).respond msgReq response)) trace) msgReq invariant.toCore grows
      (Client.WritesFirst.append sound.first _) rfl unqueued known
      (Nat.lt_succ_of_lt (Nat.lt_succ_self _)) unread (Or.inl none) answered
    refine ⟨.setClient settled (settled_nextRequest rfl none fun msg member => ?_) ?_, _, rfl,
      grows, rfl, rfl, rfl, ?_, unfinished_nextRequest rfl⟩
    · rw [pairs_eq, messageIds_append] at member
      have old_or_new : msg ∈ messageIds (world.shared.pairs id) ∨ msg = msgReq ∨
          msg = (world.shared.linker id).next := by simpa using member
      rcases old_or_new with old | rfl | rfl
      · exact Nat.lt_succ_of_lt (sound.below msg old)
      · exact Nat.lt_succ_of_lt known
      · exact Nat.lt_succ_self _
    · rw [pairs_eq]
      exact core
    · rw [pairs_eq]
      exact List.subset_append_left _ _

/-- In a tunnel a client only adds to a buffer. -/
theorem read_cases (outcome : world.read config id rbuf connects = .ok next) :
    ((world.shared.linker id).reader = none ∧ (world.shared.linker id).tunneler = true ∧
      next = ⟨world.shared.setClient id (finished (world.shared.clients id)
          { world.shared.linker id with dataReq := (world.shared.linker id).dataReq ++ rbuf }
          { (world.shared.clients id).trace with
            received := (world.shared.clients id).trace.received ++ rbuf }), world.requester⟩) ∨
    ∃ source msgReq world₁ world₂, (world.shared.linker id).reader = some (source, msgReq) ∧
      world.receive id source msgReq rbuf = .ok world₁ ∧
      world₁.connect config id msgReq connects = .ok world₂ ∧
      world₂.finishRequest config id msgReq = .ok next := by
  unfold World.read at outcome
  simp only at outcome
  split at outcome
  · rename_i none
    split at outcome
    · rename_i tunnel
      cases outcome
      exact Or.inl ⟨none, tunnel, congrArg (World.mk · world.requester) setTrace_setLinker⟩
    · cases outcome
  · rename_i source msgReq reader
    obtain ⟨world₁, receive_eq, outcome⟩ := bind_eq_ok.mp outcome
    obtain ⟨world₂, connect_eq, finish_eq⟩ := bind_eq_ok.mp outcome
    exact Or.inr ⟨source, msgReq, world₁, world₂, reader, receive_eq, connect_eq, finish_eq⟩

theorem readerMsg_receive (outcome : world.receive id source msgReq rbuf = .ok next) :
    (next.shared.linker id).readerMsg = some msgReq := by
  obtain ⟨source', msg, trace, -, rfl⟩ := receive_cases outcome
  rw [Shared.linker, Shared.clients_setClient_self]
  exact readerMsg_received.mpr rfl

/-- The stages of a call that reads a request. -/
theorem Invariant.read_stages {world₁ world₂ : World} (invariant : world.Invariant config)
    (reader : (world.shared.linker id).reader = some (source, msgReq))
    (receive_eq : world.receive id source msgReq rbuf = .ok world₁)
    (connect_eq : world₁.connect config id msgReq connects = .ok world₂)
    (finish_eq : world₂.finishRequest config id msgReq = .ok next) :
    world₁.Invariant config ∧ world₂.Invariant config ∧ next.Invariant config ∧
      world₁.Continues world₂ ∧ (world₂.shared.linker id).readerMsg = some msgReq ∧
      ∃ client, world₂.Finishes next id client := by
  have reads : (world.shared.linker id).readerMsg = some msgReq := by
    simp [ALinker.readerMsg, reader]
  have received := invariant.receive reads receive_eq
  obtain ⟨connected, continues⟩ := received.connect (readerMsg_receive receive_eq) connect_eq
  have reads₂ : (world₂.shared.linker id).readerMsg = some msgReq :=
    (continues.clients id).readerMsg.trans (readerMsg_receive receive_eq)
  obtain ⟨finished, finishes⟩ := connected.finishRequest reads₂ finish_eq
  exact ⟨received, connected, finished, continues, reads₂, finishes⟩

theorem Invariant.read (invariant : world.Invariant config)
    (outcome : world.read config id rbuf connects = .ok next) : next.Invariant config := by
  rcases read_cases outcome with
    ⟨-, -, rfl⟩ | ⟨source, msgReq, world₁, world₂, reader, receive_eq, connect_eq, finish_eq⟩
  · exact invariant.drains (Shared.drains_setClient
      ⟨rfl, rfl, rfl, rfl, rfl, rfl, rfl, rfl, rfl, fun _ => .refl _⟩)
  · exact (invariant.read_stages reader receive_eq connect_eq finish_eq).2.2.1

end Reading

/-! ## Every run -/

section Run

variable {config : Config} {world next last : World} {event : Event} {events : List Event}

theorem Invariant.act (invariant : world.Invariant config)
    (outcome : world.act config event = .ok next) : next.Invariant config := by
  cases event with
  | read id rbuf connects => exact invariant.read outcome
  | getWriteSize id => exact invariant.getWriteSize outcome
  | write id maxWrite amount => exact invariant.write outcome
  | delete id =>
      cases outcome
      exact invariant.delete id
  | call id asked =>
      obtain ⟨⟨shared, requester, answer⟩, called, outcome⟩ := bind_eq_ok.mp outcome
      cases outcome
      exact (invariant.call called).1
  | close id =>
      cases outcome
      exact (invariant.close id).1

/-- A step is what its event does, or the client is deleted and nothing happens. -/
theorem step_cases (outcome : world.step config event = .ok next) :
    (∀ id ∈ event.client, (world.shared.clients id).alive = true) ∧
        world.act config event = .ok next ∨ next = world := by
  unfold World.step at outcome
  split at outcome
  · rename_i alive
    exact Or.inl ⟨alive, outcome⟩
  · exact Or.inr (Except.ok.inj outcome).symm

theorem Invariant.step (invariant : world.Invariant config)
    (outcome : world.step config event = .ok next) : next.Invariant config := by
  rcases step_cases outcome with ⟨-, outcome⟩ | rfl
  · exact invariant.act outcome
  · exact invariant

theorem invariant_start (config : Config) : (start config).Invariant config := by
  have started : Requester.Session.Invariant config.requester
      (⟨{}, (start config).shared, []⟩ : Requester.Session MessageCopier Connector Shared) :=
    Requester.Session.invariant_start _
  have reads (id : ClientId) : ((start config).shared.linker id).readerMsg = some 0 := rfl
  have sound (id : ClientId) : ((start config).shared.clients id).Sound config.Forwards [] := by
    refine ⟨List.nodup_nil, fun _ none => (nomatch none), fun _ _ none => (nomatch none),
      fun msg same => ?_, fun _ none => (nomatch none)⟩
    obtain rfl := Option.some.inj ((reads id).symm.trans same)
    exact ⟨Nat.zero_lt_one, .fresh true, List.not_mem_nil⟩
  refine ⟨⟨started.pooled, ⟨[], started.assigned, fun _ _ none => (nomatch none),
    fun _ _ none => (nomatch none)⟩, sound, fun _ _ none => (nomatch none),
    fun _ none => (nomatch none)⟩, fun id => ⟨fun none => (nomatch none), fun _ _ _ => ?_⟩⟩
  exact List.not_mem_nil

theorem Invariant.run (invariant : world.Invariant config)
    (outcome : run config world events = .ok last) : last.Invariant config := by
  induction events generalizing world with
  | nil =>
      cases outcome
      exact invariant
  | cons event events ih =>
      obtain ⟨next, step_eq, outcome⟩ := bind_eq_ok.mp outcome
      exact ih (invariant.step step_eq) outcome

/-- The condition holds in every step of the run. -/
def Throughout (config : Config) (condition : World → Event → Prop) : World → List Event → Prop
  | _, [] => True
  | world, event :: events => condition world event ∧
      ∀ next, world.step config event = .ok next → Throughout config condition next events

/-- What every step keeps, under a condition on the step, holds at the end of a run. -/
theorem Invariant.run_keeps {P : World → Prop} {condition : World → Event → Prop}
    (keeps : ∀ world event next, world.Invariant config → P world → condition world event →
      world.step config event = .ok next → P next)
    (invariant : world.Invariant config) (holds : P world)
    (throughout : Throughout config condition world events)
    (outcome : World.run config world events = .ok last) : last.Invariant config ∧ P last := by
  induction events generalizing world with
  | nil =>
      cases outcome
      exact ⟨invariant, holds⟩
  | cons event events ih =>
      obtain ⟨next, step_eq, outcome⟩ := bind_eq_ok.mp outcome
      exact ih (invariant.step step_eq)
        (keeps world event next invariant holds throughout.1 step_eq)
        (throughout.2 next step_eq) outcome

/-! ### Conditions on a run that is evaluated -/

/-- A check succeeds in every step of the run. -/
def Checks (config : Config) (check : World → Event → Bool) : World → List Event → Bool
  | _, [] => true
  | world, event :: events => check world event &&
      match world.step config event with
      | .ok next => Checks config check next events
      | .error _ => true

/-- A condition holds where a check succeeds that is enough for it. -/
theorem Invariant.throughout_of_checks {condition : World → Event → Prop}
    {check : World → Event → Bool} (invariant : world.Invariant config)
    (enough : ∀ world event, world.Invariant config → check world event = true →
      condition world event)
    (checks : Checks config check world events = true) :
    Throughout config condition world events := by
  induction events generalizing world with
  | nil => trivial
  | cons event events ih =>
      rw [Checks, Bool.and_eq_true] at checks
      refine ⟨enough world event invariant checks.1, fun next step_eq => ?_⟩
      have later := checks.2
      rw [step_eq] at later
      exact ih (invariant.step step_eq) later

end Run

end World
end GnyProxy
