import GnyProxy.Lifetimes

/-!
# The invariant of the proxy

In every run the pairs that a client ever queued have messages of their own, each of them is with
one copier until its response is done, and a copier that is done has relayed its pair.
-/

namespace GnyProxy

open HttpMessage (Drains Extends InStep Onward)

/-! ## Clients -/

namespace Client

/-- The pairs that were ever queued. -/
def pairs (client : Client) : List (MessageId × MessageId) :=
  client.popped ++ client.linker.responseQueue

/-- Between two calls a request that is read is queued when it is connected, unless it makes a
tunnel. -/
structure Settled (client : Client) : Prop where
  tunnel : client.linker.tunneler = true → ∀ id, client.linker.readerMsg = some id →
    client.linker.connected = true
  unqueued : ∀ id, client.linker.readerMsg = some id → client.linker.connected = false →
    id ∉ messageIds client.pairs

/-- The request that is read is not finished. -/
def Unfinished (client : Client) : Prop :=
  ∀ id, client.linker.readerMsg = some id → (client.linker.messages id).state ≠ .done

variable {forwards : Prop} {client later : Client} {pairs : List (MessageId × MessageId)}
  {pair : MessageId × MessageId} {responses : List MessageId}

theorem pairs_stays (stays : client.Stays responses later) : later.pairs = client.pairs := by
  rw [Client.pairs, stays.popped, stays.responseQueue, Client.pairs]

theorem Settled.stays (settled : client.Settled) (stays : client.Stays responses later) :
    later.Settled where
  tunnel tunnel id reads := by
    rw [stays.tunneler] at tunnel
    rw [stays.readerMsg] at reads
    rw [stays.connected]
    exact settled.tunnel tunnel id reads
  unqueued id reads unconnected := by
    rw [stays.readerMsg] at reads
    rw [stays.connected] at unconnected
    rw [pairs_stays stays]
    exact settled.unqueued id reads unconnected

theorem Unfinished.stays (unfinished : client.Unfinished) (sound : client.Sound forwards pairs)
    (stays : client.Stays (pairs.map (·.2)) later) : later.Unfinished := by
  intro id reads
  rw [stays.readerMsg] at reads
  rw [stays.state id (sound.reading id reads).2.2]
  exact unfinished id reads

/-- A new pair, of messages that are in no other. -/
structure New (client : Client) (pairs : List (MessageId × MessageId))
    (pair : MessageId × MessageId) : Prop where
  request : pair.1 ∉ messageIds pairs
  response : pair.2 ∉ messageIds pairs
  apart : pair.1 ≠ pair.2
  below : pair.1 < client.linker.next ∧ pair.2 < client.linker.next
  unread : client.linker.readerMsg ≠ some pair.2

theorem Sound.extend (sound : client.Sound forwards pairs) (new : client.New pairs pair)
    (free : client.linker.tunneler = false ∨ ¬forwards) :
    client.Sound forwards (pairs ++ [pair]) where
  once := by
    rw [messageIds_append]
    refine List.Nodup.append sound.once (by simpa using new.apart) fun id old member => ?_
    have here : id = pair.1 ∨ id = pair.2 := by simpa using member
    rcases here with rfl | rfl
    · exact new.request old
    · exact new.response old
  below id member := by
    rw [messageIds_append] at member
    rcases List.mem_append.mp member with old | here
    · exact sound.below id old
    · have here : id = pair.1 ∨ id = pair.2 := by simpa using here
      rcases here with rfl | rfl
      · exact new.below.1
      · exact new.below.2
  first := sound.first
  reading id reads := by
    obtain ⟨below, inStep, apart⟩ := sound.reading id reads
    refine ⟨below, inStep, fun member => ?_⟩
    rw [List.map_append] at member
    rcases List.mem_append.mp member with old | here
    · exact apart old
    · rw [List.map_singleton, List.mem_singleton] at here
      exact new.unread (here ▸ reads)
  forwarded id member := by
    obtain ⟨tunnel, host, -⟩ := sound.forwarded id member
    rcases free with none | free
    · exact absurd (tunnel.symm.trans none) (by simp)
    · exact absurd host free

theorem WritesFirst.append {linker : ALinker} {queue : List (MessageId × MessageId)}
    (first : linker.WritesFirst queue) (more : List (MessageId × MessageId)) :
    linker.WritesFirst (queue ++ more) := by
  intro sink own writer
  obtain ⟨msgReq, rest, rfl⟩ := first sink own writer
  exact ⟨msgReq, rest ++ more, rfl⟩

end Client

/-! ## What a client does -/

section Own

variable {forwards : Prop} {pairs : ClientId → List (MessageId × MessageId)} {shared : Shared}
  {linked : ObjectId → Option (Linked MessageCopier Connector)} {finished : List MessageCopier}
  {id : ClientId} {client : Client} {pair : MessageId × MessageId}

theorem Working.setClient (working : Working forwards pairs shared linked finished)
    (request : ∀ pair ∈ pairs id,
      Onward (shared.message id pair.1) (client.linker.messages pair.1))
    (response : ∀ pair ∈ pairs id,
      Drains (shared.message id pair.2) (client.linker.messages pair.2))
    (tunneler : (shared.linker id).tunneler = true → client.linker.tunneler = true)
    (next : (shared.linker id).next ≤ client.linker.next)
    (sound : client.Sound forwards (pairs id)) :
    Working forwards pairs (shared.setClient id client) linked finished := by
  refine working.keeps ⟨?_, ?_, ?_, ?_⟩ (Shared.sound_setClient working.clients sound)
  · refine (Shared.forall_setClient (P := fun other client => ∀ pair ∈ pairs other,
      Onward (shared.message other pair.1) (client.linker.messages pair.1))).mpr ⟨request, ?_⟩
    exact fun _ _ pair _ => Onward.ofDrains (.refl _)
  · refine (Shared.forall_setClient (P := fun other client => ∀ pair ∈ pairs other,
      Drains (shared.message other pair.2) (client.linker.messages pair.2))).mpr ⟨response, ?_⟩
    exact fun _ _ pair _ => .refl _
  · exact (Shared.forall_setClient (P := fun other client =>
      (shared.linker other).tunneler = true → client.linker.tunneler = true)).mpr
      ⟨tunneler, fun _ _ tunnel => tunnel⟩
  · exact (Shared.forall_setClient (P := fun other client =>
      (shared.linker other).next ≤ client.linker.next)).mpr ⟨next, fun _ _ => le_rfl⟩

/-- Another pair comes up, which no object knows. -/
theorem Working.extend (working : Working forwards pairs shared linked finished)
    (new : (shared.clients id).New (pairs id) pair)
    (free : (shared.linker id).tunneler = false ∨ ¬forwards) :
    Working forwards (Function.update pairs id (pairs id ++ [pair])) shared linked finished := by
  have more (client : ClientId) {other : MessageId × MessageId} (member : other ∈ pairs client) :
      other ∈ Function.update pairs id (pairs id ++ [pair]) client := by
    by_cases same : client = id
    · subst same
      rw [Function.update_self]
      exact List.mem_append_left _ member
    · rwa [Function.update_of_ne same]
  refine ⟨fun client => ?_, fun oid object found => ?_, fun gen member => ?_⟩
  · by_cases same : client = id
    · subst same
      rw [Function.update_self]
      exact (working.clients client).extend new free
    · rw [Function.update_of_ne same]
      exact working.clients client
  · have fits := working.objects oid object found
    cases object with
    | reqLinker linker =>
        intro exchange busy
        obtain ⟨⟨pair, request, response⟩, going⟩ := fits exchange busy
        exact ⟨⟨more _ pair, request, response⟩, going⟩
    | connector connector =>
        have connecting : Connecting forwards pairs shared connector := fits
        refine show Connecting _ _ _ _ from ⟨connecting.tunneler, fun sink msg writer => ?_⟩
        obtain ⟨host, below, apart⟩ := connecting.message sink msg writer
        refine ⟨host, below, ?_⟩
        by_cases same : connector.conn.client = id
        · rcases free with none | free
          · have tunnel := connecting.tunneler
            rw [same, none] at tunnel
            cases tunnel
          · exact absurd host free
        · rwa [Function.update_of_ne same]
  · have relayed := working.relayed gen member
    exact ⟨more _ relayed.pair, relayed.request, relayed.response⟩

end Own

/-! ## The invariant -/

/-- The pairs of every client. -/
def Shared.pairs (shared : Shared) (id : ClientId) : List (MessageId × MessageId) :=
  (shared.clients id).pairs

/-- Upstream was asked for every pair whose response is not done, and for no other copier. -/
structure Tracked (pairs : ClientId → List (MessageId × MessageId)) (shared : Shared)
    (requester : Requester MessageCopier Connector) (accepted : List (Endpoint × MessageCopier)) :
    Prop where
  assigned : Requester.Assigned requester.Attached requester.Deleted accepted
  known : ∀ endpoint gen, (endpoint, gen) ∈ accepted → gen.pair ∈ pairs gen.client
  waiting : ∀ id, ∀ pair ∈ pairs id, (shared.message id pair.2).state ≠ .done →
    ∃ endpoint, (endpoint, ⟨id, pair.1, pair.2⟩) ∈ accepted

section Tracked

variable {pairs : ClientId → List (MessageId × MessageId)} {shared shared' : Shared}
  {requester requester' : Requester MessageCopier Connector}
  {accepted : List (Endpoint × MessageCopier)}

/-- A response that is not done was not done before. -/
theorem Tracked.stays (tracked : Tracked pairs shared requester accepted)
    (stays : shared.Stays pairs shared')
    (assigned : Requester.Assigned requester'.Attached requester'.Deleted accepted) :
    Tracked pairs shared' requester' accepted where
  assigned := assigned
  known := tracked.known
  waiting id pair member open_ := by
    refine tracked.waiting id pair member fun done => open_ ?_
    have later := (stays id).rank pair.2
    rw [show ((shared.clients id).linker.messages pair.2).state = .done from done] at later
    exact MessageState.rank_injective (le_antisymm (MessageState.rank_le_three _) later)

end Tracked

namespace World

/-- There is a proxy upstream. -/
def Config.Forwards (config : Config) : Prop := config.proxy.forwardHost ≠ none

/-- The pairs and the objects upstream. -/
structure Core (config : Config) (pairs : ClientId → List (MessageId × MessageId))
    (shared : Shared) (requester : Requester MessageCopier Connector) : Prop where
  pooled : Requester.Pooled config.requester requester
  tracked : ∃ accepted, Tracked pairs shared requester accepted
  working : Working config.Forwards pairs shared requester.linked requester.finished

/-- What every step keeps. -/
structure Invariant (config : Config) (world : World) : Prop extends
    Core config world.shared.pairs world.shared world.requester where
  settled : ∀ id, (world.shared.clients id).Settled

section Upstream

variable {config : Config} {world : World} {shared shared' : Shared}
  {requester requester' : Requester MessageCopier Connector} {id : ObjectId} {asked : Call}
  {answer : Answer} {pairs : ClientId → List (MessageId × MessageId)}
  {accepted : List (Endpoint × MessageCopier)}

theorem pairs_stays (stays : shared.Stays pairs shared') : shared'.pairs = shared.pairs :=
  funext fun id => Client.pairs_stays (stays id)

theorem Core.call (core : Core config pairs shared requester)
    (outcome : requester.call shared id asked = .ok (shared', requester', answer)) :
    Core config pairs shared' requester' ∧ shared.Served pairs shared' := by
  obtain ⟨accepted, tracked⟩ := core.tracked
  have served := core.working.served_call outcome
  have stays : shared.Stays pairs shared' := fun id => (served id).toStays
  refine ⟨⟨core.pooled.call outcome, ⟨accepted, ?_⟩, ?_⟩, served⟩
  · exact tracked.stays stays (tracked.assigned.call outcome)
  · exact core.working.callAny tracked.assigned outcome

theorem Core.close (core : Core config pairs shared requester) (id : ObjectId) :
    Core config pairs (requester.close shared id).1 (requester.close shared id).2 ∧
      shared.Stays pairs (requester.close shared id).1 := by
  obtain ⟨accepted, tracked⟩ := core.tracked
  have stays := Shared.stays_close shared requester id pairs
  refine ⟨⟨core.pooled.close shared id, ⟨accepted, ?_⟩, core.working.close id⟩, stays⟩
  exact tracked.stays stays (tracked.assigned.close shared id)

/-- The clients stay as they are where only objects upstream work. -/
theorem Invariant.stays (invariant : world.Invariant config)
    (core : Core config world.shared.pairs shared' requester')
    (stays : world.shared.Stays world.shared.pairs shared') :
    Invariant config ⟨shared', requester'⟩ := by
  refine ⟨?_, fun id => (invariant.settled id).stays (stays id)⟩
  rw [pairs_stays stays]
  exact core

theorem Invariant.call (invariant : world.Invariant config)
    (outcome : world.requester.call world.shared id asked = .ok (shared', requester', answer)) :
    Invariant config ⟨shared', requester'⟩ ∧ world.shared.Served world.shared.pairs shared' := by
  obtain ⟨core, served⟩ := invariant.toCore.call outcome
  exact ⟨invariant.stays core fun id => (served id).toStays, served⟩

theorem Invariant.close (invariant : world.Invariant config) (id : ObjectId) :
    Invariant config ⟨(world.requester.close world.shared id).1,
        (world.requester.close world.shared id).2⟩ ∧
      world.shared.Stays world.shared.pairs (world.requester.close world.shared id).1 := by
  obtain ⟨core, stays⟩ := invariant.toCore.close id
  exact ⟨invariant.stays core stays, stays⟩

end Upstream

/-! ### Writing to a client -/

section Writing

variable {config : Config} {world next : World} {id : ClientId} {client : Client}
  {shared : Shared} {requester : Requester MessageCopier Connector}
  {accepted : List (Endpoint × MessageCopier)}

theorem pairs_setClient : (shared.setClient id client).pairs =
    Function.update shared.pairs id client.pairs :=
  Function.comp_update Client.pairs shared.clients id client

theorem pairs_setClient_self (same : client.pairs = shared.pairs id) :
    (shared.setClient id client).pairs = shared.pairs := by
  rw [pairs_setClient, same, Function.update_eq_self]

/-- A client changes but for its pairs. -/
theorem Core.setClient {pairs : ClientId → List (MessageId × MessageId)}
    (core : Core config pairs shared requester)
    (request : ∀ pair ∈ pairs id,
      Onward (shared.message id pair.1) (client.linker.messages pair.1))
    (response : ∀ pair ∈ pairs id,
      Drains (shared.message id pair.2) (client.linker.messages pair.2))
    (tunneler : (shared.linker id).tunneler = true → client.linker.tunneler = true)
    (later : (shared.linker id).next ≤ client.linker.next)
    (sound : client.Sound config.Forwards (pairs id)) :
    Core config pairs (shared.setClient id client) requester := by
  obtain ⟨accepted, tracked⟩ := core.tracked
  refine ⟨core.pooled, ⟨accepted, tracked.assigned, tracked.known, ?_⟩,
    core.working.setClient request response tunneler later sound⟩
  intro other pair member open_
  refine tracked.waiting other pair member fun done => open_ ?_
  by_cases same : other = id
  · subst same
    have here : (shared.setClient other client).message other pair.2 =
        client.linker.messages pair.2 := by
      simp [Shared.message, Shared.linker]
    rw [here, (response pair member).state, done]
  · simpa [Shared.message, Shared.linker, Shared.clients_setClient_ne same] using done

theorem Invariant.setClient {requester' : Requester MessageCopier Connector}
    (settled : ∀ other, other ≠ id → (shared.clients other).Settled) (here : client.Settled)
    (core : Core config (Function.update shared.pairs id client.pairs)
      (shared.setClient id client) requester') :
    Invariant config ⟨shared.setClient id client, requester'⟩ := by
  refine ⟨?_, Shared.forall_setClient.mpr ⟨here, settled⟩⟩
  rw [pairs_setClient]
  exact core

/-- The pairs stay. -/
theorem Invariant.replace (settled : ∀ other, other ≠ id → (shared.clients other).Settled)
    (here : client.Settled) (pairs : client.pairs = shared.pairs id)
    (core : Core config shared.pairs (shared.setClient id client) requester) :
    Invariant config ⟨shared.setClient id client, requester⟩ := by
  refine .setClient settled here ?_
  rw [pairs, Function.update_eq_self]
  exact core

/-- Where a client is written to, its input is left alone. -/
theorem Invariant.sameInput {linker : ALinker} (invariant : world.Invariant config)
    (same : (world.shared.linker id).SameInput linker)
    (pairs : client.pairs = world.shared.pairs id) (linker_eq : client.linker = linker)
    (first : linker.WritesFirst linker.responseQueue)
    (forwarded : client.forwarded = (world.shared.clients id).forwarded) :
    Invariant config { world with shared := world.shared.setClient id client } := by
  subst linker_eq
  have readerMsg : client.linker.readerMsg = (world.shared.linker id).readerMsg := by
    rw [ALinker.readerMsg, same.reader, ALinker.readerMsg]
  have settled := invariant.settled id
  have sound := invariant.working.clients id
  have core : Core config world.shared.pairs (world.shared.setClient id client)
      world.requester := by
    refine invariant.toCore.setClient (fun pair _ => Onward.ofDrains (same.drains pair.1))
      (fun pair _ => same.drains pair.2) (fun tunnel => same.tunneler.trans tunnel) same.next.ge
      ⟨sound.once, fun msg member => ?_, first, fun msg reads => ?_, fun msg member => ?_⟩
    · rw [same.next]
      exact sound.below msg member
    · rw [readerMsg] at reads
      rw [same.next]
      obtain ⟨below, inStep, apart⟩ := sound.reading msg reads
      exact ⟨below, (Onward.ofDrains (same.drains msg)).inStep inStep, apart⟩
    · rw [forwarded] at member
      rw [same.next, same.tunneler]
      exact sound.forwarded msg member
  refine .replace (fun other _ => invariant.settled other)
    ⟨fun tunnel msg reads => ?_, fun msg reads unconnected => ?_⟩ pairs core
  · rw [same.tunneler] at tunnel
    rw [readerMsg] at reads
    rw [same.connected]
    exact settled.tunnel tunnel msg reads
  · rw [readerMsg] at reads
    rw [same.connected] at unconnected
    rw [pairs]
    exact settled.unqueued msg reads unconnected

/-- What `get_write_size` does to a client. -/
theorem Invariant.getWriteSize_cases (invariant : world.Invariant config)
    (outcome : world.getWriteSize config id = .ok next) :
    ∃ linker size popped, (world.shared.linker id).SameInput linker ∧
      linker.dataRes = (world.shared.linker id).dataRes ∧
      linker.WritesFirst linker.responseQueue ∧
      (0 < size → linker.writer.isSome ∨ linker.tunneler = true ∧ linker.responseQueue = []) ∧
      (world.shared.linker id).responseQueue = popped ++ linker.responseQueue ∧
      (∀ pair, pair ∈ popped ↔ (world.shared.linker id).Deletes config.proxy pair) ∧
      next = ⟨world.shared.setClient id { world.shared.clients id with
          linker := linker
          ready := 0 < size
          popped := (world.shared.clients id).popped ++ popped }, world.requester⟩ := by
  obtain ⟨⟨linker, size⟩, size_eq, outcome⟩ := bind_eq_ok.mp outcome
  cases outcome
  have sound := invariant.working.clients id
  have once : (messageIds (world.shared.linker id).responseQueue).Nodup := by
    have both := sound.once
    rw [Shared.pairs, Client.pairs, messageIds_append] at both
    exact both.of_append_right
  obtain ⟨same, dataRes, first, ready, popped, queue, before, behind⟩ :=
    ALinker.getWriteSizeFrom_spec sound.first once size_eq
  refine ⟨linker, size, popped, same, dataRes, first, ready, queue,
    fun pair => ALinker.mem_popped queue before behind, ?_⟩
  have gone : (world.shared.clients id).linker.responseQueue.take
      ((world.shared.clients id).linker.responseQueue.length - linker.responseQueue.length) =
        popped := by
    have lengths := congrArg List.length queue
    rw [List.length_append] at lengths
    rw [show (world.shared.clients id).linker.responseQueue = _ from queue, List.length_append,
      Nat.add_sub_cancel, List.take_left]
  simp only [gone]

theorem Invariant.getWriteSize (invariant : world.Invariant config)
    (outcome : world.getWriteSize config id = .ok next) : next.Invariant config := by
  obtain ⟨linker, size, popped, same, -, first, -, queue, -, rfl⟩ :=
    invariant.getWriteSize_cases outcome
  refine invariant.sameInput same ?_ rfl first rfl
  have before : (world.shared.clients id).linker.responseQueue = popped ++ linker.responseQueue :=
    queue
  simp [Client.pairs, Shared.pairs, before]

theorem Invariant.write {maxWrite amount : Nat} (invariant : world.Invariant config)
    (outcome : world.write id maxWrite amount = .ok next) : next.Invariant config := by
  unfold World.write at outcome
  simp only at outcome
  split at outcome
  · obtain ⟨⟨linker, sent⟩, write_eq, outcome⟩ := bind_eq_ok.mp outcome
    cases outcome
    obtain ⟨same, first, queue, -⟩ :=
      ALinker.write_spec (invariant.working.clients id).first write_eq
    refine invariant.sameInput same ?_ rfl (queue ▸ first) rfl
    simp [Client.pairs, Shared.pairs, queue]
  · cases outcome
    exact invariant

theorem Core.drains {pairs : ClientId → List (MessageId × MessageId)} {shared' : Shared}
    (core : Core config pairs shared requester) (drains : shared.Drains shared') :
    Core config pairs shared' requester := by
  obtain ⟨accepted, tracked⟩ := core.tracked
  have stays : shared.Stays pairs shared' := fun id => (drains.served pairs id).toStays
  exact ⟨core.pooled, ⟨accepted, tracked.stays stays tracked.assigned⟩,
    core.working.drains drains⟩

theorem Invariant.drains {shared' : Shared} (invariant : world.Invariant config)
    (drains : world.shared.Drains shared') :
    Invariant config { world with shared := shared' } :=
  invariant.stays (invariant.toCore.drains drains) fun id => (drains.served _ id).toStays

theorem Invariant.delete (invariant : world.Invariant config) (id : ClientId) :
    (world.delete id).Invariant config := by
  have gone : Invariant config { world with
      shared := world.shared.setClient id { world.shared.clients id with alive := false } } :=
    invariant.sameInput ⟨rfl, rfl, rfl, rfl, rfl, fun _ => .refl _⟩ rfl rfl
      (invariant.working.clients id).first rfl
  simp only [World.delete]
  split
  · exact gone.drains (Shared.drains_unlink _ _)
  · exact gone

end Writing

end World

end GnyProxy
