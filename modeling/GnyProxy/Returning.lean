import GnyProxy.Reception

/-!
# Responses are returned in order

What a client was sent of responses are those of its pairs, one behind the other.  Of a pair behind
the first one in the queue nothing was sent.
-/

namespace GnyProxy

/-! ## What was sent of pairs -/

theorem flatten_map_nil {α β : Type} {parts : List α} {f : α → List β}
    (none : ∀ part ∈ parts, f part = []) : (parts.map f).flatten = [] := by
  refine List.flatten_eq_nil_iff.mpr fun bytes member => ?_
  obtain ⟨part, inside, rfl⟩ := List.mem_map.mp member
  exact none part inside

/-- No two pairs have the same response. -/
theorem nodup_responses {queue : List (MessageId × MessageId)} (once : (messageIds queue).Nodup) :
    (queue.map (·.2)).Nodup := by
  have shorter : (queue.map (·.2)).Sublist (messageIds queue) := by
    induction queue with
    | nil => exact .slnil
    | cons pair queue ih => exact .cons _ (.cons_cons _ (ih once.of_cons.of_cons))
  exact once.sublist shorter

/-- The bytes of responses that a client was sent are those of its pairs, in their order. -/
structure Client.Replied (client : Client) (transits : MessageId → Transit) : Prop where
  answered : client.trace.answered = (client.pairs.map fun pair => (transits pair.2).sent).flatten
  behind : ∀ pair ∈ client.pairs.drop (client.popped.length + 1), (transits pair.2).sent = []
  fresh : ∀ msg, client.linker.next ≤ msg → (transits msg).sent = []

namespace Client.Replied

variable {client later : Client} {transits transits' : MessageId → Transit}

/-- Pairs are deleted, or new ones are queued of which nothing was sent. -/
theorem grows (replied : client.Replied transits)
    (answered : later.trace.answered = client.trace.answered)
    (popped : client.popped.length ≤ later.popped.length)
    (next : client.linker.next ≤ later.linker.next)
    (pairs : ∃ more, later.pairs = client.pairs ++ more ∧
      ∀ pair ∈ more, client.linker.next ≤ pair.2)
    (sent : ∀ msg, msg ∈ client.pairs.map (·.2) ∨ client.linker.next ≤ msg →
      (transits' msg).sent = (transits msg).sent) : later.Replied transits' := by
  obtain ⟨more, pairs_eq, above⟩ := pairs
  have old : ∀ pair ∈ client.pairs, (transits' pair.2).sent = (transits pair.2).sent :=
    fun pair member => sent _ (Or.inl (List.mem_map_of_mem member))
  have new : ∀ pair ∈ more, (transits' pair.2).sent = [] := fun pair member =>
    (sent _ (Or.inr (above pair member))).trans (replied.fresh _ (above pair member))
  refine ⟨?_, fun pair member => ?_, fun msg high => ?_⟩
  · rw [answered, replied.answered, pairs_eq, List.map_append, List.flatten_append,
      flatten_map_nil new, List.append_nil, List.map_congr_left old]
  · rw [pairs_eq] at member
    have member' := List.drop_subset_drop_left _ (Nat.succ_le_succ popped) member
    rw [List.drop_append] at member'
    rcases List.mem_append.mp member' with inside | outside
    · exact (old pair (List.mem_of_mem_drop inside)).trans (replied.behind pair inside)
    · exact new pair (List.mem_of_mem_drop outside)
  · exact (sent msg (Or.inr (next.trans high))).trans (replied.fresh msg (next.trans high))

/-- The response of the first pair in the queue is written. -/
theorem writes (replied : client.Replied transits) (once : (messageIds client.pairs).Nodup)
    {msgReq own : MessageId} {rest : List (MessageId × MessageId)} {bytes : Str}
    (queue : client.linker.responseQueue = (msgReq, own) :: rest) (below : own < client.linker.next)
    (answered : later.trace.answered = client.trace.answered ++ bytes)
    (popped : later.popped = client.popped) (next : later.linker.next = client.linker.next)
    (pairs : later.pairs = client.pairs)
    (sent : (transits' own).sent = (transits own).sent ++ bytes)
    (others : ∀ msg, msg ≠ own → transits' msg = transits msg) : later.Replied transits' := by
  have pairs_eq : client.pairs = client.popped ++ (msgReq, own) :: rest := by
    rw [Client.pairs, queue]
  have behind_eq : client.pairs.drop (client.popped.length + 1) = rest := by
    rw [pairs_eq, List.drop_append, List.drop_eq_nil_of_le (Nat.le_succ _)]
    simp
  -- no other pair has the same response
  have apart (pair : MessageId × MessageId) (member : pair ∈ client.popped ∨ pair ∈ rest) :
      pair.2 ≠ own := by
    have responses := nodup_responses once
    rw [pairs_eq, List.map_append, List.map_cons, List.nodup_middle, List.nodup_cons] at responses
    intro same
    refine responses.1 (List.mem_append.mpr ?_)
    exact member.imp (fun front => List.mem_map.mpr ⟨pair, front, same⟩)
      fun back => List.mem_map.mpr ⟨pair, back, same⟩
  have waits : ∀ pair ∈ rest, (transits' pair.2).sent = [] := by
    intro pair member
    rw [others _ (apart pair (Or.inr member))]
    exact replied.behind pair (behind_eq ▸ member)
  refine ⟨?_, fun pair member => ?_, fun msg high => ?_⟩
  · have front : (client.popped.map fun pair => (transits' pair.2).sent) =
        client.popped.map fun pair => (transits pair.2).sent :=
      List.map_congr_left fun pair member => by rw [others _ (apart pair (Or.inl member))]
    have back := flatten_map_nil (behind_eq ▸ replied.behind)
    have back' := flatten_map_nil waits
    rw [answered, replied.answered, pairs, pairs_eq]
    simp [front, back, back', sent]
  · rw [pairs, popped, behind_eq] at member
    exact waits pair member
  · rw [next] at high
    rw [others _ (ne_of_gt (below.trans_le high))]
    exact replied.fresh msg high

end Client.Replied

/-! ## What is not sent to clients -/

/-- Nothing is sent to a client, and no pair is deleted. -/
structure Client.Silent (client later : Client) : Prop where
  answered : later.trace.answered = client.trace.answered
  popped : later.popped = client.popped

namespace Shared

/-- Nothing is sent to the clients. -/
def Silent (shared shared' : Shared) : Prop := ∀ id, (shared.clients id).Silent (shared'.clients id)

variable {shared shared' shared'' : Shared} {id : ClientId} {client : Client}

theorem Silent.refl (shared : Shared) : shared.Silent shared := fun _ => ⟨rfl, rfl⟩

theorem Silent.trans (first : shared.Silent shared') (second : shared'.Silent shared'') :
    shared.Silent shared'' := fun id =>
  ⟨(second id).answered.trans (first id).answered, (second id).popped.trans (first id).popped⟩

theorem silent_setClient (silent : (shared.clients id).Silent client) :
    shared.Silent (shared.setClient id client) := by
  intro other
  by_cases here : other = id
  · subst here
    rwa [clients_setClient_self]
  · rw [clients_setClient_ne here]
    exact ⟨rfl, rfl⟩

theorem Moves.silent {pairs : ClientId → List (MessageId × MessageId)}
    {connectors connectors' : ObjectId → Option Connector}
    (moves : shared.Moves pairs connectors shared' connectors') : shared.Silent shared' := by
  cases moves with
  | stays => exact .refl _
  | serves value member => exact silent_setClient ⟨rfl, rfl⟩
  | calls found moved =>
      refine silent_setClient ?_
      cases moved <;> exact ⟨rfl, rfl⟩

end Shared

namespace World

section Silent

variable {config : Config} {world next : World} {id : ClientId} {msgReq : MessageId}
  {endpoint : Endpoint} {connects : Bool} {source : MessageSource} {rbuf : Str}

theorem silent_close (world : World) (place : ObjectId) :
    world.shared.Silent (world.requester.close world.shared place).1 := by
  intro id
  have stays := Shared.stays_close world.shared world.requester place world.shared.pairs id
  exact ⟨congrArg Trace.answered (client_close place).2, stays.popped⟩

theorem silent_delete (world : World) (id : ClientId) :
    world.shared.Silent (world.delete id).shared := by
  have gone : world.shared.Silent (world.shared.setClient id
      { world.shared.clients id with alive := false }) := Shared.silent_setClient ⟨rfl, rfl⟩
  intro other
  have same : (world.delete id).shared.clients = (world.shared.setClient id
      { world.shared.clients id with alive := false }).clients := by
    unfold World.delete
    simp only
    split
    · exact clients_unlink
    · rfl
  rw [same]
  exact gone other

theorem silent_opened (shared : Shared) (id : ClientId) : shared.Silent (opened shared id) :=
  Shared.silent_setClient ⟨rfl, rfl⟩

theorem Invariant.silent_connectRequest (invariant : world.Invariant config)
    (reads : (world.shared.linker id).readerMsg = some msgReq)
    (unconnected : (world.shared.linker id).connected = false)
    (outcome : world.connectRequest config id msgReq endpoint connects = .ok next) :
    world.shared.Silent next.shared := by
  have none := invariant.no_tunnel reads unconnected
  have unqueued := (invariant.settled id).unqueued msgReq reads unconnected
  rcases connectRequest_cases invariant.toCore outcome with
    ⟨shared, requester, added, rfl⟩ | ⟨response, -, rfl⟩
  · obtain ⟨awaiting, new, request, response⟩ := invariant.toCore.awaiting reads unqueued
    obtain ⟨working, carried⟩ := @Core.accepts config world.shared.pairs _ world.requester
      ⟨id, msgReq, (world.shared.linker id).next⟩ awaiting new
      (Or.inl (linker_awaited.trans none)) request response
    have begins : world.shared.Silent
        (world.shared.setClient id (awaited (world.shared.clients id))) :=
      Shared.silent_setClient ⟨rfl, rfl⟩
    have moves := working.moves_addRequest awaiting.pooled carried added
    exact (begins.trans moves.silent).trans (Shared.silent_setClient ⟨rfl, rfl⟩)
  · exact Shared.silent_setClient ⟨rfl, rfl⟩

theorem Invariant.silent_connectTunnel (invariant : world.Invariant config)
    (reads : (world.shared.linker id).readerMsg = some msgReq)
    (unconnected : (world.shared.linker id).connected = false)
    (outcome : world.connectTunnel config id msgReq endpoint connects = .ok next) :
    world.shared.Silent next.shared := by
  have unqueued := (invariant.settled id).unqueued msgReq reads unconnected
  rcases connectTunnel_cases outcome with ⟨shared, requester, added, direct⟩ | ⟨response, done, rfl⟩
  · have connecting := connecting_new (invariant.working.clients id)
      (fun forwards => forwards) reads unqueued
    obtain ⟨place, -, moves⟩ :=
      (invariant.toCore.opened id).working.moves_addConnection invariant.pooled connecting added
    have begins := (silent_opened world.shared id).trans moves.silent
    rcases direct with ⟨-, response, -, rfl⟩ | ⟨-, rfl⟩
    · exact begins.trans (Shared.silent_setClient ⟨rfl, rfl⟩)
    · exact begins.trans (Shared.silent_setClient ⟨rfl, rfl⟩)
  · intro other
    by_cases here : other = id
    · subst here
      rw [Shared.clients_setClient_self]
      exact ⟨rfl, rfl⟩
    · rw [Shared.clients_setClient_ne here, clients_release, clients_unlink,
        clients_opened_ne here]
      exact ⟨rfl, rfl⟩

theorem Invariant.silent_connect (invariant : world.Invariant config)
    (reads : (world.shared.linker id).readerMsg = some msgReq)
    (outcome : world.connect config id msgReq connects = .ok next) :
    world.shared.Silent next.shared := by
  unfold World.connect at outcome
  simp only at outcome
  split at outcome
  · rename_i found
    split at outcome
    · exact invariant.silent_connectRequest reads found.1 outcome
    · exact invariant.silent_connectTunnel reads found.1 outcome
  · cases outcome
    exact .refl _

/-- A client that reads is sent nothing. -/
theorem Invariant.silent_read (invariant : world.Invariant config)
    (outcome : world.read config id rbuf connects = .ok next) :
    world.shared.Silent next.shared := by
  rcases read_cases outcome with
    ⟨none, -, rfl⟩ | ⟨source, msgReq, world₁, world₂, reader, receive_eq, connect_eq, finish_eq⟩
  · exact Shared.silent_setClient ⟨rfl, rfl⟩
  · obtain ⟨invariant₁, -⟩ := invariant.read_stages reader receive_eq connect_eq finish_eq
    have connected := invariant₁.silent_connect (readerMsg_receive receive_eq) connect_eq
    obtain ⟨source', msg, amount, -, rfl⟩ := receive_reads receive_eq
    obtain ⟨linker, trace, rfl, rfl, -⟩ := finishRequest_cases finish_eq
    have received : world.shared.Silent (world.shared.setClient id (followed
        (world.shared.clients id) source source' msgReq msg rbuf)) :=
      Shared.silent_setClient ⟨rfl, rfl⟩
    exact (received.trans connected).trans (Shared.silent_setClient ⟨rfl, rfl⟩)

/-- A new pair is queued behind the others, with a new message for the response. -/
structure Queues (id : ClientId) (shared shared' : Shared) : Prop where
  next : (shared.linker id).next ≤ (shared'.linker id).next
  pairs : ∃ more, shared'.pairs id = shared.pairs id ++ more ∧
    ∀ pair ∈ more, (shared.linker id).next ≤ pair.2

theorem Queues.trans {shared shared' shared'' : Shared} (first : Queues id shared shared')
    (second : Queues id shared' shared'') : Queues id shared shared'' := by
  obtain ⟨front, front_eq, above⟩ := first.pairs
  obtain ⟨back, back_eq, above'⟩ := second.pairs
  refine ⟨first.next.trans second.next, front ++ back, ?_, fun pair member => ?_⟩
  · rw [back_eq, front_eq, List.append_assoc]
  · rcases List.mem_append.mp member with here | there
    · exact above pair here
    · exact first.next.trans (above' pair there)

theorem queues_setClient {shared : Shared} {client : Client}
    (next : (shared.linker id).next ≤ client.linker.next) {more : List (MessageId × MessageId)}
    (pairs : client.pairs = shared.pairs id ++ more)
    (above : ∀ pair ∈ more, (shared.linker id).next ≤ pair.2) :
    Queues id shared (shared.setClient id client) := by
  refine ⟨?_, more, ?_, above⟩
  · change _ ≤ ((shared.setClient id client).clients id).linker.next
    rwa [Shared.clients_setClient_self]
  · change ((shared.setClient id client).clients id).pairs = _
    rwa [Shared.clients_setClient_self]

theorem queues_still {shared : Shared} {client : Client}
    (next : (shared.linker id).next ≤ client.linker.next)
    (pairs : client.pairs = shared.pairs id) : Queues id shared (shared.setClient id client) :=
  queues_setClient next (pairs.trans (List.append_nil _).symm) fun _ none => by cases none

theorem Links.queues {shared shared' : Shared} (links : Links id msgReq shared shared') :
    Queues id shared shared' := by
  rcases links.pairs with ⟨same, -⟩ | longer
  · exact ⟨links.next, [], same.trans (List.append_nil _).symm, fun _ none => by cases none⟩
  · exact ⟨links.next, _, longer, fun pair member => (List.mem_singleton.mp member).symm ▸ le_rfl⟩

theorem Invariant.queues_finishRequest (invariant : world.Invariant config)
    (reads : (world.shared.linker id).readerMsg = some msgReq)
    (outcome : world.finishRequest config id msgReq = .ok next) :
    Queues id world.shared next.shared := by
  obtain ⟨linker, trace, rfl, -, further⟩ := finishRequest_cases outcome
  rcases further with ⟨-, rfl⟩ | ⟨-, -, rfl⟩ | ⟨-, -, rfl⟩ | ⟨unconnected, response, -, tunnel⟩
  · exact queues_still le_rfl rfl
  · exact queues_still le_rfl rfl
  · exact queues_still (Nat.le_succ _) rfl
  · have none := invariant.no_tunnel reads unconnected
    obtain tunnel | rfl := tunnel
    · cases none.symm.trans tunnel
    exact queues_setClient ((Nat.le_succ _).trans (Nat.le_succ _)) (List.append_assoc _ _ _).symm
      fun pair member => (List.mem_singleton.mp member).symm ▸ le_rfl

/-- A request that is read is queued behind the others. -/
theorem Invariant.queues_read (invariant : world.Invariant config)
    (outcome : world.read config id rbuf connects = .ok next) :
    Queues id world.shared next.shared := by
  rcases read_cases outcome with
    ⟨none, -, rfl⟩ | ⟨source, msgReq, world₁, world₂, reader, receive_eq, connect_eq, finish_eq⟩
  · exact queues_still le_rfl rfl
  · obtain ⟨invariant₁, invariant₂, -⟩ :=
      invariant.read_stages reader receive_eq connect_eq finish_eq
    have reads₁ := readerMsg_receive receive_eq
    have received : Queues id world.shared world₁.shared := by
      obtain ⟨source', msg, amount, -, rfl⟩ := receive_reads receive_eq
      exact queues_still le_rfl rfl
    rcases (invariant₁.connect_links reads₁ connect_eq).1 with rfl | ⟨-, links⟩
    · exact received.trans (invariant₁.queues_finishRequest reads₁ finish_eq)
    · have reads₂ : (world₂.shared.linker id).readerMsg = some msgReq := by
        rw [ALinker.readerMsg, links.reader]
        exact reads₁
      exact (received.trans links.queues).trans (invariant₂.queues_finishRequest reads₂ finish_eq)

/-- Bytes of a response are sent, or the ledger stays as it is. -/
theorem write_returns {maxWrite amount : Nat} (ledger : Ledger)
    (outcome : world.write id maxWrite amount = .ok next) :
    world.shared.Silent next.shared ∧ ledger.record world (.write id maxWrite amount) = ledger ∨
      ∃ sink own bytes, (world.shared.linker id).writer = some (sink, own) ∧
        ledger.record world (.write id maxWrite amount) = ledger.send id own bytes ∧
        (next.shared.clients id).trace.answered =
          (world.shared.clients id).trace.answered ++ bytes ∧
        (next.shared.clients id).popped = (world.shared.clients id).popped ∧
        ∀ other, other ≠ id → next.shared.clients other = world.shared.clients other := by
  unfold World.write at outcome
  simp only at outcome
  split at outcome
  · rename_i ready
    obtain ⟨⟨linker, bytes⟩, write_eq, outcome⟩ := bind_eq_ok.mp outcome
    cases outcome
    cases writer : (world.shared.linker id).writer with
    | none =>
        -- the bytes of the tunnel
        have none : (world.shared.clients id).linker.writer.isSome = false := by
          rw [show (world.shared.clients id).linker.writer = none from writer]
          rfl
        refine Or.inl ⟨Shared.silent_setClient ⟨?_, rfl⟩, by simp [Ledger.record, ready, writer]⟩
        simp [none]
    | some sink_own =>
        obtain ⟨sink, own⟩ := sink_own
        have writer' : (world.shared.clients id).linker.writer = some (sink, own) := writer
        rw [ALinker.write, writer'] at write_eq
        obtain ⟨⟨⟨sink', msg⟩, sent⟩, written, same⟩ := bind_eq_ok.mp write_eq
        cases same
        have written' : sink.write (world.shared.message id own) maxWrite amount =
            .ok ((sink', msg), bytes) := written
        refine Or.inr ⟨sink, own, bytes, rfl, ?_, ?_, ?_, fun other differs =>
          Shared.clients_setClient_ne differs⟩
        · simp only [Ledger.record, ready, writer, written']
        · rw [Shared.clients_setClient_self]
          simp [writer']
        · rw [Shared.clients_setClient_self]
  · rename_i idle
    cases outcome
    exact Or.inl ⟨.refl _, by simp [Ledger.record, idle]⟩

end Silent

/-! ## Runs -/

section Run

variable {config : Config} {world next last : World} {ledger ledger' : Ledger} {id : ClientId}

/-- Reading adds nothing to what was sent. -/
theorem sent_give (ledger : Ledger) (id other : ClientId) (msg msg' : MessageId) (rbuf : Str) :
    (ledger.give id msg rbuf other msg').sent = (ledger other msg').sent := by
  by_cases same : other = id ∧ msg' = msg
  · obtain ⟨rfl, rfl⟩ := same
    simp [Ledger.give]
  · rw [Ledger.give, Ledger.setTransit_ne fun here own => same ⟨here, own⟩]

theorem sent_read (ledger : Ledger) (world : World) (id other : ClientId) (msg : MessageId)
    (rbuf : Str) (connects : Bool) :
    (ledger.record world (.read id rbuf connects) other msg).sent = (ledger other msg).sent := by
  cases reader : (world.shared.linker id).reader with
  | none => simp only [Ledger.record, reader]
  | some current =>
      simp only [Ledger.record, reader]
      exact sent_give ..

/-- Upstream sends requests, and no responses. -/
theorem Invariant.sent_recordCall (invariant : world.Invariant config) (ledger : Ledger)
    (place : ObjectId) (asked : Call) {msg : MessageId}
    (response : msg ∈ responseIds world.shared.pairs id ∨ (world.shared.linker id).next ≤ msg) :
    (ledger.recordCall world.requester place asked id msg).sent = (ledger id msg).sent := by
  have sound := invariant.working.clients id
  unfold Ledger.recordCall
  cases found : world.requester.exchangeAt place with
  | none => rfl
  | some exchange =>
      have carried : Carried world.shared.pairs world.shared exchange := by
        unfold Requester.exchangeAt at found
        split at found
        · rename_i linker here
          exact invariant.working.objects place _ here exchange found
        · cases found
      change (exchange.record ledger asked id msg).sent = (ledger id msg).sent
      cases asked with
      | getWriteSize => rfl
      | read rbuf => exact sent_give ..
      | write maxWrite amount =>
          cases written : exchange.writer.write exchange.outMsg maxWrite amount with
          | error fault => simp only [Exchange.record, written]
          | ok sent =>
              simp only [Exchange.record, written]
              rw [Ledger.send, Ledger.setTransit_ne]
              rintro rfl rfl
              rcases response with inside | above
              · obtain ⟨pair, member, same⟩ := List.mem_map.mp inside
                exact request_ne_response sound.once carried.pair member same.symm
              · exact absurd (sound.below _ (mem_messageIds.mpr ⟨_, carried.pair, Or.inl rfl⟩))
                  (not_lt.mpr above)

/-- What a client was sent of responses are those of its pairs. -/
def Returns (world : World) (ledger : Ledger) (id : ClientId) : Prop :=
  (world.shared.clients id).Replied (ledger id)

/-- The client is sent nothing. -/
theorem Returns.silent (returns : world.Returns ledger id)
    (silent : world.shared.Silent next.shared) (queues : Queues id world.shared next.shared)
    (sent : ∀ msg, msg ∈ responseIds world.shared.pairs id ∨ (world.shared.linker id).next ≤ msg →
      (ledger' id msg).sent = (ledger id msg).sent) :
    next.Returns ledger' id :=
  Client.Replied.grows returns (silent id).answered (congrArg List.length (silent id).popped).ge
    queues.next queues.pairs sent

theorem queues_unmoved {shared shared' : Shared}
    (unmoved : Unmoved id shared shared' ledger ledger') : Queues id shared shared' :=
  ⟨unmoved.next.ge, [], unmoved.pairs.trans (List.append_nil _).symm, fun _ none => by cases none⟩

/-- The first response in the queue is written. -/
theorem Returns.write {maxWrite amount : Nat} {other : ClientId}
    (returns : world.Returns ledger id) (invariant : world.Invariant config)
    (outcome : world.write other maxWrite amount = .ok next) :
    next.Returns (ledger.record world (.write other maxWrite amount)) id := by
  have unmoved := invariant.unmoved_write outcome id ledger
  have sound := invariant.working.clients id
  rcases write_returns ledger outcome with
    ⟨silent, same⟩ | ⟨sink, own, bytes, writer, same, answered, popped, others⟩
  · rw [same]
    exact returns.silent silent (queues_unmoved unmoved) fun _ _ => rfl
  · rw [same]
    by_cases here : id = other
    · subst here
      obtain ⟨msgReq, rest, queue⟩ := sound.first sink own writer
      have inside : (msgReq, own) ∈ world.shared.pairs id := by
        refine List.mem_append_right _ ?_
        rw [queue]
        exact List.mem_cons_self
      refine Client.Replied.writes returns sound.once queue
        (sound.below own (mem_messageIds.mpr ⟨_, inside, Or.inr rfl⟩)) answered popped unmoved.next
        unmoved.pairs ?_ fun msg differs => Ledger.setTransit_ne fun _ => differs
      simp [Ledger.send]
    · have still : ledger.send other own bytes id = ledger id :=
        Function.update_of_ne here _ _
      rw [Returns, still, others id here]
      exact returns

/-- Pairs at the front of the queue are deleted. -/
theorem Returns.getWriteSize {other : ClientId}
    (returns : world.Returns ledger id) (invariant : world.Invariant config)
    (outcome : world.getWriteSize config other = .ok next) :
    next.Returns ledger id := by
  have queues := queues_unmoved (invariant.unmoved_getWriteSize outcome id ledger)
  obtain ⟨linker, size, popped, -, -, -, -, -, -, rfl⟩ := invariant.getWriteSize_cases outcome
  by_cases here : id = other
  · subst here
    have later : (world.shared.setClient id { world.shared.clients id with
        linker := linker
        ready := 0 < size
        popped := (world.shared.clients id).popped ++ popped }).clients id =
      { world.shared.clients id with
        linker := linker
        ready := 0 < size
        popped := (world.shared.clients id).popped ++ popped } := Shared.clients_setClient_self
    refine Client.Replied.grows returns ?_ ?_ queues.next queues.pairs fun _ _ => rfl
    · rw [later]
    · rw [later]
      simp
  · rw [Returns, Shared.clients_setClient_ne here]
    exact returns

theorem Returns.act {event : Event} (returns : world.Returns ledger id)
    (invariant : world.Invariant config) (outcome : world.act config event = .ok next) :
    next.Returns (ledger.record world event) id := by
  cases event with
  | read other rbuf connects =>
      have sent (msg : MessageId) := sent_read ledger world other id msg rbuf connects
      by_cases here : id = other
      · subst here
        exact returns.silent (invariant.silent_read outcome) (invariant.queues_read outcome)
          fun msg _ => sent msg
      · exact returns.silent (invariant.silent_read outcome)
          (queues_unmoved (invariant.unmoved_read here ledger outcome)) fun msg _ => sent msg
  | getWriteSize other => exact returns.getWriteSize invariant outcome
  | write other maxWrite amount => exact returns.write invariant outcome
  | delete other =>
      cases outcome
      exact returns.silent (silent_delete world other)
        (queues_unmoved (unmoved_delete world other id ledger)) fun _ _ => rfl
  | call place asked =>
      obtain ⟨⟨shared, requester, answer⟩, called, outcome⟩ := bind_eq_ok.mp outcome
      cases outcome
      exact returns.silent (invariant.working.moves_call called).silent
        (queues_unmoved (invariant.unmoved_call called id ledger))
        fun msg response => invariant.sent_recordCall ledger place asked response
  | close place =>
      cases outcome
      exact returns.silent (silent_close world place)
        (queues_unmoved (unmoved_close world place id ledger)) fun _ _ => rfl

theorem returns_start (config : Config) (id : ClientId) :
    (start config).Returns (fun _ _ => {}) id :=
  ⟨rfl, fun _ none => (nomatch none), fun _ _ => rfl⟩

theorem Returns.run {events : List Event} (returns : world.Returns ledger id)
    (invariant : world.Invariant config) (outcome : World.run config world events = .ok last) :
    last.Returns (world.ledger config ledger events) id := by
  induction events generalizing world ledger with
  | nil =>
      cases outcome
      exact returns
  | cons event events ih =>
      obtain ⟨next, step_eq, outcome⟩ := bind_eq_ok.mp outcome
      have later : next.Returns (if ∀ id ∈ event.client, (world.shared.clients id).alive then
          ledger.record world event else ledger) id := by
        have acted := step_eq
        unfold World.step at acted
        split at acted
        · rename_i alive
          rw [if_pos alive]
          exact returns.act invariant acted
        · rename_i gone
          cases acted
          rw [if_neg gone]
          exact returns
      rw [World.ledger, step_eq]
      exact ih later (invariant.step step_eq) outcome

/-- In every run the bytes of responses that a client was sent are those of its pairs, one behind
the other in the order in which the requests were queued, and none are of a pair behind the first
one in the queue. -/
theorem answered_in_order (config : Config) (events : List Event) (last : World)
    (outcome : run config (start config) events = .ok last) (id : ClientId) :
    (last.shared.clients id).trace.answered =
        ((last.shared.pairs id).map fun pair => (transits config events id pair.2).sent).flatten ∧
      ∀ pair ∈ (last.shared.pairs id).drop ((last.shared.clients id).popped.length + 1),
        (transits config events id pair.2).sent = [] :=
  have returns := (returns_start config id).run (invariant_start config) outcome
  ⟨returns.answered, returns.behind⟩

/-- Upstream answers the second request before the first one. -/
def bothRequests : List Event :=
  [.read 0 getRequest true, .read 0 getRequest true,
    .call 2 .getWriteSize, .call 2 (.write 100 100), .call 2 (.read emptyResponse),
    .getWriteSize 0,
    .call 0 .getWriteSize, .call 0 (.write 100 100), .call 0 (.read emptyResponse),
    .getWriteSize 0, .write 0 100 100, .getWriteSize 0, .write 0 100 10]

/-- The client is sent the first response, and then the second one. -/
theorem answered_in_order_both : ∃ last, run plain (start plain) bothRequests = .ok last ∧
    (last.shared.clients 0).trace.answered = (transits plain bothRequests 0 1).sent ++
      (transits plain bothRequests 0 3).sent := by
  obtain ⟨last, outcome, pairs⟩ : ∃ last, run plain (start plain) bothRequests = .ok last ∧
      (last.shared.pairs 0) = [(0, 1), (2, 3)] := exists_run (by decide +kernel)
  have both := (answered_in_order plain bothRequests last outcome 0).1
  rw [pairs] at both
  exact ⟨last, outcome, by simpa using both⟩

end Run

end World
end GnyProxy
