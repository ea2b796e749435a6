import GnyProxy.Cells
import GnyProxy.Custody
import GnyProxy.Encodings

/-!
# Tunnels

What an `ALinker` in tunnel mode and the `Tunnel` in a `Connector` have of each other's bytes: those
that were received on one side are those that were sent on the other, and those in a buffer between
them.  Before the bytes of the client a proxy upstream is sent the `CONNECT` message, and before
those for the client come the responses.
-/

namespace GnyProxy

open Transfer (Requesting EncodesRequest Begins requesting_handed)

/-! ## A client -/

namespace Client

/-- Before a request is connected all that has arrived of it is there. -/
def Unread (client : Client) : Prop :=
  client.linker.tunneler = false → client.linker.connected = false → ∀ source msg,
    client.linker.reader = some (source, msg) →
      client.linker.messages msg = client.trace.whole ∧ client.trace.whole.isRequest = true ∧
        (source.Past ∨ client.trace.whole.url = [])

/-- No tunnel was made. -/
structure Untunnelled (client : Client) : Prop where
  linkedCount : client.linkedCount = none
  dataReq : client.linker.dataReq = []
  received : client.trace.received = []
  upstream : client.trace.upstream = []
  fetched : client.trace.fetched = []

/-- The bytes for a client: first responses, and those of the tunnel when all of them are sent. -/
structure Flows (client : Client) : Prop where
  untunnelled : client.linker.tunneler = false → client.Untunnelled
  downstream : ∃ raw, client.trace.sent = client.trace.answered ++ raw ∧
    raw ++ client.linker.dataRes = client.trace.fetched ∧
      (raw ≠ [] → client.linker.tunneler = true ∧ client.linker.responseQueue = [])
  ready : client.ready = true → client.linker.writer.isSome = true ∨
    client.linker.tunneler = true ∧ client.linker.responseQueue = []

variable {client later : Client}

theorem Flows.fetched (flows : client.Flows) (tunnel : client.linker.tunneler = false) :
    client.trace.sent = client.trace.answered ∧ client.linker.dataRes = [] := by
  obtain ⟨raw, sent, fetched, -⟩ := flows.downstream
  rw [(flows.untunnelled tunnel).fetched, List.append_eq_nil_iff] at fetched
  exact ⟨by rw [sent, fetched.1, List.append_nil], fetched.2⟩

/-- Without a tunnel nothing of one is in the queue or in the writer. -/
theorem Flows.untouched (flows : client.Flows) (none : client.linker.tunneler = false)
    (linkedCount : later.linkedCount = client.linkedCount)
    (dataReq : later.linker.dataReq = client.linker.dataReq)
    (dataRes : later.linker.dataRes = client.linker.dataRes)
    (writer : later.linker.writer = client.linker.writer) (ready : later.ready = client.ready)
    (trace : later.trace = { client.trace with whole := later.trace.whole }) : later.Flows := by
  have before := flows.untunnelled none
  obtain ⟨sent, empty⟩ := flows.fetched none
  refine ⟨fun _ => ⟨linkedCount.trans before.linkedCount, dataReq.trans before.dataReq, ?_, ?_, ?_⟩,
    ⟨[], ?_, ?_, fun some => absurd rfl some⟩, fun positive => ?_⟩
  · rw [trace]
    exact before.received
  · rw [trace]
    exact before.upstream
  · rw [trace]
    exact before.fetched
  · rw [trace, List.append_nil]
    exact sent
  · rw [dataRes, empty, trace, List.append_nil]
    exact before.fetched.symm
  · rw [ready] at positive
    rw [writer]
    rcases flows.ready positive with some | ⟨tunnel, -⟩
    · exact Or.inl some
    · cases none.symm.trans tunnel

theorem Flows.tunneler (flows : client.Flows) {cell : CellId}
    (linked : client.linkedCount = some cell) : client.linker.tunneler = true := by
  cases tunnel : client.linker.tunneler with
  | true => rfl
  | false => cases (flows.untunnelled tunnel).linkedCount.symm.trans linked

/-- A request that is connected is read by another. -/
theorem unread_of_connected (connected : client.linker.connected = true) : client.Unread := by
  intro _ unconnected
  rw [connected] at unconnected
  cases unconnected

/-- What is read in a tunnel is no request. -/
theorem unread_of_tunneler (tunnel : client.linker.tunneler = true) : client.Unread := by
  intro off
  rw [tunnel] at off
  cases off

end Client

/-! ## A connector -/

/-- What a proxy upstream is sent of a `CONNECT` message; nothing is sent of it to any other
host. -/
structure World.Config.Conveys (config : World.Config) (request : HttpMessage) (encoding : Str) :
    Prop where
  forwards : config.Forwards →
    EncodesRequest config.requester.writer.writerCreator request encoding
  direct : ¬config.Forwards → encoding = []

namespace Connector

/-- What a connector has sent: the message is first, and the bytes of the client follow when it is
done. -/
structure Carries (config : World.Config) (client : Client) (connector : Connector) : Prop where
  conveyed : connector.writer = none → ∃ encoding, config.Conveys client.trace.whole encoding ∧
    client.trace.upstream ++ client.linker.dataReq = encoding ++ client.trace.received
  done : connector.writer = none → config.Forwards → ∀ msg,
    client.linker.readerMsg = some msg → (client.linker.messages msg).state = .done
  waits : ∀ sink msg, connector.writer = some (sink, msg) →
    client.linker.dataReq = client.trace.received
  writes : ∀ sink msg, connector.writer = some (sink, msg) → config.Forwards ∧
    ∃ first, Requesting config.requester.writer.writerCreator first
      ⟨client.linker.messages msg, sink, client.trace.whole, client.trace.upstream⟩
  reads : ∀ sink msg, connector.writer = some (sink, msg) → ∀ source own,
    client.linker.reader = some (source, own) → own = msg ∧ source.Past

variable {config : World.Config} {client later : Client} {connector connector' : Connector}

theorem Carries.moves (carries : connector.Carries config client)
    (moves : connector.Moves client later connector') : connector'.Carries config later := by
  cases moves with
  | stays => exact carries
  | @writes sink sink' msg message sent event writer call step_eq =>
      obtain ⟨forwards, first, requesting⟩ := carries.writes sink msg writer
      refine ⟨fun none => (nomatch none), fun none => (nomatch none), fun _ _ same => ?_,
        fun _ _ same => ?_, fun _ _ same => ?_⟩
      · cases same
        exact carries.waits sink msg writer
      · cases same
        refine ⟨forwards, first, ?_⟩
        have here : (client.linker.setMessage msg message).messages msg = message :=
          Function.update_self _ _ _
        rw [here]
        exact requesting.call call step_eq
      · cases same
        exact carries.reads sink msg writer
  | @forgets sink sink' msg message writer size_eq sent =>
      obtain ⟨forwards, first, requesting⟩ := carries.writes sink msg writer
      have encodes := requesting.encodes config.requester.writer.isFresh_writerCreator size_eq rfl
        sent
      refine ⟨fun _ => ⟨client.trace.upstream,
        ⟨fun _ => encodes, fun direct => absurd forwards direct⟩, ?_⟩,
        fun _ _ own reads => ?_, fun _ _ some => (nomatch some), fun _ _ some => (nomatch some),
        fun _ _ some => (nomatch some)⟩
      · exact congrArg _ (carries.waits sink msg writer)
      · obtain ⟨⟨source, _⟩, reader, same⟩ := Option.map_eq_some_iff.mp reads
        have here : own = msg := same.symm.trans (carries.reads sink msg writer source _ reader).1
        have message_eq : (client.linker.setMessage msg message).messages msg = message :=
          Function.update_self _ _ _
        rw [here, message_eq]
        exact ((HttpMessage.isSent_iff _).mp sent).1
  | sends amount none =>
      refine ⟨fun _ => ?_, carries.done, fun _ _ some => ?_, fun _ _ some => ?_,
        fun _ _ some => ?_⟩
      · obtain ⟨encoding, conveys, same⟩ := carries.conveyed none
        refine ⟨encoding, conveys, ?_⟩
        simpa [List.append_assoc] using same
      all_goals cases none.symm.trans some
  | receives rbuf =>
      exact ⟨carries.conveyed, carries.done, carries.waits, carries.writes, carries.reads⟩

theorem flows_moves (flows : client.Flows) (tunnel : client.linker.tunneler = true)
    (moves : connector.Moves client later connector') : later.Flows := by
  have tunnelled (tunneler : Bool) (same : tunneler = client.linker.tunneler)
      (none : tunneler = false) : later.Untunnelled := by
    cases none.symm.trans (same.trans tunnel)
  cases moves with
  | stays => exact flows
  | writes writer call step_eq => exact ⟨tunnelled _ rfl, flows.downstream, flows.ready⟩
  | forgets writer size_eq sent => exact ⟨tunnelled _ rfl, flows.downstream, flows.ready⟩
  | sends amount none => exact ⟨tunnelled _ rfl, flows.downstream, flows.ready⟩
  | receives rbuf =>
      refine ⟨tunnelled _ rfl, ?_, flows.ready⟩
      obtain ⟨raw, sent, fetched, behind⟩ := flows.downstream
      refine ⟨raw, sent, ?_, behind⟩
      rw [← fetched, List.append_assoc]

end Connector

/-! ## Clients and connectors -/

/-- What holds of the bytes of every tunnel. -/
structure Flowing (config : World.Config) (shared : Shared)
    (connectors : ObjectId → Option Connector) : Prop where
  counted : Counted shared connectors
  clients : ∀ id, (shared.clients id).Flows
  carries : ∀ object connector, connectors object = some connector →
    connector.Carries config (shared.clients connector.conn.client)

namespace Flowing

variable {config : World.Config} {shared shared' : Shared}
  {connectors connectors' : ObjectId → Option Connector} {connector : Connector}
  {pairs : ClientId → List (MessageId × MessageId)} {id : ClientId} {client : Client}
  {object : ObjectId}

theorem tunneler (flowing : Flowing config shared connectors)
    (found : connectors object = some connector) :
    (shared.linker connector.conn.client).tunneler = true :=
  (flowing.clients _).tunneler (flowing.counted.shares object connector found)

/-- Without a tunnel a client has no connector. -/
theorem no_connector (flowing : Flowing config shared connectors)
    (none : (shared.linker id).tunneler = false) (found : connectors object = some connector) :
    connector.conn.client ≠ id := by
  rintro rfl
  cases (flowing.tunneler found).symm.trans none

/-- A client changes by itself. -/
theorem setClient (flowing : Flowing config shared connectors)
    (alive : client.alive = (shared.clients id).alive)
    (linkedCount : client.linkedCount = (shared.clients id).linkedCount) (flows : client.Flows)
    (carries : ∀ object connector, connectors object = some connector →
      connector.conn.client = id → connector.Carries config client) :
    Flowing config (shared.setClient id client) connectors := by
  refine ⟨flowing.counted.setClient alive linkedCount,
    Shared.forall_setClient.mpr ⟨flows, fun other _ => flowing.clients other⟩,
    fun object connector found => ?_⟩
  by_cases here : connector.conn.client = id
  · rw [here, Shared.clients_setClient_self]
    exact carries object connector found here
  · rw [Shared.clients_setClient_ne here]
    exact flowing.carries object connector found

/-- Objects upstream work, when the messages of the connectors are in no pair. -/
theorem moves (flowing : Flowing config shared connectors)
    (apart : ∀ object connector, connectors object = some connector → ∀ sink msg,
      connector.writer = some (sink, msg) → msg ∉ messageIds (pairs connector.conn.client))
    (quiet : ∀ object connector, connectors object = some connector → connector.writer = none →
      config.Forwards → (shared.linker connector.conn.client).readerMsg = none)
    (moves : shared.Moves pairs connectors shared' connectors') :
    Flowing config shared' connectors' := by
  cases id moves with
  | stays => exact flowing
  | @serves id msg value member =>
      have flows := flowing.clients id
      refine flowing.setClient rfl rfl ⟨fun none => ?_, flows.downstream, flows.ready⟩
        fun object connector found here => ?_
      · obtain ⟨linkedCount, dataReq, received, upstream, fetched⟩ := flows.untunnelled none
        exact ⟨linkedCount, dataReq, received, upstream, fetched⟩
      · subst here
        have carries := flowing.carries object connector found
        refine ⟨carries.conveyed, fun idle forwards own reads => ?_, carries.waits,
          fun sink own writer => ?_, carries.reads⟩
        · cases (quiet object connector found idle forwards).symm.trans reads
        · have differs : own ≠ msg := fun same => apart object connector found sink own writer
            (same ▸ member)
          have same : ((shared.linker connector.conn.client).setMessage msg value).messages own =
              (shared.linker connector.conn.client).messages own :=
            Function.update_of_ne differs _ _
          rw [same]
          exact carries.writes sink own writer
  | @calls object connector connector' client found moved =>
      have counted := flowing.counted.moves moves
      refine ⟨counted, Shared.forall_setClient.mpr ⟨?_, fun other _ => flowing.clients other⟩,
        fun place connector₁ found₁ => ?_⟩
      · exact Connector.flows_moves (flowing.clients _) (flowing.tunneler found) moved
      · rcases of_update_some found₁ with ⟨-, rfl⟩ | ⟨here, found₁⟩
        · rw [moved.conn, Shared.clients_setClient_self]
          exact (flowing.carries object connector found).moves moved
        · have other : connector₁.conn.client ≠ connector.conn.client := fun same =>
            here (flowing.counted.alone place object connector₁ connector found₁ found same)
          rw [Shared.clients_setClient_ne other]
          exact flowing.carries place connector₁ found₁

/-- A message is no longer written. -/
theorem forget (flowing : Flowing config shared connectors) (id : ClientId) (msg : MessageId) :
    Flowing config (shared.forget id msg) connectors := by
  have flows := flowing.clients id
  refine flowing.setClient rfl rfl ⟨fun none => ?_, flows.downstream, flows.ready⟩
    fun object connector found here => ?_
  · obtain ⟨linkedCount, dataReq, received, upstream, fetched⟩ := flows.untunnelled none
    exact ⟨linkedCount, dataReq, received, upstream, fetched⟩
  · have carries := flowing.carries object connector found
    rw [here] at carries
    exact ⟨carries.conveyed, carries.done, carries.waits, carries.writes, carries.reads⟩

/-- A connector is gone, with its count. -/
theorem deleteConnector (flowing : Flowing config shared connectors)
    (found : connectors object = some connector) :
    Flowing config (shared.unlink connector.conn.linkedCount)
      (Function.update connectors object none) := by
  refine ⟨flowing.counted.deleteConnector found, fun other => ?_,
    fun place connector' found' => ?_⟩
  · rw [World.clients_unlink]
    exact flowing.clients other
  · rw [World.clients_unlink]
    exact flowing.carries place connector' (of_update_none found').2

/-- A connector is deleted. -/
theorem delete (flowing : Flowing config shared connectors)
    (found : connectors object = some connector) :
    Flowing config (connector.delete shared) (Function.update connectors object none) := by
  unfold Connector.delete
  cases connector.writer with
  | none => exact flowing.deleteConnector found
  | some own => exact (flowing.forget connector.conn.client own.2).deleteConnector found

/-- A socket is closed. -/
theorem close {requester : Requester MessageCopier Connector}
    (flowing : Flowing config shared (GnyProxy.connectors requester.linked)) (place : ObjectId) :
    Flowing config (requester.close shared place).1
      (GnyProxy.connectors (requester.close shared place).2.linked) := by
  rcases Requester.close_cases requester shared place with ⟨-, same⟩ | ⟨wrapper, -, same⟩
  · rw [same]
    exact flowing
  · rw [same]
    have start : Flowing config shared
        (GnyProxy.connectors (requester.unwrapped place wrapper.endpoint).linked) := flowing
    refine Requester.foldl_delete (P := fun (shared : Shared)
        (requester : Requester MessageCopier Connector) =>
      Flowing config shared (GnyProxy.connectors requester.linked))
      (fun requester shared object _ holds => ?_) start
    rw [(requester.delete_rest shared object).2.2.2, connectors_update_none]
    rcases requester.delete_state shared object with ⟨connector, here, deleted⟩ | ⟨other, deleted⟩
    · rw [deleted]
      exact holds.delete (connectors_eq_some.mpr here)
    · have none : GnyProxy.connectors requester.linked object = none :=
        Option.eq_none_iff_forall_ne_some.mpr fun connector found =>
          other connector (connectors_eq_some.mp found)
      rw [deleted, ← none, Function.update_eq_self]
      exact holds

end Flowing

/-! ## What a client does -/

namespace World

/-- What every step keeps of the tunnels. -/
structure Tunnels (config : Config) (world : World) : Prop where
  flowing : Flowing config world.shared (connectors world.requester.linked)
  unread : ∀ id, (world.shared.clients id).Unread

variable {config : Config} {world next last : World} {event : Event} {events : List Event}
  {id : ClientId} {client : Client} {object : ObjectId} {connector : Connector}

/-- The message of a connector is in no pair. -/
theorem Invariant.apart (invariant : world.Invariant config)
    (found : connectors world.requester.linked object = some connector) {sink : MessageSink}
    {msg : MessageId} (writer : connector.writer = some (sink, msg)) :
    msg ∉ messageIds (world.shared.pairs connector.conn.client) := by
  have connecting : Connecting config.Forwards world.shared.pairs world.shared connector :=
    invariant.working.objects object _ (connectors_eq_some.mp found)
  exact (connecting.message sink msg writer).2.2

/-- Behind its message nothing more is read. -/
theorem Tunnels.quiet (tunnels : world.Tunnels config)
    (unfinished : (world.shared.clients connector.conn.client).Unfinished)
    (found : connectors world.requester.linked object = some connector)
    (idle : connector.writer = none) (forwards : config.Forwards) :
    (world.shared.linker connector.conn.client).readerMsg = none := by
  refine Option.eq_none_iff_forall_ne_some.mpr fun msg reads => unfinished msg reads ?_
  exact (tunnels.flowing.carries object connector found).done idle forwards msg reads

/-- A message that is no response stays where it is when a client is written to. -/
theorem Tunnels.sameInput (tunnels : world.Tunnels config) (invariant : world.Invariant config)
    (unfinished : (world.shared.clients id).Unfinished)
    (same : (world.shared.linker id).SameInput client.linker)
    (messages : ∀ msg ∉ (world.shared.pairs id).map (·.2),
      client.linker.messages msg = (world.shared.linker id).messages msg)
    (alive : client.alive = (world.shared.clients id).alive)
    (linkedCount : client.linkedCount = (world.shared.clients id).linkedCount)
    (whole : client.trace.whole = (world.shared.clients id).trace.whole)
    (received : client.trace.received = (world.shared.clients id).trace.received)
    (upstream : client.trace.upstream = (world.shared.clients id).trace.upstream)
    (flows : client.Flows) :
    Tunnels config ⟨world.shared.setClient id client, world.requester⟩ := by
  have sound := invariant.working.clients id
  refine ⟨tunnels.flowing.setClient alive linkedCount flows fun object connector found here => ?_,
    Shared.forall_setClient.mpr ⟨?_, fun other _ => tunnels.unread other⟩⟩
  · subst here
    have carries := tunnels.flowing.carries object connector found
    refine ⟨fun idle => ?_, fun idle forwards msg reads => ?_, fun sink msg writer => ?_,
      fun sink msg writer => ?_, fun sink msg writer => ?_⟩
    · rw [whole, upstream, received, same.dataReq]
      exact carries.conveyed idle
    · rw [ALinker.readerMsg, same.reader] at reads
      cases (tunnels.quiet unfinished found idle forwards).symm.trans reads
    · rw [same.dataReq, received]
      exact carries.waits sink msg writer
    · have apart := invariant.apart found writer
      rw [messages msg fun member => apart (by
        obtain ⟨pair, inside, rfl⟩ := List.mem_map.mp member
        exact mem_messageIds.mpr ⟨pair, inside, Or.inr rfl⟩), whole, upstream]
      exact carries.writes sink msg writer
    · rw [same.reader]
      exact carries.reads sink msg writer
  · intro none unconnected source msg reads
    rw [same.tunneler] at none
    rw [same.connected] at unconnected
    rw [same.reader] at reads
    have reads' : (world.shared.linker id).readerMsg = some msg :=
      Option.map_eq_some_iff.mpr ⟨_, reads, rfl⟩
    rw [messages msg (sound.reading msg reads').2.2, whole]
    exact tunnels.unread id none unconnected source msg reads

theorem Invariant.messages_getWriteSize {msg : MessageId} (invariant : world.Invariant config)
    (apart : msg ∉ (world.shared.pairs id).map (·.2))
    (outcome : world.getWriteSize config id = .ok next) :
    (next.shared.linker id).messages msg = (world.shared.linker id).messages msg := by
  obtain ⟨⟨linker, size⟩, size_eq, outcome⟩ := bind_eq_ok.mp outcome
  cases outcome
  rw [Shared.linker, Shared.clients_setClient_self]
  refine ALinker.messages_getWriteSizeFrom (invariant.working.clients id).first
    (fun member => apart ?_) size_eq
  rw [Shared.pairs, Client.pairs, List.map_append]
  exact List.mem_append_right _ member

theorem Tunnels.getWriteSize (tunnels : world.Tunnels config) (invariant : world.Invariant config)
    (unfinished : (world.shared.clients id).Unfinished)
    (outcome : world.getWriteSize config id = .ok next) : next.Tunnels config := by
  have messages {msg : MessageId} (apart : msg ∉ (world.shared.pairs id).map (·.2)) :=
    invariant.messages_getWriteSize apart outcome
  obtain ⟨linker, size, popped, same, dataRes, -, ready, queue, -, rfl⟩ :=
    invariant.getWriteSize_cases outcome
  have flows := tunnels.flowing.clients id
  have behind (none : (world.shared.linker id).responseQueue = []) : linker.responseQueue = [] := by
    rw [none] at queue
    exact (List.append_eq_nil_iff.mp queue.symm).2
  refine tunnels.sameInput invariant unfinished same (fun msg apart => ?_) rfl rfl rfl rfl rfl
    ⟨fun none => ?_, ?_, fun positive => ready (of_decide_eq_true positive)⟩
  · have here := messages apart
    rwa [Shared.linker, Shared.clients_setClient_self] at here
  · obtain ⟨linkedCount, dataReq, received, upstream, fetched⟩ :=
      flows.untunnelled (same.tunneler.symm.trans none)
    exact ⟨linkedCount, same.dataReq.trans dataReq, received, upstream, fetched⟩
  · obtain ⟨raw, sent, fetched, done⟩ := flows.downstream
    refine ⟨raw, sent, ?_, fun some => ?_⟩
    · rw [← fetched, show linker.dataRes = _ from dataRes]
      rfl
    · exact ⟨same.tunneler.trans (done some).1, behind (done some).2⟩

theorem Tunnels.write {maxWrite amount : Nat} (tunnels : world.Tunnels config)
    (invariant : world.Invariant config) (unfinished : (world.shared.clients id).Unfinished)
    (outcome : world.write id maxWrite amount = .ok next) : next.Tunnels config := by
  unfold World.write at outcome
  simp only at outcome
  split at outcome
  · rename_i positive
    obtain ⟨⟨linker, sent⟩, write_eq, outcome⟩ := bind_eq_ok.mp outcome
    cases outcome
    have sound := invariant.working.clients id
    have flows := tunnels.flowing.clients id
    obtain ⟨same, first, queue, written⟩ := ALinker.write_spec sound.first write_eq
    obtain ⟨raw, sent_eq, fetched, done⟩ := flows.downstream
    refine tunnels.sameInput invariant unfinished same (fun msg apart => ?_) rfl rfl rfl rfl rfl
      ⟨fun none => ?_, ?_, fun _ => ?_⟩
    · refine ALinker.messages_write sound.first (fun member => apart ?_) write_eq
      rw [Shared.pairs, Client.pairs, List.map_append]
      exact List.mem_append_right _ member
    · obtain ⟨linkedCount, dataReq, received, upstream, fetched⟩ :=
        flows.untunnelled (same.tunneler.symm.trans none)
      exact ⟨linkedCount, same.dataReq.trans dataReq, received, upstream, fetched⟩
    · rcases written with ⟨writer, -, dataRes⟩ | ⟨writer, -, tunnel, dataRes⟩
      · -- a response comes before the bytes of the tunnel
        have empty : raw = [] := by
          by_contra some
          obtain ⟨own, writer_eq⟩ := Option.isSome_iff_exists.mp writer
          obtain ⟨msgReq, rest, queue_eq⟩ := sound.first own.1 own.2 writer_eq
          cases queue_eq.symm.trans (done some).2
        refine ⟨[], ?_, ?_, fun some => absurd rfl some⟩
        · rw [if_pos writer, sent_eq, empty, List.append_nil, List.append_nil]
        · rw [← fetched, empty, show linker.dataRes = _ from dataRes]
      · have here : (world.shared.clients id).linker.responseQueue = [] := by
          rcases flows.ready positive with some | ⟨-, here⟩
          · rw [writer] at some
            cases some
          · exact here
        refine ⟨raw ++ sent, ?_, ?_, fun _ => ⟨same.tunneler.trans tunnel, queue.trans here⟩⟩
        · rw [writer, sent_eq, List.append_assoc]
          simp
        · rw [← fetched, List.append_assoc, show sent ++ linker.dataRes = _ from dataRes]
    · rcases written with ⟨-, writer, -⟩ | ⟨writer, -, tunnel, -⟩
      · exact Or.inl writer
      · rcases flows.ready positive with some | ⟨-, here⟩
        · rw [writer] at some
          cases some
        · exact Or.inr ⟨same.tunneler.trans tunnel, queue.trans here⟩
  · cases outcome
    exact tunnels

/-- `~ALinker` leaves the bytes alone. -/
theorem Tunnels.delete (tunnels : world.Tunnels config)
    (alive : (world.shared.clients id).alive = true) : (world.delete id).Tunnels config := by
  have flows := tunnels.flowing.clients id
  have clients (other : ClientId) : ((world.delete id).shared.clients other).Flows ∧
      ((world.delete id).shared.clients other).Unread ∧ ∀ connector : Connector,
        connector.Carries config (world.shared.clients other) →
          connector.Carries config ((world.delete id).shared.clients other) := by
    have same : (world.delete id).shared.clients =
        (world.shared.setClient id { world.shared.clients id with alive := false }).clients := by
      unfold World.delete
      simp only
      split
      · exact clients_unlink
      · rfl
    rw [same]
    by_cases here : other = id
    · rw [here, Shared.clients_setClient_self]
      refine ⟨⟨fun none => ?_, flows.downstream, flows.ready⟩, tunnels.unread id,
        fun connector carries => ⟨carries.conveyed, carries.done, carries.waits, carries.writes,
          carries.reads⟩⟩
      obtain ⟨linkedCount, dataReq, received, upstream, fetched⟩ := flows.untunnelled none
      exact ⟨linkedCount, dataReq, received, upstream, fetched⟩
    · rw [Shared.clients_setClient_ne here]
      exact ⟨tunnels.flowing.clients other, tunnels.unread other, fun _ carries => carries⟩
  refine ⟨⟨?_, fun other => (clients other).1, fun object connector found =>
    (clients _).2.2 connector (tunnels.flowing.carries object connector found)⟩,
    fun other => (clients other).2.1⟩
  unfold World.delete
  simp only
  split
  · rename_i cell linked
    exact tunnels.flowing.counted.deleteClient alive linked
  · rename_i none
    exact tunnels.flowing.counted.deleteUnlinked none

/-! ### Objects upstream -/

/-- A request that is in no pair stays where it is. -/
theorem unread_moves {pairs : ClientId → List (MessageId × MessageId)} {shared shared' : Shared}
    {connectors connectors' : ObjectId → Option Connector}
    (flowing : Flowing config shared connectors)
    (unqueued : (shared.linker id).tunneler = false → (shared.linker id).connected = false → ∀ msg,
      (shared.linker id).readerMsg = some msg → msg ∉ messageIds (pairs id))
    (unread : (shared.clients id).Unread)
    (moves : shared.Moves pairs connectors shared' connectors') : (shared'.clients id).Unread := by
  cases moves with
  | stays => exact unread
  | @serves other msg value member =>
      by_cases here : id = other
      · subst here
        rw [Shared.setMessage, Shared.setLinker, Shared.clients_setClient_self]
        intro none unconnected source own reads
        have reads' : (shared.linker id).readerMsg = some own :=
          Option.map_eq_some_iff.mpr ⟨_, reads, rfl⟩
        have differs : own ≠ msg := fun same =>
          unqueued none unconnected own reads' (same ▸ member)
        have same : ((shared.linker id).setMessage msg value).messages own =
            (shared.linker id).messages own := Function.update_of_ne differs _ _
        rw [same]
        exact unread none unconnected source own reads
      · rw [Shared.setMessage, Shared.setLinker, Shared.clients_setClient_ne here]
        exact unread
  | @calls object connector connector' client found moved =>
      by_cases here : id = connector.conn.client
      · rw [here, Shared.clients_setClient_self]
        have tunnel : client.linker.tunneler = true := by
          have before := flowing.tunneler found
          cases moved <;> exact before
        intro none
        cases tunnel.symm.trans none
      · rw [Shared.clients_setClient_ne here]
        exact unread

theorem Tunnels.call {place : ObjectId} {asked : Call} {shared : Shared}
    {requester : Requester MessageCopier Connector} {answer : Answer}
    (tunnels : world.Tunnels config) (invariant : world.Invariant config)
    (unfinished : ∀ id, (world.shared.clients id).Unfinished)
    (outcome : world.requester.call world.shared place asked = .ok (shared, requester, answer)) :
    Tunnels config ⟨shared, requester⟩ := by
  have moves := invariant.working.moves_call outcome
  refine ⟨tunnels.flowing.moves (fun object connector found sink msg => invariant.apart found)
    (fun object connector found => tunnels.quiet (unfinished _) found) moves, fun id => ?_⟩
  exact unread_moves tunnels.flowing (fun _ unconnected msg reads =>
    (invariant.settled id).unqueued msg reads unconnected) (tunnels.unread id) moves

/-- A socket upstream is closed, and a client has what it had. -/
theorem client_close {shared : Shared} {requester : Requester MessageCopier Connector}
    (place : ObjectId) :
    ((requester.close shared place).1.clients id).linker = (shared.clients id).linker ∧
      ((requester.close shared place).1.clients id).trace = (shared.clients id).trace := by
  rcases Requester.close_cases requester shared place with ⟨-, same⟩ | ⟨wrapper, -, same⟩
  · rw [same]
    exact ⟨rfl, rfl⟩
  · rw [same]
    refine Requester.foldl_delete (P := fun (after : Shared)
        (_ : Requester MessageCopier Connector) =>
      (after.clients id).linker = (shared.clients id).linker ∧
        (after.clients id).trace = (shared.clients id).trace)
      (fun requester after object _ holds => ?_) ⟨rfl, rfl⟩
    rcases requester.delete_state after object with ⟨connector, -, deleted⟩ | ⟨-, deleted⟩
    · rw [deleted]
      change ((connector.delete after).clients id).linker = _ ∧
        ((connector.delete after).clients id).trace = _
      unfold Connector.delete
      rw [clients_unlink]
      cases connector.writer with
      | none => exact holds
      | some own =>
          by_cases here : id = connector.conn.client
          · subst here
            simpa [Shared.forget] using holds
          · simpa [Shared.forget, Shared.clients_setClient_ne here] using holds
    · rw [deleted]
      exact holds

theorem Tunnels.close (tunnels : world.Tunnels config) (place : ObjectId) :
    Tunnels config ⟨(world.requester.close world.shared place).1,
      (world.requester.close world.shared place).2⟩ := by
  refine ⟨tunnels.flowing.close place, fun id => ?_⟩
  obtain ⟨linker, trace⟩ := @client_close id world.shared world.requester place
  rw [Client.Unread, linker, trace]
  exact tunnels.unread id

/-! ### A request that is read -/

theorem follow_of_read {source source' : MessageSource} {whole next : HttpMessage} {rbuf : Str}
    {amount : Nat} (read_eq : source.read whole rbuf = .ok ((source', next), amount)) :
    follow source whole rbuf = next := by
  simp only [follow, read_eq]

section Receive

variable {source source' : MessageSource} {msgReq : MessageId} {msg : HttpMessage} {rbuf : Str}
  {amount : Nat}

/-- What the reader of a client leaves. -/
abbrev followed (client : Client) (source source' : MessageSource) (msgReq : MessageId)
    (msg : HttpMessage) (rbuf : Str) : Client :=
  received client source' msgReq msg
    { client.trace with whole := follow source client.trace.whole rbuf }

theorem messages_followed :
    (followed client source source' msgReq msg rbuf).linker.messages msgReq = msg :=
  Function.update_self _ _ _

theorem unread_followed (unread : client.Unread)
    (reader : client.linker.reader = some (source, msgReq))
    (read_eq : source.read (client.linker.messages msgReq) rbuf = .ok ((source', msg), amount)) :
    (followed client source source' msgReq msg rbuf).Unread := by
  intro none unconnected source₁ own same
  cases same
  obtain ⟨message_eq, request, line⟩ := unread none unconnected source _ reader
  rw [message_eq] at read_eq
  have whole_eq : follow source client.trace.whole rbuf = msg := follow_of_read read_eq
  obtain ⟨updates, -, filled, -⟩ := MessageSource.read_fills read_eq
  refine ⟨messages_followed.trans whole_eq.symm, ?_, ?_⟩
  · have kept : msg.isRequest = client.trace.whole.isRequest :=
      (HttpMessage.Extends.fill filled).isRequest
    exact (congrArg HttpMessage.isRequest whole_eq).trans (kept.trans request)
  · rcases line with past | empty
    · exact Or.inl (MessageSource.past_read past read_eq)
    · refine (MessageSource.read_url read_eq).imp_right fun same => ?_
      exact (congrArg HttpMessage.url whole_eq).trans (same.trans empty)

/-- The message of a connector goes on while it is written. -/
theorem carries_followed (carries : connector.Carries config client)
    (quiet : connector.writer = none → config.Forwards → client.linker.readerMsg = none)
    (reader : client.linker.reader = some (source, msgReq))
    (read_eq : source.read (client.linker.messages msgReq) rbuf = .ok ((source', msg), amount)) :
    connector.Carries config (followed client source source' msgReq msg rbuf) := by
  obtain ⟨updates, inSection, filled, others⟩ := MessageSource.read_fills read_eq
  have reads : client.linker.readerMsg = some msgReq :=
    Option.map_eq_some_iff.mpr ⟨_, reader, rfl⟩
  have reading {P : Prop} (idle : connector.writer = none) (forwards : config.Forwards) : P := by
    cases (quiet idle forwards).symm.trans reads
  refine ⟨fun idle => ?_, fun idle forwards => reading idle forwards, carries.waits,
    fun sink own writer => ?_, fun sink own writer source₁ own₁ same => ?_⟩
  · obtain ⟨encoding, conveys, same⟩ := carries.conveyed idle
    exact ⟨encoding, ⟨fun forwards => reading idle forwards, conveys.direct⟩, same⟩
  · obtain ⟨rfl, past⟩ := carries.reads sink own writer source msgReq reader
    obtain ⟨forwards, first, requesting⟩ := carries.writes sink _ writer
    have fresh := config.requester.writer.isFresh_writerCreator
    obtain ⟨progress, accounts, -⟩ := (requesting.kept fresh).1.account
    obtain ⟨whole, whole_filled, whole_eq⟩ := others client.trace.whole
      ⟨accounts.firstLine.1.symm, accounts.state.symm⟩
    obtain ⟨msg', filled', behind⟩ :=
      requesting.fill fresh (fun update member => inSection update member past) whole_filled
    obtain rfl := Except.ok.inj (filled.symm.trans filled')
    obtain rfl : follow source client.trace.whole rbuf = whole := follow_of_read whole_eq
    refine ⟨forwards, first, ?_⟩
    rw [messages_followed]
    exact behind
  · cases same
    obtain ⟨same, past⟩ := carries.reads sink own writer source _ reader
    exact ⟨same, MessageSource.past_read past read_eq⟩

theorem Tunnels.receive (tunnels : world.Tunnels config)
    (unfinished : (world.shared.clients id).Unfinished)
    (reader : (world.shared.linker id).reader = some (source, msgReq))
    (outcome : world.receive id source msgReq rbuf = .ok next) : next.Tunnels config := by
  obtain ⟨source', msg, amount, read_eq, rfl⟩ := receive_reads outcome
  have flows := tunnels.flowing.clients id
  refine ⟨tunnels.flowing.setClient rfl rfl ⟨fun none => ?_, flows.downstream, flows.ready⟩
    fun object connector found here => ?_, Shared.forall_setClient.mpr
      ⟨unread_followed (tunnels.unread id) reader read_eq, fun other _ => tunnels.unread other⟩⟩
  · obtain ⟨linkedCount, dataReq, received, upstream, fetched⟩ := flows.untunnelled none
    exact ⟨linkedCount, dataReq, received, upstream, fetched⟩
  · subst here
    exact carries_followed (tunnels.flowing.carries object connector found)
      (tunnels.quiet unfinished found) reader read_eq

end Receive

/-! ### A request is connected -/

section Connect

variable {msgReq : MessageId} {endpoint : Endpoint} {connects : Bool}

/-- The proxy answers a request itself. -/
theorem Tunnels.respond {response : HttpMessage} (tunnels : world.Tunnels config)
    (none : (world.shared.linker id).tunneler = false) :
    Tunnels config ⟨world.shared.setClient id
      (responded (world.shared.clients id) msgReq response true false), world.requester⟩ := by
  refine ⟨tunnels.flowing.setClient rfl rfl
    ((tunnels.flowing.clients id).untouched none rfl rfl rfl rfl rfl rfl)
    fun object connector found here => absurd here (tunnels.flowing.no_connector none found), ?_⟩
  exact Shared.forall_setClient.mpr
    ⟨Client.unread_of_connected rfl, fun other _ => tunnels.unread other⟩

theorem Tunnels.connectRequest (tunnels : world.Tunnels config) (invariant : world.Invariant config)
    (unfinished : ∀ other, other ≠ id → (world.shared.clients other).Unfinished)
    (reads : (world.shared.linker id).readerMsg = some msgReq)
    (unconnected : (world.shared.linker id).connected = false)
    (outcome : world.connectRequest config id msgReq endpoint connects = .ok next) :
    next.Tunnels config := by
  have none := invariant.no_tunnel reads unconnected
  rcases connectRequest_cases invariant.toCore outcome with
    ⟨shared, requester, added, rfl⟩ | ⟨response, done, rfl⟩
  · have unqueued := (invariant.settled id).unqueued msgReq reads unconnected
    obtain ⟨awaiting, new, request, response⟩ := invariant.toCore.awaiting reads unqueued
    have accepts (gen : MessageCopier) (same : gen = ⟨id, msgReq, (world.shared.linker id).next⟩) :
        Working config.Forwards (extended world.shared.pairs gen.client gen.pair)
            (world.shared.setClient id (awaited (world.shared.clients id)))
            world.requester.linked world.requester.finished ∧
          Carried (extended world.shared.pairs gen.client gen.pair)
            (world.shared.setClient id (awaited (world.shared.clients id)))
            (.create config.requester.reader config.requester.writer gen) := by
      subst same
      exact awaiting.accepts new (Or.inl (linker_awaited.trans none)) request response
    obtain ⟨working, carried⟩ := accepts _ rfl
    have moves := working.moves_addRequest invariant.pooled carried added
    have stays := (invariant.toCore.connectRequest reads unqueued none added).2.1 id
    rw [Shared.clients_setClient_self] at stays
    have still : (shared.linker id).tunneler = false := stays.tunneler.trans none
    have awaits : Flowing config (world.shared.setClient id (awaited (world.shared.clients id)))
        (connectors world.requester.linked) :=
      tunnels.flowing.setClient rfl rfl
        ((tunnels.flowing.clients id).untouched none rfl rfl rfl rfl rfl rfl)
        fun object connector found here => absurd here (tunnels.flowing.no_connector none found)
    have flowing := awaits.moves (fun object connector found sink msg writer => by
        rw [extended_ne (tunnels.flowing.no_connector none found)]
        exact invariant.apart found writer) (fun object connector found idle forwards => by
        have apart := tunnels.flowing.no_connector none found
        rw [Shared.linker, Shared.clients_setClient_ne apart]
        exact tunnels.quiet (unfinished _ apart) found idle forwards) moves
    refine ⟨flowing.setClient rfl rfl
      ((flowing.clients id).untouched still rfl rfl rfl rfl rfl rfl)
      fun object connector found here => absurd here (flowing.no_connector still found),
      Shared.forall_setClient.mpr ⟨Client.unread_of_connected rfl, fun other here => ?_⟩⟩
    refine unread_moves awaits (fun _ open_ msg current => ?_) ?_ moves
    · rw [extended_ne here]
      rw [Shared.linker, Shared.clients_setClient_ne here] at open_ current
      exact (invariant.settled other).unqueued msg current open_
    · rw [Shared.clients_setClient_ne here]
      exact tunnels.unread other
  · rw [none]
    exact tunnels.respond none

/-! ### A tunnel is connected -/

/-- What upstream does is not seen by the writer of a client. -/
theorem output_moves {pairs : ClientId → List (MessageId × MessageId)} {shared shared' : Shared}
    {connectors connectors' : ObjectId → Option Connector}
    (moves : shared.Moves pairs connectors shared' connectors') (id : ClientId) :
    (shared'.clients id).linker.writer = (shared.clients id).linker.writer ∧
      (shared'.clients id).ready = (shared.clients id).ready ∧
      (shared'.clients id).trace.sent = (shared.clients id).trace.sent ∧
      (shared'.clients id).trace.answered = (shared.clients id).trace.answered := by
  cases moves with
  | stays => exact ⟨rfl, rfl, rfl, rfl⟩
  | @serves other msg value member =>
      by_cases here : id = other
      · subst here
        rw [Shared.setMessage, Shared.setLinker, Shared.clients_setClient_self]
        exact ⟨rfl, rfl, rfl, rfl⟩
      · rw [Shared.setMessage, Shared.setLinker, Shared.clients_setClient_ne here]
        exact ⟨rfl, rfl, rfl, rfl⟩
  | @calls object connector connector' client found moved =>
      by_cases here : id = connector.conn.client
      · rw [here, Shared.clients_setClient_self]
        cases moved <;> exact ⟨rfl, rfl, rfl, rfl⟩
      · rw [Shared.clients_setClient_ne here]
        exact ⟨rfl, rfl, rfl, rfl⟩

/-- A new connector has nothing to send but its message. -/
theorem carries_new {shared : Shared} {source : MessageSource}
    (flows : (shared.clients id).Flows) (unread : (shared.clients id).Unread)
    (none : (shared.linker id).tunneler = false) (open_ : (shared.linker id).connected = false)
    (reader : (shared.linker id).reader = some (source, msgReq))
    (inStep : HttpMessage.InStep (shared.message id msgReq))
    (verb : (shared.message id msgReq).verb = verbConnect)
    (url : (shared.message id msgReq).url ≠ []) :
    (newConnector config shared id msgReq).Carries config
      (tunnelled (shared.clients id) shared.nextCell) := by
  obtain ⟨-, dataReq, received, upstream, -⟩ := flows.untunnelled none
  obtain ⟨whole, request, line⟩ := unread none open_ source msgReq reader
  have waits : (shared.linker id).dataReq = (shared.clients id).trace.received :=
    dataReq.trans received.symm
  refine ⟨fun direct => ⟨[], ⟨fun forwards => ?_, fun _ => rfl⟩, ?_⟩, fun direct forwards => ?_,
    fun sink msg writer => waits, fun sink msg writer => ⟨fun direct => ?_, ?_⟩,
    fun sink msg writer source₁ own same => ?_⟩
  · exact absurd (Option.map_eq_none_iff.mp direct) forwards
  · have sent : (shared.clients id).trace.upstream ++ (shared.linker id).dataReq =
        [] ++ (shared.clients id).trace.received := by
      rw [upstream, waits]
    exact sent
  · exact absurd (Option.map_eq_none_iff.mp direct) forwards
  · simp [newConnector, direct] at writer
  · obtain ⟨host, -, same⟩ := Option.map_eq_some_iff.mp writer
    cases same
    have fresh := config.requester.writer.isFresh_writerCreator
    have named : verbtoa (shared.message id msgReq).verb = some (ascii "CONNECT") := by
      rw [verb]
      decide
    have known : (shared.message id msgReq).verb ≠ verbUnknown := by
      rw [verb]
      decide
    obtain ⟨first, begins⟩ := MessageSink.firstLine_of_request config.requester.writer.writerCreator
      ((congrArg HttpMessage.isRequest whole).trans request) named known url
    have handed := requesting_handed fresh begins inStep
    refine ⟨first, ?_⟩
    have transfer : (⟨shared.message id msgReq, config.requester.writer.writerCreator,
        (shared.clients id).trace.whole, (shared.clients id).trace.upstream⟩ : Transfer) =
          Transfer.handed config.requester.writer.writerCreator (shared.message id msgReq) := by
      rw [upstream, ← whole]
      rfl
    exact transfer ▸ handed
  · obtain ⟨host, -, same'⟩ := Option.map_eq_some_iff.mp writer
    cases same'
    cases reader.symm.trans same
    refine ⟨rfl, line.resolve_right fun empty => url ?_⟩
    exact (congrArg HttpMessage.url whole).trans empty

/-- A connector that upstream takes, while the client has no other. -/
theorem Tunnels.opened {source : MessageSource} {shared : Shared}
    {requester : Requester MessageCopier Connector} (tunnels : world.Tunnels config)
    (invariant : world.Invariant config)
    (unfinished : ∀ other, other ≠ id → (world.shared.clients other).Unfinished)
    (alive : (world.shared.clients id).alive = true)
    (reader : (world.shared.linker id).reader = some (source, msgReq))
    (unconnected : (world.shared.linker id).connected = false)
    (verb : (world.shared.message id msgReq).verb = verbConnect)
    (url : (world.shared.message id msgReq).url ≠ [])
    (added : world.requester.addConnection config.requester (World.opened world.shared id) endpoint
      (newConnector config world.shared id msgReq) connects = .ok (shared, requester, true)) :
    Flowing config shared (connectors requester.linked) ∧
      (∀ other, other ≠ id → (shared.clients other).Unread) ∧
      (shared.linker id).tunneler = true ∧
      (shared.clients id).trace.sent = (shared.clients id).trace.answered ∧
      ((shared.clients id).ready = true → (shared.linker id).writer.isSome = true) := by
  have reads : (world.shared.linker id).readerMsg = some msgReq :=
    Option.map_eq_some_iff.mpr ⟨_, reader, rfl⟩
  have none := invariant.no_tunnel reads unconnected
  have unqueued := (invariant.settled id).unqueued msgReq reads unconnected
  have flows := tunnels.flowing.clients id
  have untunnelled := flows.untunnelled none
  have connecting := connecting_new (invariant.working.clients id)
    (fun forwards => forwards) reads unqueued
  obtain ⟨place, new, moves⟩ :=
    (invariant.toCore.opened id).working.moves_addConnection invariant.pooled connecting added
  have at_ {object : ObjectId} {connector : Connector}
      (found : Function.update (connectors world.requester.linked) place
        (some (newConnector config world.shared id msgReq)) object = some connector) :
      connector = newConnector config world.shared id msgReq ∨
        connector.conn.client ≠ id ∧ connectors world.requester.linked object = some connector := by
    rcases of_update_some found with ⟨-, rfl⟩ | ⟨-, found⟩
    · exact Or.inl rfl
    · exact Or.inr ⟨tunnels.flowing.no_connector none found, found⟩
  have begins : Flowing config (World.opened world.shared id)
      (Function.update (connectors world.requester.linked) place
        (some (newConnector config world.shared id msgReq))) := by
    refine ⟨tunnels.flowing.counted.openTunnel alive untunnelled.linkedCount new rfl,
      fun other => ?_, fun object connector found => ?_⟩
    · by_cases here : other = id
      · rw [here, clients_opened]
        refine ⟨fun off => (nomatch off), ?_, fun positive => ?_⟩
        · obtain ⟨raw, sent, fetched, done⟩ := flows.downstream
          exact ⟨raw, sent, fetched, fun some => ⟨rfl, (done some).2⟩⟩
        · exact (flows.ready positive).imp_right fun concluded => ⟨rfl, concluded.2⟩
      · rw [clients_opened_ne here]
        exact tunnels.flowing.clients other
    · rcases at_ found with rfl | ⟨apart, before⟩
      · rw [show (newConnector config world.shared id msgReq).conn.client = id from rfl,
          clients_opened]
        exact carries_new flows (tunnels.unread id) none unconnected reader
          ((invariant.working.clients id).reading msgReq reads).2.1 verb url
      · rw [clients_opened_ne apart]
        exact tunnels.flowing.carries object connector before
  have flowing := begins.moves (fun object connector found sink msg writer => by
      rcases at_ found with rfl | ⟨-, before⟩
      · obtain ⟨host, -, same⟩ := Option.map_eq_some_iff.mp writer
        cases same
        exact unqueued
      · exact invariant.apart before writer) (fun object connector found idle forwards => by
      rcases at_ found with rfl | ⟨apart, before⟩
      · exact absurd (Option.map_eq_none_iff.mp idle) forwards
      · rw [Shared.linker, clients_opened_ne apart]
        exact tunnels.quiet (unfinished _ apart) before idle forwards) moves
  have stays := ((invariant.toCore.opened id).addConnection connecting added).2.1 id
  obtain ⟨writer, ready, sent, answered⟩ := output_moves moves id
  rw [clients_opened] at stays writer ready sent answered
  refine ⟨flowing, fun other apart => ?_, stays.tunneler, ?_, fun positive => ?_⟩
  · refine unread_moves begins (fun _ open_ msg current => ?_) ?_ moves
    · rw [Shared.linker, clients_opened_ne apart] at open_ current
      exact (invariant.settled other).unqueued msg current open_
    · rw [clients_opened_ne apart]
      exact tunnels.unread other
  · rw [sent, answered]
    exact (flows.fetched none).1
  · rw [ready] at positive
    rw [Shared.linker, writer]
    exact (flows.ready positive).resolve_right fun concluded => by cases none.symm.trans concluded.1

theorem Tunnels.connectTunnel {source : MessageSource} (tunnels : world.Tunnels config)
    (invariant : world.Invariant config)
    (unfinished : ∀ other, other ≠ id → (world.shared.clients other).Unfinished)
    (alive : (world.shared.clients id).alive = true)
    (reader : (world.shared.linker id).reader = some (source, msgReq))
    (unconnected : (world.shared.linker id).connected = false)
    (verb : (world.shared.message id msgReq).verb = verbConnect)
    (url : (world.shared.message id msgReq).url ≠ [])
    (outcome : world.connectTunnel config id msgReq endpoint connects = .ok next) :
    next.Tunnels config := by
  have reads : (world.shared.linker id).readerMsg = some msgReq :=
    Option.map_eq_some_iff.mpr ⟨_, reader, rfl⟩
  have none := invariant.no_tunnel reads unconnected
  have flows := tunnels.flowing.clients id
  rcases connectTunnel_cases outcome with ⟨shared, requester, added, direct⟩ | ⟨response, done, rfl⟩
  · obtain ⟨flowing, unread, tunnel, sent, ready⟩ := tunnels.opened invariant unfinished alive
      reader unconnected verb url added
    have flows' := flowing.clients id
    rcases direct with ⟨host, response, response_eq, rfl⟩ | ⟨-, rfl⟩
    · have direct : ¬config.Forwards := fun forwards => forwards host
      refine ⟨flowing.setClient rfl rfl ⟨fun off => ?_, ?_, fun positive => Or.inl (ready positive)⟩
        fun object connector found here => ?_,
        Shared.forall_setClient.mpr ⟨Client.unread_of_connected rfl, unread⟩⟩
      · cases tunnel.symm.trans off
      · obtain ⟨raw, sent', fetched, -⟩ := flows'.downstream
        have empty : raw = [] := List.self_eq_append_right.mp (sent.symm.trans sent')
        subst empty
        exact ⟨[], sent', fetched, fun some => absurd rfl some⟩
      · subst here
        have carries := flowing.carries object connector found
        exact ⟨carries.conveyed, fun _ forwards => absurd forwards direct, carries.waits,
          fun sink msg writer => absurd (carries.writes sink msg writer).1 direct, carries.reads⟩
    · refine ⟨flowing.setClient rfl rfl ⟨fun off => ?_, flows'.downstream, flows'.ready⟩
        fun object connector found here => ?_,
        Shared.forall_setClient.mpr ⟨Client.unread_of_connected rfl, unread⟩⟩
      · cases tunnel.symm.trans off
      · subst here
        have carries := flowing.carries object connector found
        exact ⟨carries.conveyed, carries.done, carries.waits, carries.writes, carries.reads⟩
  · have clients (other : ClientId) (apart : other ≠ id) :
        ((((World.opened world.shared id).unlink world.shared.nextCell).release
          world.shared.nextCell).setClient id
            { responded (world.shared.clients id) msgReq response true false with
              linkedCount := Option.none }).clients other = world.shared.clients other := by
      rw [Shared.clients_setClient_ne apart, clients_release, clients_unlink,
        clients_opened_ne apart]
    have unlinked := (flows.untunnelled none).linkedCount
    refine ⟨⟨tunnels.flowing.counted.refuse unlinked rfl rfl, fun other => ?_,
      fun object connector found => ?_⟩, fun other => ?_⟩
    · by_cases here : other = id
      · rw [here, Shared.clients_setClient_self]
        exact flows.untouched none unlinked.symm rfl rfl rfl rfl rfl
      · rw [clients other here]
        exact tunnels.flowing.clients other
    · rw [clients _ (tunnels.flowing.no_connector none found)]
      exact tunnels.flowing.carries object connector found
    · refine (Shared.forall_setClient (P := fun _ client => client.Unread)).mpr
        ⟨Client.unread_of_connected rfl, fun other here => ?_⟩ other
      rw [clients_release, clients_unlink, clients_opened_ne here]
      exact tunnels.unread other

end Connect

theorem Tunnels.connect {source : MessageSource} {msgReq : MessageId} {connects : Bool}
    (tunnels : world.Tunnels config) (invariant : world.Invariant config)
    (unfinished : ∀ other, other ≠ id → (world.shared.clients other).Unfinished)
    (alive : (world.shared.clients id).alive = true)
    (reader : (world.shared.linker id).reader = some (source, msgReq))
    (outcome : world.connect config id msgReq connects = .ok next) : next.Tunnels config := by
  have reads : (world.shared.linker id).readerMsg = some msgReq :=
    Option.map_eq_some_iff.mpr ⟨_, reader, rfl⟩
  unfold World.connect at outcome
  simp only at outcome
  split at outcome
  · rename_i found
    obtain ⟨unconnected, -, url, -⟩ := found
    split at outcome
    · exact tunnels.connectRequest invariant unfinished reads unconnected outcome
    · rename_i verb
      exact tunnels.connectTunnel invariant unfinished alive reader unconnected
        (not_not.mp verb) url
        outcome
  · cases outcome
    exact tunnels

/-- Behind the end of a request in a tunnel nothing is read, and else the next one is new. -/
theorem Tunnels.finishRequest {msgReq : MessageId} (tunnels : world.Tunnels config)
    (invariant : world.Invariant config)
    (reads : (world.shared.linker id).readerMsg = some msgReq)
    (outcome : world.finishRequest config id msgReq = .ok next) : next.Tunnels config := by
  obtain ⟨linker, trace, rfl, trace_eq, further⟩ := finishRequest_cases outcome
  have flows := tunnels.flowing.clients id
  have known := ((invariant.working.clients id).reading msgReq reads).1
  have others (client : Client) (here : client.Unread) (other : ClientId) :
      ((world.shared.setClient id client).clients other).Unread :=
    Shared.forall_setClient.mpr ⟨here, fun other _ => tunnels.unread other⟩ other
  -- the next request begins, and the client has no tunnel
  have next_new (before : ALinker) (none : (world.shared.linker id).tunneler = false)
      (later : (world.shared.linker id).next ≤ before.next)
      (linker_eq : linker = ALinker.nextRequest config.proxy before)
      (flows : (finished (world.shared.clients id) linker trace).Flows) :
      Tunnels config ⟨world.shared.setClient id
        (finished (world.shared.clients id) linker trace), world.requester⟩ := by
    refine ⟨tunnels.flowing.setClient rfl rfl flows
      fun object connector found here => absurd here (tunnels.flowing.no_connector none found),
      others _ fun _ _ source own same => ?_⟩
    have reader : linker.reader = some (config.proxy.aReader.readerCreator, before.next) := by
      rw [linker_eq]
      rfl
    have fresh : linker.messages before.next = .fresh true := by
      rw [linker_eq]
      exact Function.update_self _ _ _
    have whole : trace.whole = .fresh true := by
      have differs : before.next ≠ msgReq := (known.trans_le later).ne'
      rw [trace_eq]
      simp [ALinker.readerMsg, reader, differs]
    obtain ⟨-, rfl⟩ : config.proxy.aReader.readerCreator = source ∧ before.next = own := by
      simpa using reader.symm.trans same
    refine ⟨fresh.trans whole.symm, ?_, Or.inr ?_⟩
    · exact congrArg HttpMessage.isRequest whole
    · exact congrArg HttpMessage.url whole
  rcases further with ⟨going, rfl⟩ | ⟨-, tunnel, rfl⟩ | ⟨-, none, linker_eq⟩ |
    ⟨unconnected, response, done, tunnel⟩
  · -- the request goes on
    have same : finished (world.shared.clients id) (world.shared.linker id) trace =
        world.shared.clients id := by
      rw [trace_eq, if_pos (Or.inl reads)]
      rfl
    rw [same]
    exact ⟨tunnels.flowing.setClient rfl rfl flows
      fun object connector found here => here ▸ tunnels.flowing.carries object connector found,
      others _ (tunnels.unread id)⟩
  · -- nothing more is read
    obtain rfl : trace = (world.shared.clients id).trace := by
      rw [trace_eq]
      simp
    refine ⟨tunnels.flowing.setClient rfl rfl ⟨fun off => ?_, flows.downstream, flows.ready⟩
      fun object connector found here => ?_, others _ fun off => ?_⟩
    · cases tunnel.symm.trans off
    · subst here
      have carries := tunnels.flowing.carries object connector found
      refine ⟨carries.conveyed, fun _ _ _ none => ?_, carries.waits, carries.writes,
        fun _ _ _ _ _ none => ?_⟩
      · cases none
      · cases none
    · cases tunnel.symm.trans off
  · subst linker_eq
    exact next_new _ none le_rfl rfl
      (flows.untouched none rfl rfl rfl rfl rfl (by rw [trace_eq]; rfl))
  · have none := invariant.no_tunnel reads unconnected
    obtain tunnel | linker_eq := tunnel
    · cases none.symm.trans tunnel
    · subst linker_eq
      exact next_new _ none (Nat.le_succ _) rfl
        (flows.untouched none rfl rfl rfl rfl rfl (by rw [trace_eq]; rfl))

/-! ## Every run -/

section Run

theorem Tunnels.read {rbuf : Str} {connects : Bool} (tunnels : world.Tunnels config)
    (invariant : world.Invariant config)
    (unfinished : ∀ id, (world.shared.clients id).Unfinished)
    (alive : (world.shared.clients id).alive = true)
    (outcome : world.read config id rbuf connects = .ok next) : next.Tunnels config := by
  rcases read_cases outcome with ⟨none, tunnel, rfl⟩ |
    ⟨source, msgReq, world₁, world₂, reader, receive_eq, connect_eq, finish_eq⟩
  · have flows := tunnels.flowing.clients id
    refine ⟨tunnels.flowing.setClient rfl rfl ⟨fun off => ?_, flows.downstream, flows.ready⟩
      fun object connector found here => ?_, Shared.forall_setClient.mpr
        ⟨Client.unread_of_tunneler tunnel, fun other _ => tunnels.unread other⟩⟩
    · cases tunnel.symm.trans off
    · subst here
      have carries := tunnels.flowing.carries object connector found
      refine ⟨fun idle => ?_, fun _ _ msg reads => ?_, fun sink msg writer => ?_, carries.writes,
        carries.reads⟩
      · obtain ⟨encoding, conveys, same⟩ := carries.conveyed idle
        refine ⟨encoding, conveys, ?_⟩
        have longer := congrArg (· ++ rbuf) same
        simpa [finished, Shared.linker] using longer
      · simp [finished, ALinker.readerMsg, none] at reads
      · exact congrArg (· ++ rbuf) (carries.waits sink msg writer)
  · have received := tunnels.receive (unfinished id) reader receive_eq
    obtain ⟨invariant₁, invariant₂, -, -, reads₂, -⟩ :=
      invariant.read_stages reader receive_eq connect_eq finish_eq
    have connected : world₂.Tunnels config := by
      obtain ⟨source', msg, amount, -, rfl⟩ := receive_reads receive_eq
      refine @Tunnels.connect _ _ _ id source' _ _ received invariant₁ (fun other apart => ?_) ?_ ?_
        connect_eq
      · rw [Shared.clients_setClient_ne apart]
        exact unfinished other
      · rw [Shared.clients_setClient_self]
        exact alive
      · rw [Shared.linker, Shared.clients_setClient_self]
        rfl
    exact connected.finishRequest invariant₂ reads₂ finish_eq

theorem Tunnels.step (tunnels : world.Tunnels config) (invariant : world.Invariant config)
    (unfinished : ∀ id, (world.shared.clients id).Unfinished)
    (outcome : world.step config event = .ok next) : next.Tunnels config := by
  rcases step_cases outcome with ⟨alive, outcome⟩ | rfl
  · cases event with
    | read id rbuf connects => exact tunnels.read invariant unfinished (alive id rfl) outcome
    | getWriteSize id => exact tunnels.getWriteSize invariant (unfinished id) outcome
    | write id maxWrite amount => exact tunnels.write invariant (unfinished id) outcome
    | delete id =>
        cases outcome
        exact tunnels.delete (alive id rfl)
    | call place asked =>
        obtain ⟨⟨shared, requester, answer⟩, called, outcome⟩ := bind_eq_ok.mp outcome
        cases outcome
        exact tunnels.call invariant unfinished called
    | close place =>
        cases outcome
        exact tunnels.close place
  · exact tunnels

/-- Between two steps no client reads a request that is finished. -/
theorem Invariant.unfinished_step (invariant : world.Invariant config)
    (unfinished : ∀ id, (world.shared.clients id).Unfinished)
    (outcome : world.step config event = .ok next) (id : ClientId) :
    (next.shared.clients id).Unfinished := by
  rcases invariant.step_effect outcome with continues | ⟨writes, rfl, -, outcome⟩ |
    ⟨other, rbuf, connects, source, msgReq, world₁, world₂, rfl, reader, receive_eq, connect_eq,
      finish_eq⟩ | ⟨place, rfl, rfl⟩
  · exact unfinished_tends (unfinished id) (continues.clients id)
  · obtain ⟨linker, size, popped, same, -, -, -, -, -, rfl⟩ := invariant.getWriteSize_cases outcome
    by_cases here : id = writes
    · subst here
      rw [Shared.clients_setClient_self]
      intro msg reads
      rw [ALinker.readerMsg, same.reader] at reads
      rw [(same.drains msg).state]
      exact unfinished id msg reads
    · rw [Shared.clients_setClient_ne here]
      exact unfinished id
  · obtain ⟨-, -, -, continues, -, client, finishes⟩ :=
      invariant.read_stages reader receive_eq connect_eq finish_eq
    obtain ⟨source', msg, trace, -, rfl⟩ := receive_cases receive_eq
    have tends := continues.clients id
    rw [finishes.next]
    by_cases here : id = other
    · subst here
      rw [Shared.clients_setClient_self]
      exact finishes.unfinished
    · rw [Shared.clients_setClient_ne here] at tends ⊢
      exact unfinished_tends (unfinished id) tends
  · exact (unfinished id).stays (invariant.working.clients id) ((invariant.close place).2 id)

theorem tunnels_start (config : Config) : (start config).Tunnels config := by
  have none (id : ClientId) : ((start config).shared.clients id).linkedCount = Option.none := rfl
  refine ⟨⟨⟨fun _ _ same => (nomatch same), fun _ _ _ same => (nomatch same),
    fun _ _ found => (nomatch found), fun _ _ _ _ found => (nomatch found),
    fun _ below => absurd below (Nat.not_lt_zero _), fun cell => ?_⟩, fun id => ?_,
    fun _ _ found => (nomatch found)⟩, fun id _ _ source msg same => ?_⟩
  · rw [if_neg (fun inside => absurd inside.1 (Nat.not_lt_zero _))]
    rfl
  · exact ⟨fun _ => ⟨rfl, rfl, rfl, rfl, rfl⟩, ⟨[], rfl, rfl, fun some => absurd rfl some⟩,
      fun positive => (nomatch positive)⟩
  · exact ⟨rfl, rfl, Or.inr rfl⟩

theorem tunnels_run (outcome : run config (start config) events = .ok last) :
    last.Invariant config ∧ last.Tunnels config := by
  have keeps (world : World) (event : Event) (next : World) (invariant : world.Invariant config)
      (holds : (∀ id, (world.shared.clients id).Unfinished) ∧ world.Tunnels config)
      (step_eq : world.step config event = .ok next) :
      (∀ id, (next.shared.clients id).Unfinished) ∧ next.Tunnels config :=
    ⟨fun id => invariant.unfinished_step holds.1 step_eq id, holds.2.step invariant holds.1 step_eq⟩
  have begins (id : ClientId) : ((start config).shared.clients id).Unfinished := by
    intro msg _
    rw [show ((start config).shared.clients id).linker.messages msg = .fresh true from rfl]
    simp [HttpMessage.fresh]
  have all (world : World) (events : List Event) :
      Throughout config (fun _ _ => True) world events := by
    induction events generalizing world with
    | nil => trivial
    | cons event events ih => exact ⟨trivial, fun next _ => ih next⟩
  obtain ⟨invariant, -, tunnels⟩ := Invariant.run_keeps
    (P := fun world => (∀ id, (world.shared.clients id).Unfinished) ∧ world.Tunnels config)
    (fun world event next invariant holds _ => keeps world event next invariant holds)
    (invariant_start config) ⟨begins, tunnels_start config⟩ (all _ events) outcome
  exact ⟨invariant, tunnels⟩

/-- The bytes from a client follow the message for a proxy upstream, and those that were not sent
are the rest of that message and what is in `data_req`. -/
structure SentUpward (config : Config) (client : Client) (connector : Connector) : Prop where
  bytes : ∃ encoding rest, config.Conveys { client.trace.whole with state := .done } encoding ∧
    client.trace.upstream ++ rest ++ client.linker.dataReq = encoding ++ client.trace.received ∧
    (rest ≠ [] → connector.writer ≠ none ∧ client.linker.dataReq = client.trace.received)
  whole : connector.writer = none → config.Forwards → client.trace.whole.state = .done

/-- The bytes from upstream follow the responses that were queued, and those that were not sent are
in `data_res`. -/
def SentDownward (client : Client) : Prop :=
  ∃ raw, client.trace.sent = client.trace.answered ++ raw ∧
    raw ++ client.linker.dataRes = client.trace.fetched ∧
    (raw ≠ [] → client.linker.responseQueue = [])

/-- A `linked_count` is deleted once, when it has no holder any more, and is there until then. -/
structure CountReleased (world : World) (cell : CellId) : Prop where
  once : world.shared.released.count cell ≤ 1
  released : world.shared.released.count cell = 1 ↔ cell < world.shared.nextCell ∧
    ¬HeldByClient world.shared cell ∧ ¬HeldByTunnel (connectors world.requester.linked) cell
  present : HeldByClient world.shared cell ∨
    HeldByTunnel (connectors world.requester.linked) cell → world.shared.cells cell ≠ none

theorem Tunnels.sentUpward (tunnels : world.Tunnels config)
    (found : connectors world.requester.linked object = some connector) :
    SentUpward config (world.shared.clients connector.conn.client) connector := by
  have carries := tunnels.flowing.carries object connector found
  have fresh := config.requester.writer.isFresh_writerCreator
  cases writer : connector.writer with
  | none =>
      obtain ⟨encoding, conveys, same⟩ := carries.conveyed writer
      have whole (forwards : config.Forwards) :
          (world.shared.clients connector.conn.client).trace.whole.state = .done := by
        obtain ⟨first, final, -, finished, whole_eq, -⟩ := conveys.forwards forwards
        rw [← whole_eq]
        exact finished.done
      refine ⟨⟨encoding, [], ⟨fun forwards => ?_, conveys.direct⟩, ?_, fun some => absurd rfl some⟩,
        fun _ => whole⟩
      · rw [← whole forwards]
        exact conveys.forwards forwards
      · rw [List.append_nil]
        exact same
  | some own =>
      obtain ⟨sink, msg⟩ := own
      obtain ⟨forwards, first, requesting⟩ := carries.writes sink msg writer
      obtain ⟨encoding, encodes, rest, longer⟩ := requesting.completes fresh
      have waits := carries.waits sink msg writer
      refine ⟨⟨encoding, rest, ⟨fun _ => encodes, fun direct => absurd forwards direct⟩, ?_,
        fun _ => ⟨fun none => (nomatch writer.symm.trans none), waits⟩⟩,
        fun none => (nomatch writer.symm.trans none)⟩
      rw [← longer, waits]

theorem Tunnels.countReleased (tunnels : world.Tunnels config) (cell : CellId) :
    world.CountReleased cell := by
  have tallies := tunnels.flowing.counted.tallies
  have below : HeldByClient world.shared cell ∨
      HeldByTunnel (connectors world.requester.linked) cell → cell < world.shared.nextCell := by
    rintro (⟨id, -, linked⟩ | ⟨object, connector, found, rfl⟩)
    · exact tunnels.flowing.counted.below id cell linked
    · exact tunnels.flowing.counted.below _ _
        (tunnels.flowing.counted.shares object connector found)
  have none_iff : holders world.shared (connectors world.requester.linked) cell = 0 ↔
      ¬HeldByClient world.shared cell ∧
        ¬HeldByTunnel (connectors world.requester.linked) cell := by
    simp [holders]
  refine ⟨?_, ?_, fun held => ?_⟩
  · rw [tallies.released cell]
    split <;> simp
  · rw [tallies.released cell, ← none_iff]
    simp
  · have some : holders world.shared (connectors world.requester.linked) cell ≠ 0 := by
      rw [ne_eq, none_iff, ← not_or]
      exact not_not.mpr held
    rw [tallies.held (below held) some]
    exact Option.some_ne_none _

/-- A `Tunnel` touches the buffers only while the `ALinker` is there, and never misses the count. -/
theorem Tunnels.tunnel_call (tunnels : world.Tunnels config)
    (found : connectors world.requester.linked object = some connector) (asked : Call) :
    connector.conn.call asked world.shared = .ok
      (if (world.shared.clients connector.conn.client).alive = true
        then connector.conn.carry asked world.shared else (world.shared, {})) := by
  have count := tunnels.flowing.counted.count_connector found
  rw [Tunnel.call, count]
  by_cases alive : (world.shared.clients connector.conn.client).alive = true
  · simp [alive]
  · simp [alive]

/-- Tunnels are transparent, and safely shut down. -/
structure Transparent (config : Config) (world : World) : Prop where
  upward : ∀ object connector, connectors world.requester.linked object = some connector →
    SentUpward config (world.shared.clients connector.conn.client) connector
  downward : ∀ id, SentDownward (world.shared.clients id)
  /-- Without its `ALinker` a `Tunnel` reads and writes nothing. -/
  guarded : ∀ object connector, connectors world.requester.linked object = some connector →
    ∀ asked, connector.conn.call asked world.shared = .ok
      (if (world.shared.clients connector.conn.client).alive = true
        then connector.conn.carry asked world.shared else (world.shared, {}))
  released : ∀ cell, world.CountReleased cell

theorem tunnels_transparent (config : Config) (events : List Event) (last : World)
    (outcome : run config (start config) events = .ok last) : last.Transparent config := by
  obtain ⟨-, tunnels⟩ := tunnels_run outcome
  refine ⟨fun object connector => tunnels.sentUpward, fun id => ?_,
    fun object connector => tunnels.tunnel_call, tunnels.countReleased⟩
  obtain ⟨raw, sent, fetched, done⟩ := (tunnels.flowing.clients id).downstream
  exact ⟨raw, sent, fetched, fun some => (done some).2⟩

/-- HTTP/1.1 to the client, and GNY to a proxy upstream. -/
def forwarding : Config :=
  ⟨⟨.v11, .v11, some (ascii "up"), ascii "80"⟩, ⟨.gny, .gny, false, 10, fun object => object⟩⟩

/-- A tunnel through which something goes in both directions, until its client is deleted. -/
def pingPong : List Event :=
  [.read 0 (ascii "CONNECT a:1 HTTP/1.1\r\n\r\n") true, .call 0 .getWriteSize,
    .call 0 (.write 100 100), .call 0 .getWriteSize, .read 0 (ascii "ping") true,
    .call 0 (.write 100 2), .call 0 (.read (ascii "pong")), .getWriteSize 0, .write 0 100 3,
    .delete 0]

theorem tunnels_transparent_pingPong : ∃ last,
    run forwarding (start forwarding) pingPong = .ok last ∧
      ((last.shared.clients 0).linker.dataReq = ascii "ng" ∧
        (last.shared.clients 0).linker.dataRes = ascii "g" ∧
        (last.shared.clients 0).alive = false) ∧ last.Transparent forwarding := by
  obtain ⟨last, outcome, bytes⟩ : ∃ last,
      run forwarding (start forwarding) pingPong = .ok last ∧
        (last.shared.clients 0).linker.dataReq = ascii "ng" ∧
          (last.shared.clients 0).linker.dataRes = ascii "g" ∧
          (last.shared.clients 0).alive = false := exists_run (by decide +kernel)
  exact ⟨last, outcome, bytes, tunnels_transparent forwarding pingPong last outcome⟩

end Run

end World

end GnyProxy
