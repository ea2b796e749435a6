import GnyProxy.Requests

/-!
# The count that a tunnel shares

What a call upstream does to the clients and the connectors, and who holds a `linked_count`: the
`ALinker` until it is deleted, and the `Tunnel` in a `Connector`.  The count is that of its holders,
and a cell without a holder was deleted, once.
-/

namespace GnyProxy

/-! ## Cells -/

namespace Shared

variable {shared : Shared} {holders holders' : CellId → Nat} {cell other : CellId}

/-- Every cell has as many holders as its count says; without one it was deleted once. -/
structure Tallies (shared : Shared) (holders : CellId → Nat) : Prop where
  count : ∀ cell < shared.nextCell, shared.cells cell =
    if holders cell = 0 then none else some (holders cell : Int)
  released : ∀ cell, shared.released.count cell =
    if cell < shared.nextCell ∧ holders cell = 0 then 1 else 0

theorem Tallies.congr (tallies : shared.Tallies holders)
    (same : ∀ cell < shared.nextCell, holders' cell = holders cell) :
    shared.Tallies holders' := by
  refine ⟨fun cell below => ?_, fun cell => ?_⟩
  · rw [same cell below]
    exact tallies.count cell below
  · rw [tallies.released cell]
    by_cases below : cell < shared.nextCell
    · rw [same cell below]
    · simp [below]

/-- The count is there for its holders. -/
theorem Tallies.held (tallies : shared.Tallies holders) (below : cell < shared.nextCell)
    (held : holders cell ≠ 0) : shared.cells cell = some (holders cell : Int) := by
  rw [tallies.count cell below, if_neg held]

theorem Tallies.newCell (tallies : shared.Tallies holders) :
    (shared.newCell 2).Tallies (Function.update holders shared.nextCell 2) := by
  refine ⟨fun cell below => ?_, fun cell => ?_⟩
  · by_cases new : cell = shared.nextCell
    · subst new
      simp [Shared.newCell]
    · have old : cell < shared.nextCell := lt_of_le_of_ne (Nat.lt_succ_iff.mp below) new
      simpa [Shared.newCell, Function.update_of_ne new] using tallies.count cell old
  · have before := tallies.released cell
    by_cases new : cell = shared.nextCell
    · subst new
      simpa [Shared.newCell] using before
    · have same : cell < shared.nextCell + 1 ↔ cell < shared.nextCell := by
        rw [Nat.lt_succ_iff_lt_or_eq]
        exact or_iff_left new
      simpa [Shared.newCell, Function.update_of_ne new, same] using before

theorem Tallies.release (tallies : shared.Tallies holders) (below : cell < shared.nextCell)
    (held : holders cell ≠ 0) :
    (shared.release cell).Tallies (Function.update holders cell 0) := by
  refine ⟨fun other inside => ?_, fun other => ?_⟩
  · by_cases same : other = cell
    · subst same
      simp [Shared.release]
    · simpa [Shared.release, Function.update_of_ne same] using tallies.count other inside
  · have before := tallies.released other
    by_cases same : other = cell
    · subst same
      rw [if_neg (by simp [held])] at before
      have inside : other < (shared.release other).nextCell ∧
          Function.update holders other 0 other = 0 := ⟨below, Function.update_self ..⟩
      rw [if_pos inside, Shared.release, List.count_append, before, List.count_singleton_self]
    · have apart : [cell].count other = 0 := List.count_eq_zero.mpr (by simpa using same)
      simpa [Shared.release, Function.update_of_ne same, List.count_append, apart] using before

/-- A holder goes, and the last one deletes the cell. -/
theorem Tallies.unlink (tallies : shared.Tallies holders) (below : cell < shared.nextCell)
    (held : holders cell ≠ 0) :
    (shared.unlink cell).Tallies (Function.update holders cell (holders cell - 1)) := by
  have count := tallies.held below held
  by_cases last : holders cell = 1
  · have unlinked : shared.unlink cell = shared.release cell := by
      simp [Shared.unlink, count, last]
    rw [unlinked, last]
    exact tallies.release below held
  · have unlinked : shared.unlink cell = { shared with
        cells := Function.update shared.cells cell (some ((holders cell : Int) - 1)) } := by
      have more : ¬((holders cell : Int) - 1 = 0) := by omega
      simp [Shared.unlink, count, more]
    rw [unlinked]
    refine ⟨fun other inside => ?_, fun other => ?_⟩
    · by_cases same : other = cell
      · subst same
        have left : holders other - 1 ≠ 0 := by omega
        have cast : ((holders other - 1 : Nat) : Int) = (holders other : Int) - 1 := by omega
        simp only [Function.update_self, if_neg left, cast]
      · simpa only [Function.update_of_ne same] using tallies.count other inside
    · have before := tallies.released other
      by_cases same : other = cell
      · subst same
        have left : holders other - 1 ≠ 0 := by omega
        simpa [held, left] using before
      · simpa only [Function.update_of_ne same] using before

@[simp] theorem nextCell_unlink (shared : Shared) (cell : CellId) :
    (shared.unlink cell).nextCell = shared.nextCell := by
  unfold Shared.unlink
  split
  · rfl
  · split <;> rfl

/-- The clients have no part in the counts. -/
theorem Tallies.setClient (tallies : shared.Tallies holders) (id : ClientId) (client : Client) :
    (shared.setClient id client).Tallies holders := ⟨tallies.count, tallies.released⟩

theorem unlink_setClient (shared : Shared) (id : ClientId) (client : Client) (cell : CellId) :
    (shared.setClient id client).unlink cell = (shared.unlink cell).setClient id client := by
  have cells : (shared.setClient id client).cells = shared.cells := rfl
  unfold Shared.unlink
  rw [cells]
  split
  · rfl
  · split <;> rfl

/-- `linked_count` is deleted where `add_connection` fails: the tunnel has counted down, and is not
the last. -/
theorem Tallies.refuse (tallies : shared.Tallies holders) :
    (((shared.newCell 2).unlink shared.nextCell).release shared.nextCell).Tallies
      (Function.update holders shared.nextCell 0) := by
  have opened := tallies.newCell
  have below : shared.nextCell < (shared.newCell 2).nextCell := Nat.lt_succ_self _
  have unlinked := opened.unlink below (by simp)
  have released := unlinked.release ((shared.newCell 2).nextCell_unlink _ ▸ below) (by simp)
  refine released.congr fun cell _ => ?_
  by_cases new : cell = shared.nextCell
  · subst new
    simp
  · simp [Function.update_of_ne new]

end Shared

/-! ## What a call upstream does -/

/-- The connectors among the objects upstream. -/
def connectors (linked : ObjectId → Option (Linked MessageCopier Connector)) (object : ObjectId) :
    Option Connector :=
  match linked object with
  | some (.connector connector) => some connector
  | _ => none

section Connectors

variable {linked : ObjectId → Option (Linked MessageCopier Connector)} {object : ObjectId}
  {connector : Connector} {linker : ReqLinker MessageCopier}

theorem connectors_eq_some :
    connectors linked object = some connector ↔ linked object = some (.connector connector) := by
  unfold connectors
  split
  · rename_i connector' found
    simp [found]
  · rename_i other
    constructor
    · intro none
      cases none
    · intro found
      exact absurd found (other connector)

theorem connectors_eq_none (found : linked object = some (.reqLinker linker)) :
    connectors linked object = none := by
  simp [connectors, found]

theorem connectors_update_none :
    connectors (Function.update linked object none) =
      Function.update (connectors linked) object none := by
  funext other
  by_cases same : other = object
  · subst same
    simp [connectors]
  · simp [connectors, Function.update_of_ne same]

theorem connectors_update_connector :
    connectors (Function.update linked object (some (.connector connector))) =
      Function.update (connectors linked) object (some connector) := by
  funext other
  by_cases same : other = object
  · subst same
    simp [connectors]
  · simp [connectors, Function.update_of_ne same]

theorem connectors_update_reqLinker (none : connectors linked object = none) :
    connectors (Function.update linked object (some (.reqLinker linker))) = connectors linked := by
  funext other
  by_cases same : other = object
  · subst same
    rw [none]
    simp [connectors]
  · simp [connectors, Function.update_of_ne same]

end Connectors

/-- What a call of a connector does to it and to its client: the writer of the message is called,
and perhaps is done; or bytes of the tunnel are sent or received. -/
inductive Connector.Moves (client : Client) (connector : Connector) : Client → Connector → Prop
  | stays : Moves client connector client connector
  | writes {sink sink' : MessageSink} {msg : MessageId} {message : HttpMessage} {sent : Str}
      {event : Event} (writer : connector.writer = some (sink, msg))
      (call : ∀ update, event ≠ .update update)
      (step_eq : Transfer.step
        ⟨client.linker.messages msg, sink, client.trace.whole, client.trace.upstream⟩ event =
          .ok ⟨message, sink', client.trace.whole, client.trace.upstream ++ sent⟩) :
      Moves client connector
        { client with
          linker := client.linker.setMessage msg message
          trace := { client.trace with upstream := client.trace.upstream ++ sent } }
        { connector with writer := some (sink', msg) }
  | forgets {sink sink' : MessageSink} {msg : MessageId} {message : HttpMessage}
      (writer : connector.writer = some (sink, msg))
      (size_eq : sink.getWriteSize (client.linker.messages msg) = .ok ((sink', message), 0))
      (sent : message.isSent = true) :
      Moves client connector
        { client with
          linker := client.linker.setMessage msg message
          forwarded := client.forwarded ++ [msg] }
        { connector with writer := none }
  | sends (amount : Nat) (none : connector.writer = none) :
      Moves client connector
        { client with
          linker := { client.linker with dataReq := client.linker.dataReq.drop amount }
          trace := { client.trace with
            upstream := client.trace.upstream ++ client.linker.dataReq.take amount } }
        connector
  | receives (rbuf : Str) :
      Moves client connector
        { client with
          linker := { client.linker with dataRes := client.linker.dataRes ++ rbuf }
          trace := { client.trace with fetched := client.trace.fetched ++ rbuf } }
        connector

namespace Connector

variable {shared shared' : Shared} {connector connector' : Connector} {asked : Call}
  {answer : Answer} {client client' : Client}

theorem Moves.conn (moves : connector.Moves client client' connector') :
    connector'.conn = connector.conn := by
  cases moves <;> rfl

/-- A tunnel is asked for its size, sends what it is given, or receives. -/
theorem tunnel_moves (outcome : connector.conn.call asked shared = .ok (shared', answer))
    (writes : ∀ maxWrite amount, asked = .write maxWrite amount → connector.writer = none) :
    ∃ client', shared' = shared.setClient connector.conn.client client' ∧
      connector.Moves (shared.clients connector.conn.client) client' connector := by
  have stays : ∃ client', shared = shared.setClient connector.conn.client client' ∧
      connector.Moves (shared.clients connector.conn.client) client' connector :=
    ⟨_, by simp [Shared.setClient], .stays⟩
  unfold Tunnel.call at outcome
  split at outcome
  · cases outcome
  · split at outcome
    · cases outcome
      exact stays
    · split at outcome
      · cases asked with
        | getWriteSize =>
            cases outcome
            exact stays
        | write maxWrite amount =>
            cases outcome
            exact ⟨_, World.setTrace_setLinker, .sends _ (writes maxWrite amount rfl)⟩
        | read rbuf =>
            cases outcome
            exact ⟨_, World.setTrace_setLinker, .receives rbuf⟩
      · cases outcome

theorem tunnel_getWriteSize
    (outcome : connector.conn.call .getWriteSize shared = .ok (shared', answer)) :
    shared' = shared := by
  unfold Tunnel.call at outcome
  split at outcome
  · cases outcome
  · split at outcome
    · cases outcome
      rfl
    · split at outcome
      · cases outcome
        rfl
      · cases outcome

theorem call_moves (outcome : connector.call asked shared = .ok (shared', connector', answer)) :
    ∃ client', shared' = shared.setClient connector.conn.client client' ∧
      connector.Moves (shared.clients connector.conn.client) client' connector' := by
  unfold Connector.call at outcome
  split at outcome
  · rename_i sink id writer
    obtain ⟨⟨⟨sink', msg⟩, amt⟩, size_eq, further⟩ := bind_eq_ok.mp outcome
    simp only at further
    split at further
    · rename_i concluded
      obtain ⟨rfl, sent⟩ := concluded
      obtain ⟨⟨after, answer₁⟩, called, same⟩ := bind_eq_ok.mp further
      cases same
      rw [tunnel_getWriteSize called]
      refine ⟨_, ?_, .forgets writer size_eq sent⟩
      simp [Shared.forget, Shared.setMessage, Shared.setLinker, Shared.setClient, Shared.linker]
    · cases further
      have step_eq : Transfer.step
          ⟨shared.message connector.conn.client id, sink,
            (shared.clients connector.conn.client).trace.whole,
            (shared.clients connector.conn.client).trace.upstream⟩ .getWriteSize =
          .ok ⟨msg, sink', (shared.clients connector.conn.client).trace.whole,
            (shared.clients connector.conn.client).trace.upstream ++ []⟩ := by
        simp only [Transfer.step, size_eq, ok_bind, List.append_nil]
      refine ⟨_, ?_, .writes writer Event.getWriteSize_ne step_eq⟩
      simp [Shared.setMessage, Shared.setLinker, Shared.linker]
  · rename_i sink id maxWrite amount writer
    obtain ⟨⟨⟨sink', msg⟩, sent⟩, write_eq, further⟩ := bind_eq_ok.mp outcome
    cases further
    have step_eq : Transfer.step
        ⟨shared.message connector.conn.client id, sink,
          (shared.clients connector.conn.client).trace.whole,
          (shared.clients connector.conn.client).trace.upstream⟩ (.write maxWrite amount) =
        .ok ⟨msg, sink', (shared.clients connector.conn.client).trace.whole,
          (shared.clients connector.conn.client).trace.upstream ++ sent⟩ := by
      simp only [Transfer.step, write_eq, ok_bind]
    exact ⟨_, World.setTrace_setLinker, .writes writer (Event.write_ne maxWrite amount) step_eq⟩
  · rename_i other
    obtain ⟨⟨after, answer₁⟩, called, same⟩ := bind_eq_ok.mp outcome
    cases same
    refine tunnel_moves called fun maxWrite amount same => ?_
    exact Option.eq_none_iff_forall_ne_some.mpr fun writer some =>
      other writer.1 writer.2 maxWrite amount some same

end Connector

/-- What a call upstream does: it takes from a message of a pair or fills it, or a connector
moves. -/
inductive Shared.Moves (pairs : ClientId → List (MessageId × MessageId)) (shared : Shared)
    (connectors : ObjectId → Option Connector) : Shared → (ObjectId → Option Connector) → Prop
  | stays : Moves pairs shared connectors shared connectors
  | serves {id : ClientId} {msg : MessageId} (value : HttpMessage)
      (member : msg ∈ messageIds (pairs id)) :
      Moves pairs shared connectors (shared.setMessage id msg value) connectors
  | calls {object : ObjectId} {connector connector' : Connector} {client : Client}
      (found : connectors object = some connector)
      (moves : connector.Moves (shared.clients connector.conn.client) client connector') :
      Moves pairs shared connectors (shared.setClient connector.conn.client client)
        (Function.update connectors object (some connector'))

section Upstream

variable {forwards : Prop} {pairs : ClientId → List (MessageId × MessageId)}
  {shared shared' : Shared} {requester requester' : Requester MessageCopier Connector}
  {id : ObjectId} {asked : Call} {answer : Answer} {config : Requester.Config}
  {endpoint : Endpoint} {connects : Bool} {connector : Connector} {gen : MessageCopier}

/-- A copier works on its two messages. -/
theorem Exchange.call_sets {exchange : Exchange MessageCopier}
    {left : Option (Exchange MessageCopier)}
    (outcome : exchange.call shared asked = .ok (shared', left, answer)) :
    shared' = shared ∨ ∃ msg value, (msg = exchange.gen.pair.1 ∨ msg = exchange.gen.pair.2) ∧
      shared' = shared.setMessage exchange.gen.client msg value := by
  cases asked with
  | getWriteSize =>
      obtain ⟨⟨after, outMsg⟩, generated, outcome⟩ := bind_eq_ok.mp outcome
      obtain ⟨⟨⟨writer, outMsg₁⟩, ret⟩, -, outcome⟩ := bind_eq_ok.mp outcome
      obtain ⟨left₁, -, outcome⟩ := bind_eq_ok.mp outcome
      cases outcome
      obtain ⟨⟨msgReq, copy⟩, -, same⟩ := bind_eq_ok.mp generated
      cases same
      exact Or.inr ⟨_, msgReq, Or.inl rfl, rfl⟩
  | write maxWrite amount =>
      obtain ⟨⟨⟨writer, outMsg⟩, sent⟩, -, outcome⟩ := bind_eq_ok.mp outcome
      obtain ⟨left₁, -, outcome⟩ := bind_eq_ok.mp outcome
      cases outcome
      exact Or.inl rfl
  | read rbuf =>
      obtain ⟨⟨⟨reader, inMsg⟩, ret⟩, -, outcome⟩ := bind_eq_ok.mp outcome
      obtain ⟨⟨after, inMsg₁⟩, given, outcome⟩ := bind_eq_ok.mp outcome
      obtain ⟨left₁, -, outcome⟩ := bind_eq_ok.mp outcome
      cases outcome
      obtain ⟨⟨drained, msgRes⟩, -, same⟩ := bind_eq_ok.mp given
      cases same
      exact Or.inr ⟨_, msgRes, Or.inr rfl, rfl⟩

theorem Working.moves_call
    (working : Working forwards pairs shared requester.linked requester.finished)
    (outcome : requester.call shared id asked = .ok (shared', requester', answer)) :
    shared.Moves pairs (connectors requester.linked) shared' (connectors requester'.linked) := by
  rcases Requester.call_cases outcome with
    ⟨connector, connector', found, called, rfl⟩ | ⟨linker, linker', found, called, -, further⟩
  · obtain ⟨client, rfl, moves⟩ := connector.call_moves called
    have linked_eq : (requester.setLinked id (.connector connector')).linked =
        Function.update requester.linked id (some (.connector connector')) := rfl
    rw [linked_eq, connectors_update_connector]
    exact .calls (connectors_eq_some.mpr found) moves
  · have linked_eq : requester'.linked =
        Function.update requester.linked id (some (.reqLinker linker')) := by
      rcases further with ⟨-, rfl⟩ | ⟨gen, -, -, rfl⟩ <;> rfl
    rw [linked_eq, connectors_update_reqLinker (connectors_eq_none found)]
    rcases reqLinker_cases called with ⟨-, -, rfl⟩ | ⟨exchange, left, busy, went, -⟩
    · exact .stays
    · have carried : Carried pairs shared exchange := working.objects id _ found exchange busy
      rcases Exchange.call_sets went with rfl | ⟨msg, value, own, rfl⟩
      · exact .stays
      · exact .serves value (mem_messageIds.mpr ⟨_, carried.pair, own⟩)

/-- A new object may be called at once. -/
theorem Working.moves_connectionMaker {object : Linked MessageCopier Connector}
    (working : Working forwards pairs shared requester.linked requester.finished)
    (fits : Fits forwards pairs shared object)
    (outcome : requester.connectionMaker shared id object = .ok (shared', requester', true)) :
    shared.Moves pairs (connectors (Function.update requester.linked requester.next (some object)))
      shared' (connectors requester'.linked) := by
  rcases Requester.connectionMaker_cases outcome with
    ⟨none, -⟩ | ⟨-, endpoint, vconn, index, answer, -, called⟩
  · cases none
  · have created : Working forwards pairs shared
        (requester.created id endpoint vconn index object).linked
        (requester.created id endpoint vconn index object).finished := working.update fits
    exact created.moves_call called

/-- On a new socket the object comes behind the wrapper. -/
theorem Working.moves_connect {object : Linked MessageCopier Connector}
    (working : Working forwards pairs shared requester.linked requester.finished)
    (fits : Fits forwards pairs shared object)
    (outcome : requester.connect config shared endpoint object connects =
      .ok (shared', requester', true)) :
    ∃ place, requester.next ≤ place ∧ shared.Moves pairs
      (connectors (Function.update requester.linked place (some object)))
      shared' (connectors requester'.linked) := by
  rcases Requester.connect_cases outcome with
    ⟨none, -⟩ | ⟨-, ⟨id, maker⟩ | ⟨-, ⟨rfl, rfl⟩ | maker⟩⟩
  · cases none
  · exact ⟨_, le_rfl, working.moves_connectionMaker fits maker⟩
  · exact ⟨_, le_rfl, .stays⟩
  · have opened : Working forwards pairs shared
        (requester.newWrapper ⟨endpoint, .multiconn fun _ => none⟩).linked
        (requester.newWrapper ⟨endpoint, .multiconn fun _ => none⟩).finished := working
    exact ⟨_, Nat.le_succ _, opened.moves_connectionMaker fits maker⟩

/-- A request for upstream adds no connector. -/
theorem Working.moves_addRequest
    (working : Working forwards pairs shared requester.linked requester.finished)
    (pooled : Requester.Pooled config requester)
    (carried : Carried pairs shared (.create config.reader config.writer gen))
    (outcome : requester.addRequest config shared endpoint gen connects =
      .ok (shared', requester', true)) :
    shared.Moves pairs (connectors requester.linked) shared' (connectors requester'.linked) := by
  rcases Requester.addRequest_cases pooled outcome with ⟨id, found, -, rfl, rfl⟩ | connected
  · have linked_eq :
        (requester.reuse id endpoint (.create config.reader config.writer gen)).linked =
        Function.update requester.linked id
          (some (.reqLinker ⟨endpoint, some (.create config.reader config.writer gen)⟩)) := rfl
    rw [linked_eq, connectors_update_reqLinker (connectors_eq_none found)]
    exact .stays
  · obtain ⟨place, new, moves⟩ := working.moves_connect (fits_create carried) connected
    have none : connectors requester.linked place = none := by
      rw [connectors, (pooled.fresh place new).1]
    rwa [connectors_update_reqLinker none] at moves

theorem Working.moves_addConnection
    (working : Working forwards pairs shared requester.linked requester.finished)
    (pooled : Requester.Pooled config requester)
    (connecting : Connecting forwards pairs shared connector)
    (outcome : requester.addConnection config shared endpoint connector connects =
      .ok (shared', requester', true)) :
    ∃ place, connectors requester.linked place = none ∧ shared.Moves pairs
      (Function.update (connectors requester.linked) place (some connector))
      shared' (connectors requester'.linked) := by
  have fits : Fits forwards pairs shared
      (.connector connector : Linked MessageCopier Connector) := connecting
  obtain ⟨place, new, moves⟩ := working.moves_connect fits outcome
  rw [connectors_update_connector] at moves
  exact ⟨place, by rw [connectors, (pooled.fresh place new).1], moves⟩

end Upstream

/-! ## Holders -/

/-- An `ALinker` that is there has the cell. -/
def HeldByClient (shared : Shared) (cell : CellId) : Prop :=
  ∃ id, (shared.clients id).alive = true ∧ (shared.clients id).linkedCount = some cell

/-- A `Tunnel` has the cell. -/
def HeldByTunnel (connectors : ObjectId → Option Connector) (cell : CellId) : Prop :=
  ∃ object connector, connectors object = some connector ∧ connector.conn.linkedCount = cell

open Classical in
/-- How many hold the cell. -/
noncomputable def holders (shared : Shared) (connectors : ObjectId → Option Connector)
    (cell : CellId) : Nat :=
  (if HeldByClient shared cell then 1 else 0) + if HeldByTunnel connectors cell then 1 else 0

section Holders

variable {shared shared' : Shared} {connectors connectors' : ObjectId → Option Connector}
  {cell : CellId}

theorem heldByClient_congr (alive : ∀ id, (shared'.clients id).alive = (shared.clients id).alive)
    (linkedCount : ∀ id, (shared'.clients id).linkedCount = (shared.clients id).linkedCount) :
    HeldByClient shared' cell ↔ HeldByClient shared cell := by
  simp only [HeldByClient, alive, linkedCount]

theorem heldByTunnel_congr
    (conns : ∀ object, (connectors' object).map (·.conn) = (connectors object).map (·.conn)) :
    HeldByTunnel connectors' cell ↔ HeldByTunnel connectors cell := by
  have iff (connectors : ObjectId → Option Connector) : HeldByTunnel connectors cell ↔
      ∃ object conn, (connectors object).map (·.conn) = some conn ∧ conn.linkedCount = cell := by
    constructor
    · rintro ⟨object, connector, found, same⟩
      exact ⟨object, connector.conn, by rw [found]; rfl, same⟩
    · rintro ⟨object, conn, found, same⟩
      obtain ⟨connector, here, rfl⟩ := Option.map_eq_some_iff.mp found
      exact ⟨object, connector, here, same⟩
  simp only [iff, conns]

open Classical in
theorem holders_congr (client : HeldByClient shared' cell ↔ HeldByClient shared cell)
    (tunnel : HeldByTunnel connectors' cell ↔ HeldByTunnel connectors cell) :
    holders shared' connectors' cell = holders shared connectors cell :=
  congrArg₂ (· + ·) (if_congr client rfl rfl) (if_congr tunnel rfl rfl)

theorem holders_both (client : HeldByClient shared cell) (tunnel : HeldByTunnel connectors cell) :
    holders shared connectors cell = 2 := by
  simp [holders, client, tunnel]

theorem holders_client (client : HeldByClient shared cell)
    (tunnel : ¬HeldByTunnel connectors cell) : holders shared connectors cell = 1 := by
  simp [holders, client, tunnel]

theorem holders_tunnel (client : ¬HeldByClient shared cell)
    (tunnel : HeldByTunnel connectors cell) : holders shared connectors cell = 1 := by
  simp [holders, client, tunnel]

theorem holders_none (client : ¬HeldByClient shared cell)
    (tunnel : ¬HeldByTunnel connectors cell) : holders shared connectors cell = 0 := by
  simp [holders, client, tunnel]

end Holders

/-- A cell belongs to one client, and to the one connector that works for it; its count is that of
its holders. -/
structure Counted (shared : Shared) (connectors : ObjectId → Option Connector) : Prop where
  below : ∀ id cell, (shared.clients id).linkedCount = some cell → cell < shared.nextCell
  own : ∀ id other cell, (shared.clients id).linkedCount = some cell →
    (shared.clients other).linkedCount = some cell → id = other
  shares : ∀ object connector, connectors object = some connector →
    (shared.clients connector.conn.client).linkedCount = some connector.conn.linkedCount
  alone : ∀ object other connector connector', connectors object = some connector →
    connectors other = some connector' → connector.conn.client = connector'.conn.client →
    object = other
  tallies : shared.Tallies (holders shared connectors)

namespace Counted

variable {shared shared' : Shared} {connectors connectors' : ObjectId → Option Connector}
  {pairs : ClientId → List (MessageId × MessageId)} {id : ClientId} {object : ObjectId}
  {connector : Connector} {cell : CellId} {client : Client}

/-- Cells, clients and connectors stay as they are, as far as the counts go. -/
theorem congr (counted : Counted shared connectors) (cells : shared'.cells = shared.cells)
    (nextCell : shared'.nextCell = shared.nextCell) (released : shared'.released = shared.released)
    (alive : ∀ id, (shared'.clients id).alive = (shared.clients id).alive)
    (linkedCount : ∀ id, (shared'.clients id).linkedCount = (shared.clients id).linkedCount)
    (conns : ∀ object, (connectors' object).map (·.conn) = (connectors object).map (·.conn)) :
    Counted shared' connectors' := by
  have before {object : ObjectId} {connector : Connector}
      (found : connectors' object = some connector) :
      ∃ old, connectors object = some old ∧ old.conn = connector.conn := by
    have same := conns object
    rw [found] at same
    exact Option.map_eq_some_iff.mp same.symm
  have holders_eq (cell : CellId) :
      holders shared' connectors' cell = holders shared connectors cell :=
    holders_congr (heldByClient_congr alive linkedCount) (heldByTunnel_congr conns)
  refine ⟨fun id cell => ?_, fun id other cell => ?_, fun object connector found => ?_,
    fun object other connector connector' found found' same => ?_, fun cell inside => ?_,
    fun cell => ?_⟩
  · rw [linkedCount, nextCell]
    exact counted.below id cell
  · rw [linkedCount, linkedCount]
    exact counted.own id other cell
  · obtain ⟨old, found, conn⟩ := before found
    rw [linkedCount, ← conn]
    exact counted.shares object old found
  · obtain ⟨old, found, conn⟩ := before found
    obtain ⟨old', found', conn'⟩ := before found'
    rw [← conn, ← conn'] at same
    exact counted.alone object other old old' found found' same
  · rw [nextCell] at inside
    rw [cells, holders_eq]
    exact counted.tallies.count cell inside
  · rw [released, nextCell, holders_eq]
    exact counted.tallies.released cell

theorem setClient (counted : Counted shared connectors)
    (alive : client.alive = (shared.clients id).alive)
    (linkedCount : client.linkedCount = (shared.clients id).linkedCount) :
    Counted (shared.setClient id client) connectors := by
  refine counted.congr rfl rfl rfl ?_ ?_ fun _ => rfl
  · exact (Shared.forall_setClient (P := fun other client =>
      client.alive = (shared.clients other).alive)).mpr ⟨alive, fun _ _ => rfl⟩
  · exact (Shared.forall_setClient (P := fun other client =>
      client.linkedCount = (shared.clients other).linkedCount)).mpr ⟨linkedCount, fun _ _ => rfl⟩

theorem moves (counted : Counted shared connectors)
    (moves : shared.Moves pairs connectors shared' connectors') : Counted shared' connectors' := by
  cases moves with
  | stays => exact counted
  | serves value member => exact counted.setClient rfl rfl
  | @calls object connector connector' client found moves =>
      have links : client.alive = (shared.clients connector.conn.client).alive ∧
          client.linkedCount = (shared.clients connector.conn.client).linkedCount := by
        cases moves <;> exact ⟨rfl, rfl⟩
      refine (counted.setClient links.1 links.2).congr rfl rfl rfl (fun _ => rfl) (fun _ => rfl)
        fun other => ?_
      by_cases same : other = object
      · rw [same, Function.update_self, found, Option.map_some, Option.map_some, moves.conn]
      · rw [Function.update_of_ne same]

/-- The cell of a client is held by no other client, and that of a connector by no other
connector. -/
theorem connector_of_cell (counted : Counted shared connectors)
    (linked : (shared.clients id).linkedCount = some cell)
    (found : connectors object = some connector) (shares : connector.conn.linkedCount = cell) :
    connector.conn.client = id := by
  have own := counted.shares object connector found
  rw [shares] at own
  exact counted.own _ _ cell own linked

theorem heldByClient_iff (counted : Counted shared connectors)
    (linked : (shared.clients id).linkedCount = some cell) :
    HeldByClient shared cell ↔ (shared.clients id).alive = true := by
  constructor
  · rintro ⟨other, alive, same⟩
    rwa [counted.own other id cell same linked] at alive
  · exact fun alive => ⟨id, alive, linked⟩

/-! ### Holders that come and go -/

section Holding

theorem linkedCount_deleted (other : ClientId) :
    ((shared.setClient id { shared.clients id with alive := false }).clients other).linkedCount =
      (shared.clients other).linkedCount := by
  by_cases here : other = id
  · rw [here, Shared.clients_setClient_self]
  · rw [Shared.clients_setClient_ne here]

/-- A client that is deleted holds no cell, and the others keep theirs. -/
theorem heldByClient_deleted (differs : (shared.clients id).linkedCount ≠ some cell) :
    HeldByClient (shared.setClient id { shared.clients id with alive := false }) cell ↔
      HeldByClient shared cell := by
  have apart {other : ClientId} (same : (shared.clients other).linkedCount = some cell) :
      other ≠ id := by
    rintro rfl
    exact differs same
  constructor
  · rintro ⟨other, living, same⟩
    rw [linkedCount_deleted] at same
    rw [Shared.clients_setClient_ne (apart same)] at living
    exact ⟨other, living, same⟩
  · rintro ⟨other, living, same⟩
    exact ⟨other, by rwa [Shared.clients_setClient_ne (apart same)],
      (linkedCount_deleted other).trans same⟩

/-- With a new cell for a client that has none, the other cells are held as before. -/
theorem heldByClient_opened (unlinked : (shared.clients id).linkedCount = none)
    (old : cell ≠ shared.nextCell) :
    HeldByClient (World.opened shared id) cell ↔ HeldByClient shared cell := by
  constructor
  · rintro ⟨other, living, same⟩
    by_cases here : other = id
    · rw [here, World.clients_opened] at same
      exact absurd (Option.some.inj same).symm old
    · rw [World.clients_opened_ne here] at living same
      exact ⟨other, living, same⟩
  · rintro ⟨other, living, same⟩
    have differs : other ≠ id := by
      rintro rfl
      rw [unlinked] at same
      cases same
    exact ⟨other, by rwa [World.clients_opened_ne differs],
      by rwa [World.clients_opened_ne differs]⟩

/-- A connector that is deleted holds no cell, and the others keep theirs. -/
theorem heldByTunnel_deleted (found : connectors object = some connector)
    (differs : connector.conn.linkedCount ≠ cell) :
    HeldByTunnel (Function.update connectors object none) cell ↔ HeldByTunnel connectors cell := by
  constructor
  · rintro ⟨place, connector', found', same⟩
    exact ⟨place, connector', (of_update_none found').2, same⟩
  · rintro ⟨place, connector', found', same⟩
    have here : place ≠ object := by
      rintro rfl
      rw [found, Option.some.injEq] at found'
      exact differs (by rw [found', same])
    exact ⟨place, connector', by rwa [Function.update_of_ne here], same⟩

/-- A new connector holds its cell alone. -/
theorem heldByTunnel_created (new : connectors object = none)
    (differs : connector.conn.linkedCount ≠ cell) :
    HeldByTunnel (Function.update connectors object (some connector)) cell ↔
      HeldByTunnel connectors cell := by
  constructor
  · rintro ⟨place, connector', found, same⟩
    rcases of_update_some found with ⟨-, rfl⟩ | ⟨-, before⟩
    · exact absurd same differs
    · exact ⟨place, connector', before, same⟩
  · rintro ⟨place, connector', found, same⟩
    have here : place ≠ object := by
      rintro rfl
      rw [new] at found
      cases found
    exact ⟨place, connector', by rwa [Function.update_of_ne here], same⟩

end Holding

/-- `~ALinker`. -/
theorem deleteClient (counted : Counted shared connectors)
    (alive : (shared.clients id).alive = true)
    (linked : (shared.clients id).linkedCount = some cell) :
    Counted ((shared.setClient id { shared.clients id with alive := false }).unlink cell)
      connectors := by
  have held : HeldByClient shared cell := (counted.heldByClient_iff linked).mpr alive
  have gone :
      ¬HeldByClient (shared.setClient id { shared.clients id with alive := false }) cell := by
    rintro ⟨other, living, same⟩
    by_cases here : other = id
    · rw [here, Shared.clients_setClient_self] at living
      cases living
    · rw [Shared.clients_setClient_ne here] at same
      exact here (counted.own other id cell same linked)
  have tallies : (shared.setClient id { shared.clients id with alive := false }).Tallies
      (holders shared connectors) := ⟨counted.tallies.count, counted.tallies.released⟩
  have some_holder : holders shared connectors cell ≠ 0 := by
    simp [holders, held]
  have unlinked := tallies.unlink (counted.below id cell linked) some_holder
  have linkedCount (other : ClientId) : (((shared.setClient id { shared.clients id with
      alive := false }).unlink cell).clients other).linkedCount =
        (shared.clients other).linkedCount := by
    rw [World.clients_unlink]
    exact linkedCount_deleted other
  refine ⟨fun other cell' => ?_, fun client other cell' => ?_, fun object connector => ?_,
    counted.alone, unlinked.congr fun other _ => ?_⟩
  · rw [linkedCount, Shared.nextCell_unlink]
    exact counted.below other cell'
  · rw [linkedCount, linkedCount]
    exact counted.own client other cell'
  · rw [linkedCount]
    exact counted.shares object connector
  · have clients : HeldByClient ((shared.setClient id { shared.clients id with
        alive := false }).unlink cell) other ↔
          HeldByClient (shared.setClient id { shared.clients id with alive := false }) other := by
      simp only [HeldByClient, World.clients_unlink]
    by_cases same : other = cell
    · subst same
      rw [Function.update_self, holders_congr clients Iff.rfl]
      by_cases tunnel : HeldByTunnel connectors other
      · rw [holders_tunnel gone tunnel, holders_both held tunnel]
      · rw [holders_none gone tunnel, holders_client held tunnel]
    · rw [Function.update_of_ne same, holders_congr clients Iff.rfl]
      have differs : (shared.clients id).linkedCount ≠ some other := by
        rw [linked, ne_eq, Option.some.injEq]
        exact fun equal => same equal.symm
      exact holders_congr (heldByClient_deleted differs) Iff.rfl

/-- `~ALinker` without a cell. -/
theorem deleteUnlinked (counted : Counted shared connectors)
    (none : (shared.clients id).linkedCount = none) :
    Counted (shared.setClient id { shared.clients id with alive := false }) connectors := by
  refine ⟨fun other cell => ?_, fun client other cell => ?_, fun object connector => ?_,
    counted.alone, (counted.tallies.setClient id _).congr fun cell _ =>
      holders_congr (heldByClient_deleted (by simp [none])) Iff.rfl⟩
  · rw [linkedCount_deleted]
    exact counted.below other cell
  · rw [linkedCount_deleted, linkedCount_deleted]
    exact counted.own client other cell
  · rw [linkedCount_deleted]
    exact counted.shares object connector

/-- `~Tunnel`. -/
theorem deleteConnector (counted : Counted shared connectors)
    (found : connectors object = some connector) :
    Counted (shared.unlink connector.conn.linkedCount)
      (Function.update connectors object none) := by
  have linked := counted.shares object connector found
  have held : HeldByTunnel connectors connector.conn.linkedCount := ⟨object, connector, found, rfl⟩
  have gone : ¬HeldByTunnel (Function.update connectors object none)
      connector.conn.linkedCount := by
    rintro ⟨other, connector', found', same⟩
    obtain ⟨differs, found'⟩ := of_update_none found'
    exact differs (counted.alone other object connector' connector found' found
      (counted.connector_of_cell linked found' same))
  have some_holder : holders shared connectors connector.conn.linkedCount ≠ 0 := by
    simp [holders, held]
  have unlinked := counted.tallies.unlink (counted.below _ _ linked) some_holder
  refine ⟨fun id cell => ?_, fun id other cell => ?_, fun place connector' found' => ?_,
    fun place other connector₁ connector₂ found₁ found₂ => ?_, unlinked.congr fun other _ => ?_⟩
  · rw [World.clients_unlink, Shared.nextCell_unlink]
    exact counted.below id cell
  · rw [World.clients_unlink]
    exact counted.own id other cell
  · rw [World.clients_unlink]
    exact counted.shares place connector' (of_update_none found').2
  · exact counted.alone place other connector₁ connector₂ (of_update_none found₁).2
      (of_update_none found₂).2
  · have clients : HeldByClient (shared.unlink connector.conn.linkedCount) other ↔
        HeldByClient shared other := by
      simp only [HeldByClient, World.clients_unlink]
    by_cases same : other = connector.conn.linkedCount
    · subst same
      rw [Function.update_self, holders_congr clients Iff.rfl]
      by_cases client : HeldByClient shared connector.conn.linkedCount
      · rw [holders_client client gone, holders_both client held]
      · rw [holders_none client gone, holders_tunnel client held]
    · rw [Function.update_of_ne same]
      exact holders_congr clients (heldByTunnel_deleted found fun equal => same equal.symm)

section Opening

variable {place : ObjectId}

/-- Whose cell is which, with a new one for a client that has none. -/
theorem linkedCount_opened
    {other : ClientId} (same : ((World.opened shared id).clients other).linkedCount = some cell) :
    other = id ∧ cell = shared.nextCell ∨
      other ≠ id ∧ (shared.clients other).linkedCount = some cell := by
  by_cases here : other = id
  · subst here
    rw [World.clients_opened] at same
    exact Or.inl ⟨rfl, (Option.some.inj same).symm⟩
  · rw [World.clients_opened_ne here] at same
    exact Or.inr ⟨here, same⟩

/-- The holders of the new cell are its client and its connector. -/
theorem holders_opened (alive : (shared.clients id).alive = true)
    (unlinked : (shared.clients id).linkedCount = none) (new : connectors place = none)
    (conn : connector.conn = ⟨id, shared.nextCell⟩) (cell : CellId) :
    holders (World.opened shared id) (Function.update connectors place (some connector)) cell =
      Function.update (holders shared connectors) shared.nextCell 2 cell := by
  by_cases new_cell : cell = shared.nextCell
  · subst new_cell
    rw [Function.update_self]
    refine holders_both ⟨id, ?_, ?_⟩ ⟨place, connector, Function.update_self .., by rw [conn]⟩
    · rw [World.clients_opened]
      exact alive
    · rw [World.clients_opened]
      rfl
  · rw [Function.update_of_ne new_cell]
    refine holders_congr (heldByClient_opened unlinked new_cell) (heldByTunnel_created new ?_)
    rw [conn]
    exact fun equal => new_cell equal.symm

/-- A client without a cell shares a new one with a new connector. -/
theorem openTunnel (counted : Counted shared connectors)
    (alive : (shared.clients id).alive = true) (unlinked : (shared.clients id).linkedCount = none)
    (new : connectors place = none) (conn : connector.conn = ⟨id, shared.nextCell⟩) :
    Counted (World.opened shared id) (Function.update connectors place (some connector)) := by
  have tallies : (World.opened shared id).Tallies
      (Function.update (holders shared connectors) shared.nextCell 2) :=
    ⟨counted.tallies.newCell.count, counted.tallies.newCell.released⟩
  have old {other : ObjectId} {connector' : Connector}
      (found : connectors other = some connector') :
      connector'.conn.client ≠ id := by
    intro same
    have shares := counted.shares other connector' found
    rw [same, unlinked] at shares
    cases shares
  refine ⟨fun other cell same => ?_, fun other other' cell same same' => ?_,
    fun object connector' found => ?_,
    fun object object' connector₁ connector₂ found found' same => ?_,
    tallies.congr fun cell _ => holders_opened alive unlinked new conn cell⟩
  · rcases linkedCount_opened same with ⟨-, rfl⟩ | ⟨-, before⟩
    · exact Nat.lt_succ_self _
    · exact Nat.lt_succ_of_lt (counted.below other cell before)
  · rcases linkedCount_opened same with ⟨rfl, rfl⟩ | ⟨-, before⟩
    · rcases linkedCount_opened same' with ⟨rfl, -⟩ | ⟨-, before⟩
      · rfl
      · exact absurd (counted.below other' _ before) (lt_irrefl _)
    · rcases linkedCount_opened same' with ⟨rfl, rfl⟩ | ⟨-, before'⟩
      · exact absurd (counted.below other _ before) (lt_irrefl _)
      · exact counted.own other other' cell before before'
  · rcases of_update_some found with ⟨rfl, rfl⟩ | ⟨-, before⟩
    · rw [conn, World.clients_opened]
      rfl
    · rw [World.clients_opened_ne (old before)]
      exact counted.shares object connector' before
  · rcases of_update_some found with ⟨rfl, rfl⟩ | ⟨-, before⟩
    · rcases of_update_some found' with ⟨rfl, -⟩ | ⟨-, before'⟩
      · rfl
      · rw [conn] at same
        exact absurd same.symm (old before')
    · rcases of_update_some found' with ⟨rfl, rfl⟩ | ⟨-, before'⟩
      · rw [conn] at same
        exact absurd same (old before)
      · exact counted.alone object object' connector₁ connector₂ before before' same

end Opening

/-- A tunnel that is refused leaves a cell that is gone. -/
theorem refuse {later : Client} (counted : Counted shared connectors)
    (unlinked : (shared.clients id).linkedCount = none)
    (alive : later.alive = (shared.clients id).alive) (still : later.linkedCount = none) :
    Counted ((((World.opened shared id).unlink shared.nextCell).release
      shared.nextCell).setClient id later) connectors := by
  have shape : (World.opened shared id).unlink shared.nextCell =
      ((shared.newCell 2).unlink shared.nextCell).setClient id
        (World.tunnelled (shared.clients id) shared.nextCell) := Shared.unlink_setClient _ _ _ _
  obtain ⟨after, after_eq⟩ : ∃ after, (((World.opened shared id).unlink shared.nextCell).release
      shared.nextCell).setClient id later = after := ⟨_, rfl⟩
  have clients (other : ClientId) : (after.clients other).alive = (shared.clients other).alive ∧
      (after.clients other).linkedCount = (shared.clients other).linkedCount := by
    rw [← after_eq]
    by_cases here : other = id
    · subst here
      rw [Shared.clients_setClient_self]
      exact ⟨alive, still.trans unlinked.symm⟩
    · rw [Shared.clients_setClient_ne here, World.clients_release, World.clients_unlink,
        World.clients_opened_ne here]
      exact ⟨rfl, rfl⟩
  have tallies : after.Tallies (Function.update (holders shared connectors) shared.nextCell 0) := by
    rw [← after_eq, shape]
    exact (counted.tallies.refuse.setClient id _).setClient id later
  have nextCell : after.nextCell = shared.nextCell + 1 := by
    rw [← after_eq]
    exact Shared.nextCell_unlink _ _
  have alive_eq (other : ClientId) := (clients other).1
  have linkedCount_eq (other : ClientId) := (clients other).2
  rw [after_eq]
  refine ⟨fun other cell same => ?_, fun other other' cell => ?_, fun object connector found => ?_,
    counted.alone, tallies.congr fun cell _ => ?_⟩
  · rw [linkedCount_eq] at same
    rw [nextCell]
    exact Nat.lt_succ_of_lt (counted.below other cell same)
  · rw [linkedCount_eq, linkedCount_eq]
    exact counted.own other other' cell
  · rw [linkedCount_eq]
    exact counted.shares object connector found
  · rw [holders_congr (heldByClient_congr alive_eq linkedCount_eq) Iff.rfl]
    by_cases new : cell = shared.nextCell
    · subst new
      rw [Function.update_self]
      refine holders_none ?_ ?_
      · rintro ⟨other, -, same⟩
        exact absurd (counted.below other _ same) (lt_irrefl _)
      · rintro ⟨object, connector, found, same⟩
        have shares := counted.shares object connector found
        rw [same] at shares
        exact absurd (counted.below _ _ shares) (lt_irrefl _)
    · rw [Function.update_of_ne new]

/-! ### What the count says -/

/-- The count of a connector tells it whether its client is there. -/
theorem count_connector (counted : Counted shared connectors)
    (found : connectors object = some connector) :
    shared.cells connector.conn.linkedCount =
      some (if (shared.clients connector.conn.client).alive = true then 2 else 1) := by
  have linked := counted.shares object connector found
  have held : HeldByTunnel connectors connector.conn.linkedCount := ⟨object, connector, found, rfl⟩
  have below := counted.below _ _ linked
  have alive_iff := counted.heldByClient_iff linked
  by_cases alive : (shared.clients connector.conn.client).alive = true
  · have both := holders_both (alive_iff.mpr alive) held
    rw [counted.tallies.held below (by rw [both]; decide), both, if_pos alive]
    rfl
  · have tunnel := holders_tunnel (mt alive_iff.mp alive) held
    rw [counted.tallies.held below (by rw [tunnel]; decide), tunnel, if_neg alive]
    rfl

end Counted

end GnyProxy
