import GnyProxy.Custody
import GnyProxy.Upstream

/-!
# The proxy and frames for ids that are not in use

On a multiplexed socket the peer may send a frame for an id that no virtual connection has.  Then
the `Multiconn` creates one out of the data that the socket was opened with: a second `ReqLinker`
with the copier of the request for which that was.  In the runs without such frames every copier
has live messages, and every response is filled by one `ReqLinker`.
-/

namespace GnyProxy
namespace World

/-- `req_linker_data` of the call that `ALinker::read` makes when the endpoint is known. -/
def connectData (config : Config) (world : World) (id : ClientId) (msgReq : MessageId) :
    Option (ReqLinkerData MessageCopier Connector) :=
  let linker := world.shared.linker id
  let msg := linker.messages msgReq
  let (host, service) := config.proxy.endpoint msg
  if linker.connected = false ∧ msg.verb ≠ verbUnknown ∧ msg.url ≠ [] ∧ host ≠ [] then
    if msg.verb ≠ verbConnect then
      some (.request (cStr host, cStr service) ⟨id, msgReq, linker.next⟩)
    else
      let writer := config.proxy.forwardHost.map fun _ =>
        (config.requester.writer.writerCreator, msgReq)
      some (.direct { writer, conn := ⟨id, world.shared.nextCell⟩ })
  else
    none

/-- The local of `add_request` or `add_connection` in a step. -/
def localData (config : Config) (world : World) :
    Event → Option (ReqLinkerData MessageCopier Connector)
  | .read id rbuf _ =>
      match (world.shared.linker id).reader with
      | none => none
      | some (source, msgReq) =>
          match world.receive id source msgReq rbuf with
          | .ok world => world.connectData config id msgReq
          | .error _ => none
  | _ => none

/-- The proxy with the `init_data` of its sockets.  The scope of the data ended with the call that
opened the socket; its memory keeps its value. -/
structure Exposed where
  world : World
  initData : ObjectId → Option (ReqLinkerData MessageCopier Connector) := fun _ => none

namespace Exposed

inductive Event where
  | act (event : World.Event)
  /-- A frame of the peer is read from the socket of a wrapper, up to its payload. -/
  | frame (wrapper : ObjectId) (id : UInt8)

/-- What happens apart from such frames. -/
def Event.act? : Event → Option World.Event
  | act event => some event
  | frame _ _ => none

/-- Behind a step, a socket that was opened has the local of the step as its `init_data`. -/
def afterStep (config : Config) (exposed : Exposed) (event : World.Event) (world : World) :
    Exposed where
  world
  initData := fun wrapper =>
    if (exposed.world.requester.wrappers wrapper).isNone ∧
        (world.requester.wrappers wrapper).isSome then
      exposed.world.localData config event
    else exposed.initData wrapper

/-- `get_virtual_connection`: with `conn_creator(init_data)` if there is none. -/
def getVirtualConnection (config : Config) (exposed : Exposed) (wrapper : ObjectId) (id : UInt8) :
    Except Fault Exposed :=
  match exposed.world.requester.wrappers wrapper with
  | some ⟨endpoint, .multiconn vconn⟩ =>
      if (vconn id).isSome then
        .ok exposed
      else
        match exposed.initData wrapper with
        | none => .error .outOfBounds
        | some data =>
            let requester := exposed.world.requester.created wrapper endpoint vconn id
              (data.reqLinkerCreator config.requester)
            .ok { exposed with world := { exposed.world with requester } }
  | _ => .ok exposed

def step (config : Config) (exposed : Exposed) : Event → Except Fault Exposed
  | .act event => do
      let world ← exposed.world.step config event
      .ok (exposed.afterStep config event world)
  | .frame wrapper id => exposed.getVirtualConnection config wrapper id

def run (config : Config) : Exposed → List Event → Except Fault Exposed
  | exposed, [] => .ok exposed
  | exposed, event :: events => do
      let exposed ← exposed.step config event
      run config exposed events

/-- Nothing has happened yet. -/
def start (config : Config) : Exposed := { world := World.start config }

/-! ## Runs in which the peer uses the ids in use -/

/-- The id of a frame is in use. -/
def InUse (exposed : Exposed) (wrapper : ObjectId) (id : UInt8) : Prop :=
  ∀ endpoint vconn, exposed.world.requester.wrappers wrapper = some ⟨endpoint, .multiconn vconn⟩ →
    (vconn id).isSome = true

/-- The peer uses the ids in use, and a condition holds of what else happens. -/
def Keeps (condition : World → World.Event → Prop) (exposed : Exposed) : Event → Prop
  | .act event => condition exposed.world event
  | .frame wrapper id => exposed.InUse wrapper id

/-- In every step of the run. -/
def Throughout (config : Config) (condition : World → World.Event → Prop) :
    Exposed → List Event → Prop
  | _, [] => True
  | exposed, event :: events => exposed.Keeps condition event ∧
      ∀ next, exposed.step config event = .ok next → Throughout config condition next events

variable {config : Config} {condition : World → World.Event → Prop} {exposed next last : Exposed}
  {events : List Event}

/-- A frame for an id in use creates nothing. -/
theorem getVirtualConnection_inUse {wrapper : ObjectId} {id : UInt8}
    (inUse : exposed.InUse wrapper id) :
    exposed.getVirtualConnection config wrapper id = .ok exposed := by
  unfold getVirtualConnection
  split
  · rename_i endpoint vconn found
    rw [if_pos (inUse endpoint vconn found)]
  · rfl

/-- Without frames for other ids a run is one of the proxy by itself. -/
theorem run_world (kept : Throughout config condition exposed events)
    (outcome : exposed.run config events = .ok last) :
    World.Throughout config condition exposed.world (events.filterMap Event.act?) ∧
      World.run config exposed.world (events.filterMap Event.act?) = .ok last.world := by
  induction events generalizing exposed with
  | nil =>
      cases outcome
      exact ⟨trivial, rfl⟩
  | cons event events ih =>
      obtain ⟨next, step_eq, outcome⟩ := bind_eq_ok.mp outcome
      obtain ⟨holds, later⟩ := ih (kept.2 next step_eq) outcome
      cases event with
      | frame wrapper id =>
          have same : exposed = next :=
            Except.ok.inj ((getVirtualConnection_inUse kept.1).symm.trans step_eq)
          exact same ▸ ⟨holds, later⟩
      | act event =>
          obtain ⟨world, world_eq, step_eq⟩ := bind_eq_ok.mp step_eq
          cases step_eq
          refine ⟨⟨kept.1, fun other other_eq => ?_⟩, ?_⟩
          · cases world_eq.symm.trans other_eq
            exact holds
          · exact bind_eq_ok.mpr ⟨world, world_eq, later⟩

/-! ### Conditions on a run that is evaluated -/

/-- The id of a frame is in use, or a check succeeds. -/
def checkEvent (check : World → World.Event → Bool) (exposed : Exposed) : Event → Bool
  | .act event => check exposed.world event
  | .frame wrapper id =>
      match exposed.world.requester.wrappers wrapper with
      | some ⟨_, .multiconn vconn⟩ => (vconn id).isSome
      | _ => true

/-- In every step of the run. -/
def Checks (config : Config) (check : World → World.Event → Bool) : Exposed → List Event → Bool
  | _, [] => true
  | exposed, event :: events => exposed.checkEvent check event &&
      match exposed.step config event with
      | .ok next => Checks config check next events
      | .error _ => true

theorem throughout_of_checks {check : World → World.Event → Bool}
    (invariant : exposed.world.Invariant config)
    (enough : ∀ world event, world.Invariant config → check world event = true →
      condition world event)
    (checks : Checks config check exposed events = true) :
    Throughout config condition exposed events := by
  induction events generalizing exposed with
  | nil => trivial
  | cons event events ih =>
      rw [Checks, Bool.and_eq_true] at checks
      obtain ⟨here, later⟩ := checks
      cases event with
      | act event =>
          refine ⟨enough exposed.world event invariant here, fun next step_eq => ?_⟩
          rw [step_eq] at later
          obtain ⟨world, world_eq, same⟩ := bind_eq_ok.mp step_eq
          cases same
          exact ih (invariant.step world_eq) later
      | frame wrapper id =>
          have inUse : exposed.InUse wrapper id := by
            intro endpoint vconn found
            simpa [checkEvent, found] using here
          refine ⟨inUse, fun next step_eq => ?_⟩
          rw [step_eq] at later
          obtain rfl : exposed = next :=
            Except.ok.inj ((getVirtualConnection_inUse inUse).symm.trans step_eq)
          exact ih invariant later

/-- A run that is evaluated. -/
theorem exists_exposed {P : Exposed → Prop} [DecidablePred P]
    (evaluates : ((run config (start config) events).toOption.map fun last => decide (P last)) =
      some true) : ∃ last, run config (start config) events = .ok last ∧ P last := by
  cases outcome : run config (start config) events with
  | error fault =>
      rw [outcome] at evaluates
      cases evaluates
  | ok last =>
      rw [outcome] at evaluates
      exact ⟨last, rfl, of_decide_eq_true (Option.some.inj evaluates)⟩

end Exposed

/-! ## What holds in them -/

/-- Where the peer uses the ids in use, and each pair is deleted behind the last byte of its request
upstream, no `ReqLinker` is left with a message that is gone. -/
theorem gens_live (config : Config) (events : List Exposed.Event) (last : Exposed)
    (sent : Exposed.Throughout config (SentUpstream config) (.start config) events)
    (outcome : Exposed.run config (.start config) events = .ok last) : last.world.GensLive := by
  obtain ⟨sent, outcome⟩ := Exposed.run_world sent outcome
  exact gensLive_of_sent sent outcome

/-- Multiplexed sockets upstream, HTTP/1.1 on both sides, and no proxy upstream. -/
def multiplexed : Config := ⟨⟨.v11, .v11, none, []⟩, ⟨.v11, .v11, true, 10, id⟩⟩

/-- The first request is answered, and a second one sent on the same virtual connection; then the
first pair is deleted. -/
def oneBehindAnother : List Exposed.Event :=
  [.act (.read 0 getRequest true), .act (.call 1 .getWriteSize), .act (.call 1 (.write 100 100)),
    .frame 0 0, .act (.call 1 (.read emptyResponse)), .act (.read 0 getRequest true),
    .act (.getWriteSize 0), .act (.write 0 100 100), .act (.call 1 .getWriteSize),
    .act (.getWriteSize 0)]

theorem gens_live_behind : ∃ last,
    Exposed.run multiplexed (.start multiplexed) oneBehindAnother = .ok last ∧
      (last.world.shared.clients 0).popped = [(0, 1)] ∧
        last.world.genOf 1 = some ⟨0, 2, 3⟩ ∧ last.world.GensLive := by
  obtain ⟨last, outcome, popped, gen⟩ : ∃ last,
      Exposed.run multiplexed (.start multiplexed) oneBehindAnother = .ok last ∧
        (last.world.shared.clients 0).popped = [(0, 1)] ∧
          last.world.genOf 1 = some ⟨0, 2, 3⟩ := Exposed.exists_exposed (by decide +kernel)
  have sent : Exposed.Throughout multiplexed (SentUpstream multiplexed) (.start multiplexed)
      oneBehindAnother :=
    Exposed.throughout_of_checks (invariant_start multiplexed) (fun _ _ => sentUpstream_of_check)
      (by decide +kernel)
  exact ⟨last, outcome, popped, gen, gens_live multiplexed _ last sent outcome⟩

/-- Where the peer uses the ids in use, and no socket is closed that a response is to come from,
somebody fills every response. -/
theorem served_to_the_end (config : Config) (events : List Exposed.Event) (last : Exposed)
    (idle : Exposed.Throughout config ClosedIdle (.start config) events)
    (outcome : Exposed.run config (.start config) events = .ok last) : last.world.Served := by
  obtain ⟨idle, outcome⟩ := Exposed.run_world idle outcome
  exact served_of_idle idle outcome

/-- Two clients have a request each, at different hosts.  The first is answered and its socket
closed; the other waits. -/
def oneCloses : List Exposed.Event :=
  [.act (.read 0 getRequest true), .act (.read 1 (ascii "GET / HTTP/1.1\r\nHost: b\r\n\r\n") true),
    .act (.call 1 .getWriteSize), .act (.call 1 (.write 100 100)), .frame 0 0,
    .act (.call 1 (.read emptyResponse)), .act (.close 0)]

theorem served_other : ∃ last,
    Exposed.run multiplexed (.start multiplexed) oneCloses = .ok last ∧
      (last.world.shared.linker 1).responseQueue = [(0, 1)] ∧
        (last.world.shared.message 1 1).state = .header ∧ last.world.Served := by
  obtain ⟨last, outcome, queue, state⟩ : ∃ last,
      Exposed.run multiplexed (.start multiplexed) oneCloses = .ok last ∧
        (last.world.shared.linker 1).responseQueue = [(0, 1)] ∧
          (last.world.shared.message 1 1).state = .header :=
    Exposed.exists_exposed (by decide +kernel)
  have idle : Exposed.Throughout multiplexed ClosedIdle (.start multiplexed) oneCloses :=
    Exposed.throughout_of_checks (invariant_start multiplexed)
      (fun _ _ _ => closedIdle_of_check) (by decide +kernel)
  exact ⟨last, outcome, queue, state, served_to_the_end multiplexed _ last idle outcome⟩

/-- A frame for an id that is not in use: no socket is closed, and a second `ReqLinker` has the
copier of the first. -/
example : ((Exposed.run multiplexed (.start multiplexed)
    [.act (.read 0 getRequest true), .frame 0 5]).toOption.map fun last =>
      (last.world.genOf 1, last.world.genOf 2)) = some (some ⟨0, 0, 1⟩, some ⟨0, 0, 1⟩) := by
  decide +kernel

end World
end GnyProxy
