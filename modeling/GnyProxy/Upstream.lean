import GnyProxy.Bookkeeping
import GnyProxy.Scheduling

/-!
# The requester on its multiplexed connections

A `Requester` with the `Multiconn` of each of its sockets.  A frame from the peer whose id is not in
use makes the `Multiconn` call its creator with the `init_data` that it was given, a local of the
call by which the socket was opened.  Ids are handed out and never taken back.
-/

namespace GnyProxy

/-- `req_linker_data` -/
inductive ReqLinkerData (γ δ : Type) where
  | request (endpoint : Endpoint) (gen : γ)
  /-- `is_direct` -/
  | direct (connector : δ)

/-- `req_linker_creator` -/
def ReqLinkerData.reqLinkerCreator {γ δ : Type} (config : Requester.Config) :
    ReqLinkerData γ δ → Linked γ δ
  | request endpoint gen =>
      .reqLinker ⟨endpoint, some (Exchange.create config.reader config.writer gen)⟩
  | direct connector => .connector connector

/-- A virtual connection that a creator made for a `Multiconn`. -/
structure Creation where
  id : UInt8
  /-- Which `req_linker_data` the creator was given. -/
  data : Nat
  /-- The function whose local the data is had not returned. -/
  inScope : Bool
  deriving DecidableEq

/-- The virtual connections of a wrapper. -/
def Requester.table {γ δ : Type} (requester : Requester γ δ) (wrapper : ObjectId) :
    UInt8 → Option ObjectId :=
  match requester.wrappers wrapper with
  | some ⟨_, .multiconn vconn⟩ => vconn
  | _ => fun _ => none

/-- The ids that are in use behind a call and were not before it. -/
def Requester.gained {γ δ : Type} (before later : Requester γ δ) (wrapper : ObjectId) :
    List UInt8 :=
  Multiconn.ids.filter fun id =>
    (before.table wrapper id).isNone && (later.table wrapper id).isSome

/-- A requester with what its `Multiconn`s hold.  The data of a call of `add_request` or
`add_connection` is gone behind the call; its memory keeps its value. -/
structure Upstream (γ δ σ : Type) where
  session : Requester.Session γ δ σ
  conns : ObjectId → Multiconn := fun _ => {}
  /-- What the peer sent and was not read yet. -/
  incoming : ObjectId → Str := fun _ => []
  /-- The locals of the calls so far. -/
  data : List (ReqLinkerData γ δ) := []
  /-- `init_data`, for each wrapper. -/
  initData : ObjectId → Nat := fun _ => 0
  /-- The virtual connections that each wrapper got. -/
  creations : ObjectId → List Creation := fun _ => []

namespace Upstream

/-- What may happen to a `Multiconn`. -/
inductive Operation where
  | read (call : Multiconn.ReadCall)
  | getWriteSize
  | write (call : Multiconn.WriteCall)
  | update
  /-- A virtual connection has something else to write: its user goes on, or ends. -/
  | pending (id : UInt8) (bytes : Str)

inductive Event (γ δ σ : Type) where
  /-- A call of the requester or of one of its virtual connections; one that is created has these
  bytes to write. -/
  | call (event : Requester.Event γ δ σ) (pending : Str)
  /-- The peer sends something. -/
  | receive (wrapper : ObjectId) (bytes : Str)
  | operate (wrapper : ObjectId) (operation : Operation)

/-- The local of `add_request` or `add_connection`. -/
def locals {γ δ σ : Type} : Requester.Event γ δ σ → List (ReqLinkerData γ δ)
  | .addRequest endpoint gen _ => [.request endpoint gen]
  | .addConnection _ connector _ => [.direct connector]
  | _ => []

/-- The `Multiconn` behind an operation, and what is left to be read. -/
def operated (conn : Multiconn) (incoming : Str) : Operation → Multiconn × Str
  | .read call => ((conn.read incoming call).conn, (conn.read incoming call).incoming)
  | .getWriteSize => (conn.getWriteSize.1, incoming)
  | .write call => ((conn.write call).conn, incoming)
  | .update => (conn.update, incoming)
  | .pending id bytes =>
      ({ conn with vconn := Function.update conn.vconn id ((conn.vconn id).map fun _ => bytes) },
        incoming)

variable {γ δ σ : Type}

/-- Behind a call, a socket that was opened has its `init_data`, a `Multiconn` that was asked to
has created a virtual connection, and one that was deleted is gone. -/
def afterCall (upstream : Upstream γ δ σ) (event : Requester.Event γ δ σ) (pending : Str)
    (session : Requester.Session γ δ σ) : Upstream γ δ σ :=
  let before := upstream.session.requester
  let later := session.requester
  { upstream with
    session
    conns := fun wrapper =>
      if (later.wrappers wrapper).isNone then {}
      else if before.gained later wrapper = [] then upstream.conns wrapper
      else ((upstream.conns wrapper).createVirtualConnection pending).1
    data := upstream.data ++ locals event
    initData := fun wrapper =>
      if (before.wrappers wrapper).isNone ∧ (later.wrappers wrapper).isSome then
        upstream.data.length
      else upstream.initData wrapper
    creations := fun wrapper => upstream.creations wrapper ++
      (before.gained later wrapper).map fun id => ⟨id, upstream.data.length, true⟩ }

/-- `conn_creator(init_data)`, for an id that a frame of the peer has. -/
def createFromFrame (config : Requester.Config) (upstream : Upstream γ δ σ) (wrapper : ObjectId)
    (endpoint : Endpoint) (vconn : UInt8 → Option ObjectId) (id : UInt8) :
    Except Fault (Upstream γ δ σ) :=
  match upstream.data[upstream.initData wrapper]? with
  | none => .error .outOfBounds
  | some data =>
      let requester := upstream.session.requester.created wrapper endpoint vconn id
        (data.reqLinkerCreator config)
      .ok { upstream with
        session := { upstream.session with requester }
        creations := Function.update upstream.creations wrapper
          (upstream.creations wrapper ++ [⟨id, upstream.initData wrapper, false⟩]) }

/-- An operation of the `Multiconn` of a wrapper: a virtual connection that it looked up and did not
have was created. -/
def operate (config : Requester.Config) (upstream : Upstream γ δ σ) (wrapper : ObjectId)
    (operation : Operation) : Except Fault (Upstream γ δ σ) :=
  match upstream.session.requester.wrappers wrapper with
  | some ⟨endpoint, .multiconn vconn⟩ =>
      let (conn, incoming) :=
        operated (upstream.conns wrapper) (upstream.incoming wrapper) operation
      let upstream := { upstream with
        conns := Function.update upstream.conns wrapper conn
        incoming := Function.update upstream.incoming wrapper incoming }
      match Multiconn.ids.find? fun id => (vconn id).isNone && (conn.vconn id).isSome with
      | none => .ok upstream
      | some id => upstream.createFromFrame config wrapper endpoint vconn id
  | _ => .ok upstream

variable [RequestGenerator γ σ] [Connection δ σ]

def step (config : Requester.Config) (upstream : Upstream γ δ σ) :
    Event γ δ σ → Except Fault (Upstream γ δ σ)
  | .call event pending => do
      let session ← upstream.session.step config event
      .ok (upstream.afterCall event pending session)
  | .receive wrapper bytes =>
      .ok { upstream with
        incoming := Function.update upstream.incoming wrapper
          (upstream.incoming wrapper ++ bytes) }
  | .operate wrapper operation => upstream.operate config wrapper operation

def run (config : Requester.Config) : Upstream γ δ σ → List (Event γ δ σ) →
    Except Fault (Upstream γ δ σ)
  | upstream, [] => .ok upstream
  | upstream, event :: events => do
      let upstream ← upstream.step config event
      run config upstream events

/-- Nothing was asked for yet. -/
def start (state : σ) : Upstream γ δ σ := { session := { state } }

end Upstream

/-! ## Which virtual connections a `Multiconn` looks up -/

namespace Multiconn

variable {conn : Multiconn}

/-- The id of the frame whose payload a call of `read` comes to. -/
def frameRead (conn : Multiconn) (incoming : Str) (call : ReadCall) : Option UInt8 :=
  match conn.readHeader incoming call with
  | .ok passage => some passage.conn.rId
  | .error _ => none

/-- Whoever waits to write, or is writing a frame, is there. -/
structure Attended (conn : Multiconn) : Prop where
  waiting : ∀ id ∈ conn.wQueue, (conn.vconn id).isSome = true
  writing : conn.wSz ≠ 0 → (conn.vconn conn.wId).isSome = true

theorem attended_empty : Attended {} := ⟨by simp, by simp⟩

/-- Two connections have the same virtual connections. -/
def SameIds (conn conn' : Multiconn) : Prop :=
  ∀ id, (conn'.vconn id).isSome = (conn.vconn id).isSome

theorem sameIds_grow (conn : Multiconn) (id : UInt8) (bytes : Str) :
    conn.SameIds (conn.grow id bytes) := by
  intro other
  by_cases same : other = id
  · simp [grow, same]
  · simp [grow, Function.update_of_ne same]

theorem isSome_getVirtualConnection (conn : Multiconn) (id other : UInt8) :
    ((conn.getVirtualConnection id).vconn other).isSome =
      ((conn.vconn other).isSome || decide (other = id)) := by
  by_cases same : other = id
  · simp [getVirtualConnection, same]
  · simp [getVirtualConnection, same]

theorem isSome_took (conn : Multiconn) (id other : UInt8) (amount : Nat) :
    ((conn.took id amount).vconn other).isSome =
      ((conn.vconn other).isSome || decide (other = id)) := by
  by_cases same : other = id
  · simp [took, same]
  · simp [took, same]

/-- Where the writer is the same and no virtual connection went away. -/
theorem Attended.congr {conn' : Multiconn} (attended : conn.Attended)
    (queue : conn'.wQueue = conn.wQueue) (wSz : conn'.wSz = conn.wSz) (wId : conn'.wId = conn.wId)
    (kept : ∀ id, (conn.vconn id).isSome = true → (conn'.vconn id).isSome = true) :
    conn'.Attended where
  waiting id member := kept id (attended.waiting id (queue ▸ member))
  writing frame := by
    rw [wId]
    exact kept _ (attended.writing (wSz ▸ frame))

theorem Attended.enqueue {id : UInt8} (attended : conn.Attended)
    (here : (conn.vconn id).isSome = true) : (conn.enqueue id).Attended where
  waiting other member := by
    rcases List.mem_append.mp member with before | new
    · exact attended.waiting other before
    · rw [List.mem_singleton] at new
      exact new ▸ here
  writing := attended.writing

/-- `read` looks up the virtual connection of the frame if it comes to the payload. -/
theorem read_attends (attended : conn.Attended) (incoming : Str) (call : ReadCall) :
    (conn.read incoming call).conn.Attended ∧
      ∀ id, ((conn.read incoming call).conn.vconn id).isSome =
        ((conn.vconn id).isSome || decide (conn.frameRead incoming call = some id)) := by
  have header := readHeader_leaves
    (P := fun behind => behind.vconn = conn.vconn ∧ behind.wQueue = conn.wQueue ∧
      behind.wSz = conn.wSz ∧ behind.wId = conn.wId)
    (fun _ _ _ => ⟨rfl, rfl, rfl, rfl⟩) incoming call
  unfold Multiconn.read frameRead
  cases header_eq : conn.readHeader incoming call with
  | error outcome =>
      rw [header_eq] at header
      rcases header with ⟨vconn, queue, wSz, wId⟩
      exact ⟨attended.congr queue wSz wId (by simp [vconn]), by simp [vconn]⟩
  | ok passage =>
      rw [header_eq] at header
      rcases header with ⟨vconn, queue, wSz, wId⟩
      have kept (id : UInt8) (here : (conn.vconn id).isSome = true) :
          ((passage.conn.getVirtualConnection passage.conn.rId).vconn id).isSome = true := by
        rw [isSome_getVirtualConnection, vconn, here]
        rfl
      have attended' : (passage.conn.getVirtualConnection passage.conn.rId).Attended :=
        attended.congr queue wSz wId kept
      have ids (id : UInt8) :
          ((passage.conn.getVirtualConnection passage.conn.rId).vconn id).isSome =
            ((conn.vconn id).isSome || decide (some passage.conn.rId = some id)) := by
        simp [isSome_getVirtualConnection, vconn, eq_comm]
      have grown := sameIds_grow (passage.conn.getVirtualConnection passage.conn.rId)
        passage.conn.rId call.response
      have attended'' : ((passage.conn.getVirtualConnection passage.conn.rId).grow
          passage.conn.rId call.response).Attended :=
        attended'.congr rfl rfl rfl fun id here => by rw [grown, here]
      rcases readPayload_cases passage call with same | ⟨behind, rId, rSz, rState, same, joins⟩
      · simp only [same]
        exact ⟨attended', ids⟩
      · simp only [same]
        rcases joins with rfl | ⟨-, -, rfl⟩
        · exact ⟨⟨attended''.waiting, attended''.writing⟩, fun id => (grown id).trans (ids id)⟩
        · have here : (((passage.conn.getVirtualConnection passage.conn.rId).grow
              passage.conn.rId call.response).vconn passage.conn.rId).isSome = true := by
            rw [grown, isSome_getVirtualConnection]
            simp
          have queued := attended''.enqueue here
          exact ⟨⟨queued.waiting, queued.writing⟩, fun id => (grown id).trans (ids id)⟩

/-- A frame is started for a virtual connection that is there. -/
theorem getWriteSize_attends (attended : conn.Attended) :
    conn.getWriteSize.1.Attended ∧ conn.SameIds conn.getWriteSize.1 := by
  by_cases idle : conn.wSz = 0
  · cases queue_eq : conn.wQueue with
    | nil =>
        have same : conn.getWriteSize.1 = conn := by
          simp [Multiconn.getWriteSize, idle, queue_eq]
        rw [same]
        exact ⟨attended, fun id => rfl⟩
    | cons first queue =>
        have here := attended.waiting first (by simp [queue_eq])
        have ids : conn.SameIds (conn.getVirtualConnection first) := by
          intro id
          rw [isSome_getVirtualConnection]
          by_cases same : id = first
          · simp [same, here]
          · simp [same]
        simp only [Multiconn.getWriteSize, idle, if_true, queue_eq]
        refine ⟨⟨fun id member => ?_, fun _ => ?_⟩, ids⟩
        · exact (ids id).trans (attended.waiting id (by simp [queue_eq, member]))
        · exact (ids first).trans here
  · have same : conn.getWriteSize.1 = conn := by
      simp [Multiconn.getWriteSize, idle]
    rw [same]
    exact ⟨attended, fun id => rfl⟩

theorem write_attends (attended : conn.Attended) (call : WriteCall) :
    (conn.write call).conn.Attended ∧ conn.SameIds (conn.write call).conn := by
  unfold Multiconn.write
  by_cases idle : conn.wSz = 0
  · rw [if_pos idle]
    exact ⟨attended, fun id => rfl⟩
  rw [if_neg idle]
  have here := attended.writing idle
  have header := writeHeader_leaves
    (P := fun behind => behind.vconn = conn.vconn ∧ behind.wQueue = conn.wQueue ∧
      behind.wSz = conn.wSz ∧ behind.wId = conn.wId)
    ⟨rfl, rfl, rfl, rfl⟩ (fun _ _ => ⟨rfl, rfl, rfl, rfl⟩) call
  cases header_eq : conn.writeHeader call with
  | error outcome =>
      rw [header_eq] at header
      rcases header with ⟨vconn, queue, wSz, wId⟩
      exact ⟨attended.congr queue wSz wId (by simp [vconn]), fun id => by simp [vconn]⟩
  | ok passage =>
      rw [header_eq] at header
      rcases header with ⟨vconn, queue, wSz, wId⟩
      have ids (amount : Nat) : conn.SameIds (passage.conn.took passage.conn.wId amount) := by
        intro id
        rw [isSome_took, vconn, wId]
        by_cases same : id = conn.wId
        · simp [same, here]
        · simp [same]
      have kept (amount : Nat) : ∀ id ∈ passage.conn.wQueue,
          ((passage.conn.took passage.conn.wId amount).vconn id).isSome = true := by
        intro id member
        rw [ids amount id]
        exact attended.waiting id (queue ▸ member)
      have writing (amount : Nat) : ((passage.conn.took passage.conn.wId amount).vconn
          passage.conn.wId).isSome = true := by
        rw [ids amount, wId]
        exact here
      rcases writePayload_cases passage call with
        ⟨amt, -, -, ⟨-, same⟩ | ⟨-, -, ⟨-, same⟩ | ⟨-, same⟩⟩⟩
      · simp only [same]
        exact ⟨⟨kept amt, fun _ => writing amt⟩, ids amt⟩
      · simp only [same]
        refine ⟨⟨fun id member => ?_, fun frame => absurd rfl frame⟩, ids amt⟩
        rcases List.mem_append.mp member with before | new
        · exact kept amt id before
        · rw [List.mem_singleton] at new
          exact new ▸ writing amt
      · simp only [same]
        exact ⟨⟨kept amt, fun frame => absurd rfl frame⟩, ids amt⟩

theorem update_attends (attended : conn.Attended) :
    conn.update.Attended ∧ conn.SameIds conn.update := by
  unfold Multiconn.update
  induction ids generalizing conn with
  | nil => exact ⟨attended, fun id => rfl⟩
  | cons id ids ih =>
      rw [List.foldl_cons]
      split
      · rename_i turn
        rcases ih (attended.enqueue turn.2.1) with ⟨attended', same⟩
        exact ⟨attended', fun other => same other⟩
      · exact ih attended

/-- A new virtual connection gets the first free id. -/
theorem createVirtualConnection_attends (attended : conn.Attended) (bytes : Str) {id : UInt8}
    (free : ids.find? (fun id => (conn.vconn id).isNone) = some id) :
    (conn.createVirtualConnection bytes).1.Attended ∧
      ∀ other, ((conn.createVirtualConnection bytes).1.vconn other).isSome =
        ((conn.vconn other).isSome || decide (other = id)) := by
  have ids (other : UInt8) : (Function.update conn.vconn id (some bytes) other).isSome =
      ((conn.vconn other).isSome || decide (other = id)) := by
    by_cases same : other = id
    · simp [same]
    · simp [same]
  have kept (other : UInt8) (here : (conn.vconn other).isSome = true) :
      (Function.update conn.vconn id (some bytes) other).isSome = true := by
    rw [ids other, here]
    rfl
  have present : Attended { conn with vconn := Function.update conn.vconn id (some bytes) } :=
    attended.congr rfl rfl rfl kept
  simp only [createVirtualConnection, addVirtualConnection, free]
  split
  · have here : (Function.update conn.vconn id (some bytes) id).isSome = true := by simp
    exact ⟨present.enqueue here, ids⟩
  · exact ⟨present, ids⟩

end Multiconn

/-! ## What a call of the requester does to the tables -/

namespace Requester

variable {γ δ σ : Type} {before later requester : Requester γ δ} {wrapper : ObjectId}

/-- Every table is as it was, or has a new virtual connection at its first free id, or is gone with
its wrapper.  New wrappers are where nothing was. -/
structure Opens (before later : Requester γ δ) : Prop where
  tables : ∀ wrapper, later.table wrapper = before.table wrapper ∨
    (∃ id new, Multiconn.ids.find? (fun id => (before.table wrapper id).isNone) = some id ∧
      later.table wrapper = Function.update (before.table wrapper) id (some new)) ∨
    later.wrappers wrapper = none
  next : before.next ≤ later.next
  wrappers : ∀ wrapper, later.wrappers wrapper ≠ none →
    before.wrappers wrapper ≠ none ∨ before.next ≤ wrapper

theorem table_congr (same : later.wrappers wrapper = before.wrappers wrapper) :
    later.table wrapper = before.table wrapper := by
  simp only [table, same]

theorem table_of_none (none : requester.wrappers wrapper = none) :
    requester.table wrapper = fun _ => .none := by
  simp only [table, none]

theorem table_of_multiconn {endpoint : Endpoint} {vconn : UInt8 → Option ObjectId}
    (found : requester.wrappers wrapper = some ⟨endpoint, .multiconn vconn⟩) :
    requester.table wrapper = vconn := by
  simp only [table, found]

theorem Opens.of_wrappers (same : later.wrappers = before.wrappers)
    (next : later.next = before.next) : Opens before later where
  tables wrapper := Or.inl (table_congr (congrFun same wrapper))
  next := next.ge
  wrappers _ here := Or.inl (same ▸ here)

/-- A virtual connection that is created is in the table of its wrapper. -/
theorem table_created {endpoint : Endpoint} {vconn : UInt8 → Option ObjectId} {id : UInt8}
    {object : Linked γ δ} :
    (requester.created wrapper endpoint vconn id object).table wrapper =
      Function.update vconn id (some requester.next) := by
  simp [table, created, setWrapper]

theorem wrappers_created_ne {endpoint : Endpoint} {vconn : UInt8 → Option ObjectId} {id : UInt8}
    {object : Linked γ δ} {other : ObjectId} (differs : other ≠ wrapper) :
    (requester.created wrapper endpoint vconn id object).wrappers other =
      requester.wrappers other :=
  Function.update_of_ne differs _ _

theorem table_created_ne {endpoint : Endpoint} {vconn : UInt8 → Option ObjectId} {id : UInt8}
    {object : Linked γ δ} {other : ObjectId} (differs : other ≠ wrapper) :
    (requester.created wrapper endpoint vconn id object).table other = requester.table other :=
  table_congr (wrappers_created_ne differs)

variable [RequestGenerator γ σ] [Connection δ σ] {config : Config} {state state' : σ}
  {requester' : Requester γ δ} {object : Linked γ δ}

theorem wrappers_call {id : ObjectId} {asked : Call} {answer : Answer}
    (outcome : requester.call state id asked = .ok (state', requester', answer)) :
    requester'.wrappers = requester.wrappers ∧ requester'.next = requester.next := by
  rcases call_cases outcome with ⟨connector, connector', -, -, rfl⟩ |
    ⟨linker, linker', -, -, -, ⟨-, rfl⟩ | ⟨gen, -, -, rfl⟩⟩
  · exact ⟨rfl, rfl⟩
  · exact ⟨rfl, rfl⟩
  · exact ⟨rfl, rfl⟩

theorem opens_connectionMaker {id : ObjectId} {made : Bool}
    (outcome : requester.connectionMaker state id object = .ok (state', requester', made)) :
    Opens requester requester' := by
  cases found : requester.wrappers id with
  | none =>
      simp only [connectionMaker, found] at outcome
      cases outcome
  | some wrapper =>
      rcases wrapper with ⟨endpoint, conn⟩
      cases conn with
      | identity conn =>
          simp only [connectionMaker, found] at outcome
          cases outcome
          exact .of_wrappers rfl rfl
      | multiconn vconn =>
          simp only [connectionMaker, found] at outcome
          split at outcome
          · cases outcome
            exact .of_wrappers rfl rfl
          · rename_i index free
            rcases bind_eq_ok.mp outcome with ⟨⟨state₁, requester₁, answer⟩, called, outcome⟩
            cases outcome
            rcases wrappers_call called with ⟨wrappers, next⟩
            refine ⟨fun other => ?_, next.ge.trans' (Nat.le_succ _), fun other here => ?_⟩
            · rw [table_congr (congrFun wrappers other)]
              by_cases same : other = id
              · subst same
                rw [table_of_multiconn found]
                exact Or.inr (Or.inl ⟨index, requester.next, free, table_created⟩)
              · exact Or.inl (table_created_ne same)
            · left
              by_cases same : other = id
              · rw [same, found]
                simp
              · rw [wrappers] at here
                rwa [← wrappers_created_ne same]

/-- A new wrapper has no virtual connections yet. -/
theorem table_newWrapper {endpoint : Endpoint} {conn : Wrapped}
    (unused : requester.wrappers requester.next = none)
    (empty : ∀ vconn, conn = .multiconn vconn → vconn = fun _ => none) (other : ObjectId) :
    (requester.newWrapper ⟨endpoint, conn⟩).table other = requester.table other := by
  by_cases same : other = requester.next
  · subst same
    rw [table_of_none unused]
    cases conn with
    | identity conn => simp [table, newWrapper, setWrapper]
    | multiconn vconn =>
        cases empty vconn rfl
        simp [table, newWrapper, setWrapper]
  · apply table_congr
    simp [newWrapper, setWrapper, Function.update_of_ne same]

theorem wrappers_newWrapper {made : WrapperWrapper} {other : ObjectId}
    (here : (requester.newWrapper made).wrappers other ≠ none) :
    requester.wrappers other ≠ none ∨ requester.next ≤ other := by
  by_cases same : other = requester.next
  · exact Or.inr same.ge
  · left
    simpa [newWrapper, setWrapper, Function.update_of_ne same] using here

theorem opens_connect (pooled : Pooled config requester) {endpoint : Endpoint}
    {connects made : Bool}
    (outcome : requester.connect config state endpoint object connects =
      .ok (state', requester', made)) : Opens requester requester' := by
  rcases connect_cases outcome with ⟨-, -, rfl⟩ | ⟨-, ⟨id, maker⟩ | ⟨-, ⟨-, rfl⟩ | maker⟩⟩
  · exact .of_wrappers rfl rfl
  · exact opens_connectionMaker maker
  · have unused : (requester.newLinked object).wrappers (requester.newLinked object).next = none :=
      (pooled.fresh _ (Nat.le_succ _)).2
    refine ⟨fun other => Or.inl (table_newWrapper unused (by simp) other),
      (Nat.le_succ _).trans (Nat.le_succ _), fun other here => ?_⟩
    exact (wrappers_newWrapper here).imp_right (Nat.le_succ _).trans
  · have unused := (pooled.fresh requester.next le_rfl).2
    have opens := opens_connectionMaker maker
    refine ⟨fun other => ?_, (Nat.le_succ _).trans opens.next, fun other here => ?_⟩
    · have tables := opens.tables other
      rwa [table_newWrapper unused (by simp) other] at tables
    · rcases opens.wrappers other here with before | new
      · exact wrappers_newWrapper before
      · exact Or.inr ((Nat.le_succ _).trans new)

omit [RequestGenerator γ σ] in
theorem opens_close (requester : Requester γ δ) (state : σ) (id : ObjectId) :
    Opens requester (requester.close state id).2 := by
  rcases close_cases requester state id with ⟨-, same⟩ | ⟨wrapper, found, same⟩
  · rw [same]
    exact .of_wrappers rfl rfl
  · rw [same]
    have kept := @foldl_delete γ δ σ _ (requester.unwrapped id wrapper.endpoint)
      (fun _ left => left.wrappers = (requester.unwrapped id wrapper.endpoint).wrappers ∧
        left.next = requester.next) wrapper.conn.linked
      (fun left state other _ here => by
        rw [(delete_rest left state other).1, (delete_rest left state other).2.2.1]
        exact here) state ⟨rfl, rfl⟩
    refine ⟨fun other => ?_, kept.2.ge, fun other here => Or.inl ?_⟩
    · by_cases eq : other = id
      · right
        right
        rw [kept.1, eq]
        exact Function.update_self _ _ _
      · left
        apply table_congr
        rw [kept.1]
        exact Function.update_of_ne eq _ _
    · rw [kept.1] at here
      intro none
      by_cases eq : other = id
      · exact here (eq ▸ Function.update_self _ _ _)
      · exact here ((Function.update_of_ne eq _ _).trans none)

theorem opens_step {session next : Session γ δ σ} {event : Requester.Event γ δ σ}
    (pooled : Pooled config session.requester) (outcome : session.step config event = .ok next) :
    Opens session.requester next.requester := by
  cases event with
  | addRequest endpoint gen connects =>
      rcases bind_eq_ok.mp outcome with ⟨⟨state, requester, added⟩, made, outcome⟩
      cases outcome
      rcases addRequest_cases pooled made with ⟨id, -, -, -, rfl⟩ | connected
      · exact .of_wrappers rfl rfl
      · exact opens_connect pooled connected
  | addConnection endpoint connector connects =>
      rcases bind_eq_ok.mp outcome with ⟨⟨state, requester, added⟩, made, outcome⟩
      cases outcome
      exact opens_connect pooled made
  | call id call =>
      rcases bind_eq_ok.mp outcome with ⟨⟨state, requester, answer⟩, called, outcome⟩
      cases outcome
      exact .of_wrappers (wrappers_call called).1 (wrappers_call called).2
  | close id =>
      cases outcome
      exact opens_close session.requester session.state id
  | change state =>
      cases outcome
      exact .of_wrappers rfl rfl

end Requester

theorem Multiconn.nodup_ids : Multiconn.ids.Nodup := by
  refine List.Nodup.map_on (fun left small right small' same => ?_) List.nodup_range
  have values := congrArg UInt8.toNat same
  simpa [Nat.mod_eq_of_lt (List.mem_range.mp small),
    Nat.mod_eq_of_lt (List.mem_range.mp small')] using values

namespace Requester

variable {γ δ : Type} {before later : Requester γ δ} {wrapper : ObjectId}

theorem gained_of_eq (same : later.table wrapper = before.table wrapper) :
    before.gained later wrapper = [] := by
  simp [gained, same]

theorem gained_of_gone (gone : later.wrappers wrapper = none) :
    before.gained later wrapper = [] := by
  simp [gained, table_of_none gone]

theorem gained_of_update {id : UInt8} {new : ObjectId}
    (free : Multiconn.ids.find? (fun id => (before.table wrapper id).isNone) = some id)
    (opened : later.table wrapper = Function.update (before.table wrapper) id (some new)) :
    before.gained later wrapper = [id] := by
  have absent : before.table wrapper id = none := by simpa using List.find?_some free
  have only (other : UInt8) : ((before.table wrapper other).isNone &&
      (later.table wrapper other).isSome) = (other == id) := by
    by_cases same : other = id
    · simp [same, opened, absent]
    · rw [opened, Function.update_of_ne same]
      cases before.table wrapper other with
      | none => simp [same]
      | some object => simp [same]
  have single := Multiconn.ids.filter_beq id
  rw [List.count_eq_one_of_mem Multiconn.nodup_ids (Multiconn.mem_ids id)] at single
  rw [gained, funext only]
  exact single

end Requester

namespace Upstream

variable {γ δ σ : Type} {config : Requester.Config} {upstream next : Upstream γ δ σ}

/-- What every step keeps, whatever the peer sends: a `Multiconn` has the virtual connections of
its wrapper's table, which are those that were ever created for it. -/
structure Kept (config : Requester.Config) (upstream : Upstream γ δ σ) : Prop where
  pooled : Requester.Pooled config upstream.session.requester
  agree : ∀ wrapper id, ((upstream.conns wrapper).vconn id).isSome =
    (upstream.session.requester.table wrapper id).isSome
  attended : ∀ wrapper, (upstream.conns wrapper).Attended
  recorded : ∀ wrapper, upstream.session.requester.wrappers wrapper ≠ none → ∀ id,
    (upstream.session.requester.table wrapper id).isSome = true ↔
      id ∈ (upstream.creations wrapper).map (·.id)
  once : ∀ wrapper, ((upstream.creations wrapper).map (·.id)).Nodup
  fresh : ∀ wrapper, upstream.session.requester.next ≤ wrapper → upstream.creations wrapper = []

/-- What the table of a wrapper, its `Multiconn` and what it has created are behind a call. -/
theorem Kept.afterCall_cases (kept : upstream.Kept config) {session : Requester.Session γ δ σ}
    (opens : Requester.Opens upstream.session.requester session.requester)
    (event : Requester.Event γ δ σ) (pending : Str) (wrapper : ObjectId) :
    (session.requester.wrappers wrapper = none ∧
        (upstream.afterCall event pending session).conns wrapper = {} ∧
        (upstream.afterCall event pending session).creations wrapper =
          upstream.creations wrapper) ∨
      (session.requester.table wrapper = upstream.session.requester.table wrapper ∧
        (upstream.afterCall event pending session).conns wrapper = upstream.conns wrapper ∧
        (upstream.afterCall event pending session).creations wrapper =
          upstream.creations wrapper) ∨
      ∃ id new, Multiconn.ids.find? (fun id => ((upstream.conns wrapper).vconn id).isNone) =
          some id ∧
        session.requester.table wrapper =
          Function.update (upstream.session.requester.table wrapper) id (some new) ∧
        session.requester.wrappers wrapper ≠ none ∧
        (upstream.afterCall event pending session).conns wrapper =
          ((upstream.conns wrapper).createVirtualConnection pending).1 ∧
        (upstream.afterCall event pending session).creations wrapper =
          upstream.creations wrapper ++ [⟨id, upstream.data.length, true⟩] := by
  by_cases gone : session.requester.wrappers wrapper = none
  · left
    simp [Upstream.afterCall, gone, Requester.gained_of_gone gone]
  right
  rcases opens.tables wrapper with same | ⟨id, new, free, opened⟩ | none
  · left
    simp [Upstream.afterCall, gone, Requester.gained_of_eq same, same]
  · right
    have gained := Requester.gained_of_update free opened
    have free' : Multiconn.ids.find?
        (fun id => ((upstream.conns wrapper).vconn id).isNone) = some id := by
      simpa only [← Option.not_isSome, kept.agree wrapper] using free
    refine ⟨id, new, free', opened, gone, ?_, ?_⟩
    · simp [Upstream.afterCall, gone, gained]
    · simp [Upstream.afterCall, gained]
  · exact absurd none gone

/-- What is in the table of a wrapper that is still there was created, also when the wrapper is
new. -/
theorem Kept.created_iff (kept : upstream.Kept config) {session : Requester.Session γ δ σ}
    (opens : Requester.Opens upstream.session.requester session.requester) (wrapper : ObjectId)
    (here : session.requester.wrappers wrapper ≠ none) (id : UInt8) :
    (upstream.session.requester.table wrapper id).isSome = true ↔
      id ∈ (upstream.creations wrapper).map (·.id) := by
  rcases opens.wrappers wrapper here with before | new
  · exact kept.recorded wrapper before id
  · rw [kept.fresh wrapper new, Requester.table_of_none (kept.pooled.fresh wrapper new).2]
    simp

/-- A call that opens a virtual connection, or none, or closes a socket. -/
theorem Kept.afterCall (kept : upstream.Kept config) {session : Requester.Session γ δ σ}
    (pooled : Requester.Pooled config session.requester)
    (opens : Requester.Opens upstream.session.requester session.requester)
    (event : Requester.Event γ δ σ) (pending : Str) :
    (upstream.afterCall event pending session).Kept config := by
  have cases := kept.afterCall_cases opens event pending
  have known := kept.created_iff opens
  refine ⟨pooled, fun wrapper id => ?_, fun wrapper => ?_, fun wrapper here id => ?_,
    fun wrapper => ?_, fun wrapper beyond => ?_⟩
  · rcases cases wrapper with ⟨gone, conns, -⟩ | ⟨same, conns, -⟩ |
      ⟨id', new, free, opened, -, conns, -⟩
    · rw [conns]
      simp [Upstream.afterCall, Requester.table_of_none gone]
    · rw [conns, kept.agree wrapper id, ← same]
      rfl
    · rw [conns, ((Multiconn.createVirtualConnection_attends (kept.attended wrapper) pending
        free).2 id), kept.agree wrapper id]
      simp only [Upstream.afterCall, opened]
      by_cases here : id = id'
      · simp [here]
      · simp [here]
  · rcases cases wrapper with ⟨-, conns, -⟩ | ⟨-, conns, -⟩ | ⟨id', new, free, -, -, conns, -⟩
    · rw [conns]
      exact Multiconn.attended_empty
    · rw [conns]
      exact kept.attended wrapper
    · rw [conns]
      exact (Multiconn.createVirtualConnection_attends (kept.attended wrapper) pending free).1
  · rcases cases wrapper with
      ⟨gone, -⟩ | ⟨same, -, creations⟩ | ⟨id', new, -, opened, -, -, creations⟩
    · exact absurd gone here
    · rw [creations, ← known wrapper here id, ← same]
      rfl
    · rw [creations, List.map_append, List.mem_append, ← known wrapper here id]
      simp only [Upstream.afterCall, opened]
      by_cases same : id = id'
      · simp [same]
      · simp [same]
  · rcases cases wrapper with ⟨-, -, creations⟩ | ⟨-, -, creations⟩ |
      ⟨id', new, free, -, here, -, creations⟩
    · rw [creations]
      exact kept.once wrapper
    · rw [creations]
      exact kept.once wrapper
    · rw [creations, List.map_append]
      refine (kept.once wrapper).append (List.nodup_singleton _) ?_
      have absent : (upstream.conns wrapper).vconn id' = none := by
        simpa using List.find?_some free
      have free' := kept.agree wrapper id'
      rw [absent] at free'
      intro other member new
      obtain rfl : other = id' := by simpa using new
      rw [← known wrapper here other, ← free'] at member
      cases member
  · have before := kept.fresh wrapper (opens.next.trans beyond)
    have none := (pooled.fresh wrapper beyond).2
    simp [Upstream.afterCall, before, Requester.gained_of_gone none]

/-! ## Frames -/

/-- The id of the frame whose payload an operation comes to read. -/
def frame (conn : Multiconn) (incoming : Str) : Operation → Option UInt8
  | .read call => conn.frameRead incoming call
  | _ => none

/-- Only the frame that is read can be for a virtual connection that is not there. -/
theorem operated_attends {conn : Multiconn} (attended : conn.Attended) (incoming : Str)
    (operation : Operation) :
    (operated conn incoming operation).1.Attended ∧
      ∀ id, ((operated conn incoming operation).1.vconn id).isSome =
        ((conn.vconn id).isSome || decide (frame conn incoming operation = some id)) := by
  have unread {conn' : Multiconn} (same : conn.SameIds conn') (id : UInt8) :
      (conn'.vconn id).isSome =
        ((conn.vconn id).isSome || decide ((none : Option UInt8) = some id)) := by
    rw [same id]
    simp
  cases operation with
  | read call => exact Multiconn.read_attends attended incoming call
  | getWriteSize =>
      rcases Multiconn.getWriteSize_attends attended with ⟨attended', same⟩
      exact ⟨attended', unread same⟩
  | write call =>
      rcases Multiconn.write_attends attended call with ⟨attended', same⟩
      exact ⟨attended', unread same⟩
  | update =>
      rcases Multiconn.update_attends attended with ⟨attended', same⟩
      simp only [operated, frame]
      exact ⟨attended', unread same⟩
  | pending id bytes =>
      have same : conn.SameIds { conn with
          vconn := Function.update conn.vconn id ((conn.vconn id).map fun _ => bytes) } := by
        intro other
        by_cases eq : other = id
        · simp [eq]
        · simp [Function.update_of_ne eq]
      have kept (other : UInt8) (here : (conn.vconn other).isSome = true) :=
        (same other).trans here
      exact ⟨attended.congr rfl rfl rfl kept, unread same⟩

/-- The peer sends a frame only for a virtual connection that it was asked on. -/
def Solicits (upstream : Upstream γ δ σ) : Event γ δ σ → Prop
  | .operate wrapper operation =>
      match upstream.session.requester.wrappers wrapper with
      | some ⟨_, .multiconn vconn⟩ =>
          ∀ id ∈ frame (upstream.conns wrapper) (upstream.incoming wrapper) operation,
            vconn id ≠ none
      | _ => True
  | _ => True

/-- The `Multiconn` of a wrapper goes on. -/
def advance (upstream : Upstream γ δ σ) (wrapper : ObjectId) (operation : Operation) :
    Upstream γ δ σ :=
  let (conn, incoming) :=
    operated (upstream.conns wrapper) (upstream.incoming wrapper) operation
  { upstream with
    conns := Function.update upstream.conns wrapper conn
    incoming := Function.update upstream.incoming wrapper incoming }

/-- An operation goes on without the requester, or its frame creates a virtual connection. -/
theorem operate_cases (kept : upstream.Kept config) {wrapper : ObjectId} {operation : Operation}
    (outcome : upstream.operate config wrapper operation = .ok next) :
    (upstream.Solicits (.operate wrapper operation) ∧
      (next = upstream ∨
        (∀ id, frame (upstream.conns wrapper) (upstream.incoming wrapper) operation = some id →
          (upstream.session.requester.table wrapper id).isSome = true) ∧
        next = upstream.advance wrapper operation)) ∨
      ¬upstream.Solicits (.operate wrapper operation) ∧
        ∃ endpoint vconn id data,
          upstream.session.requester.wrappers wrapper = some ⟨endpoint, .multiconn vconn⟩ ∧
          frame (upstream.conns wrapper) (upstream.incoming wrapper) operation = some id ∧
          vconn id = none ∧ upstream.data[upstream.initData wrapper]? = some data ∧
          next = { upstream.advance wrapper operation with
            session := { upstream.session with
              requester := upstream.session.requester.created wrapper endpoint vconn id
                (data.reqLinkerCreator config) }
            creations := Function.update upstream.creations wrapper
              (upstream.creations wrapper ++ [⟨id, upstream.initData wrapper, false⟩]) } := by
  cases found : upstream.session.requester.wrappers wrapper with
  | none =>
      simp only [operate, found] at outcome
      cases outcome
      left
      simp [Solicits, found]
  | some made =>
      rcases made with ⟨endpoint, conn⟩
      cases conn with
      | identity conn =>
          simp only [operate, found] at outcome
          cases outcome
          left
          simp [Solicits, found]
      | multiconn vconn =>
          have ids := (operated_attends (kept.attended wrapper) (upstream.incoming wrapper)
            operation).2
          have table := Requester.table_of_multiconn found
          have missing (id : UInt8) : ((vconn id).isNone && ((operated (upstream.conns wrapper)
              (upstream.incoming wrapper) operation).1.vconn id).isSome) = true ↔
                vconn id = none ∧ frame (upstream.conns wrapper) (upstream.incoming wrapper)
                  operation = some id := by
            rw [ids id, kept.agree wrapper id, table]
            cases vconn id with
            | none => simp
            | some object => simp
          simp only [operate, found] at outcome
          split at outcome
          · rename_i none
            cases outcome
            have there (id : UInt8) (read : frame (upstream.conns wrapper)
                (upstream.incoming wrapper) operation = some id) : vconn id ≠ .none := by
              intro absent
              exact List.find?_eq_none.mp none id (Multiconn.mem_ids id)
                ((missing id).mpr ⟨absent, read⟩)
            left
            refine ⟨?_, Or.inr ⟨fun id read => ?_, rfl⟩⟩
            · simp only [Solicits, found]
              exact fun id read => there id read
            · rw [table]
              exact Option.isSome_iff_ne_none.mpr (there id read)
          · rename_i id some
            have met := List.find?_some some
            rcases (missing id).mp met with ⟨absent, read⟩
            simp only [createFromFrame] at outcome
            split at outcome
            · cases outcome
            · rename_i data memory
              cases outcome
              right
              refine ⟨?_, endpoint, vconn, id, data, rfl, read, absent, memory, rfl⟩
              simp only [Solicits, found]
              exact fun solicits => solicits id read absent

/-- Where each frame is for a virtual connection that is there, only the `Multiconn` changes. -/
theorem Kept.advance (kept : upstream.Kept config) {wrapper : ObjectId} {operation : Operation}
    (there : ∀ id, frame (upstream.conns wrapper) (upstream.incoming wrapper) operation = some id →
      (upstream.session.requester.table wrapper id).isSome = true) :
    (upstream.advance wrapper operation).Kept config := by
  have operated := operated_attends (kept.attended wrapper) (upstream.incoming wrapper) operation
  refine ⟨kept.pooled, fun other id => ?_, fun other => ?_, kept.recorded, kept.once, kept.fresh⟩
  · by_cases same : other = wrapper
    · subst same
      simp only [Upstream.advance, Function.update_self, operated.2 id, kept.agree other id]
      by_cases read : frame (upstream.conns other) (upstream.incoming other) operation = some id
      · simp [there id read]
      · simp [read]
    · simpa only [Upstream.advance, Function.update_of_ne same] using kept.agree other id
  · by_cases same : other = wrapper
    · subst same
      simpa only [Upstream.advance, Function.update_self] using operated.1
    · simpa only [Upstream.advance, Function.update_of_ne same] using kept.attended other

theorem ReqLinkerData.busy (data : ReqLinkerData γ δ) :
    Requester.Busy (data.reqLinkerCreator config) := by
  cases data with
  | request endpoint gen => exact Requester.busy_create _
  | direct connector =>
      rintro linker same
      cases same

/-- A frame creates a virtual connection at its id. -/
theorem Kept.createFromFrame (kept : upstream.Kept config) {wrapper : ObjectId}
    {operation : Operation} {endpoint : Endpoint} {vconn : UInt8 → Option ObjectId} {id : UInt8}
    (data : ReqLinkerData γ δ)
    (found : upstream.session.requester.wrappers wrapper = some ⟨endpoint, .multiconn vconn⟩)
    (read : frame (upstream.conns wrapper) (upstream.incoming wrapper) operation = some id)
    (absent : vconn id = none) (from_ : Nat) :
    Kept config { upstream.advance wrapper operation with
      session := { upstream.session with
        requester := upstream.session.requester.created wrapper endpoint vconn id
          (data.reqLinkerCreator config) }
      creations := Function.update upstream.creations wrapper
        (upstream.creations wrapper ++ [⟨id, from_, false⟩]) } := by
  have operated := operated_attends (kept.attended wrapper) (upstream.incoming wrapper) operation
  have table := Requester.table_of_multiconn found
  have tables (other : ObjectId) (differs : other ≠ wrapper) :
      (upstream.session.requester.created wrapper endpoint vconn id
        (data.reqLinkerCreator config)).table other = upstream.session.requester.table other :=
    Requester.table_created_ne differs
  refine ⟨kept.pooled.created (ReqLinkerData.busy data) found id, fun other id' => ?_,
    fun other => ?_, fun other here id' => ?_, fun other => ?_, fun other beyond => ?_⟩
  · by_cases same : other = wrapper
    · subst same
      simp only [Upstream.advance, Function.update_self, operated.2 id', kept.agree other id',
        Requester.table_created, read, table]
      by_cases eq : id' = id
      · simp [eq]
      · simp [Function.update_of_ne eq, Ne.symm eq]
    · simpa only [Upstream.advance, Function.update_of_ne same, tables other same] using
        kept.agree other id'
  · by_cases same : other = wrapper
    · subst same
      simpa only [Upstream.advance, Function.update_self] using operated.1
    · simpa only [Upstream.advance, Function.update_of_ne same] using kept.attended other
  · by_cases same : other = wrapper
    · subst same
      have known := kept.recorded other (by simp [found]) id'
      rw [table] at known
      simp only [Requester.table_created, Function.update_self, List.map_append, List.mem_append,
        ← known]
      by_cases eq : id' = id
      · simp [eq]
      · simp [eq]
    · simp only at here
      rw [Requester.wrappers_created_ne same] at here
      simpa only [Function.update_of_ne same, tables other same] using
        kept.recorded other here id'
  · by_cases same : other = wrapper
    · subst same
      simp only [Function.update_self, List.map_append]
      refine (kept.once other).append (List.nodup_singleton _) ?_
      intro place member new
      obtain rfl : place = id := by simpa using new
      rw [← kept.recorded other (by simp [found]), table, absent] at member
      cases member
    · simpa only [Function.update_of_ne same] using kept.once other
  · have before : upstream.session.requester.next ≤ other := (Nat.le_succ _).trans beyond
    have differs : other ≠ wrapper := by
      rintro rfl
      rw [(kept.pooled.fresh other before).2] at found
      cases found
    simpa only [Function.update_of_ne differs] using kept.fresh other before

variable [RequestGenerator γ σ] [Connection δ σ]

theorem pooled_step {session session' : Requester.Session γ δ σ}
    {event : Requester.Event γ δ σ} (pooled : Requester.Pooled config session.requester)
    (outcome : session.step config event = .ok session') :
    Requester.Pooled config session'.requester := by
  cases event with
  | addRequest endpoint gen connects =>
      rcases bind_eq_ok.mp outcome with ⟨⟨state, requester, added⟩, made, outcome⟩
      cases outcome
      exact pooled.addRequest made
  | addConnection endpoint connector connects =>
      rcases bind_eq_ok.mp outcome with ⟨⟨state, requester, added⟩, made, outcome⟩
      cases outcome
      have busy : Requester.Busy (.connector connector : Linked γ δ) := by
        rintro linker same
        cases same
      exact pooled.connect busy made
  | call id call =>
      rcases bind_eq_ok.mp outcome with ⟨⟨state, requester, answer⟩, called, outcome⟩
      cases outcome
      exact pooled.call called
  | close id =>
      cases outcome
      exact pooled.close session.state id
  | change state =>
      cases outcome
      exact pooled

theorem Kept.step (kept : upstream.Kept config) {event : Event γ δ σ}
    (outcome : upstream.step config event = .ok next) : next.Kept config := by
  cases event with
  | call event pending =>
      rcases bind_eq_ok.mp outcome with ⟨session, called, outcome⟩
      cases outcome
      exact kept.afterCall (pooled_step kept.pooled called)
        (Requester.opens_step kept.pooled called) event pending
  | receive wrapper bytes =>
      cases outcome
      exact ⟨kept.pooled, kept.agree, kept.attended, kept.recorded, kept.once, kept.fresh⟩
  | operate wrapper operation =>
      rcases operate_cases kept outcome with ⟨-, rfl | ⟨there, rfl⟩⟩ |
        ⟨-, endpoint, vconn, id, data, found, read, absent, -, rfl⟩
      · exact kept
      · exact kept.advance there
      · exact kept.createFromFrame data found read absent _

/-- What was created for a wrapper stays recorded. -/
theorem creations_step (kept : upstream.Kept config) {event : Event γ δ σ}
    (outcome : upstream.step config event = .ok next) (wrapper : ObjectId) :
    upstream.creations wrapper <+: next.creations wrapper := by
  cases event with
  | call event pending =>
      rcases bind_eq_ok.mp outcome with ⟨session, called, outcome⟩
      cases outcome
      exact List.prefix_append _ _
  | receive wrapper' bytes =>
      cases outcome
      exact List.prefix_rfl
  | operate wrapper' operation =>
      rcases operate_cases kept outcome with ⟨-, rfl | ⟨-, rfl⟩⟩ |
        ⟨-, endpoint, vconn, id, data, -, -, -, -, rfl⟩
      · exact List.prefix_rfl
      · exact List.prefix_rfl
      · by_cases same : wrapper = wrapper'
        · subst same
          simp
        · simp only [Function.update_of_ne same]
          exact List.prefix_rfl

omit [RequestGenerator γ σ] [Connection δ σ] in
theorem kept_start (state : σ) : (start state : Upstream γ δ σ).Kept config where
  pooled := (Requester.Session.invariant_start state).pooled
  agree _ _ := rfl
  attended _ := Multiconn.attended_empty
  recorded _ here := absurd rfl here
  once _ := List.nodup_nil
  fresh _ _ := rfl

theorem Kept.run (kept : upstream.Kept config) {events : List (Event γ δ σ)}
    (outcome : upstream.run config events = .ok next) : next.Kept config := by
  induction events generalizing upstream with
  | nil =>
      cases outcome
      exact kept
  | cons event events ih =>
      rcases bind_eq_ok.mp outcome with ⟨middle, stepped, outcome⟩
      exact ih (kept.step stepped) outcome

theorem creations_run (kept : upstream.Kept config) {events : List (Event γ δ σ)}
    (outcome : upstream.run config events = .ok next) (wrapper : ObjectId) :
    upstream.creations wrapper <+: next.creations wrapper := by
  induction events generalizing upstream with
  | nil =>
      cases outcome
      exact List.prefix_rfl
  | cons event events ih =>
      rcases bind_eq_ok.mp outcome with ⟨middle, stepped, outcome⟩
      exact (creations_step kept stepped wrapper).trans (ih (kept.step stepped) outcome)

end Upstream
end GnyProxy
