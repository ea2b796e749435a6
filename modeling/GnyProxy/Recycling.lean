import GnyProxy.Proxy
import GnyProxy.Upstream

/-!
# Ids that are never free again

A `Multiconn` on the side of the client can create a virtual connection until 256 have been created
on it, no matter how many of them are finished: an idle `ReqLinker` keeps its id, and so does the
`Connector` of a tunnel that has ended.
-/

namespace GnyProxy

namespace Multiconn

@[simp] theorem length_ids : ids.length = 256 := by simp [ids]

variable {conn : Multiconn}

/-- A new virtual connection is refused exactly when all ids are taken. -/
theorem createVirtualConnection_iff (bytes : Str) :
    (conn.createVirtualConnection bytes).2 = true ↔ ∃ id, conn.vconn id = none := by
  unfold createVirtualConnection addVirtualConnection
  cases free : ids.find? fun id => (conn.vconn id).isNone with
  | none =>
      simp only [Bool.false_eq_true, false_iff, not_exists]
      intro id absent
      have taken := List.find?_eq_none.mp free id (mem_ids id)
      simp [absent] at taken
  | some id =>
      simp only [true_iff]
      exact ⟨id, by simpa using List.find?_some free⟩

end Multiconn

namespace Upstream

variable {γ δ σ : Type} {config : Requester.Config} {upstream : Upstream γ δ σ}
  {wrapper : ObjectId}

/-- How many virtual connections were created for the wrapper so far. -/
def opened (upstream : Upstream γ δ σ) (wrapper : ObjectId) : Nat :=
  (upstream.creations wrapper).length

/-- `create_virtual_connection` succeeds. -/
def Creates (upstream : Upstream γ δ σ) (wrapper : ObjectId) : Prop :=
  ∀ pending, ((upstream.conns wrapper).createVirtualConnection pending).2 = true

/-- A `ReqLinker` is in use while it has a request in progress, and a `Connector` while both ends
of its tunnel are alive. -/
def usedAt (alive : δ → σ → Bool) (upstream : Upstream γ δ σ) (wrapper : ObjectId) (id : UInt8) :
    Bool :=
  match upstream.session.requester.table wrapper id with
  | none => false
  | some object =>
      match upstream.session.requester.linked object with
      | some (.reqLinker linker) => linker.gen.isSome
      | some (.connector connector) => alive connector upstream.session.state
      | none => false

/-- How many of its virtual connections are in use. -/
def inUse (alive : δ → σ → Bool) (upstream : Upstream γ δ σ) (wrapper : ObjectId) : Nat :=
  Multiconn.ids.countP (upstream.usedAt alive wrapper)

theorem inUse_le (alive : δ → σ → Bool) (upstream : Upstream γ δ σ) (wrapper : ObjectId) :
    upstream.inUse alive wrapper ≤ 256 := by
  have bound := @List.countP_le_length _ (upstream.usedAt alive wrapper) Multiconn.ids
  rwa [Multiconn.length_ids] at bound

theorem creates_iff_free (kept : upstream.Kept config) :
    upstream.Creates wrapper ↔ ∃ id, upstream.session.requester.table wrapper id = none := by
  have agree (id : UInt8) : (upstream.conns wrapper).vconn id = none ↔
      upstream.session.requester.table wrapper id = none := by
    rw [← Option.not_isSome_iff_eq_none, ← Option.not_isSome_iff_eq_none, kept.agree wrapper id]
  simp only [Creates, Multiconn.createVirtualConnection_iff, agree]
  exact ⟨fun all => all [], fun some _ => some⟩

/-- Every id was taken at most once, so that one is free exactly while fewer than 256 virtual
connections were created. -/
theorem creates_iff (kept : upstream.Kept config)
    (here : upstream.session.requester.wrappers wrapper ≠ none) :
    upstream.Creates wrapper ↔ upstream.opened wrapper < 256 := by
  have once := kept.once wrapper
  have recorded := kept.recorded wrapper here
  have count : upstream.opened wrapper = ((upstream.creations wrapper).map (·.id)).length := by
    rw [opened, List.length_map]
  rw [creates_iff_free kept, count]
  constructor
  · rintro ⟨id, free⟩
    have absent : id ∉ (upstream.creations wrapper).map (·.id) := by
      rw [← recorded id, free]
      simp
    have larger : (id :: (upstream.creations wrapper).map (·.id)).Nodup :=
      List.nodup_cons.mpr ⟨absent, once⟩
    have within := (List.subperm_of_subset larger fun other _ => Multiconn.mem_ids other).length_le
    rw [Multiconn.length_ids, List.length_cons] at within
    omega
  · intro few
    by_contra full
    push Not at full
    have all (id : UInt8) : id ∈ (upstream.creations wrapper).map (·.id) := by
      rw [← recorded id]
      exact Option.isSome_iff_ne_none.mpr (full id)
    have within := (List.subperm_of_subset Multiconn.nodup_ids fun id _ => all id).length_le
    rw [Multiconn.length_ids] at within
    omega

variable [RequestGenerator γ σ] [Connection δ σ]

/-- In every run a `Multiconn` that has ids which are not in use can create a virtual connection
exactly if fewer than 256 were ever created on it. -/
theorem recycles_iff (config : Requester.Config) (state : σ) (events : List (Event γ δ σ))
    (last : Upstream γ δ σ) (alive : δ → σ → Bool) (wrapper : ObjectId)
    (outcome : (start state : Upstream γ δ σ).run config events = .ok last)
    (here : last.session.requester.wrappers wrapper ≠ none) :
    (last.inUse alive wrapper < 256 → last.Creates wrapper) ↔
      last.opened wrapper < 256 ∨ last.inUse alive wrapper = 256 := by
  have kept := (kept_start state).run outcome
  have most := inUse_le alive last wrapper
  rw [creates_iff kept here]
  omega

/-! ## Tunnels that have all ended -/

/-- Nobody asks for anything but tunnels. -/
@[reducible] def noRequests : RequestGenerator Empty Shared where
  generateRequest gen := nomatch gen
  readResponse gen := nomatch gen

/-- Both ends of the tunnel are alive. -/
def linkedTwice (connector : Connector) (shared : Shared) : Bool :=
  shared.cells connector.conn.linkedCount = some 2

/-- Clients with a tunnel each. -/
def tunnelling : Shared where
  clients _ := { linker := .create ⟨.gny, .gny, none, []⟩ }
  cells _ := some 2

/-- The `Connector` of a client's tunnel. -/
def tunnelOf (client : ClientId) : Connector := ⟨none, client, client⟩

/-- One tunnel after the other is opened. -/
def openTunnels (number : Nat) : List (Event Empty Connector Shared) :=
  (List.range number).map fun client =>
    .call (.addConnection ([], []) (tunnelOf client) true) []

/-- Their clients all go away. -/
def abandon : Event Empty Connector Shared :=
  .call (.change { tunnelling with cells := fun _ => some 1 }) []

def oneSocket : Requester.Config := ⟨.gny, .gny, true, 1, id⟩

/-- The tunnels share the socket that was opened for the first. -/
structure Tunnelled (upstream : Upstream Empty Connector Shared) (number : Nat) : Prop where
  kept : upstream.Kept oneSocket
  state : upstream.session.state = tunnelling
  sockets : upstream.session.requester.connMp ([], []) = [0]
  socket : ∃ vconn, upstream.session.requester.wrappers 0 = some ⟨([], []), .multiconn vconn⟩
  opened : upstream.opened 0 = number

/-- A new tunnel has nothing to write yet. -/
theorem call_created {requester : Requester Empty Connector} {vconn : UInt8 → Option ObjectId}
    {index : UInt8} {client : ClientId} {endpoint : Endpoint} :
    @Requester.call _ _ _ noRequests _
      (requester.created 0 endpoint vconn index (.connector (tunnelOf client))) tunnelling
      requester.next .getWriteSize =
        .ok (tunnelling, (requester.created 0 endpoint vconn index
          (.connector (tunnelOf client))).setLinked requester.next (.connector (tunnelOf client)),
          {}) := by
  have linked : (requester.created 0 endpoint vconn index (.connector (tunnelOf client))).linked
      requester.next = some (.connector (tunnelOf client)) :=
    Function.update_self _ _ _
  simp only [Requester.call, linked]
  rfl

/-- Another tunnel gets an id of the socket while there is one. -/
theorem Tunnelled.open {upstream : Upstream Empty Connector Shared} {number : Nat}
    (tunnelled : upstream.Tunnelled number) (room : number < 256) (client : ClientId) :
    ∃ next, @Upstream.step _ _ _ noRequests _ oneSocket upstream
        (.call (.addConnection ([], []) (tunnelOf client) true) []) = .ok next ∧
      next.Tunnelled (number + 1) := by
  rcases tunnelled.socket with ⟨vconn, found⟩
  have table := Requester.table_of_multiconn found
  have here : upstream.session.requester.wrappers 0 ≠ none := by simp [found]
  have some : ∃ index, Multiconn.ids.find? (fun id => (vconn id).isNone) = some index := by
    rw [← tunnelled.opened, ← creates_iff tunnelled.kept here, creates_iff_free tunnelled.kept,
      table] at room
    rcases room with ⟨id, free⟩
    cases first : Multiconn.ids.find? fun id => (vconn id).isNone with
    | none => exact absurd (by simp [free]) (List.find?_eq_none.mp first id (Multiconn.mem_ids id))
    | some index => exact ⟨index, rfl⟩
  rcases some with ⟨index, free⟩
  have order : oneSocket.inOrder [0] = [0] := rfl
  let requester := (upstream.session.requester.created 0 ([], []) vconn index
    (.connector (tunnelOf client))).setLinked upstream.session.requester.next
      (.connector (tunnelOf client))
  have called := @call_created upstream.session.requester vconn index client ([], [])
  have stepped : @Requester.Session.step _ _ _ noRequests _ oneSocket upstream.session
      (.addConnection ([], []) (tunnelOf client) true) =
        .ok { upstream.session with requester, state := tunnelling } := by
    simp only [Requester.created] at called
    simp only [Requester.Session.step, Requester.addConnection, Requester.connect,
      tunnelled.sockets, order, Requester.connectExisting, Requester.connectionMaker, found, free,
      tunnelled.state, called, ok_bind, if_true]
    rfl
  have outcome : @Upstream.step _ _ _ noRequests _ oneSocket upstream
      (.call (.addConnection ([], []) (tunnelOf client) true) []) =
        .ok (upstream.afterCall (.addConnection ([], []) (tunnelOf client) true) []
          { upstream.session with requester, state := tunnelling }) := by
    simp only [Upstream.step, stepped, ok_bind]
  have wrappers : requester.wrappers 0 =
      Option.some ⟨([], []), .multiconn (Function.update vconn index
        (Option.some upstream.session.requester.next))⟩ := by
    simp only [requester, Requester.setLinked, Requester.created, Requester.setWrapper,
      Function.update_self]
  refine ⟨_, outcome, @Kept.step _ _ _ _ _ _ noRequests _ tunnelled.kept _ outcome, rfl,
    tunnelled.sockets, ⟨_, wrappers⟩, ?_⟩
  have gained : upstream.session.requester.gained requester 0 = [index] := by
    apply Requester.gained_of_update
    · rw [table]
      exact free
    · rw [table, Requester.table_of_multiconn wrappers]
  have before := tunnelled.opened
  simp only [Upstream.opened] at before
  simp only [Upstream.opened, Upstream.afterCall, gained, List.map_cons, List.map_nil,
    List.length_append, List.length_singleton, before]

/-- A tunnel in use, and 255 ids that are free. -/
theorem recycles_iff_tunnel : ∃ last,
    @Upstream.run _ _ _ noRequests _ oneSocket (start tunnelling) (openTunnels 1) = .ok last ∧
      ((last.inUse linkedTwice 0 < 256 → last.Creates 0) ↔
        last.opened 0 < 256 ∨ last.inUse linkedTwice 0 = 256) :=
  ⟨_, rfl, @recycles_iff _ _ _ noRequests _ oneSocket tunnelling (openTunnels 1) _ linkedTwice 0 rfl
    (Option.some_ne_none _)⟩

/-- The first tunnel opens the socket. -/
theorem tunnelled_first :
    ∃ next, @Upstream.run _ _ _ noRequests _ oneSocket (start tunnelling) (openTunnels 1) =
      .ok next ∧ next.Tunnelled 1 := by
  have outcome : ∃ next, @Upstream.run _ _ _ noRequests _ oneSocket (start tunnelling)
      (openTunnels 1) = .ok next ∧ next.session.state = tunnelling ∧
        next.session.requester.connMp ([], []) = [0] ∧
        (∃ vconn, next.session.requester.wrappers 0 = some ⟨([], []), .multiconn vconn⟩) ∧
        next.opened 0 = 1 :=
    ⟨_, rfl, rfl, rfl, ⟨_, rfl⟩, by decide +kernel⟩
  rcases outcome with ⟨next, outcome, state, sockets, socket, opened⟩
  exact ⟨next, outcome, @Kept.run _ _ _ _ _ _ noRequests _ (kept_start tunnelling) _ outcome,
    state, sockets, socket, opened⟩

theorem run_concat {middle : Upstream γ δ σ} {events : List (Event γ δ σ)} {event : Event γ δ σ}
    (outcome : upstream.run config events = .ok middle) :
    upstream.run config (events ++ [event]) = middle.step config event := by
  induction events generalizing upstream with
  | nil =>
      cases outcome
      simp only [List.nil_append, run]
      cases middle.step config event with
      | error fault => rfl
      | ok next => rfl
  | cons first events ih =>
      rcases bind_eq_ok.mp outcome with ⟨next, stepped, outcome⟩
      rw [List.cons_append, run, stepped, ok_bind]
      exact ih outcome

theorem tunnelled_all (number : Nat) (few : number < 256) :
    ∃ next, @Upstream.run _ _ _ noRequests _ oneSocket (start tunnelling)
      (openTunnels (number + 1)) = .ok next ∧ next.Tunnelled (number + 1) := by
  induction number with
  | zero => exact tunnelled_first
  | succ number ih =>
      rcases ih (by omega) with ⟨middle, outcome, tunnelled⟩
      rcases tunnelled.open few (number + 1) with ⟨next, opened, tunnelled'⟩
      refine ⟨next, ?_, tunnelled'⟩
      rw [openTunnels, List.range_succ, List.map_append]
      exact (@run_concat _ _ _ _ _ noRequests _ _ _ _ outcome).trans opened

/-- Behind 256 tunnels that have all ended none of the ids is in use, and no other virtual
connection can be created. -/
theorem not_recycled_tunnels : ∃ last,
    @Upstream.run _ _ _ noRequests _ oneSocket (start tunnelling) (openTunnels 256 ++ [abandon]) =
      .ok last ∧ last.inUse linkedTwice 0 = 0 ∧ ¬last.Creates 0 := by
  rcases tunnelled_all 255 (by decide) with ⟨middle, outcome, tunnelled⟩
  rcases tunnelled.socket with ⟨vconn, found⟩
  let shared : Shared := { tunnelling with cells := fun _ => some 1 }
  let last := middle.afterCall (.change shared) [] { middle.session with state := shared }
  have stepped : @Upstream.step _ _ _ noRequests _ oneSocket middle abandon = .ok last := rfl
  have kept := @Kept.step _ _ _ _ _ _ noRequests _ tunnelled.kept _ stepped
  have opened : last.opened 0 = 256 := by
    have gained := @Requester.gained_of_eq _ _ middle.session.requester
      middle.session.requester 0 rfl
    have before := tunnelled.opened
    simp only [Upstream.opened] at before
    simp only [last, Upstream.opened, Upstream.afterCall, gained, List.map_nil, List.append_nil,
      before]
  refine ⟨last, (@run_concat _ _ _ _ _ noRequests _ _ _ _ outcome).trans stepped, ?_, ?_⟩
  · apply List.countP_eq_zero.mpr
    intro id _ used
    unfold usedAt at used
    split at used
    · cases used
    · split at used
      · rename_i linker _
        cases gen : linker.gen with
        | none => simp [gen] at used
        | some nobody => exact nobody.elim
      · simp [linkedTwice, last, shared, Upstream.afterCall] at used
      · cases used
  · rw [creates_iff kept (by simp [last, Upstream.afterCall, found]), opened]
    decide

end Upstream
end GnyProxy
