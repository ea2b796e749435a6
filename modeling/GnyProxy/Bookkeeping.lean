import GnyProxy.Requester

/-!
# The bookkeeping of the requester

In every run the maps of the requester hold exactly the idle `ReqLinker`s and the sockets of each
endpoint, and a generator that was accepted is attached to one `ReqLinker` until it is deleted.
-/

namespace GnyProxy

namespace Requester

/-! ## Runs -/

inductive Event (γ δ σ : Type) where
  | addRequest (endpoint : Endpoint) (gen : γ) (connects : Bool)
  | addConnection (endpoint : Endpoint) (connector : δ) (connects : Bool)
  | call (id : ObjectId) (call : Call)
  /-- The socket of a wrapper is closed. -/
  | close (id : ObjectId)
  /-- The state behind the generators changes. -/
  | change (state : σ)

/-- The generator that is handed over. -/
def Event.offered {γ δ σ : Type} : Event γ δ σ → Option γ
  | addRequest _ gen _ => some gen
  | _ => none

/-- A requester with the generators that `add_request` accepted. -/
structure Session (γ δ σ : Type) where
  requester : Requester γ δ := {}
  state : σ
  accepted : List (Endpoint × γ) := []

namespace Session

variable {γ δ σ : Type} [RequestGenerator γ σ] [Connection δ σ]

def step (config : Config) (session : Session γ δ σ) :
    Event γ δ σ → Except Fault (Session γ δ σ)
  | .addRequest endpoint gen connects => do
      let (state, requester, added) ←
        session.requester.addRequest config session.state endpoint gen connects
      .ok { requester, state
            accepted := if added then session.accepted ++ [(endpoint, gen)] else session.accepted }
  | .addConnection endpoint connector connects => do
      let (state, requester, _) ←
        session.requester.addConnection config session.state endpoint connector connects
      .ok { session with requester, state }
  | .call id call => do
      let (state, requester, _) ← session.requester.call session.state id call
      .ok { session with requester, state }
  | .close id =>
      let (state, requester) := session.requester.close session.state id
      .ok { session with requester, state }
  | .change state => .ok { session with state }

def run (config : Config) : Session γ δ σ → List (Event γ δ σ) → Except Fault (Session γ δ σ)
  | session, [] => .ok session
  | session, event :: events => do
      let session ← session.step config event
      run config session events

end Session

/-! ## Who is attached to what -/

section Assigned

variable {ι ε γ : Type}

/-- Everything accepted is attached to one place, where it was accepted for, until it is deleted. -/
structure Assigned (attached : ι → ε → γ → Prop) (deleted : γ → Prop)
    (accepted : List (ε × γ)) : Prop where
  known : ∀ id endpoint gen, attached id endpoint gen →
    (endpoint, gen) ∈ accepted ∧ ¬deleted gen
  once : ∀ id endpoint id' endpoint' gen, attached id endpoint gen →
    attached id' endpoint' gen → id = id' ∧ endpoint = endpoint'
  served : ∀ endpoint gen, (endpoint, gen) ∈ accepted → ¬deleted gen →
    ∃ id, attached id endpoint gen
  deleted : ∀ gen, deleted gen → ∃ endpoint, (endpoint, gen) ∈ accepted

variable {attached attached' : ι → ε → γ → Prop} {deleted deleted' : γ → Prop}
  {accepted : List (ε × γ)}

theorem Assigned.congr (assigned : Assigned attached deleted accepted)
    (same : ∀ id endpoint gen, attached' id endpoint gen ↔ attached id endpoint gen) :
    Assigned attached' deleted accepted where
  known id endpoint gen here := assigned.known id endpoint gen ((same _ _ _).mp here)
  once id endpoint id' endpoint' gen here there :=
    assigned.once id endpoint id' endpoint' gen ((same _ _ _).mp here) ((same _ _ _).mp there)
  served endpoint gen member alive := by
    obtain ⟨id, here⟩ := assigned.served endpoint gen member alive
    exact ⟨id, (same _ _ _).mpr here⟩
  deleted := assigned.deleted

/-- Something new is attached to a place where nothing was. -/
theorem Assigned.attach (assigned : Assigned attached deleted accepted) {place : ι} {at_ : ε}
    {new : γ} (unknown : ∀ endpoint, (endpoint, new) ∉ accepted)
    (same : ∀ id endpoint gen, attached' id endpoint gen ↔
      (id = place ∧ endpoint = at_ ∧ gen = new) ∨ attached id endpoint gen) :
    Assigned attached' deleted (accepted ++ [(at_, new)]) where
  known id endpoint gen here := by
    obtain ⟨-, rfl, rfl⟩ | before := (same _ _ _).mp here
    · refine ⟨by simp, fun gone => ?_⟩
      obtain ⟨endpoint', member⟩ := assigned.deleted gen gone
      exact unknown endpoint' member
    · obtain ⟨member, alive⟩ := assigned.known id endpoint gen before
      exact ⟨List.mem_append_left _ member, alive⟩
  once id endpoint id' endpoint' gen here there := by
    obtain ⟨rfl, rfl, rfl⟩ | here := (same _ _ _).mp here
    · obtain ⟨rfl, rfl, -⟩ | there := (same _ _ _).mp there
      · exact ⟨rfl, rfl⟩
      · exact absurd (assigned.known _ _ _ there).1 (unknown _)
    · obtain ⟨rfl, rfl, rfl⟩ | there := (same _ _ _).mp there
      · exact absurd (assigned.known _ _ _ here).1 (unknown _)
      · exact assigned.once id endpoint id' endpoint' gen here there
  served endpoint gen member alive := by
    rw [List.mem_append, List.mem_singleton, Prod.mk.injEq] at member
    obtain member | ⟨rfl, rfl⟩ := member
    · obtain ⟨id, here⟩ := assigned.served endpoint gen member alive
      exact ⟨id, (same _ _ _).mpr (Or.inr here)⟩
    · exact ⟨place, (same _ _ _).mpr (Or.inl ⟨rfl, rfl, rfl⟩)⟩
  deleted gen gone := by
    obtain ⟨endpoint, member⟩ := assigned.deleted gen gone
    exact ⟨endpoint, List.mem_append_left _ member⟩

/-- Something that is attached is deleted. -/
theorem Assigned.detach (assigned : Assigned attached deleted accepted) {place : ι} {at_ : ε}
    {old : γ} (here : attached place at_ old)
    (same : ∀ id endpoint gen, attached' id endpoint gen ↔ attached id endpoint gen ∧ gen ≠ old)
    (gone : ∀ gen, deleted' gen ↔ deleted gen ∨ gen = old) :
    Assigned attached' deleted' accepted where
  known id endpoint gen now := by
    obtain ⟨before, other⟩ := (same _ _ _).mp now
    obtain ⟨member, alive⟩ := assigned.known id endpoint gen before
    exact ⟨member, fun dead => ((gone gen).mp dead).elim alive other⟩
  once id endpoint id' endpoint' gen first second :=
    assigned.once id endpoint id' endpoint' gen ((same _ _ _).mp first).1 ((same _ _ _).mp second).1
  served endpoint gen member alive := by
    rw [gone, not_or] at alive
    obtain ⟨id, before⟩ := assigned.served endpoint gen member alive.1
    exact ⟨id, (same _ _ _).mpr ⟨before, alive.2⟩⟩
  deleted gen dead := by
    obtain dead | rfl := (gone gen).mp dead
    · exact assigned.deleted gen dead
    · exact ⟨at_, (assigned.known _ _ _ here).1⟩

end Assigned

/-! ## The invariant -/

variable {γ δ σ : Type}

/-- The generator is the `gen` of this `ReqLinker`. -/
def Attached (requester : Requester γ δ) (id : ObjectId) (endpoint : Endpoint) (gen : γ) : Prop :=
  ∃ linker, requester.linked id = some (.reqLinker linker) ∧ linker.endpoint = endpoint ∧
    linker.gen = some gen

/-- This `ReqLinker` has none. -/
def Idle (requester : Requester γ δ) (id : ObjectId) (endpoint : Endpoint) : Prop :=
  ∃ linker, requester.linked id = some (.reqLinker linker) ∧ linker.endpoint = endpoint ∧
    linker.gen = none

/-- The generator was deleted. -/
def Deleted (requester : Requester γ δ) (gen : γ) : Prop :=
  gen ∈ requester.finished ∨ gen ∈ requester.abandoned

structure Pooled (config : Config) (requester : Requester γ δ) : Prop where
  idle : ∀ endpoint id, id ∈ requester.reqMp endpoint ↔ requester.Idle id endpoint
  idleOnce : ∀ endpoint, (requester.reqMp endpoint).Nodup
  sockets : ∀ endpoint id, id ∈ requester.connMp endpoint ↔
    ∃ conn, requester.wrappers id = some ⟨endpoint, conn⟩
  socketsOnce : ∀ endpoint, (requester.connMp endpoint).Nodup
  limit : ∀ endpoint, (requester.connMp endpoint).length ≤ config.maxConnections
  fresh : ∀ id, requester.next ≤ id → requester.linked id = none ∧ requester.wrappers id = none
  /-- The virtual connections of a wrapper exist. -/
  held : ∀ id wrapper, requester.wrappers id = some wrapper →
    ∀ linked ∈ wrapper.conn.linked, requester.linked linked ≠ none
  /-- Two wrappers share none. -/
  apart : ∀ id wrapper id' wrapper' linked, requester.wrappers id = some wrapper →
    requester.wrappers id' = some wrapper' → linked ∈ wrapper.conn.linked →
    linked ∈ wrapper'.conn.linked → id = id'

section Objects

variable {config : Config} {accepted : List (Endpoint × γ)} {requester : Requester γ δ}
  {id other : ObjectId} {endpoint : Endpoint} {gen : γ} {object : Linked γ δ}

theorem mem_insert {objects : List ObjectId} :
    other ∈ insert objects id ↔ other ∈ objects ∨ other = id := by
  unfold insert
  split
  · rename_i member
    constructor
    · exact Or.inl
    · rintro (member' | rfl)
      · exact member'
      · exact member
  · simp

theorem nodup_insert {objects : List ObjectId} (once : objects.Nodup) :
    (insert objects id).Nodup := by
  unfold insert
  split
  · exact once
  · rename_i absent
    exact List.Nodup.append once (List.nodup_singleton id) (by simpa using absent)

theorem attached_setLinked :
    (requester.setLinked id object).Attached other endpoint gen ↔
      (other = id ∧ ∃ linker, object = .reqLinker linker ∧ linker.endpoint = endpoint ∧
        linker.gen = some gen) ∨ other ≠ id ∧ requester.Attached other endpoint gen := by
  by_cases same : other = id
  · subst same
    simp [Attached, setLinked]
  · simp [Attached, setLinked, same]

theorem idle_setLinked :
    (requester.setLinked id object).Idle other endpoint ↔
      (other = id ∧ ∃ linker, object = .reqLinker linker ∧ linker.endpoint = endpoint ∧
        linker.gen = none) ∨ other ≠ id ∧ requester.Idle other endpoint := by
  by_cases same : other = id
  · subst same
    simp [Idle, setLinked]
  · simp [Idle, setLinked, same]

@[simp] theorem attached_finish {place : ObjectId} {at_ : Endpoint} {old : γ} :
    (requester.finish place at_ old).Attached id endpoint gen ↔
      requester.Attached id endpoint gen := Iff.rfl

@[simp] theorem idle_finish {place : ObjectId} {at_ : Endpoint} {old : γ} :
    (requester.finish place at_ old).Idle id endpoint ↔ requester.Idle id endpoint := Iff.rfl

/-- A `ReqLinker` that stays as attached as it was. -/
theorem attached_progress {linker linker' : ReqLinker γ}
    (found : requester.linked id = some (.reqLinker linker))
    (same_endpoint : linker'.endpoint = linker.endpoint) (same_gen : linker'.gen = linker.gen) :
    (requester.setLinked id (.reqLinker linker')).Attached other endpoint gen ↔
      requester.Attached other endpoint gen := by
  rw [attached_setLinked]
  by_cases same : other = id
  · subst same
    simp [Attached, found, same_endpoint, same_gen]
  · simp [same]

theorem idle_progress {linker linker' : ReqLinker γ}
    (found : requester.linked id = some (.reqLinker linker))
    (same_endpoint : linker'.endpoint = linker.endpoint) (same_gen : linker'.gen = linker.gen) :
    (requester.setLinked id (.reqLinker linker')).Idle other endpoint ↔
      requester.Idle other endpoint := by
  rw [idle_setLinked]
  by_cases same : other = id
  · subst same
    simp [Idle, found, same_endpoint, same_gen]
  · simp [same]

/-- Objects that exist are exchanged for others. -/
theorem linked_setLinked_ne (found : requester.linked id ≠ none)
    (live : requester.linked other ≠ none) (object : Linked γ δ) :
    (requester.setLinked id object).linked other ≠ none := by
  by_cases same : other = id
  · subst same
    simp [setLinked]
  · simpa [setLinked, Function.update_of_ne same] using live

theorem Pooled.progress (pooled : Pooled config requester)
    (found : requester.linked id ≠ none)
    (same : ∀ endpoint other, (requester.setLinked id object).Idle other endpoint ↔
      requester.Idle other endpoint) : Pooled config (requester.setLinked id object) where
  idle endpoint other := (pooled.idle endpoint other).trans (same endpoint other).symm
  idleOnce := pooled.idleOnce
  sockets := pooled.sockets
  socketsOnce := pooled.socketsOnce
  limit := pooled.limit
  fresh other new := by
    have differs : other ≠ id := fun eq => found (eq ▸ (pooled.fresh other new).1)
    simpa [setLinked, Function.update_of_ne differs] using pooled.fresh other new
  held place wrapper here linked member :=
    linked_setLinked_ne found (pooled.held place wrapper here linked member) object
  apart := pooled.apart

/-! ### A request is done, and another one begins -/

section Reuse

variable {linker linker' : ReqLinker γ}

theorem Pooled.finish (pooled : Pooled config requester)
    (found : requester.linked id = some (.reqLinker linker)) (busy : linker.gen = some gen)
    (same : linker'.endpoint = linker.endpoint) (idle : linker'.gen = none) :
    Pooled config
      ((requester.setLinked id (.reqLinker linker')).finish id linker.endpoint gen) := by
  have absent : id ∉ requester.reqMp linker.endpoint := by
    rw [pooled.idle]
    rintro ⟨found', same', none⟩
    rw [found] at same'
    obtain ⟨rfl⟩ : linker = found' := by simpa using same'
    simp [busy] at none
  have idle_iff (other : ObjectId) (endpoint : Endpoint) :
      ((requester.setLinked id (.reqLinker linker')).finish id linker.endpoint gen).Idle
        other endpoint ↔ (other = id ∧ linker.endpoint = endpoint) ∨
          other ≠ id ∧ requester.Idle other endpoint := by
    have through := @idle_setLinked _ _ requester id other endpoint (.reqLinker linker')
    simpa [idle, same] using through
  refine ⟨fun endpoint other => ?_, fun endpoint => ?_, pooled.sockets, pooled.socketsOnce,
    pooled.limit, fun other new => ?_, fun place wrapper here linked member => ?_, pooled.apart⟩
  · rw [idle_iff]
    by_cases here : endpoint = linker.endpoint
    · subst here
      have members : other ∈ ((requester.setLinked id (.reqLinker linker')).finish id
          linker.endpoint gen).reqMp linker.endpoint ↔
          other ∈ requester.reqMp linker.endpoint ∨ other = id := by
        simp [Requester.finish, setLinked, mem_insert]
      rw [members, pooled.idle]
      by_cases eq : other = id
      · simp [eq]
      · simp [eq]
    · have members : ((requester.setLinked id (.reqLinker linker')).finish id
          linker.endpoint gen).reqMp endpoint = requester.reqMp endpoint := by
        simp [Requester.finish, setLinked, Function.update_of_ne here]
      rw [members, pooled.idle]
      by_cases eq : other = id
      · subst eq
        have here' : linker.endpoint ≠ endpoint := fun eq => here eq.symm
        simp [Idle, found, here']
      · simp [eq]
  · by_cases here : endpoint = linker.endpoint
    · subst here
      simpa [Requester.finish, setLinked] using nodup_insert (pooled.idleOnce linker.endpoint)
    · simpa [Requester.finish, setLinked, Function.update_of_ne here] using
        pooled.idleOnce endpoint
  · have differs : other ≠ id := by
      rintro rfl
      rw [(pooled.fresh other new).1] at found
      cases found
    simpa [Requester.finish, setLinked, Function.update_of_ne differs] using pooled.fresh other new
  · exact linked_setLinked_ne (by simp [found]) (pooled.held place wrapper here linked member) _

theorem Assigned.finish (assigned : Assigned requester.Attached requester.Deleted accepted)
    (found : requester.linked id = some (.reqLinker linker)) (busy : linker.gen = some gen)
    (idle : linker'.gen = none) :
    let finished := (requester.setLinked id (.reqLinker linker')).finish id linker.endpoint gen
    Assigned finished.Attached finished.Deleted accepted := by
  have here : requester.Attached id linker.endpoint gen := ⟨linker, found, rfl, busy⟩
  refine assigned.detach here (fun other endpoint gen' => ?_) fun gen' => ?_
  · have through := @attached_setLinked _ _ requester id other endpoint gen' (.reqLinker linker')
    have now :
        ((requester.setLinked id (.reqLinker linker')).finish id linker.endpoint gen).Attached
        other endpoint gen' ↔ other ≠ id ∧ requester.Attached other endpoint gen' := by
      simpa [idle] using through
    rw [now]
    constructor
    · rintro ⟨differs, there⟩
      refine ⟨there, ?_⟩
      rintro rfl
      exact differs (assigned.once _ _ _ _ _ there here).1
    · rintro ⟨there, differs⟩
      refine ⟨?_, there⟩
      rintro rfl
      obtain ⟨found', same', -, busy'⟩ := there
      rw [found] at same'
      obtain rfl : linker = found' := by simpa using same'
      exact differs (Option.some.inj (busy'.symm.trans busy))
  · simp only [Deleted, Requester.finish, setLinked, List.mem_append, List.mem_singleton]
    tauto

/-- What `add_request` does with an idle `ReqLinker`. -/
def reuse (requester : Requester γ δ) (id : ObjectId) (endpoint : Endpoint)
    (exchange : Exchange γ) : Requester γ δ :=
  { requester.setLinked id (.reqLinker ⟨endpoint, some exchange⟩) with
    reqMp := Function.update requester.reqMp endpoint ((requester.reqMp endpoint).erase id) }

theorem Pooled.reuse (pooled : Pooled config requester) {exchange : Exchange γ}
    (found : requester.linked id = some (.reqLinker ⟨endpoint, none⟩)) :
    Pooled config (requester.reuse id endpoint exchange) := by
  have idle_iff (other : ObjectId) (endpoint' : Endpoint) :
      (requester.reuse id endpoint exchange).Idle other endpoint' ↔
        other ≠ id ∧ requester.Idle other endpoint' := by
    have through := @idle_setLinked _ _ requester id other endpoint'
      (.reqLinker ⟨endpoint, some exchange⟩)
    have absent : ¬∃ linker : ReqLinker γ,
        (.reqLinker ⟨endpoint, some exchange⟩ : Linked γ δ) = .reqLinker linker ∧
          linker.endpoint = endpoint' ∧ linker.gen = none := by
      rintro ⟨linker, same, -, none⟩
      cases same
      cases none
    rw [eq_false absent, and_false, false_or] at through
    exact through
  refine ⟨fun endpoint' other => ?_, fun endpoint' => ?_, pooled.sockets, pooled.socketsOnce,
    pooled.limit, fun other new => ?_, fun place wrapper here linked member => ?_, pooled.apart⟩
  · rw [idle_iff]
    by_cases here : endpoint' = endpoint
    · subst here
      have members : other ∈ (requester.reuse id endpoint' exchange).reqMp endpoint' ↔
          other ≠ id ∧ other ∈ requester.reqMp endpoint' := by
        simp [Requester.reuse, (pooled.idleOnce endpoint').mem_erase_iff]
      rw [members, pooled.idle]
    · have members : (requester.reuse id endpoint exchange).reqMp endpoint' =
          requester.reqMp endpoint' := by
        simp [Requester.reuse, setLinked, Function.update_of_ne here]
      rw [members, pooled.idle]
      constructor
      · intro idle
        refine ⟨?_, idle⟩
        rintro rfl
        obtain ⟨linker, same, eq, -⟩ := idle
        rw [found] at same
        cases same
        exact here eq.symm
      · exact And.right
  · by_cases here : endpoint' = endpoint
    · subst here
      simpa [Requester.reuse] using (pooled.idleOnce endpoint').erase id
    · simpa [Requester.reuse, setLinked, Function.update_of_ne here] using
        pooled.idleOnce endpoint'
  · have differs : other ≠ id := by
      rintro rfl
      rw [(pooled.fresh other new).1] at found
      cases found
    simpa [Requester.reuse, setLinked, Function.update_of_ne differs] using pooled.fresh other new
  · exact linked_setLinked_ne (by simp [found]) (pooled.held place wrapper here linked member) _

theorem Assigned.reuse (assigned : Assigned requester.Attached requester.Deleted accepted)
    {exchange : Exchange γ} (found : requester.linked id = some (.reqLinker ⟨endpoint, none⟩))
    (unknown : ∀ endpoint, (endpoint, exchange.gen) ∉ accepted) :
    Assigned (requester.reuse id endpoint exchange).Attached
      (requester.reuse id endpoint exchange).Deleted (accepted ++ [(endpoint, exchange.gen)]) := by
  refine assigned.attach unknown fun other endpoint' gen' => (?_ : _ ↔ (other = id ∧ _) ∨ _)
  have through := @attached_setLinked _ _ requester id other endpoint' gen'
    (.reqLinker ⟨endpoint, some exchange⟩)
  have now : (requester.reuse id endpoint exchange).Attached other endpoint' gen' ↔
      (other = id ∧ endpoint = endpoint' ∧ exchange.gen = gen') ∨
        other ≠ id ∧ requester.Attached other endpoint' gen' := by
    refine through.trans (or_congr (and_congr_right fun _ => ?_) Iff.rfl)
    constructor
    · rintro ⟨linker, same, rfl, gen_eq⟩
      cases same
      exact ⟨rfl, Option.some.inj gen_eq⟩
    · rintro ⟨rfl, rfl⟩
      exact ⟨_, rfl, rfl, rfl⟩
  have empty : ¬requester.Attached id endpoint' gen' := by
    rintro ⟨linker, same, -, busy⟩
    rw [found] at same
    cases same
    cases busy
  rw [now]
  constructor
  · rintro (⟨rfl, rfl, rfl⟩ | ⟨-, there⟩)
    · exact Or.inl ⟨rfl, rfl, rfl⟩
    · exact Or.inr there
  · rintro (⟨rfl, rfl, rfl⟩ | there)
    · exact Or.inl ⟨rfl, rfl, rfl⟩
    · refine Or.inr ⟨?_, there⟩
      rintro rfl
      exact empty there

end Reuse

/-! ### New objects -/

@[simp] theorem linked_newLinked :
    (requester.newLinked object).linked requester.next = some object := Function.update_self _ _ _

/-- What is accepted with a new object. -/
def accepts : Linked γ δ → List (Endpoint × γ)
  | .reqLinker linker => (linker.gen.map fun gen => (linker.endpoint, gen)).toList
  | .connector _ => []

/-- A `ReqLinker` is created with a generator. -/
def Busy (object : Linked γ δ) : Prop := ∀ linker, object = .reqLinker linker → linker.gen ≠ none

theorem Pooled.newLinked (pooled : Pooled config requester) (busy : Busy object) :
    Pooled config (requester.newLinked object) := by
  have fresh := (pooled.fresh requester.next le_rfl).1
  have idle_iff (other : ObjectId) (endpoint : Endpoint) :
      (requester.newLinked object).Idle other endpoint ↔ requester.Idle other endpoint := by
    refine idle_setLinked.trans ?_
    constructor
    · rintro (⟨-, linker, rfl, -, none⟩ | ⟨-, idle⟩)
      · exact absurd none (busy linker rfl)
      · exact idle
    · intro idle
      refine Or.inr ⟨?_, idle⟩
      rintro rfl
      obtain ⟨linker, found, -⟩ := idle
      rw [fresh] at found
      cases found
  refine ⟨fun endpoint other => (pooled.idle endpoint other).trans (idle_iff other endpoint).symm,
    pooled.idleOnce, pooled.sockets, pooled.socketsOnce, pooled.limit, fun other new => ?_,
    fun place wrapper here linked member => ?_, pooled.apart⟩
  · have later : requester.next < other := Nat.lt_of_succ_le new
    have differs : other ≠ requester.next := later.ne'
    simpa [Requester.newLinked, setLinked, Function.update_of_ne differs] using
      pooled.fresh other later.le
  · have live := pooled.held place wrapper here linked member
    have differs : linked ≠ requester.next := fun eq => live (eq ▸ fresh)
    simpa [Requester.newLinked, setLinked, Function.update_of_ne differs] using live

theorem Assigned.newLinked (assigned : Assigned requester.Attached requester.Deleted accepted)
    (fresh : requester.linked requester.next = none)
    (unknown : ∀ pair ∈ accepts object, ∀ endpoint, (endpoint, pair.2) ∉ accepted) :
    Assigned (requester.newLinked object).Attached (requester.newLinked object).Deleted
      (accepted ++ accepts object) := by
  have now (other : ObjectId) (endpoint : Endpoint) (gen : γ) :
      (requester.newLinked object).Attached other endpoint gen ↔
        (other = requester.next ∧ (endpoint, gen) ∈ accepts object) ∨
          requester.Attached other endpoint gen := by
    refine attached_setLinked.trans (or_congr (and_congr_right fun _ => ?_) ?_)
    · cases object with
      | reqLinker linker => simp [accepts, eq_comm, and_comm]
      | connector connector => simp [accepts]
    · refine and_iff_right_of_imp ?_
      rintro ⟨linker, found, -⟩ rfl
      rw [fresh] at found
      cases found
  cases accepts_eq : accepts object with
  | nil =>
      rw [List.append_nil]
      refine assigned.congr fun other endpoint gen => (now other endpoint gen).trans ?_
      simp [accepts_eq]
  | cons pair rest =>
      have single : rest = [] := by
        cases object with
        | reqLinker linker => cases gen : linker.gen <;> simp_all [accepts]
        | connector connector => cases accepts_eq
      subst single
      obtain ⟨at_, new⟩ := pair
      refine assigned.attach (unknown (at_, new) (by simp [accepts_eq])) fun other endpoint gen =>
        (?_ : _ ↔ (other = requester.next ∧ _) ∨ _)
      rw [now, accepts_eq, List.mem_singleton, Prod.mk.injEq]

/-- A wrapper gets another virtual connection, which no wrapper has yet. -/
theorem Pooled.setWrapper (pooled : Pooled config requester) {wrapper wrapper' : WrapperWrapper}
    (found : requester.wrappers id = some wrapper) (same : wrapper'.endpoint = wrapper.endpoint)
    (more : ∀ linked ∈ wrapper'.conn.linked, linked ∈ wrapper.conn.linked ∨
      requester.linked linked ≠ none ∧ ∀ place wrapper, requester.wrappers place = some wrapper →
        linked ∉ wrapper.conn.linked) :
    Pooled config (requester.setWrapper id wrapper') := by
  have wrappers_eq (place : ObjectId) (wrapper₁ : WrapperWrapper)
      (here : (requester.setWrapper id wrapper').wrappers place = some wrapper₁) :
      (place = id ∧ wrapper₁ = wrapper') ∨
        place ≠ id ∧ requester.wrappers place = some wrapper₁ := by
    by_cases eq : place = id
    · subst eq
      exact Or.inl ⟨rfl, by simpa [Requester.setWrapper, eq_comm] using here⟩
    · exact Or.inr ⟨eq, by simpa [Requester.setWrapper, Function.update_of_ne eq] using here⟩
  refine ⟨pooled.idle, pooled.idleOnce, fun endpoint place => ?_, pooled.socketsOnce, pooled.limit,
    fun other new => ?_, fun place wrapper₁ here linked member => ?_,
    fun place wrapper₁ place' wrapper₂ linked here there member member' => ?_⟩
  · refine (pooled.sockets endpoint place).trans ?_
    by_cases eq : place = id
    · subst eq
      obtain ⟨at_, conn⟩ := wrapper
      obtain ⟨at_', conn'⟩ := wrapper'
      obtain rfl : at_' = at_ := same
      simp [Requester.setWrapper, found]
    · simp [Requester.setWrapper, eq]
  · have differs : other ≠ id := by
      rintro rfl
      rw [(pooled.fresh other new).2] at found
      cases found
    simpa [Requester.setWrapper, Function.update_of_ne differs] using pooled.fresh other new
  · obtain ⟨rfl, rfl⟩ | ⟨-, here⟩ := wrappers_eq place wrapper₁ here
    · obtain old | ⟨live, -⟩ := more linked member
      · exact pooled.held place wrapper found linked old
      · exact live
    · exact pooled.held place wrapper₁ here linked member
  · obtain ⟨rfl, rfl⟩ | ⟨-, old_here⟩ := wrappers_eq place wrapper₁ here
    · obtain ⟨rfl, rfl⟩ | ⟨-, old_there⟩ := wrappers_eq place' wrapper₂ there
      · rfl
      · obtain old | ⟨-, apart⟩ := more linked member
        · exact pooled.apart _ _ _ _ linked found old_there old member'
        · exact absurd member' (apart place' wrapper₂ old_there)
    · obtain ⟨rfl, rfl⟩ | ⟨-, old_there⟩ := wrappers_eq place' wrapper₂ there
      · obtain old | ⟨-, apart⟩ := more linked member'
        · exact pooled.apart _ _ _ _ linked old_here found member old
        · exact absurd member (apart place wrapper₁ old_here)
      · exact pooled.apart _ _ _ _ linked old_here old_there member member'

theorem Pooled.newWrapper (pooled : Pooled config requester) {wrapper : WrapperWrapper}
    (room : (requester.connMp wrapper.endpoint).length < config.maxConnections)
    (own : ∀ linked ∈ wrapper.conn.linked, requester.linked linked ≠ none ∧
      ∀ place wrapper, requester.wrappers place = some wrapper → linked ∉ wrapper.conn.linked) :
    Pooled config (requester.newWrapper wrapper) := by
  have fresh := (pooled.fresh requester.next le_rfl).2
  have absent (endpoint : Endpoint) : requester.next ∉ requester.connMp endpoint := by
    rw [pooled.sockets]
    rintro ⟨conn, found⟩
    rw [fresh] at found
    cases found
  have connMp_eq (endpoint : Endpoint) : (requester.newWrapper wrapper).connMp endpoint =
      requester.connMp endpoint ++
        if endpoint = wrapper.endpoint then [requester.next] else [] := by
    by_cases eq : endpoint = wrapper.endpoint
    · subst eq
      simp [Requester.newWrapper, insert, absent]
    · simp [Requester.newWrapper, Requester.setWrapper, eq]
  have wrappers_eq (place : ObjectId) (wrapper₁ : WrapperWrapper) :
      (requester.newWrapper wrapper).wrappers place = some wrapper₁ ↔
        (place = requester.next ∧ wrapper = wrapper₁) ∨
          requester.wrappers place = some wrapper₁ := by
    by_cases eq : place = requester.next
    · subst eq
      simp [Requester.newWrapper, Requester.setWrapper, fresh]
    · simp [Requester.newWrapper, Requester.setWrapper, eq]
  refine ⟨pooled.idle, pooled.idleOnce, fun endpoint place => ?_, fun endpoint => ?_,
    fun endpoint => ?_, fun other new => ?_, fun place wrapper₁ here linked member => ?_,
    fun place wrapper₁ place' wrapper₂ linked here there member member' => ?_⟩
  · rw [connMp_eq, List.mem_append, pooled.sockets]
    simp only [wrappers_eq]
    by_cases eq : endpoint = wrapper.endpoint
    · subst eq
      constructor
      · rintro (⟨conn, found⟩ | member)
        · exact ⟨conn, Or.inr found⟩
        · exact ⟨wrapper.conn, Or.inl ⟨by simpa using member, rfl⟩⟩
      · rintro ⟨conn, ⟨rfl, -⟩ | found⟩
        · exact Or.inr (by simp)
        · exact Or.inl ⟨conn, found⟩
    · simp only [eq, if_false, List.not_mem_nil, or_false]
      refine exists_congr fun conn => (or_iff_right ?_).symm
      rintro ⟨-, rfl⟩
      exact eq rfl
  · rw [connMp_eq]
    split
    · exact List.Nodup.append (pooled.socketsOnce endpoint) (List.nodup_singleton _)
        (by simpa using absent endpoint)
    · rw [List.append_nil]
      exact pooled.socketsOnce endpoint
  · rw [connMp_eq]
    split
    · rename_i eq
      subst eq
      rw [List.length_append]
      exact room
    · rw [List.append_nil]
      exact pooled.limit endpoint
  · have later : requester.next < other := Nat.lt_of_succ_le new
    have differs : other ≠ requester.next := later.ne'
    simpa [Requester.newWrapper, Requester.setWrapper, Function.update_of_ne differs] using
      pooled.fresh other later.le
  · obtain ⟨-, rfl⟩ | here := (wrappers_eq place wrapper₁).mp here
    · exact (own linked member).1
    · exact pooled.held place wrapper₁ here linked member
  · obtain ⟨rfl, rfl⟩ | here := (wrappers_eq place wrapper₁).mp here
    · obtain ⟨rfl, rfl⟩ | there := (wrappers_eq place' wrapper₂).mp there
      · rfl
      · exact absurd member' ((own linked member).2 place' wrapper₂ there)
    · obtain ⟨rfl, rfl⟩ | there := (wrappers_eq place' wrapper₂).mp there
      · exact absurd member ((own linked member').2 place wrapper₁ here)
      · exact pooled.apart _ _ _ _ linked here there member member'

/-! ### Objects that are deleted -/

section Delete

variable [Connection δ σ] {state : σ} {linker : ReqLinker γ} {connector : δ}

theorem delete_of_none (found : requester.linked id = none) :
    requester.delete state id = (state, requester) := by
  simp only [delete, found]

theorem delete_connector (found : requester.linked id = some (.connector connector)) :
    requester.delete state id = (Connection.delete connector state,
      { requester with linked := Function.update requester.linked id none }) := by
  simp only [delete, found]

theorem delete_attached (found : requester.linked id = some (.reqLinker linker))
    (busy : linker.gen = some gen) :
    requester.delete state id = (state, { requester with
      linked := Function.update requester.linked id none
      abandoned := requester.abandoned ++ [gen] }) := by
  simp only [delete, found, busy]

theorem delete_idle (found : requester.linked id = some (.reqLinker linker))
    (idle : linker.gen = none) :
    requester.delete state id = (state, { requester with
      linked := Function.update requester.linked id none
      reqMp := Function.update requester.reqMp linker.endpoint
        ((requester.reqMp linker.endpoint).erase id) }) := by
  simp only [delete, found, idle]

/-- What else `delete` changes. -/
theorem delete_rest (requester : Requester γ δ) (state : σ) (id : ObjectId) :
    (requester.delete state id).2.wrappers = requester.wrappers ∧
      (requester.delete state id).2.connMp = requester.connMp ∧
      (requester.delete state id).2.next = requester.next ∧
      (requester.delete state id).2.linked = Function.update requester.linked id none := by
  cases found : requester.linked id with
  | none =>
      rw [delete_of_none found]
      exact ⟨rfl, rfl, rfl, by rw [← found, Function.update_eq_self]⟩
  | some object =>
      cases object with
      | connector connector =>
          rw [delete_connector found]
          exact ⟨rfl, rfl, rfl, rfl⟩
      | reqLinker linker =>
          cases gen : linker.gen with
          | none =>
              rw [delete_idle found gen]
              exact ⟨rfl, rfl, rfl, rfl⟩
          | some gen' =>
              rw [delete_attached found gen]
              exact ⟨rfl, rfl, rfl, rfl⟩

/-- Only the destructor of a connection changes the state. -/
theorem delete_state (requester : Requester γ δ) (state : σ) (id : ObjectId) :
    (∃ connector, requester.linked id = some (.connector connector) ∧
        (requester.delete state id).1 = Connection.delete connector state) ∨
      (∀ connector, requester.linked id ≠ some (.connector connector)) ∧
        (requester.delete state id).1 = state := by
  cases found : requester.linked id with
  | none => exact Or.inr ⟨nofun, by rw [delete_of_none found]⟩
  | some object =>
      cases object with
      | connector connector => exact Or.inl ⟨connector, rfl, by rw [delete_connector found]⟩
      | reqLinker linker =>
          refine Or.inr ⟨nofun, ?_⟩
          cases gen : linker.gen with
          | none => rw [delete_idle found gen]
          | some gen' => rw [delete_attached found gen]

theorem attached_delete :
    (requester.delete state id).2.Attached other endpoint gen ↔
      other ≠ id ∧ requester.Attached other endpoint gen := by
  rw [Attached, (delete_rest requester state id).2.2.2]
  by_cases eq : other = id
  · subst eq
    simp
  · simp [Attached, eq]

theorem idle_delete :
    (requester.delete state id).2.Idle other endpoint ↔
      other ≠ id ∧ requester.Idle other endpoint := by
  rw [Idle, (delete_rest requester state id).2.2.2]
  by_cases eq : other = id
  · subst eq
    simp
  · simp [Idle, eq]

/-- An idle `ReqLinker` leaves the idle ones. -/
theorem reqMp_delete (pooled : Pooled config requester) :
    (other ∈ (requester.delete state id).2.reqMp endpoint ↔
        other ≠ id ∧ other ∈ requester.reqMp endpoint) ∧
      ((requester.delete state id).2.reqMp endpoint).Nodup := by
  have once := pooled.idleOnce endpoint
  have same (busy : ¬requester.Idle id endpoint) :
      other ∈ requester.reqMp endpoint ↔ other ≠ id ∧ other ∈ requester.reqMp endpoint := by
    rw [← pooled.idle] at busy
    refine (and_iff_right_of_imp ?_).symm
    rintro member rfl
    exact busy member
  cases found : requester.linked id with
  | none =>
      rw [delete_of_none found]
      refine ⟨same ?_, once⟩
      rintro ⟨linker, found', -⟩
      rw [found] at found'
      cases found'
  | some object =>
      cases object with
      | connector connector =>
          rw [delete_connector found]
          refine ⟨same ?_, once⟩
          rintro ⟨linker, found', -⟩
          rw [found] at found'
          cases found'
      | reqLinker linker =>
          cases gen : linker.gen with
          | some old =>
              rw [delete_attached found gen]
              refine ⟨same ?_, once⟩
              rintro ⟨linker', found', -, none⟩
              rw [found] at found'
              cases found'
              rw [gen] at none
              cases none
          | none =>
              rw [delete_idle found gen]
              by_cases here : endpoint = linker.endpoint
              · subst here
                simp [once.mem_erase_iff, once.erase]
              · simp only [Function.update_of_ne here]
                refine ⟨same ?_, once⟩
                rintro ⟨linker', found', eq, -⟩
                rw [found] at found'
                cases found'
                exact here eq.symm

theorem Pooled.delete (pooled : Pooled config requester)
    (released : ∀ place wrapper, requester.wrappers place = some wrapper →
      id ∉ wrapper.conn.linked) :
    Pooled config (requester.delete state id).2 := by
  obtain ⟨wrappers, connMp, next, linked_eq⟩ := delete_rest requester state id
  refine ⟨fun endpoint other => ?_,
    fun endpoint => (@reqMp_delete _ _ _ _ _ id id endpoint _ state pooled).2,
    by rw [connMp, wrappers]; exact pooled.sockets, by rw [connMp]; exact pooled.socketsOnce,
    by rw [connMp]; exact pooled.limit, fun other new => ?_,
    fun place wrapper here linked member => ?_, by rw [wrappers]; exact pooled.apart⟩
  · rw [(reqMp_delete pooled).1, idle_delete, pooled.idle]
  · rw [next] at new
    obtain ⟨gone, free⟩ := pooled.fresh other new
    refine ⟨?_, wrappers ▸ free⟩
    rw [linked_eq, Function.update_apply]
    split
    · rfl
    · exact gone
  · rw [wrappers] at here
    have differs : linked ≠ id := fun eq => released place wrapper here (eq ▸ member)
    rw [linked_eq, Function.update_of_ne differs]
    exact pooled.held place wrapper here linked member

theorem Assigned.delete
    (assigned : Assigned requester.Attached requester.Deleted accepted) :
    Assigned (requester.delete state id).2.Attached (requester.delete state id).2.Deleted
      accepted := by
  have keep (still : ∀ endpoint gen, ¬requester.Attached id endpoint gen)
      (deleted : (requester.delete state id).2.Deleted = requester.Deleted) :
      Assigned (requester.delete state id).2.Attached (requester.delete state id).2.Deleted
        accepted := by
    rw [deleted]
    refine assigned.congr fun other endpoint gen => attached_delete.trans ?_
    refine and_iff_right_of_imp ?_
    rintro attached rfl
    exact still endpoint gen attached
  cases found : requester.linked id with
  | none =>
      refine keep ?_ (by rw [delete_of_none found])
      rintro endpoint gen ⟨linker, found', -⟩
      rw [found] at found'
      cases found'
  | some object =>
      cases object with
      | connector connector =>
          refine keep ?_ (by rw [delete_connector found]; rfl)
          rintro endpoint gen ⟨linker, found', -⟩
          rw [found] at found'
          cases found'
      | reqLinker linker =>
          cases gen_eq : linker.gen with
          | none =>
              refine keep ?_ (by rw [delete_idle found gen_eq]; rfl)
              rintro endpoint gen ⟨linker', found', -, busy⟩
              rw [found] at found'
              cases found'
              rw [gen_eq] at busy
              cases busy
          | some old =>
              have here : requester.Attached id linker.endpoint old :=
                ⟨linker, found, rfl, gen_eq⟩
              refine assigned.detach here (fun other endpoint gen => ?_) fun gen => ?_
              · rw [attached_delete]
                constructor
                · rintro ⟨differs, there⟩
                  refine ⟨there, ?_⟩
                  rintro rfl
                  exact differs (assigned.once _ _ _ _ _ there here).1
                · rintro ⟨there, differs⟩
                  refine ⟨?_, there⟩
                  rintro rfl
                  obtain ⟨linker', found', -, busy⟩ := there
                  rw [found] at found'
                  cases found'
                  exact differs (Option.some.inj (busy.symm.trans gen_eq))
              · rw [delete_attached found gen_eq]
                simp only [Deleted, List.mem_append, List.mem_singleton]
                tauto

end Delete

end Objects

/-! ## What the operations do -/

section Operations

variable [RequestGenerator γ σ] [Connection δ σ] {config : Config}
  {requester requester' : Requester γ δ} {state state' : σ} {id : ObjectId} {asked : Call}
  {answer : Answer} {object : Linked γ δ} {accepted : List (Endpoint × γ)}

theorem gen_checkDone {exchange : Exchange γ} {left : Option (Exchange γ)}
    (outcome : exchange.checkDone = .ok left) :
    left = none ∨ ∃ exchange', left = some exchange' ∧ exchange'.gen = exchange.gen ∧
      exchange'.inMsg = exchange.inMsg := by
  obtain ⟨⟨⟨writer, outMsg⟩, size⟩, -, outcome⟩ := bind_eq_ok.mp outcome
  simp only at outcome
  split at outcome
  · exact Or.inl (Except.ok.inj outcome).symm
  · exact Or.inr ⟨_, (Except.ok.inj outcome).symm, rfl, rfl⟩

theorem gen_exchange {exchange : Exchange γ} {left : Option (Exchange γ)}
    (outcome : exchange.call state asked = .ok (state', left, answer)) :
    left.map (·.gen) = none ∨ left.map (·.gen) = some exchange.gen := by
  have done {before : Exchange γ} {left : Option (Exchange γ)}
      (checked : before.checkDone = .ok left) (same : before.gen = exchange.gen) :
      left.map (·.gen) = none ∨ left.map (·.gen) = some exchange.gen := by
    obtain rfl | ⟨exchange', rfl, gen, -⟩ := gen_checkDone checked
    · exact Or.inl rfl
    · exact Or.inr (congrArg some (gen.trans same))
  cases asked with
  | getWriteSize =>
      obtain ⟨⟨_, _⟩, -, outcome⟩ := bind_eq_ok.mp outcome
      obtain ⟨⟨⟨_, _⟩, _⟩, -, outcome⟩ := bind_eq_ok.mp outcome
      obtain ⟨left, checked, outcome⟩ := bind_eq_ok.mp outcome
      cases outcome
      exact done checked rfl
  | write maxWrite amount =>
      obtain ⟨⟨⟨_, _⟩, _⟩, -, outcome⟩ := bind_eq_ok.mp outcome
      obtain ⟨left, checked, outcome⟩ := bind_eq_ok.mp outcome
      cases outcome
      exact done checked rfl
  | read rbuf =>
      obtain ⟨⟨⟨_, _⟩, _⟩, -, outcome⟩ := bind_eq_ok.mp outcome
      obtain ⟨⟨_, _⟩, -, outcome⟩ := bind_eq_ok.mp outcome
      obtain ⟨left, checked, outcome⟩ := bind_eq_ok.mp outcome
      cases outcome
      exact done checked rfl

theorem gen_reqLinker {linker linker' : ReqLinker γ}
    (outcome : linker.call state asked = .ok (state', linker', answer)) :
    linker'.endpoint = linker.endpoint ∧ (linker'.gen = none ∨ linker'.gen = linker.gen) := by
  unfold ReqLinker.call at outcome
  cases exchange_eq : linker.exchange with
  | none =>
      rw [exchange_eq] at outcome
      cases outcome
      exact ⟨rfl, Or.inr rfl⟩
  | some exchange =>
      rw [exchange_eq] at outcome
      obtain ⟨⟨_, left, _⟩, called, outcome⟩ := bind_eq_ok.mp outcome
      cases outcome
      refine ⟨rfl, ?_⟩
      simp only [ReqLinker.gen, exchange_eq]
      exact gen_exchange called

/-- A call goes to a `Connector`, to a `ReqLinker` that keeps its generator, or to one that is done
with it. -/
theorem call_cases (outcome : requester.call state id asked = .ok (state', requester', answer)) :
    (∃ connector connector', requester.linked id = some (.connector connector) ∧
      Connection.call connector asked state = .ok (state', connector', answer) ∧
      requester' = requester.setLinked id (.connector connector')) ∨
    ∃ linker linker', requester.linked id = some (.reqLinker linker) ∧
      linker.call state asked = .ok (state', linker', answer) ∧
      linker'.endpoint = linker.endpoint ∧
      (linker'.gen = linker.gen ∧ requester' = requester.setLinked id (.reqLinker linker') ∨
        ∃ gen, linker.gen = some gen ∧ linker'.gen = none ∧ requester' =
          (requester.setLinked id (.reqLinker linker')).finish id linker.endpoint gen) := by
  unfold Requester.call at outcome
  cases found : requester.linked id with
  | none =>
      rw [found] at outcome
      cases outcome
  | some object =>
      rw [found] at outcome
      cases object with
      | connector connector =>
          obtain ⟨⟨state₁, connector', answer₁⟩, called, outcome⟩ := bind_eq_ok.mp outcome
          cases outcome
          exact Or.inl ⟨connector, connector', rfl, called, rfl⟩
      | reqLinker linker =>
          obtain ⟨⟨state₁, linker', answer₁⟩, called, outcome⟩ := bind_eq_ok.mp outcome
          obtain ⟨same, gen⟩ := gen_reqLinker called
          cases gen_eq : linker.gen with
          | none =>
              have gen' : linker'.gen = none := by
                obtain gen | gen := gen
                · exact gen
                · exact gen.trans gen_eq
              simp only [gen_eq, gen'] at outcome
              cases outcome
              exact Or.inr ⟨linker, linker', rfl, called, same,
                Or.inl ⟨gen'.trans gen_eq.symm, rfl⟩⟩
          | some old =>
              obtain gen' | gen' := gen
              · simp only [gen_eq, gen'] at outcome
                cases outcome
                exact Or.inr ⟨linker, linker', rfl, called, same,
                  Or.inr ⟨old, gen_eq, gen', rfl⟩⟩
              · rw [gen_eq] at gen'
                simp only [gen_eq, gen'] at outcome
                cases outcome
                exact Or.inr ⟨linker, linker', rfl, called, same,
                  Or.inl ⟨gen'.trans gen_eq.symm, rfl⟩⟩

theorem Pooled.call (pooled : Pooled config requester)
    (outcome : requester.call state id asked = .ok (state', requester', answer)) :
    Pooled config requester' := by
  obtain ⟨connector, connector', found, -, rfl⟩ | ⟨linker, linker', found, -, same, further⟩ :=
    call_cases outcome
  · refine pooled.progress (by simp [found]) fun endpoint other => ?_
    rw [idle_setLinked]
    by_cases eq : other = id
    · subst eq
      simp [Idle, found]
    · simp [eq]
  · obtain ⟨gen, rfl⟩ | ⟨gen, busy, idle, rfl⟩ := further
    · exact pooled.progress (by simp [found]) fun endpoint other => idle_progress found same gen
    · exact pooled.finish found busy same idle

theorem Assigned.call (assigned : Assigned requester.Attached requester.Deleted accepted)
    (outcome : requester.call state id asked = .ok (state', requester', answer)) :
    Assigned requester'.Attached requester'.Deleted accepted := by
  obtain ⟨connector, connector', found, -, rfl⟩ | ⟨linker, linker', found, -, same, further⟩ :=
    call_cases outcome
  · refine assigned.congr fun other endpoint gen => ?_
    rw [attached_setLinked]
    by_cases eq : other = id
    · subst eq
      simp [Attached, found]
    · simp [eq]
  · obtain ⟨gen, rfl⟩ | ⟨gen, busy, idle, rfl⟩ := further
    · exact assigned.congr fun other endpoint gen' => attached_progress found same gen
    · exact assigned.finish found busy idle

/-- The virtual connection that a `Multiconn` creates. -/
def created (requester : Requester γ δ) (id : ObjectId) (endpoint : Endpoint)
    (vconn : UInt8 → Option ObjectId) (index : UInt8) (object : Linked γ δ) : Requester γ δ :=
  (requester.newLinked object).setWrapper id
    ⟨endpoint, .multiconn (Function.update vconn index (some requester.next))⟩

theorem connectionMaker_cases {made : Bool}
    (outcome : requester.connectionMaker state id object = .ok (state', requester', made)) :
    (made = false ∧ state' = state ∧ requester' = requester) ∨
      (made = true ∧ ∃ endpoint vconn index answer,
        requester.wrappers id = some ⟨endpoint, .multiconn vconn⟩ ∧
        (requester.created id endpoint vconn index object).call state requester.next
          .getWriteSize = .ok (state', requester', answer)) := by
  unfold connectionMaker at outcome
  split at outcome
  · cases outcome
  · cases outcome
    exact Or.inl ⟨rfl, rfl, rfl⟩
  · rename_i endpoint vconn found
    split at outcome
    · cases outcome
      exact Or.inl ⟨rfl, rfl, rfl⟩
    · rename_i index free
      obtain ⟨⟨state₁, requester₁, answer⟩, called, outcome⟩ := bind_eq_ok.mp outcome
      cases outcome
      exact Or.inr ⟨rfl, endpoint, vconn, index, answer, found, called⟩

/-- A new `Multiconn` has a free id. -/
theorem connectionMaker_new {endpoint : Endpoint} {made : Bool}
    (found : requester.wrappers id = some ⟨endpoint, .multiconn fun _ => none⟩)
    (outcome : requester.connectionMaker state id object = .ok (state', requester', made)) :
    made = true := by
  have free : Multiconn.ids.find? (fun index =>
      ((fun _ => none : UInt8 → Option ObjectId) index).isNone) = some 0 := rfl
  simp only [connectionMaker, found, free] at outcome
  obtain ⟨⟨_, _, _⟩, -, outcome⟩ := bind_eq_ok.mp outcome
  cases outcome
  rfl

/-- An existing connection or a new one has a new virtual connection, which was asked what it has to
write if it is in a `Multiconn`; or nothing happened. -/
theorem connect_cases {endpoint : Endpoint} {connects made : Bool}
    (outcome : requester.connect config state endpoint object connects =
      .ok (state', requester', made)) :
    (made = false ∧ state' = state ∧ requester' = requester) ∨
      made = true ∧
        ((∃ id, requester.connectionMaker state id object = .ok (state', requester', true)) ∨
        ((requester.connMp endpoint).length < config.maxConnections ∧
          ((state' = state ∧ requester' =
              (requester.newLinked object).newWrapper ⟨endpoint, .identity requester.next⟩) ∨
            (requester.newWrapper ⟨endpoint, .multiconn fun _ => none⟩).connectionMaker state
              requester.next object = .ok (state', requester', true)))) := by
  have existing {ids : List ObjectId} {state' : σ} {requester' : Requester γ δ} {made : Bool}
      (tried : requester.connectExisting state object ids = .ok (state', requester', made)) :
      (made = false ∧ state' = state ∧ requester' = requester) ∨
        made = true ∧ ∃ id, requester.connectionMaker state id object =
          .ok (state', requester', true) := by
    induction ids with
    | nil =>
        cases tried
        exact Or.inl ⟨rfl, rfl, rfl⟩
    | cons id ids ih =>
        obtain ⟨⟨state₁, requester₁, made₁⟩, maker, further⟩ := bind_eq_ok.mp tried
        cases made₁ with
        | true =>
            cases further
            exact Or.inr ⟨rfl, id, maker⟩
        | false =>
            obtain ⟨-, rfl, rfl⟩ | ⟨made, -⟩ := connectionMaker_cases maker
            · exact ih further
            · cases made
  obtain ⟨⟨state₁, requester₁, made₁⟩, tried, further⟩ := bind_eq_ok.mp outcome
  obtain ⟨rfl, rfl, rfl⟩ | ⟨rfl, id, maker⟩ := existing tried
  · have new : connectNew config requester₁ state₁ endpoint object connects =
        .ok (state', requester', made) := further
    unfold connectNew at new
    split at new
    · rename_i room
      split at new
      · obtain ⟨⟨state₂, requester₂, made₂⟩, maker, new⟩ := bind_eq_ok.mp new
        cases new
        have opened : (requester₁.newWrapper ⟨endpoint, .multiconn fun _ => none⟩).wrappers
            requester₁.next = some ⟨endpoint, .multiconn fun _ => none⟩ :=
          Function.update_self _ _ _
        rw [connectionMaker_new opened maker] at maker
        exact Or.inr ⟨rfl, Or.inr ⟨room.1, Or.inr maker⟩⟩
      · cases new
        exact Or.inr ⟨rfl, Or.inr ⟨room.1, Or.inl ⟨rfl, rfl⟩⟩⟩
    · cases new
      exact Or.inl ⟨rfl, rfl, rfl⟩
  · cases further
    exact Or.inr ⟨rfl, Or.inl ⟨id, maker⟩⟩

/-- The members of a table behind a new entry. -/
theorem linked_update {vconn : UInt8 → Option ObjectId} {index : UInt8} {new linked : ObjectId}
    (member : linked ∈ (Wrapped.multiconn (Function.update vconn index (some new))).linked) :
    linked = new ∨ linked ∈ (Wrapped.multiconn vconn).linked := by
  obtain ⟨place, inside, found⟩ := List.mem_filterMap.mp member
  rcases of_update_some found with ⟨-, rfl⟩ | ⟨-, found⟩
  · exact Or.inl rfl
  · exact Or.inr (List.mem_filterMap.mpr ⟨place, inside, found⟩)

/-- A new object is in no wrapper. -/
theorem Pooled.next_notMem (pooled : Pooled config requester) (place : ObjectId)
    (wrapper : WrapperWrapper) (found : requester.wrappers place = some wrapper) :
    requester.next ∉ wrapper.conn.linked :=
  fun member => pooled.held place wrapper found _ member (pooled.fresh _ le_rfl).1

theorem Pooled.created (pooled : Pooled config requester) (busy : Busy object)
    {endpoint : Endpoint} {vconn : UInt8 → Option ObjectId}
    (found : requester.wrappers id = some ⟨endpoint, .multiconn vconn⟩) (index : UInt8) :
    Pooled config (requester.created id endpoint vconn index object) := by
  refine (pooled.newLinked busy).setWrapper found rfl fun linked member => ?_
  obtain rfl | old := linked_update member
  · refine Or.inr ⟨?_, fun place wrapper here => pooled.next_notMem place wrapper here⟩
    simp
  · exact Or.inl old

theorem Pooled.connectionMaker (pooled : Pooled config requester) (busy : Busy object)
    {made : Bool}
    (outcome : requester.connectionMaker state id object = .ok (state', requester', made)) :
    Pooled config requester' := by
  obtain ⟨-, -, rfl⟩ | ⟨-, endpoint, vconn, index, answer, found, called⟩ :=
    connectionMaker_cases outcome
  · exact pooled
  · exact (pooled.created busy found index).call called

theorem Pooled.connect (pooled : Pooled config requester) (busy : Busy object)
    {endpoint : Endpoint} {connects made : Bool}
    (outcome : requester.connect config state endpoint object connects =
      .ok (state', requester', made)) : Pooled config requester' := by
  obtain ⟨-, -, rfl⟩ | ⟨-, ⟨id, maker⟩ | ⟨room, ⟨-, rfl⟩ | maker⟩⟩ := connect_cases outcome
  · exact pooled
  · exact pooled.connectionMaker busy maker
  · refine (pooled.newLinked busy).newWrapper room fun linked member => ?_
    obtain rfl : linked = requester.next := by simpa [Wrapped.linked] using member
    exact ⟨by simp, fun place wrapper here => pooled.next_notMem place wrapper here⟩
  · have opened : Pooled config (requester.newWrapper ⟨endpoint, .multiconn fun _ => none⟩) := by
      refine pooled.newWrapper room fun linked member => ?_
      simp [Wrapped.linked] at member
    exact opened.connectionMaker busy maker

/-- Wrappers do not matter for what is attached. -/
theorem Assigned.connectionMaker
    (assigned : Assigned requester.Attached requester.Deleted accepted)
    (fresh : requester.linked requester.next = none)
    (unknown : ∀ pair ∈ accepts object, ∀ endpoint, (endpoint, pair.2) ∉ accepted)
    (outcome : requester.connectionMaker state id object = .ok (state', requester', true)) :
    Assigned requester'.Attached requester'.Deleted (accepted ++ accepts object) := by
  obtain ⟨made, -⟩ | ⟨-, endpoint, vconn, index, answer, found, called⟩ :=
    connectionMaker_cases outcome
  · cases made
  · have new : Assigned (requester.created id endpoint vconn index object).Attached
        (requester.created id endpoint vconn index object).Deleted
        (accepted ++ accepts object) := assigned.newLinked fresh unknown
    exact new.call called

theorem Assigned.connect (assigned : Assigned requester.Attached requester.Deleted accepted)
    (pooled : Pooled config requester)
    (unknown : ∀ pair ∈ accepts object, ∀ endpoint, (endpoint, pair.2) ∉ accepted)
    {endpoint : Endpoint} {connects made : Bool}
    (outcome : requester.connect config state endpoint object connects =
      .ok (state', requester', made)) :
    Assigned requester'.Attached requester'.Deleted
      (accepted ++ if made then accepts object else []) := by
  have fresh := (pooled.fresh requester.next le_rfl).1
  obtain ⟨rfl, -, rfl⟩ | ⟨rfl, ⟨id, maker⟩ | ⟨room, ⟨-, rfl⟩ | maker⟩⟩ :=
    connect_cases outcome
  · simpa using assigned
  · exact assigned.connectionMaker fresh unknown maker
  · have new : Assigned
        ((requester.newLinked object).newWrapper ⟨endpoint, .identity requester.next⟩).Attached
        ((requester.newLinked object).newWrapper ⟨endpoint, .identity requester.next⟩).Deleted
        (accepted ++ accepts object) := assigned.newLinked fresh unknown
    exact new
  · have opened : Assigned (requester.newWrapper ⟨endpoint, .multiconn fun _ => none⟩).Attached
        (requester.newWrapper ⟨endpoint, .multiconn fun _ => none⟩).Deleted accepted := assigned
    exact opened.connectionMaker (pooled.fresh _ (Nat.le_succ _)).1 unknown maker

/-- An idle `ReqLinker` is used again, or a new one is made. -/
theorem addRequest_cases {endpoint : Endpoint} {gen : γ} {connects made : Bool}
    (pooled : Pooled config requester)
    (outcome : requester.addRequest config state endpoint gen connects =
      .ok (state', requester', made)) :
    (∃ id, requester.linked id = some (.reqLinker ⟨endpoint, none⟩) ∧ made = true ∧
      state' = state ∧ requester' =
        requester.reuse id endpoint (.create config.reader config.writer gen)) ∨
    requester.connect config state endpoint
      (.reqLinker ⟨endpoint, some (.create config.reader config.writer gen)⟩) connects =
        .ok (state', requester', made) := by
  unfold addRequest at outcome
  simp only at outcome
  split at outcome
  · exact Or.inr outcome
  · rename_i id rest order
    have member : id ∈ requester.reqMp endpoint := by
      have sorted : id ∈ config.inOrder (requester.reqMp endpoint) := by simp [order]
      rwa [Config.inOrder, List.mem_insertionSort] at sorted
    split at outcome
    · rename_i endpoint' found
      cases outcome
      obtain ⟨linker, found', same, -⟩ := (pooled.idle endpoint id).mp member
      rw [found] at found'
      cases found'
      obtain rfl : endpoint' = endpoint := same
      exact Or.inl ⟨id, found, rfl, rfl, rfl⟩
    · cases outcome
    · cases outcome

theorem busy_create {endpoint : Endpoint} (exchange : Exchange γ) :
    Busy (.reqLinker ⟨endpoint, some exchange⟩ : Linked γ δ) := by
  rintro linker same none
  cases same
  cases none

theorem Pooled.addRequest {endpoint : Endpoint} {gen : γ} {connects made : Bool}
    (pooled : Pooled config requester)
    (outcome : requester.addRequest config state endpoint gen connects =
      .ok (state', requester', made)) : Pooled config requester' := by
  obtain ⟨id, found, -, -, rfl⟩ | connected := addRequest_cases pooled outcome
  · exact pooled.reuse found
  · exact pooled.connect (busy_create _) connected

theorem Assigned.addRequest {endpoint : Endpoint} {gen : γ} {connects made : Bool}
    (assigned : Assigned requester.Attached requester.Deleted accepted)
    (pooled : Pooled config requester) (unknown : ∀ endpoint, (endpoint, gen) ∉ accepted)
    (outcome : requester.addRequest config state endpoint gen connects =
      .ok (state', requester', made)) :
    Assigned requester'.Attached requester'.Deleted
      (if made then accepted ++ [(endpoint, gen)] else accepted) := by
  obtain ⟨id, found, rfl, -, rfl⟩ | connected := addRequest_cases pooled outcome
  · exact assigned.reuse found unknown
  · have new := assigned.connect pooled (fun pair member => by
      obtain rfl : pair = (endpoint, gen) := by
        simpa [accepts, ReqLinker.gen, Exchange.create] using member
      exact unknown) connected
    cases made with
    | true => exact new
    | false => simpa using new

/-- A request that is refused changes nothing. -/
theorem addRequest_refused {endpoint : Endpoint} {gen : γ} {connects : Bool}
    (pooled : Pooled config requester)
    (outcome : requester.addRequest config state endpoint gen connects =
      .ok (state', requester', false)) : requester' = requester := by
  obtain ⟨id, -, made, -⟩ | connected := addRequest_cases pooled outcome
  · cases made
  · obtain ⟨-, -, same⟩ | ⟨made, -⟩ := connect_cases connected
    · exact same
    · cases made

end Operations

/-! ### A socket is closed -/

section Close

variable [Connection δ σ] {config : Config} {requester : Requester γ δ} {id : ObjectId}
  {accepted : List (Endpoint × γ)}

theorem foldl_delete {P : σ → Requester γ δ → Prop} {linked : List ObjectId}
    (keeps : ∀ requester (state : σ) id, id ∈ linked → P state requester →
      P (requester.delete state id).1 (requester.delete state id).2)
    {state : σ} (start : P state requester) :
    P (linked.foldl (fun (state, requester) id => requester.delete state id)
        (state, requester)).1
      (linked.foldl (fun (state, requester) id => requester.delete state id)
        (state, requester)).2 := by
  induction linked generalizing requester state with
  | nil => exact start
  | cons id linked ih =>
      rw [List.foldl_cons]
      refine ih (fun requester state other member => keeps requester state other ?_)
        (keeps requester state id List.mem_cons_self start)
      exact List.mem_cons_of_mem id member

/-- The wrapper without its virtual connections. -/
def unwrapped (requester : Requester γ δ) (id : ObjectId) (endpoint : Endpoint) :
    Requester γ δ :=
  { requester with
    wrappers := Function.update requester.wrappers id none
    connMp := Function.update requester.connMp endpoint ((requester.connMp endpoint).erase id) }

theorem close_cases (requester : Requester γ δ) (state : σ) (id : ObjectId) :
    requester.wrappers id = none ∧ requester.close state id = (state, requester) ∨
      ∃ wrapper, requester.wrappers id = some wrapper ∧ requester.close state id =
        wrapper.conn.linked.foldl (fun (state, requester) linked => requester.delete state linked)
          (state, requester.unwrapped id wrapper.endpoint) := by
  unfold close
  cases found : requester.wrappers id with
  | none => exact Or.inl ⟨rfl, rfl⟩
  | some wrapper => exact Or.inr ⟨wrapper, rfl, rfl⟩

theorem Pooled.unwrapped (pooled : Pooled config requester) {wrapper : WrapperWrapper}
    (found : requester.wrappers id = some wrapper) :
    Pooled config (requester.unwrapped id wrapper.endpoint) := by
  have wrappers_eq (place : ObjectId) (wrapper₁ : WrapperWrapper) :
      (requester.unwrapped id wrapper.endpoint).wrappers place = some wrapper₁ ↔
        place ≠ id ∧ requester.wrappers place = some wrapper₁ := by
    by_cases eq : place = id
    · subst eq
      simp [Requester.unwrapped]
    · simp [Requester.unwrapped, eq]
  refine ⟨pooled.idle, pooled.idleOnce, fun endpoint place => ?_, fun endpoint => ?_,
    fun endpoint => ?_, fun other new => ⟨(pooled.fresh other new).1, ?_⟩,
    fun place wrapper₁ here => pooled.held place wrapper₁ ((wrappers_eq _ _).mp here).2,
    fun place wrapper₁ place' wrapper₂ linked here there =>
      pooled.apart place wrapper₁ place' wrapper₂ linked ((wrappers_eq _ _).mp here).2
        ((wrappers_eq _ _).mp there).2⟩
  · simp only [wrappers_eq]
    by_cases here : endpoint = wrapper.endpoint
    · subst here
      have members : place ∈ (requester.unwrapped id wrapper.endpoint).connMp wrapper.endpoint ↔
          place ≠ id ∧ place ∈ requester.connMp wrapper.endpoint := by
        simp [Requester.unwrapped, (pooled.socketsOnce wrapper.endpoint).mem_erase_iff]
      rw [members, pooled.sockets]
      exact exists_and_left.symm
    · have members : (requester.unwrapped id wrapper.endpoint).connMp endpoint =
          requester.connMp endpoint := by
        simp [Requester.unwrapped, Function.update_of_ne here]
      rw [members, pooled.sockets]
      refine exists_congr fun conn => (and_iff_right_of_imp ?_).symm
      rintro found' rfl
      rw [found] at found'
      exact here (congrArg WrapperWrapper.endpoint (Option.some.inj found')).symm
  · by_cases here : endpoint = wrapper.endpoint
    · subst here
      simpa [Requester.unwrapped] using (pooled.socketsOnce wrapper.endpoint).erase id
    · simpa [Requester.unwrapped, Function.update_of_ne here] using pooled.socketsOnce endpoint
  · by_cases here : endpoint = wrapper.endpoint
    · subst here
      have shorter := (requester.connMp wrapper.endpoint).length_erase_le (a := id)
      simpa [Requester.unwrapped] using shorter.trans (pooled.limit wrapper.endpoint)
    · simpa [Requester.unwrapped, Function.update_of_ne here] using pooled.limit endpoint
  · have free := (pooled.fresh other new).2
    simp only [Requester.unwrapped, Function.update_apply]
    split
    · rfl
    · exact free

theorem Pooled.close (pooled : Pooled config requester) (state : σ) (id : ObjectId) :
    Pooled config (requester.close state id).2 := by
  obtain ⟨-, same⟩ | ⟨wrapper, found, same⟩ := close_cases requester state id
  · rw [same]
    exact pooled
  · have released : ∀ linked ∈ wrapper.conn.linked, ∀ place wrapper₁,
        (requester.unwrapped id wrapper.endpoint).wrappers place = some wrapper₁ →
          linked ∉ wrapper₁.conn.linked := by
      intro linked member place wrapper₁ here member₁
      by_cases eq : place = id
      · subst eq
        simp [Requester.unwrapped] at here
      · have here' : requester.wrappers place = some wrapper₁ := by
          simpa [Requester.unwrapped, Function.update_of_ne eq] using here
        exact eq (pooled.apart _ _ _ _ linked here' found member₁ member)
    rw [same]
    refine (foldl_delete (P := fun _ requester' => Pooled config requester' ∧
      requester'.wrappers = (requester.unwrapped id wrapper.endpoint).wrappers)
      (fun requester' state' linked member holds => ?_) ⟨pooled.unwrapped found, rfl⟩).1
    obtain ⟨pooled', wrappers⟩ := holds
    refine ⟨pooled'.delete fun place wrapper₁ here => ?_,
      (delete_rest requester' state' linked).1.trans wrappers⟩
    rw [wrappers] at here
    exact released linked member place wrapper₁ here

theorem Assigned.close (assigned : Assigned requester.Attached requester.Deleted accepted)
    (state : σ) (id : ObjectId) :
    Assigned (requester.close state id).2.Attached (requester.close state id).2.Deleted
      accepted := by
  obtain ⟨-, same⟩ | ⟨wrapper, -, same⟩ := close_cases requester state id
  · rw [same]
    exact assigned
  · have start : Assigned (requester.unwrapped id wrapper.endpoint).Attached
        (requester.unwrapped id wrapper.endpoint).Deleted accepted := assigned
    rw [same]
    exact foldl_delete (P := fun _ requester' =>
      Assigned requester'.Attached requester'.Deleted accepted)
      (fun requester' state' linked _ holds => holds.delete) start

end Close

/-! ## Every run -/

namespace Session

variable [RequestGenerator γ σ] [Connection δ σ] {config : Config}

/-- The maps are exact, and so is what became of the generators. -/
structure Kept (config : Config) (session : Session γ δ σ) : Prop where
  idle : ∀ endpoint id, id ∈ session.requester.reqMp endpoint ↔
    session.requester.Idle id endpoint
  sockets : ∀ endpoint id, id ∈ session.requester.connMp endpoint ↔
    ∃ conn, session.requester.wrappers id = some ⟨endpoint, conn⟩
  sets : ∀ endpoint, (session.requester.reqMp endpoint).Nodup ∧
    (session.requester.connMp endpoint).Nodup
  limit : ∀ endpoint, (session.requester.connMp endpoint).length ≤ config.maxConnections
  attached : ∀ endpoint gen, (endpoint, gen) ∈ session.accepted →
    ¬session.requester.Deleted gen → ∃ id, session.requester.Attached id endpoint gen ∧
      ∀ id' endpoint', session.requester.Attached id' endpoint' gen →
        id' = id ∧ endpoint' = endpoint
  refused : ∀ endpoint gen connects state requester,
    (∀ endpoint, (endpoint, gen) ∉ session.accepted) →
    session.requester.addRequest config session.state endpoint gen connects =
      .ok (state, requester, false) →
    requester.reqMp = session.requester.reqMp ∧ requester.connMp = session.requester.connMp ∧
      ∀ id endpoint, ¬requester.Attached id endpoint gen

/-- What every step keeps. -/
structure Invariant (config : Config) (session : Session γ δ σ) : Prop where
  pooled : Pooled config session.requester
  assigned : Assigned session.requester.Attached session.requester.Deleted session.accepted

theorem Invariant.kept {session : Session γ δ σ} (invariant : session.Invariant config) :
    session.Kept config where
  idle := invariant.pooled.idle
  sockets := invariant.pooled.sockets
  sets endpoint := ⟨invariant.pooled.idleOnce endpoint, invariant.pooled.socketsOnce endpoint⟩
  limit := invariant.pooled.limit
  attached endpoint gen member alive := by
    obtain ⟨id, attached⟩ := invariant.assigned.served endpoint gen member alive
    exact ⟨id, attached, fun id' endpoint' attached' =>
      invariant.assigned.once id' endpoint' id endpoint gen attached' attached⟩
  refused endpoint gen connects state requester unknown outcome := by
    obtain rfl := addRequest_refused invariant.pooled outcome
    exact ⟨rfl, rfl, fun id endpoint attached =>
      unknown endpoint (invariant.assigned.known id endpoint gen attached).1⟩

omit [RequestGenerator γ σ] [Connection δ σ] in
theorem invariant_start (state : σ) : (⟨{}, state, []⟩ : Session γ δ σ).Invariant config := by
  refine ⟨⟨fun endpoint id => ?_, fun _ => List.nodup_nil, fun endpoint id => ?_,
    fun _ => List.nodup_nil, fun _ => Nat.zero_le _, fun _ _ => ⟨rfl, rfl⟩, ?_, ?_⟩,
    ⟨?_, ?_, ?_, ?_⟩⟩
  · simp [Idle]
  · simp
  · simp
  · simp
  · simp [Attached]
  · simp [Attached]
  · simp
  · simp [Deleted]

theorem Invariant.step {session next : Session γ δ σ} {event : Event γ δ σ}
    (invariant : session.Invariant config)
    (unknown : ∀ gen ∈ event.offered, ∀ endpoint, (endpoint, gen) ∉ session.accepted)
    (step_eq : session.step config event = .ok next) : next.Invariant config := by
  obtain ⟨pooled, assigned⟩ := invariant
  cases event with
  | addRequest endpoint gen connects =>
      obtain ⟨⟨state, requester, added⟩, outcome, step_eq⟩ := bind_eq_ok.mp step_eq
      cases step_eq
      exact ⟨pooled.addRequest outcome, assigned.addRequest pooled (unknown gen rfl) outcome⟩
  | addConnection endpoint connector connects =>
      obtain ⟨⟨state, requester, added⟩, outcome, step_eq⟩ := bind_eq_ok.mp step_eq
      cases step_eq
      have busy : Busy (.connector connector : Linked γ δ) := by
        rintro linker same
        cases same
      have new := assigned.connect pooled (by simp [accepts]) outcome
      refine ⟨pooled.connect busy outcome, ?_⟩
      simpa [accepts] using new
  | call id call =>
      obtain ⟨⟨state, requester, answer⟩, outcome, step_eq⟩ := bind_eq_ok.mp step_eq
      cases step_eq
      exact ⟨pooled.call outcome, assigned.call outcome⟩
  | close id =>
      cases step_eq
      exact ⟨pooled.close session.state id, assigned.close session.state id⟩
  | change state =>
      cases step_eq
      exact ⟨pooled, assigned⟩

/-- Only a generator that is handed over can be accepted. -/
theorem accepted_step {session next : Session γ δ σ} {event : Event γ δ σ}
    (step_eq : session.step config event = .ok next) :
    ∀ pair ∈ next.accepted, pair ∈ session.accepted ∨ event.offered = some pair.2 := by
  intro pair member
  cases event with
  | addRequest endpoint gen connects =>
      obtain ⟨⟨state, requester, added⟩, -, step_eq⟩ := bind_eq_ok.mp step_eq
      cases step_eq
      simp only at member
      split at member
      · rw [List.mem_append, List.mem_singleton] at member
        obtain member | rfl := member
        · exact Or.inl member
        · exact Or.inr rfl
      · exact Or.inl member
  | addConnection endpoint connector connects =>
      obtain ⟨⟨state, requester, added⟩, -, step_eq⟩ := bind_eq_ok.mp step_eq
      cases step_eq
      exact Or.inl member
  | call id call =>
      obtain ⟨⟨state, requester, answer⟩, -, step_eq⟩ := bind_eq_ok.mp step_eq
      cases step_eq
      exact Or.inl member
  | close id =>
      cases step_eq
      exact Or.inl member
  | change state =>
      cases step_eq
      exact Or.inl member

theorem Invariant.run {session last : Session γ δ σ} {events : List (Event γ δ σ)}
    (invariant : session.Invariant config) (fresh : (events.filterMap Event.offered).Nodup)
    (unknown : ∀ gen ∈ events.filterMap Event.offered, ∀ endpoint,
      (endpoint, gen) ∉ session.accepted)
    (outcome : session.run config events = .ok last) : last.Invariant config := by
  induction events generalizing session with
  | nil =>
      cases outcome
      exact invariant
  | cons event events ih =>
      obtain ⟨next, step_eq, outcome⟩ := bind_eq_ok.mp outcome
      have here (gen : γ) (offered : gen ∈ event.offered) :
          gen ∈ (event :: events).filterMap Event.offered :=
        List.mem_filterMap.mpr ⟨event, List.mem_cons_self, offered⟩
      have later (gen : γ) (offered : gen ∈ events.filterMap Event.offered) :
          gen ∈ (event :: events).filterMap Event.offered := by
        obtain ⟨event', member, offered⟩ := List.mem_filterMap.mp offered
        exact List.mem_filterMap.mpr ⟨event', List.mem_cons_of_mem _ member, offered⟩
      refine ih (invariant.step (fun gen offered => unknown gen (here gen offered)) step_eq) ?_ ?_
        outcome
      · rw [List.filterMap_cons] at fresh
        split at fresh
        · exact fresh
        · exact (List.nodup_cons.mp fresh).2
      · intro gen offered endpoint member
        obtain before | now := accepted_step step_eq _ member
        · exact unknown gen (later gen offered) endpoint before
        · rw [List.filterMap_cons, now] at fresh
          exact (List.nodup_cons.mp fresh).1 offered

end Session

/-- In every run that hands over each generator once, the maps hold exactly what they should, and
an accepted generator is attached where it belongs until it is deleted. -/
theorem bookkeeping [RequestGenerator γ σ] [Connection δ σ] (config : Config) (state : σ)
    (events : List (Event γ δ σ)) (session : Session γ δ σ)
    (fresh : (events.filterMap Event.offered).Nodup)
    (outcome : Session.run config ⟨{}, state, []⟩ events = .ok session) : session.Kept config :=
  ((Session.invariant_start state).run fresh (by simp) outcome).kept

/-- Generators that have nothing to send. -/
@[reducible] def silent : RequestGenerator Nat Unit where
  generateRequest _ state msg := .ok (state, msg)
  readResponse _ state msg := .ok (state, msg)

/-- There is nothing behind a `Connector`. -/
@[reducible] def unconnected : Connection Empty Unit where
  call connector := nomatch connector
  delete connector := nomatch connector

/-- Two requests share a socket, which is closed then. -/
theorem bookkeeping_shared :
    let config : Config := ⟨.v11, .v11, true, 1, id⟩
    let events : List (Event Nat Empty Unit) :=
      [.addRequest ([], []) 0 true, .addRequest ([], []) 1 false, .close 0]
    ∃ session, @Session.run _ _ _ silent unconnected config ⟨{}, (), []⟩ events = .ok session ∧
      session.accepted = [(([], []), 0), (([], []), 1)] ∧
      @Session.Kept _ _ _ silent unconnected config session :=
  ⟨_, rfl, rfl, @bookkeeping _ _ _ silent unconnected ⟨.v11, .v11, true, 1, id⟩ ()
    [.addRequest ([], []) 0 true, .addRequest ([], []) 1 false, .close 0] _ (by decide) rfl⟩

end Requester
end GnyProxy
