import GnyProxy.Multiplexing

/-!
# Scheduling

The queue of a multiplexed connection and the flags beside it say the same: a virtual connection is
flagged exactly while it waits to write or a frame of it is being written.  So no turn is lost and
no empty frame is started.
-/

namespace GnyProxy

namespace Multiconn

/-- A frame for the virtual connection is being written. -/
def InProgress (conn : Multiconn) (id : UInt8) : Prop := conn.wSz ≠ 0 ∧ conn.wId = id

/-- The virtual connection will have a turn. -/
def HasTurn (conn : Multiconn) (id : UInt8) : Prop := id ∈ conn.wQueue ∨ conn.InProgress id

structure Scheduled (conn : Multiconn) : Prop where
  flagged : ∀ id, conn.isQueued id = true ↔ conn.HasTurn id
  once : conn.wQueue.Nodup
  excluded : ∀ id, conn.InProgress id → id ∉ conn.wQueue
  waiting : ∀ id ∈ conn.wQueue, conn.pending id ≠ []
  /-- The rest of a frame is there to be written. -/
  covered : conn.wSz ≤ (conn.pending conn.wId).length
  /-- A header has three bytes. -/
  wState : conn.wState ≤ 3

theorem scheduled_empty : Scheduled {} := by
  refine ⟨fun id => ?_, List.nodup_nil, fun id progress => ?_, by simp, by decide, by decide⟩
  · simp [HasTurn, InProgress]
  · exact absurd rfl progress.1

variable {conn conn' : Multiconn} {id : UInt8}

/-- Where the queue, its flags and the writer stay, and what is to be written only gets longer. -/
theorem Scheduled.congr (scheduled : conn.Scheduled) (same : SameWriter conn conn')
    (queue : conn'.wQueue = conn.wQueue) (flags : conn'.isQueued = conn.isQueued) :
    conn'.Scheduled := by
  have progress (id : UInt8) : conn'.InProgress id ↔ conn.InProgress id := by
    rw [InProgress, InProgress, same.wSz, same.wId]
  refine ⟨fun id => ?_, ?_, fun id => ?_, fun id member empty => ?_, ?_, ?_⟩
  · rw [flags, HasTurn, queue, progress]
    exact scheduled.flagged id
  · rw [queue]
    exact scheduled.once
  · rw [progress, queue]
    exact scheduled.excluded id
  · rw [queue] at member
    have longer := same.pending id
    rw [empty, List.prefix_nil] at longer
    exact scheduled.waiting id member longer
  · rw [same.wSz, same.wId]
    exact scheduled.covered.trans (same.pending _).length_le
  · rw [same.wState]
    exact scheduled.wState

/-- A virtual connection that is not flagged and has something to write joins the queue. -/
theorem Scheduled.enqueue (scheduled : conn.Scheduled) (unflagged : conn.isQueued id = false)
    (nonempty : conn.pending id ≠ []) : (conn.enqueue id).Scheduled := by
  have noTurn : ¬conn.HasTurn id := fun turn => by
    rw [← scheduled.flagged, unflagged] at turn
    cases turn
  have absent : id ∉ conn.wQueue := fun member => noTurn (Or.inl member)
  refine ⟨fun other => ?_, ?_, fun other progress member => ?_, fun other member => ?_,
    scheduled.covered, scheduled.wState⟩
  · by_cases same : other = id
    · subst same
      simp [Multiconn.enqueue, HasTurn]
    · have flag : (conn.enqueue id).isQueued other = conn.isQueued other :=
        Function.update_of_ne same _ _
      rw [flag, scheduled.flagged]
      simp [Multiconn.enqueue, HasTurn, InProgress, same]
  · exact List.Nodup.append scheduled.once (List.nodup_singleton id) (by simpa using absent)
  · obtain old | new := List.mem_append.mp member
    · exact scheduled.excluded other progress old
    · rw [List.mem_singleton.mp new] at progress
      exact noTurn (Or.inr progress)
  · obtain old | new := List.mem_append.mp member
    · exact scheduled.waiting other old
    · rw [List.mem_singleton.mp new]
      exact nonempty

/-! ## The calls -/

/-- Behind the payload a virtual connection with an answer joins the queue, unless it has a turn
already; besides, only the reader moves on. -/
theorem readPayload_cases (passage : ReadPassage) (call : ReadCall) :
    (readPayload passage call).conn = passage.conn.getVirtualConnection passage.conn.rId ∨
      ∃ behind rId rSz rState,
        (readPayload passage call).conn = { behind with rId, rSz, rState } ∧
          (behind = (passage.conn.getVirtualConnection passage.conn.rId).grow passage.conn.rId
              call.response ∨
            passage.conn.isQueued passage.conn.rId = false ∧
              ((passage.conn.getVirtualConnection passage.conn.rId).grow passage.conn.rId
                call.response).pending passage.conn.rId ≠ [] ∧
              behind = ((passage.conn.getVirtualConnection passage.conn.rId).grow
                passage.conn.rId call.response).enqueue passage.conn.rId) := by
  simp only [readPayload]
  split
  · exact Or.inl rfl
  · refine Or.inr ?_
    obtain ⟨behind, behind_eq⟩ : ∃ behind, (passage.conn.getVirtualConnection
      passage.conn.rId).grow passage.conn.rId call.response = behind := ⟨_, rfl⟩
    have flags : behind.isQueued = passage.conn.isQueued := by
      rw [← behind_eq]
      rfl
    simp only [behind_eq]
    split
    · split
      · rename_i turn
        exact ⟨behind.enqueue passage.conn.rId, 0, 0, 0, rfl,
          Or.inr ⟨flags ▸ turn.1, turn.2, rfl⟩⟩
      · exact ⟨behind, 0, 0, 0, rfl, Or.inl rfl⟩
    · split
      · rename_i turn
        exact ⟨behind.enqueue passage.conn.rId, _, _, _, rfl,
          Or.inr ⟨flags ▸ turn.1, turn.2, rfl⟩⟩
      · exact ⟨behind, _, _, _, rfl, Or.inl rfl⟩

theorem Scheduled.readPayload {passage : ReadPassage} (scheduled : passage.conn.Scheduled)
    (call : ReadCall) : (Multiconn.readPayload passage call).conn.Scheduled := by
  have found := sameWriter_getVirtualConnection passage.conn passage.conn.rId
  have grown := found.trans (sameWriter_grow _ passage.conn.rId call.response)
  obtain same | ⟨behind, rId, rSz, rState, same, joins⟩ := readPayload_cases passage call
  · rw [same]
    exact scheduled.congr found rfl rfl
  · have reader {conn : Multiconn} (here : conn.Scheduled) :
        Scheduled { conn with rId, rSz, rState } :=
      here.congr ⟨rfl, rfl, rfl, fun _ => List.prefix_rfl⟩ rfl rfl
    rw [same]
    refine reader ?_
    obtain rfl | ⟨unflagged, answers, rfl⟩ := joins
    · exact scheduled.congr grown rfl rfl
    · exact (scheduled.congr grown rfl rfl).enqueue unflagged answers

theorem Scheduled.read (scheduled : conn.Scheduled) (incoming : Str) (call : ReadCall) :
    (conn.read incoming call).conn.Scheduled := by
  have header := readHeader_leaves (P := Scheduled)
    (fun _ _ _ => scheduled.congr ⟨rfl, rfl, rfl, fun _ => List.prefix_rfl⟩ rfl rfl) incoming call
  unfold Multiconn.read
  cases header_eq : conn.readHeader incoming call with
  | error outcome =>
      rw [header_eq] at header
      exact header
  | ok passage =>
      rw [header_eq] at header
      exact Scheduled.readPayload header call

/-- The virtual connection at the head of the queue has something to write. -/
theorem Scheduled.getWriteSize_starts (scheduled : conn.Scheduled) (idle : conn.wSz = 0)
    (nonempty : conn.wQueue ≠ []) : conn.getWriteSize.1.wSz ≠ 0 := by
  obtain ⟨id, queue, queue_eq⟩ := List.exists_cons_of_ne_nil nonempty
  have positive := List.length_pos_iff.mpr (scheduled.waiting id (by simp [queue_eq]))
  simp only [Multiconn.getWriteSize, idle, if_true, queue_eq, multiconnMaxSz]
  omega

theorem Scheduled.getWriteSize (scheduled : conn.Scheduled) :
    conn.getWriteSize.1.Scheduled := by
  by_cases idle : conn.wSz = 0
  · cases queue_eq : conn.wQueue with
    | nil =>
        have same : conn.getWriteSize.1 = conn := by
          simp [Multiconn.getWriteSize, idle, queue_eq]
        rw [same]
        exact scheduled
    | cons first queue =>
        have starts := scheduled.getWriteSize_starts idle (by simp [queue_eq])
        obtain ⟨next, next_eq⟩ : ∃ next, conn.getWriteSize.1 = next := ⟨_, rfl⟩
        have next_def : next = { conn.getVirtualConnection first with
            wId := first
            wQueue := queue
            wSz := min multiconnMaxSz (conn.pending first).length
            wState := 0 } := by
          rw [← next_eq]
          simp only [Multiconn.getWriteSize, idle, if_true, queue_eq]
        have wId : next.wId = first := by rw [next_def]
        have wQueue : next.wQueue = queue := by rw [next_def]
        have wSz : next.wSz = min multiconnMaxSz (conn.pending first).length := by rw [next_def]
        have wState : next.wState = 0 := by rw [next_def]
        have flags : next.isQueued = conn.isQueued := by
          rw [next_def]
          rfl
        have pending (id : UInt8) : next.pending id = conn.pending id := by
          rw [next_def]
          exact pending_getVirtualConnection conn first id
        rw [next_eq] at starts ⊢
        have once := scheduled.once
        rw [queue_eq, List.nodup_cons] at once
        refine ⟨fun id => ?_, ?_, fun id progress => ?_, fun id member => ?_, ?_, by omega⟩
        · rw [flags, scheduled.flagged, HasTurn, HasTurn, InProgress, InProgress, queue_eq, wQueue,
            wId, List.mem_cons, eq_comm]
          tauto
        · rw [wQueue]
          exact once.2
        · rw [← progress.2, wId, wQueue]
          exact once.1
        · rw [pending]
          rw [wQueue] at member
          exact scheduled.waiting id (by simp [queue_eq, member])
        · rw [wSz, wId, pending]
          exact min_le_right _ _
  · have same : conn.getWriteSize.1 = conn := by
      simp [Multiconn.getWriteSize, idle]
    rw [same]
    exact scheduled

/-- The virtual connection has written some of what it had. -/
def took (conn : Multiconn) (id : UInt8) (amount : Nat) : Multiconn :=
  { conn with vconn := Function.update conn.vconn id (some ((conn.pending id).drop amount)) }

theorem pending_took (conn : Multiconn) (id : UInt8) (amount : Nat) :
    (conn.took id amount).pending id = (conn.pending id).drop amount := by
  simp [pending, took]

theorem pending_took_of_ne {other : UInt8} (differs : other ≠ id) (amount : Nat) :
    (conn.took id amount).pending other = conn.pending other := by
  simp [pending, took, Function.update_of_ne differs]

theorem getVirtualConnection_eq_took (conn : Multiconn) (id : UInt8) :
    conn.getVirtualConnection id = conn.took id 0 := rfl

/-- The virtual connection of the frame writes; at the end of the frame it goes to the end of the
queue if it has more, and is not flagged any more if it has not. -/
theorem writePayload_cases (passage : WritePassage) (call : WriteCall) :
    ∃ amt, amt = transferred (min passage.conn.wSz passage.maxWrite)
        (passage.conn.pending passage.conn.wId).length call.vcWrite ∧
      (writePayload passage call).result = (if amt = 0 then 0 else amt + passage.sent.length) ∧
      ((amt = 0 ∨ amt < passage.conn.wSz) ∧
          (writePayload passage call).conn =
            { passage.conn.took passage.conn.wId amt with wSz := passage.conn.wSz - amt } ∨
        amt ≠ 0 ∧ amt = passage.conn.wSz ∧
          ((passage.conn.took passage.conn.wId amt).pending passage.conn.wId ≠ [] ∧
            (writePayload passage call).conn = { passage.conn.took passage.conn.wId amt with
              wQueue := passage.conn.wQueue ++ [passage.conn.wId], wId := 0, wSz := 0,
              wState := 0 } ∨
          (passage.conn.took passage.conn.wId amt).pending passage.conn.wId = [] ∧
            (writePayload passage call).conn = { passage.conn.took passage.conn.wId amt with
              isQueued := Function.update passage.conn.isQueued passage.conn.wId false,
              wId := 0, wSz := 0, wState := 0 })) := by
  obtain ⟨conn, sent, maxWrite⟩ := passage
  obtain ⟨amt, amt_eq⟩ : ∃ amt, transferred (min conn.wSz maxWrite)
    (conn.pending conn.wId).length call.vcWrite = amt := ⟨_, rfl⟩
  have bound : amt ≤ conn.wSz := by
    have asked := (transferred_le (min conn.wSz maxWrite) (conn.pending conn.wId).length
      call.vcWrite).1
    rw [amt_eq] at asked
    exact asked.trans (min_le_left _ _)
  have size : (conn.getVirtualConnection conn.wId).wSz = conn.wSz := rfl
  have twice : Function.update (conn.getVirtualConnection conn.wId).vconn conn.wId
      (some ((conn.pending conn.wId).drop amt)) = (conn.took conn.wId amt).vconn := by
    simp [took, getVirtualConnection]
  refine ⟨amt, amt_eq.symm, ?_⟩
  simp only [writePayload, pending_getVirtualConnection, size, amt_eq, sizeSub_eq bound, twice]
  by_cases none : amt = 0
  · subst none
    simp only [if_true, true_or, true_and, Nat.sub_zero]
    exact ⟨rfl, Or.inl (getVirtualConnection_eq_took conn conn.wId)⟩
  · simp only [none, if_false, false_or, ne_eq, not_false_iff, true_and]
    refine ⟨rfl, ?_⟩
    by_cases ended : conn.wSz - amt = 0
    · simp only [ended, if_true]
      refine Or.inr ⟨by omega, ?_⟩
      split
      · rename_i more
        exact Or.inl ⟨more, rfl⟩
      · rename_i done
        exact Or.inr ⟨not_not.mp done, rfl⟩
    · simp only [ended, if_false]
      exact Or.inl ⟨by omega, rfl⟩

/-- What is written belongs to the frame in progress, so nothing is taken from those that wait. -/
theorem Scheduled.writePayload {passage : WritePassage} (scheduled : passage.conn.Scheduled)
    (progress : passage.conn.wSz ≠ 0) (call : WriteCall) :
    (Multiconn.writePayload passage call).conn.Scheduled := by
  obtain ⟨amt, -, -, further⟩ := writePayload_cases passage call
  obtain ⟨conn, conn_eq⟩ : ∃ conn, passage.conn = conn := ⟨_, rfl⟩
  simp only [conn_eq] at scheduled progress further
  have absent : conn.wId ∉ conn.wQueue := scheduled.excluded _ ⟨progress, rfl⟩
  have waits (id : UInt8) (member : id ∈ conn.wQueue) :
      (conn.took conn.wId amt).pending id ≠ [] := by
    have other : id ≠ conn.wId := fun same => absent (by rwa [same] at member)
    rw [pending_took_of_ne other]
    exact scheduled.waiting id member
  have flag : conn.isQueued conn.wId = true := (scheduled.flagged _).mpr (Or.inr ⟨progress, rfl⟩)
  have turn {id : UInt8} (other : id ≠ conn.wId) : conn.isQueued id = true ↔ id ∈ conn.wQueue := by
    rw [scheduled.flagged, HasTurn, or_iff_left]
    exact fun progress => other progress.2.symm
  obtain ⟨inside, next⟩ | ⟨-, -, ⟨more, next⟩ | ⟨-, next⟩⟩ := further
  · -- the frame goes on
    have left : conn.wSz - amt ≠ 0 := by omega
    rw [next]
    refine ⟨fun id => ?_, scheduled.once, fun id here => scheduled.excluded id ⟨progress, here.2⟩,
      waits, ?_, scheduled.wState⟩
    · have flagged := scheduled.flagged id
      have same : (conn.wSz - amt ≠ 0 ∧ conn.wId = id) ↔ conn.InProgress id :=
        and_congr_left fun _ => iff_of_true left progress
      rw [HasTurn, ← same] at flagged
      exact flagged
    · have covered := scheduled.covered
      have pending := pending_took conn conn.wId amt
      change conn.wSz - amt ≤ ((conn.took conn.wId amt).pending conn.wId).length
      rw [pending, List.length_drop]
      omega
  · -- the virtual connection goes to the end of the queue
    rw [next]
    refine ⟨fun id => ?_, ?_, fun id here => absurd rfl here.1, fun id member => ?_, Nat.zero_le _,
      Nat.zero_le _⟩
    · have ends : (id ∈ conn.wQueue ++ [conn.wId]) ↔ conn.isQueued id = true := by
        by_cases same : id = conn.wId
        · simp [same, flag]
        · simp [same, turn same]
      rw [HasTurn, InProgress, ends]
      simp [took]
    · exact List.Nodup.append scheduled.once (List.nodup_singleton _) (by simpa using absent)
    · obtain old | new := List.mem_append.mp member
      · exact waits id old
      · rw [List.mem_singleton.mp new]
        exact more
  · -- it has nothing left
    rw [next]
    refine ⟨fun id => ?_, scheduled.once, fun id here => absurd rfl here.1, waits, Nat.zero_le _,
      Nat.zero_le _⟩
    have cleared : Function.update conn.isQueued conn.wId false id = true ↔ id ∈ conn.wQueue := by
      by_cases same : id = conn.wId
      · subst same
        simpa using absent
      · rw [Function.update_of_ne same]
        exact turn same
    rw [HasTurn, InProgress]
    simpa [took] using cleared

theorem Scheduled.write (scheduled : conn.Scheduled) (call : WriteCall) :
    (conn.write call).conn.Scheduled := by
  unfold Multiconn.write
  by_cases idle : conn.wSz = 0
  · rw [if_pos idle]
    exact scheduled
  · rw [if_neg idle]
    have state (wState : Nat) (bound : wState ≤ 3) :
        Scheduled { conn with wState } ∧ conn.wSz ≠ 0 :=
      ⟨⟨scheduled.flagged, scheduled.once, scheduled.excluded, scheduled.waiting,
        scheduled.covered, bound⟩, idle⟩
    have header := writeHeader_leaves (P := fun conn => conn.Scheduled ∧ conn.wSz ≠ 0)
      ⟨scheduled, idle⟩ state call
    cases header_eq : conn.writeHeader call with
    | error outcome =>
        rw [header_eq] at header
        exact header.1
    | ok passage =>
        rw [header_eq] at header
        exact header.1.writePayload header.2 call

theorem Scheduled.addVirtualConnection (scheduled : conn.Scheduled) (bytes : Str) :
    (conn.addVirtualConnection bytes).1.Scheduled := by
  have added := sameWriter_addVirtualConnection conn bytes
  unfold Multiconn.addVirtualConnection at added ⊢
  cases free : ids.find? fun id => (conn.vconn id).isNone with
  | none => exact scheduled
  | some id =>
      have absent : conn.vconn id = none := by simpa using List.find?_some free
      have nothing : conn.pending id = [] := by simp [pending, absent]
      have unflagged : conn.isQueued id = false := by
        by_contra flag
        rw [Bool.not_eq_false, scheduled.flagged] at flag
        obtain waits | ⟨progress, rfl⟩ := flag
        · exact scheduled.waiting id waits nothing
        · have covered := scheduled.covered
          rw [nothing] at covered
          exact progress (Nat.le_zero.mp covered)
      simp only [free] at added ⊢
      by_cases silent : bytes = []
      · rw [if_neg (by simpa using silent)] at added ⊢
        exact scheduled.congr added rfl rfl
      · rw [if_pos silent] at added ⊢
        have present :
            Scheduled { conn with vconn := Function.update conn.vconn id (some bytes) } :=
          scheduled.congr ⟨added.wId, added.wSz, added.wState, added.pending⟩ rfl rfl
        exact present.enqueue unflagged (by simpa [pending] using silent)

theorem Scheduled.update (scheduled : conn.Scheduled) : conn.update.Scheduled := by
  unfold Multiconn.update
  induction ids generalizing conn with
  | nil => exact scheduled
  | cons id ids ih =>
      rw [List.foldl_cons]
      split
      · rename_i turn
        exact ih (scheduled.enqueue turn.1 turn.2.2)
      · exact ih scheduled

theorem mem_ids (id : UInt8) : id ∈ ids :=
  List.mem_map.mpr ⟨id.toNat, List.mem_range.mpr id.toNat_lt, by simp⟩

@[simp] theorem pending_update (conn : Multiconn) (id : UInt8) :
    conn.update.pending id = conn.pending id := by
  unfold Multiconn.update
  induction ids generalizing conn with
  | nil => rfl
  | cons other ids ih =>
      rw [List.foldl_cons, ih]
      split <;> rfl

theorem isQueued_enqueue (flag : conn.isQueued id = true) (other : UInt8) :
    (conn.enqueue other).isQueued id = true := by
  by_cases same : id = other
  · simp [Multiconn.enqueue, same]
  · simpa [Multiconn.enqueue, Function.update_of_ne same] using flag

/-- Behind `update` whoever has something to write is flagged. -/
theorem isQueued_update (nonempty : conn.pending id ≠ []) : conn.update.isQueued id = true := by
  have present : (conn.vconn id).isSome = true := by
    cases vconn : conn.vconn id with
    | none => simp [pending, vconn] at nonempty
    | some bytes => rfl
  unfold Multiconn.update
  have member := mem_ids id
  generalize ids = all at member ⊢
  -- whoever is flagged stays so, and the others are when their turn comes
  have comes : conn.isQueued id = true ∨ id ∈ all := Or.inr member
  clear member
  induction all generalizing conn with
  | nil => simpa using comes
  | cons other all ih =>
      rw [List.foldl_cons]
      by_cases turn : conn.isQueued other = false ∧ (conn.vconn other).isSome ∧
          conn.pending other ≠ []
      · rw [if_pos turn]
        refine ih nonempty present ?_
        obtain flag | member := comes
        · exact Or.inl (isQueued_enqueue flag other)
        · obtain rfl | later := List.mem_cons.mp member
          · exact Or.inl (by simp [Multiconn.enqueue])
          · exact Or.inr later
      · rw [if_neg turn]
        refine ih nonempty present ?_
        obtain flag | member := comes
        · exact Or.inl flag
        · obtain rfl | later := List.mem_cons.mp member
          · exact Or.inl (by simpa [present, nonempty] using turn)
          · exact Or.inr later

/-- `get_write_size` answers zero exactly when no frame is in progress and none can be started. -/
theorem Scheduled.getWriteSize_pos (scheduled : conn.Scheduled) :
    0 < conn.getWriteSize.2 ↔ conn.wSz ≠ 0 ∨ conn.wQueue ≠ [] := by
  have answer : conn.getWriteSize.2 =
      if conn.getWriteSize.1.wSz ≠ 0 then
        sizeSub (conn.getWriteSize.1.wSz + 3) conn.getWriteSize.1.wState else 0 := rfl
  have wState := scheduled.getWriteSize.wState
  have positive : 0 < conn.getWriteSize.2 ↔ conn.getWriteSize.1.wSz ≠ 0 := by
    rw [answer]
    split
    · rw [sizeSub_eq (by omega)]
      omega
    · simp_all
  rw [positive]
  by_cases idle : conn.wSz = 0
  · by_cases nobody : conn.wQueue = []
    · simp [Multiconn.getWriteSize, idle, nobody]
    · exact iff_of_true (scheduled.getWriteSize_starts idle nobody) (Or.inr nobody)
  · simp [Multiconn.getWriteSize, idle]

/-! ## Runs -/

theorem Scheduled.step {link : Link} (scheduled : link.conn.Scheduled) (event : Event) :
    (link.step event).conn.Scheduled := by
  cases event with
  | read call => exact scheduled.read link.incoming call
  | getWriteSize => exact scheduled.getWriteSize
  | write call => exact scheduled.write call
  | update =>
      simp only [Link.step]
      exact scheduled.update
  | addVirtualConnection bytes => exact scheduled.addVirtualConnection bytes
  | grow id bytes => exact scheduled.congr (sameWriter_grow link.conn id bytes) rfl rfl

theorem Scheduled.run {link : Link} (scheduled : link.conn.Scheduled) (events : List Event) :
    (link.run events).conn.Scheduled := by
  induction events generalizing link with
  | nil => exact scheduled
  | cons event events ih => exact ih (scheduled.step event)

/-- In every run a virtual connection is flagged exactly while it waits to write or is writing,
nobody waits twice or with nothing to write, and behind `update` all who have something to write
get their turn. -/
theorem scheduling (incoming : Str) (events : List Event) :
    let conn := (({ incoming } : Link).run events).conn
    conn.Scheduled ∧
      (conn.wSz = 0 → conn.wQueue ≠ [] → conn.getWriteSize.1.wSz ≠ 0) ∧
      (∀ id, conn.pending id ≠ [] → conn.update.HasTurn id) ∧
      (0 < conn.update.getWriteSize.2 ↔
        (∃ id, conn.pending id ≠ []) ∨ ∃ id, conn.InProgress id) := by
  intro conn
  have scheduled : conn.Scheduled :=
    @Scheduled.run { incoming } scheduled_empty events
  refine ⟨scheduled, scheduled.getWriteSize_starts, fun id nonempty => ?_, ?_⟩
  · exact (scheduled.update.flagged id).mp (isQueued_update nonempty)
  · rw [scheduled.update.getWriteSize_pos, (sameWriter_update conn).wSz]
    constructor
    · rintro (progress | waits)
      · exact Or.inr ⟨conn.wId, progress, rfl⟩
      · obtain ⟨id, queue, queue_eq⟩ := List.exists_cons_of_ne_nil waits
        have nonempty := scheduled.update.waiting id (by simp [queue_eq])
        exact Or.inl ⟨id, pending_update conn id ▸ nonempty⟩
    · rintro (⟨id, nonempty⟩ | ⟨id, progress, -⟩)
      · obtain waits | ⟨progress, -⟩ :=
          (scheduled.update.flagged id).mp (isQueued_update nonempty)
        · exact Or.inr (List.ne_nil_of_mem waits)
        · exact Or.inl ((sameWriter_update conn).wSz ▸ progress)
      · exact Or.inl progress

end Multiconn
end GnyProxy
