import GnyProxy.Recycling
import GnyProxy.Wire

/-!
# Turns

The virtual connections of a `Multiconn` take turns: who waits is served in the order of the queue,
one frame each.  So nobody waits for more than one frame of each of the others, and the loops send
all that there is to send.
-/

namespace GnyProxy

namespace Multiconn

variable {conn : Multiconn} {id : UInt8}

/-! ## The order of the queue -/

/-- Nobody in the queue is passed over. -/
theorem wQueue_read (conn : Multiconn) (incoming : Str) (call : ReadCall) :
    conn.wQueue <+: (conn.read incoming call).conn.wQueue := by
  have leaves := readHeader_leaves (P := fun later => later.wQueue = conn.wQueue)
    (fun _ _ _ => rfl) incoming call
  unfold Multiconn.read
  cases header : conn.readHeader incoming call with
  | error outcome =>
      rw [header] at leaves
      have same : outcome.conn.wQueue = conn.wQueue := leaves
      exact same ▸ List.prefix_rfl
  | ok passage =>
      rw [header] at leaves
      have same : passage.conn.wQueue = conn.wQueue := leaves
      rw [← same]
      rcases readPayload_cases passage call with
        stays | ⟨behind, rId, rSz, rState, moved, rfl | ⟨-, -, rfl⟩⟩
      · simp only [stays]
        exact List.prefix_rfl
      · simp only [moved]
        exact List.prefix_rfl
      · simp only [moved]
        exact List.prefix_append _ _

theorem wQueue_write (conn : Multiconn) (call : WriteCall) :
    conn.wQueue <+: (conn.write call).conn.wQueue := by
  have leaves := writeHeader_leaves (P := fun later => later.wQueue = conn.wQueue) rfl
    (fun _ _ => rfl) call
  unfold Multiconn.write
  split
  · exact List.prefix_rfl
  · cases header : conn.writeHeader call with
    | error outcome =>
        rw [header] at leaves
        have same : outcome.conn.wQueue = conn.wQueue := leaves
        exact same ▸ List.prefix_rfl
    | ok passage =>
        rw [header] at leaves
        have same : passage.conn.wQueue = conn.wQueue := leaves
        rw [← same]
        obtain ⟨amt, -, -, further⟩ := writePayload_cases passage call
        rcases further with ⟨-, moved⟩ | ⟨-, -, ⟨-, moved⟩ | ⟨-, moved⟩⟩
        · simp only [moved]
          exact List.prefix_rfl
        · simp only [moved]
          exact List.prefix_append _ _
        · simp only [moved]
          exact List.prefix_rfl

theorem wQueue_update (conn : Multiconn) : conn.wQueue <+: conn.update.wQueue := by
  unfold Multiconn.update
  induction ids generalizing conn with
  | nil => exact List.prefix_rfl
  | cons id ids ih =>
      rw [List.foldl_cons]
      split
      · exact (List.prefix_append _ _).trans (ih (conn.enqueue id))
      · exact ih conn

theorem wQueue_addVirtualConnection (conn : Multiconn) (bytes : Str) :
    conn.wQueue <+: (conn.addVirtualConnection bytes).1.wQueue := by
  unfold addVirtualConnection
  split
  · exact List.prefix_rfl
  · simp only
    split
    · exact List.prefix_append _ _
    · exact List.prefix_rfl

namespace Link

variable {link : Link} {events : List Event}

/-- Whose frame the event starts. -/
def starts (link : Link) : Event → List UInt8
  | .getWriteSize => if link.conn.wSz = 0 then link.conn.wQueue.take 1 else []
  | .read _ | .write _ | .update | .addVirtualConnection _ | .grow _ _ => []

/-- Whose frames are started in a run, one after the other. -/
def turns : Link → List Event → List UInt8
  | _, [] => []
  | link, event :: events => link.starts event ++ turns (link.step event) events

/-- Whoever starts was first in the queue, and the others stay in order. -/
theorem wQueue_step (link : Link) (event : Event) :
    link.conn.wQueue <+: link.starts event ++ (link.step event).conn.wQueue := by
  cases event with
  | read call => exact wQueue_read link.conn link.incoming call
  | getWriteSize =>
      simp only [Link.step, starts, Multiconn.getWriteSize]
      by_cases idle : link.conn.wSz = 0
      · cases queue_eq : link.conn.wQueue with
        | nil => exact List.nil_prefix
        | cons first queue => simp [idle]
      · simp [idle]
  | write call => exact wQueue_write link.conn call
  | update =>
      simp only [Link.step, starts, List.nil_append]
      exact wQueue_update link.conn
  | addVirtualConnection bytes => exact wQueue_addVirtualConnection link.conn bytes
  | grow id bytes => exact List.prefix_rfl

theorem wQueue_run (link : Link) (events : List Event) :
    link.conn.wQueue <+: link.turns events ++ (link.run events).conn.wQueue := by
  induction events generalizing link with
  | nil => exact List.prefix_rfl
  | cons event events ih =>
      rw [turns, List.append_assoc]
      exact (link.wQueue_step event).trans
        ((List.prefix_append_right_inj _).mpr (ih (link.step event)))

/-- The frame that is started is one of a virtual connection with something to write. -/
theorem starts_of_scheduled (scheduled : link.conn.Scheduled) {event : Event}
    (starts : id ∈ link.starts event) : (link.step event).conn.InProgress id := by
  cases event with
  | getWriteSize =>
      simp only [Link.starts] at starts
      split at starts
      · rename_i idle
        cases queue_eq : link.conn.wQueue with
        | nil => simp [queue_eq] at starts
        | cons first queue =>
            obtain rfl : id = first := by simpa [queue_eq] using starts
            have begun := scheduled.getWriteSize_starts idle (by simp [queue_eq])
            refine ⟨begun, ?_⟩
            simp only [Link.step, Multiconn.getWriteSize, idle, if_true, queue_eq]
      · cases starts
  | read call | write call | update | addVirtualConnection bytes | grow other bytes => cases starts

/-- A place in the queue, before which there are fewer virtual connections than there can be. -/
theorem place_of_mem (scheduled : conn.Scheduled) (waits : id ∈ conn.wQueue) :
    ∃ place < 256, conn.wQueue[place]? = some id := by
  obtain ⟨place, within, here⟩ := List.getElem_of_mem waits
  have all := (List.subperm_of_subset scheduled.once fun other _ => mem_ids other).length_le
  rw [length_ids] at all
  exact ⟨place, by omega, by rw [List.getElem?_eq_getElem within, here]⟩

/-- The turn comes when those before in the queue have started one frame each. -/
theorem turn_at {place : Nat} (here : link.conn.wQueue[place]? = some id)
    (long : place < (link.turns events).length) : (link.turns events)[place]? = some id := by
  obtain ⟨later, same⟩ := link.wQueue_run events
  have within := (List.getElem?_eq_some_iff.mp here).1
  have whole : (link.turns events ++ (link.run events).conn.wQueue)[place]? = some id := by
    rw [← same, List.getElem?_append_left within, here]
  rwa [List.getElem?_append_left long] at whole

theorem length_starts_le (link : Link) (event : Event) : (link.starts event).length ≤ 1 := by
  cases event with
  | getWriteSize =>
      simp only [starts]
      split
      · rw [List.length_take]
        exact min_le_left _ _
      · exact Nat.zero_le 1
  | read call | write call | update | addVirtualConnection bytes | grow other bytes =>
      exact Nat.zero_le 1

theorem run_append (link : Link) (events later : List Event) :
    link.run (events ++ later) = (link.run events).run later := List.foldl_append

/-- When a turn comes. -/
theorem of_turn {place : Nat} (here : (link.turns events)[place]? = some id) :
    ∃ early event later, events = early ++ event :: later ∧ (link.turns early).length = place ∧
      id ∈ (link.run early).starts event := by
  induction events generalizing link place with
  | nil => simp [turns] at here
  | cons event events ih =>
      rw [turns] at here
      by_cases now : place < (link.starts event).length
      · have first : place = 0 := by
          have one := link.length_starts_le event
          omega
        rw [List.getElem?_append_left now] at here
        exact ⟨[], event, events, rfl, first.symm, List.mem_of_getElem? here⟩
      · rw [List.getElem?_append_right (by omega)] at here
        obtain ⟨early, event', later, rfl, length, starts⟩ := ih here
        refine ⟨event :: early, event', later, rfl, ?_, starts⟩
        rw [turns, List.length_append, length]
        omega

/-- So many turns are those of the first in the queue. -/
theorem turns_eq_take {place : Nat} (length : (link.turns events).length = place)
    (within : place ≤ link.conn.wQueue.length) :
    link.turns events = link.conn.wQueue.take place := by
  obtain ⟨later, same⟩ := link.wQueue_run events
  have first := congrArg (List.take place) same
  rwa [List.take_append_of_le_length within, ← length, List.take_left, eq_comm, length] at first

/-- The turn of a virtual connection comes in the run when so many frames of others have been
started: one of each that was before it in the queue, in their order. -/
def ServedAt (link : Link) (events : List Event) (id : UInt8) (place : Nat) : Prop :=
  ∃ early event later, events = early ++ event :: later ∧ (link.turns early).length = place ∧
    link.turns early = link.conn.wQueue.take place ∧
    ((link.run early).step event).conn.InProgress id

theorem servedAt_of_place (scheduled : link.conn.Scheduled) {place : Nat}
    (here : link.conn.wQueue[place]? = some id) (long : place < (link.turns events).length) :
    link.ServedAt events id place := by
  obtain ⟨early, event, later, same, length, starts⟩ := of_turn (turn_at here long)
  have within : place ≤ link.conn.wQueue.length := (List.getElem?_eq_some_iff.mp here).1.le
  exact ⟨early, event, later, same, length, turns_eq_take length within,
    starts_of_scheduled (Multiconn.Scheduled.run scheduled early) starts⟩

/-- Behind `update`, at any point of any run, a virtual connection with something to write is in the
middle of a frame, or it has a place in the queue; then a frame of it is started when those before
it in the queue, fewer than 256, have started one frame each. -/
theorem fair (incoming : Str) (before events : List Event) (id : UInt8)
    (some : (({ incoming } : Link).run before).conn.pending id ≠ []) :
    let link := (({ incoming } : Link).run before).step .update
    link.conn.InProgress id ∨ ∃ place < 256, link.conn.wQueue[place]? = Option.some id ∧
      (place < (link.turns events).length → link.ServedAt events id place) := by
  intro link
  have reached : (({ incoming } : Link).run before).conn.Scheduled :=
    @Multiconn.Scheduled.run { incoming } scheduled_empty before
  have scheduled : link.conn.Scheduled := reached.step .update
  have flagged : link.conn.isQueued id = true := by
    simp only [link, Link.step]
    exact isQueued_update some
  rcases (scheduled.flagged id).mp flagged with waits | progress
  · obtain ⟨place, bound, here⟩ := place_of_mem scheduled waits
    exact Or.inr ⟨place, bound, here, servedAt_of_place scheduled here⟩
  · exact Or.inl progress

/-- One virtual connection has much to write and the other little. -/
def busyAndIdle : List Event :=
  [.addVirtualConnection (ascii "aaaa"), .addVirtualConnection (ascii "b")]

theorem fair_second :
    let link := (({ incoming := [] } : Link).run busyAndIdle).step .update
    link.conn.InProgress 1 ∨ ∃ place < 256, link.conn.wQueue[place]? = some 1 ∧
      (place < (link.turns [.getWriteSize, .write ⟨7, 2, true, true, 4⟩, .getWriteSize]).length →
        link.ServedAt [.getWriteSize, .write ⟨7, 2, true, true, 4⟩, .getWriteSize] 1 place) :=
  fair [] busyAndIdle _ 1 (by decide +kernel)

end Link

/-! ## Sending all there is -/

/-- How many bytes are to be written. -/
def total (conn : Multiconn) : Nat := (ids.map fun id => (conn.pending id).length).sum

/-- What calls of `write` use up: four for each byte that is to be written, for the byte itself and
a header before it, less what was sent of the header. -/
def work (conn : Multiconn) : Nat := 4 * conn.total - if conn.wSz = 0 then 0 else conn.wState

theorem total_congr {later : Multiconn} (same : ∀ id, later.pending id = conn.pending id) :
    later.total = conn.total := by
  simp only [total, same]

/-- What one virtual connection has is a part of it. -/
theorem total_eq (conn : Multiconn) (id : UInt8) : (conn.pending id).length +
    ((ids.erase id).map fun other => (conn.pending other).length).sum = conn.total :=
  List.sum_map_erase (fun other => (conn.pending other).length) (mem_ids id)

theorem total_eq_zero : conn.total = 0 ↔ ∀ id, conn.pending id = [] := by
  constructor
  · intro none id
    have here := total_eq conn id
    exact List.length_eq_zero_iff.mp (by omega)
  · intro nothing
    refine List.sum_eq_zero fun size member => ?_
    obtain ⟨id, -, rfl⟩ := List.mem_map.mp member
    rw [nothing, List.length_nil]

theorem total_took (conn : Multiconn) (id : UInt8) {amount : Nat}
    (within : amount ≤ (conn.pending id).length) :
    (conn.took id amount).total + amount = conn.total := by
  have others : ((ids.erase id).map fun other => ((conn.took id amount).pending other).length) =
      (ids.erase id).map fun other => (conn.pending other).length := by
    refine List.map_congr_left fun other member => ?_
    rw [pending_took_of_ne (List.Nodup.mem_erase_iff nodup_ids |>.mp member).1]
  rw [← total_eq (conn.took id amount) id, ← total_eq conn id, others, pending_took,
    List.length_drop]
  omega

/-- A part of `write` that may put something on the socket does. -/
def Advances (conn : Multiconn) : Except WriteOutcome WritePassage → Prop
  | .error outcome => ∃ wState, conn.wState < wState ∧ wState ≤ 3 ∧
      outcome.conn = { conn with wState }
  | .ok passage => passage.maxWrite ≠ 0 ∧ ∃ wState, conn.wState ≤ wState ∧ wState ≤ 3 ∧
      passage.conn = { conn with wState }

theorem advances_writeOn {passage : WritePassage} {wState : Nat} (more : Bool)
    (further : conn.wState < wState) (bound : wState ≤ 3)
    (same : passage.conn = { conn with wState }) : Advances conn (writeOn passage more) := by
  unfold writeOn
  split
  · exact ⟨wState, further, bound, same⟩
  · rename_i stays
    rw [not_or] at stays
    exact ⟨stays.1, wState, further.le, bound, same⟩

theorem advances_writeHeader (bound : conn.wState ≤ 3) {call : WriteCall}
    (asks : 0 < call.maxWrite) : Advances conn (conn.writeHeader call) := by
  have size {passage : WritePassage} {wState : Nat} (further : conn.wState ≤ wState)
      (within : wState ≤ 3) (same : passage.conn = { conn with wState })
      (room : passage.maxWrite ≠ 0) : Advances conn (writeSize passage call) := by
    obtain ⟨own, sent, maxWrite⟩ := passage
    obtain rfl : own = { conn with wState } := same
    simp only [writeSize]
    by_cases header : wState < 3
    · obtain ⟨amt, amt_eq⟩ : ∃ amt, transferred (min maxWrite (3 - wState))
        (min maxWrite (3 - wState)) call.sendSize = amt := ⟨_, rfl⟩
      have least : amt ≠ 0 ∧ amt ≤ 3 - wState := by
        simp only at room
        unfold transferred at amt_eq
        omega
      simp only [header, if_true, amt_eq, least.1, if_false]
      exact advances_writeOn _ (by omega : conn.wState < wState + amt) (by omega) rfl
    · simp only [header, if_false]
      exact ⟨room, wState, further, within, rfl⟩
  unfold writeHeader writeId
  split
  · rename_i start
    obtain ⟨passage, passage_eq⟩ : ∃ passage : WritePassage, passage =
      { conn := { conn with wState := 1 }, sent := [conn.wId],
        maxWrite := sizeSub call.maxWrite 1 } := ⟨_, rfl⟩
    have changed : passage.conn = { conn with wState := 1 } := by rw [passage_eq]
    rw [← passage_eq]
    cases on : writeOn passage call.moreId with
    | error outcome =>
        have ended := advances_writeOn call.moreId (by omega) (by omega) changed
        rw [on] at ended
        exact ended
    | ok behind =>
        obtain ⟨rfl, room, -⟩ := writeOn_eq_ok on
        exact size (by omega) (by omega) changed room
  · exact size le_rfl bound rfl (by simpa using asks.ne')

/-- A call of `write` that may put something on the socket uses up some of the work. -/
theorem Scheduled.work_write (scheduled : conn.Scheduled) (progress : conn.wSz ≠ 0)
    {call : WriteCall} (asks : 0 < call.maxWrite) : (conn.write call).conn.work < conn.work := by
  have state := scheduled.wState
  have covered := scheduled.covered
  have some := total_eq conn conn.wId
  have advances := advances_writeHeader state asks
  have before : conn.work = 4 * conn.total - conn.wState := by rw [work, if_neg progress]
  unfold Multiconn.write
  rw [if_neg progress]
  cases header : conn.writeHeader call with
  | error outcome =>
      rw [header] at advances
      obtain ⟨wState, further, bound, same⟩ := advances
      have here : outcome.conn.total = conn.total := by
        rw [same]
        rfl
      have after : outcome.conn.work = 4 * conn.total - wState := by
        rw [work, here, same]
        simp only [progress, if_false]
      simp only
      rw [after, before]
      omega
  | ok passage =>
      rw [header] at advances
      obtain ⟨room, wState, further, bound, same⟩ := advances
      obtain ⟨own, sent, maxWrite⟩ := passage
      obtain rfl : own = { conn with wState } := same
      obtain ⟨amt, amt_eq, -, cases⟩ := writePayload_cases
        { conn := { conn with wState }, sent, maxWrite } call
      have length : (({ conn with wState } : Multiconn).pending conn.wId).length =
          (conn.pending conn.wId).length := rfl
      simp only [length] at amt_eq room
      have least : amt ≠ 0 ∧ amt ≤ conn.wSz := by
        unfold transferred at amt_eq
        omega
      have took := @total_took { conn with wState } conn.wId amt (by rw [length]; omega)
      have same_total : ({ conn with wState } : Multiconn).total = conn.total := rfl
      rw [same_total] at took
      simp only
      rcases cases with ⟨inside, moved⟩ | ⟨-, ended, ⟨-, moved⟩ | ⟨-, moved⟩⟩
      · -- the frame goes on
        have left : conn.wSz - amt ≠ 0 := by
          have less : amt < conn.wSz := inside.resolve_left least.1
          omega
        have after : (Multiconn.writePayload
            { conn := { conn with wState }, sent, maxWrite } call).conn.work =
              4 * (({ conn with wState } : Multiconn).took conn.wId amt).total - wState := by
          rw [moved, work]
          simp only [left, if_false]
          rfl
        rw [after, before]
        omega
      all_goals
        have after : (Multiconn.writePayload
            { conn := { conn with wState }, sent, maxWrite } call).conn.work =
              4 * (({ conn with wState } : Multiconn).took conn.wId amt).total := by
          rw [moved, work]
          rfl
        rw [after, before]
        omega

/-- Asking for the size uses nothing up. -/
theorem work_update (conn : Multiconn) : conn.update.work = conn.work := by
  have same := sameWriter_update conn
  rw [work, work, total_congr fun id => pending_update conn id, same.wSz, same.wState]

theorem work_getWriteSize (conn : Multiconn) : conn.getWriteSize.1.work = conn.work := by
  rw [work, work, total_congr fun id => pending_getWriteSize conn id]
  unfold Multiconn.getWriteSize
  by_cases idle : conn.wSz = 0
  · cases queue_eq : conn.wQueue with
    | nil => simp [idle]
    | cons first queue => simp [idle]
  · simp [idle]

/-- As long as something is to be written the call of `write` is made in a frame. -/
theorem Scheduled.progress_round (scheduled : conn.Scheduled) (some : conn.total ≠ 0) :
    conn.update.getWriteSize.1.wSz ≠ 0 := by
  obtain ⟨id, nonempty⟩ := not_forall.mp (mt total_eq_zero.mpr some)
  have turn := (scheduled.update.flagged id).mp (isQueued_update nonempty)
  by_cases idle : conn.update.wSz = 0
  · have waits : id ∈ conn.update.wQueue := turn.resolve_right fun progress => progress.1 idle
    exact scheduled.update.getWriteSize_starts idle (List.ne_nil_of_mem waits)
  · have same : conn.update.getWriteSize.1 = conn.update := by
      simp [Multiconn.getWriteSize, idle]
    rwa [same]

namespace Link

variable {link : Link}

/-- What a loop does with a connection to which nothing comes in. -/
def round (link : Link) (call : WriteCall) : Link :=
  link.run [.update, .getWriteSize, .write call]

theorem conn_round (link : Link) (call : WriteCall) :
    (link.round call).conn = (link.conn.update.getWriteSize.1.write call).conn := by
  simp only [round, run, List.foldl_cons, List.foldl_nil, Link.step]

theorem work_round (scheduled : link.conn.Scheduled) {call : WriteCall} (asks : 0 < call.maxWrite)
    (some : link.conn.total ≠ 0) : (link.round call).conn.work < link.conn.work := by
  have less := scheduled.update.getWriteSize.work_write (scheduled.progress_round some) asks
  rw [work_getWriteSize, work_update] at less
  rwa [conn_round]

/-- Where there is nothing to write nothing is written. -/
theorem total_round (call : WriteCall) (none : link.conn.total = 0) :
    (link.round call).conn.total = 0 := by
  refine total_eq_zero.mpr fun id => ?_
  have kept := pending_write link.conn.update.getWriteSize.1 call id
  rw [pending_getWriteSize, pending_update, total_eq_zero.mp none] at kept
  rw [conn_round]
  exact (List.append_eq_nil_iff.mp kept).2

theorem total_rounds {calls : List WriteCall} (scheduled : link.conn.Scheduled)
    (asks : ∀ call ∈ calls, 0 < call.maxWrite) (enough : link.conn.work ≤ calls.length) :
    (calls.foldl round link).conn.total = 0 := by
  induction calls generalizing link with
  | nil =>
      have covered := scheduled.covered
      have state := scheduled.wState
      have some := total_eq link.conn link.conn.wId
      have none : link.conn.work = 0 := Nat.le_zero.mp enough
      rw [work] at none
      rw [List.foldl_nil]
      split at none <;> omega
  | cons call calls ih =>
      have first := asks call List.mem_cons_self
      have later : ∀ call ∈ calls, 0 < call.maxWrite := fun call member =>
        asks call (List.mem_cons_of_mem _ member)
      rw [List.foldl_cons]
      refine ih (Multiconn.Scheduled.run scheduled _) later ?_
      by_cases none : link.conn.total = 0
      · have still : (link.round call).conn.work = 0 := by
          rw [work, total_round call none, Nat.mul_zero, Nat.zero_sub]
        omega
      · have less := work_round scheduled first none
        rw [List.length_cons] at enough
        omega

theorem conserves_round (link : Link) (call : WriteCall) (id : UInt8) :
    bytesFor id (link.round call).wrote ++ (link.round call).conn.pending id =
      bytesFor id link.wrote ++ link.conn.pending id := by
  have updated := link.conserves_step .update id
  have asked := (link.step .update).conserves_step .getWriteSize id
  have written := ((link.step .update).step .getWriteSize).conserves_step (.write call) id
  have nothing : bytesFor id [] = [] := rfl
  simp only [offers, nothing, List.append_nil] at updated asked written
  rw [← updated, ← asked, ← written]
  simp only [round, run, List.foldl_cons, List.foldl_nil]

theorem conserves_rounds (link : Link) (calls : List WriteCall) (id : UInt8) :
    bytesFor id (calls.foldl round link).wrote ++ (calls.foldl round link).conn.pending id =
      bytesFor id link.wrote ++ link.conn.pending id := by
  induction calls generalizing link with
  | nil => rfl
  | cons call calls ih => rw [List.foldl_cons, ih, conserves_round]

/-- From any state that a connection can be in, four rounds of a loop for each byte that is to be
written are enough to write all of it, however little each call of `send` takes. -/
theorem writes_all (incoming : Str) (before : List Event) (calls : List WriteCall)
    (asks : ∀ call ∈ calls, 0 < call.maxWrite)
    (enough : 4 * (({ incoming } : Link).run before).conn.total ≤ calls.length) (id : UInt8) :
    let link := ({ incoming } : Link).run before
    (calls.foldl round link).conn.pending id = [] ∧
      bytesFor id (calls.foldl round link).wrote =
        bytesFor id link.wrote ++ link.conn.pending id := by
  intro link
  have scheduled : link.conn.Scheduled :=
    @Multiconn.Scheduled.run { incoming } scheduled_empty before
  have none := total_rounds scheduled asks ((Nat.sub_le _ _).trans enough)
  have nothing := total_eq_zero.mp none id
  have kept := conserves_rounds link calls id
  rw [nothing, List.append_nil] at kept
  exact ⟨nothing, kept⟩

/-- Two bytes in eight calls that send one byte each. -/
theorem writes_all_two :
    let link := ({ incoming := [] } : Link).run [.addVirtualConnection (ascii "hi")]
    ((List.replicate 8 ⟨1, 1, false, false, 1⟩).foldl round link).conn.pending 0 = [] ∧
      bytesFor 0 ((List.replicate 8 ⟨1, 1, false, false, 1⟩).foldl round link).wrote =
        bytesFor 0 link.wrote ++ link.conn.pending 0 :=
  writes_all [] _ _ (by simp) (by decide +kernel) 0

end Link
end Multiconn
end GnyProxy
