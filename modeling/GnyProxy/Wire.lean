import GnyProxy.Demultiplexing
import GnyProxy.Scheduling

/-!
# Two multiplexed connections

A `Multiconn` at each end of a connection that carries bytes in order.  What the virtual connections
of one end read is what those of the other end wrote, whatever is on its way, in both directions.
-/

namespace GnyProxy

namespace Multiconn

/-! ## Bytes that have not arrived -/

/-- The bytes are there behind those that can be read. -/
def ReadPassage.before (rest : Str) (passage : ReadPassage) : ReadPassage :=
  { passage with incoming := passage.incoming ++ rest }

def ReadOutcome.before (rest : Str) (outcome : ReadOutcome) : ReadOutcome :=
  { outcome with incoming := outcome.incoming ++ rest }

def beforeHeader (rest : Str) :
    Except ReadOutcome ReadPassage → Except ReadOutcome ReadPassage
  | .error outcome => .error (outcome.before rest)
  | .ok passage => .ok (passage.before rest)

variable {conn : Multiconn} {rest : Str}

/-- An answer that fits to fewer bytes can be given where there are more. -/
theorem transferred_within {asked available more answer : Nat} (some : 0 < available) :
    transferred asked (available + more) (min answer available) =
      transferred asked available answer := by
  unfold transferred
  omega

theorem readOn_before (passage : ReadPassage) (more : Bool) (rest : Str) :
    readOn (passage.before rest) (more && !passage.incoming.isEmpty) =
      beforeHeader rest (readOn passage more) := by
  have same : (passage.before rest).maxRead = 0 ∨
      ¬((more && !passage.incoming.isEmpty) = true ∧ (passage.before rest).incoming ≠ []) ↔
        passage.maxRead = 0 ∨ ¬(more = true ∧ passage.incoming ≠ []) := by
    simp only [ReadPassage.before]
    cases passage.incoming <;> simp
  unfold readOn
  by_cases leaves : passage.maxRead = 0 ∨ ¬(more = true ∧ passage.incoming ≠ [])
  · rw [if_pos leaves, if_pos (same.mpr leaves)]
    rfl
  · rw [if_neg leaves, if_neg (mt same.mp leaves)]
    rfl

theorem readPayload_before {passage : ReadPassage} (call call' : ReadCall)
    (some : passage.incoming ≠ []) (response : call'.response = call.response)
    (vcRead : call'.vcRead = min call.vcRead passage.incoming.length) :
    readPayload (passage.before rest) call' = (readPayload passage call).before rest := by
  have positive := List.length_pos_iff.mpr some
  obtain ⟨asked, asked_eq⟩ : ∃ asked, min (passage.conn.getVirtualConnection
    passage.conn.rId).rSz passage.maxRead = asked := ⟨_, rfl⟩
  obtain ⟨amt, amt_eq⟩ : ∃ amt, transferred asked passage.incoming.length call.vcRead = amt :=
    ⟨_, rfl⟩
  have bound := (transferred_le asked passage.incoming.length call.vcRead).2
  rw [amt_eq] at bound
  have same : transferred asked (passage.incoming ++ rest).length call'.vcRead = amt := by
    rw [List.length_append, vcRead, transferred_within positive, amt_eq]
  have take : (passage.incoming ++ rest).take amt = passage.incoming.take amt :=
    List.take_append_of_le_length bound
  have drop : (passage.incoming ++ rest).drop amt = passage.incoming.drop amt ++ rest :=
    List.drop_append_of_le_length bound
  simp only [readPayload, ReadPassage.before, asked_eq, amt_eq, same, response, take, drop]
  by_cases none : amt = 0
  · simp only [none, if_true]
    rfl
  · simp only [none, if_false]
    rfl

/-- The answers to a call that go with more bytes behind those that can be read. -/
theorem readSize_before {passage : ReadPassage} (call : ReadCall) (some : passage.incoming ≠ []) :
    ∃ recvSize moreSize,
      (∀ call' : ReadCall, call'.recvSize = recvSize → call'.moreSize = moreSize →
        readSize (passage.before rest) call' = beforeHeader rest (readSize passage call)) ∧
      (passage.conn.rState = 1 → ∀ call' : ReadCall, call'.recvSize = recvSize →
        call'.moreSize = moreSize → SplitsSize passage.maxRead (passage.incoming ++ rest) call' →
          SplitsSize passage.maxRead passage.incoming call) ∧
      ∀ behind, readSize passage call = .ok behind → behind.incoming ≠ [] := by
  have positive := List.length_pos_iff.mpr some
  obtain ⟨conn, incoming, maxRead, read⟩ := passage
  simp only at some positive
  obtain ⟨amt, amt_eq⟩ : ∃ amt, transferred (min maxRead (3 - conn.rState)) incoming.length
    call.recvSize = amt := ⟨_, rfl⟩
  have bound := (transferred_le (min maxRead (3 - conn.rState)) incoming.length call.recvSize).2
  rw [amt_eq] at bound
  refine ⟨min call.recvSize incoming.length, call.moreSize && !(incoming.drop amt).isEmpty,
    fun call' recvSize moreSize => ?_, fun state call' recvSize moreSize splits => ?_,
    fun behind goes_on => ?_⟩
  · have same : transferred (min maxRead (3 - conn.rState)) (incoming ++ rest).length
        call'.recvSize = amt := by
      rw [List.length_append, recvSize, transferred_within positive, amt_eq]
    have take : (incoming ++ rest).take amt = incoming.take amt :=
      List.take_append_of_le_length bound
    have drop : (incoming ++ rest).drop amt = incoming.drop amt ++ rest :=
      List.drop_append_of_le_length bound
    simp only [readSize, ReadPassage.before, amt_eq, same, take, drop, moreSize]
    split
    · split
      · rfl
      · rw [← readOn_before]
        rfl
    · rfl
  · -- a part of the size that is read alone is not all that can be read
    obtain ⟨room, -, head, alone, more⟩ := splits
    rw [moreSize, Bool.and_eq_true] at more
    simp only at state room
    have left : amt < incoming.length := by
      by_contra beyond
      simp [List.drop_of_length_le (not_lt.mp beyond)] at more
    have two : 2 ≤ incoming.length := by
      unfold transferred at amt_eq
      omega
    refine ⟨room, two, ?_, by omega, more.1⟩
    rwa [List.head?_append_of_ne_nil _ some] at head
  · simp only [readSize] at goes_on
    split at goes_on
    · split at goes_on
      · cases goes_on
      · obtain ⟨rfl, -, -, available⟩ := readOn_eq_ok goes_on
        exact available
    · cases goes_on
      exact some

/-- A call behind the id. -/
def readBehind (passage : ReadPassage) (call : ReadCall) : ReadOutcome :=
  match readSize passage call with
  | .error outcome => outcome
  | .ok behind => readPayload behind call

theorem readBehind_before {passage : ReadPassage} (call : ReadCall) (some : passage.incoming ≠ []) :
    ∃ recvSize moreSize vcRead,
      (∀ call' : ReadCall, call'.recvSize = recvSize → call'.moreSize = moreSize →
        call'.vcRead = vcRead → call'.response = call.response →
          readBehind (passage.before rest) call' = (readBehind passage call).before rest) ∧
      (passage.conn.rState = 1 → ∀ call' : ReadCall, call'.recvSize = recvSize →
        call'.moreSize = moreSize → SplitsSize passage.maxRead (passage.incoming ++ rest) call' →
          SplitsSize passage.maxRead passage.incoming call) := by
  obtain ⟨recvSize, moreSize, size, splits, available⟩ := @readSize_before rest passage call some
  cases size_eq : readSize passage call with
  | error outcome =>
      refine ⟨recvSize, moreSize, 0, fun call' hr hm _ _ => ?_, splits⟩
      rw [readBehind, readBehind, size call' hr hm, size_eq]
      rfl
  | ok behind =>
      refine ⟨recvSize, moreSize, min call.vcRead behind.incoming.length,
        fun call' hr hm vcRead response => ?_, splits⟩
      rw [readBehind, readBehind, size call' hr hm, size_eq]
      exact readPayload_before call call' (available behind size_eq) response vcRead

theorem read_eq_readBehind (conn : Multiconn) (incoming : Str) (call : ReadCall) :
    conn.read incoming call = match conn.readId incoming call with
      | .error outcome => outcome
      | .ok passage => readBehind passage call := by
  unfold Multiconn.read readHeader
  cases conn.readId incoming call <;> rfl

/-- A call that can read something does the same where more bytes are on their way, for answers
that depend on what has arrived. -/
theorem read_before {incoming : Str} (call : ReadCall) (some : incoming ≠ []) :
    ∃ call' : ReadCall,
      conn.read (incoming ++ rest) call' = (conn.read incoming call).before rest ∧
      (ReadsEarly conn (incoming ++ rest) call' → ReadsEarly conn incoming call) := by
  by_cases start : conn.rState = 0
  · obtain ⟨id, incoming, rfl⟩ := List.exists_cons_of_ne_nil some
    obtain ⟨passage, passage_eq⟩ : ∃ passage : ReadPassage, passage =
      { conn := { conn with rId := id, rState := 1 }, incoming,
        maxRead := sizeSub call.maxRead 1, read := 1 } := ⟨_, rfl⟩
    have first : conn.readId (id :: incoming) call = readOn passage call.moreId := by
      simp only [readId, start, if_true, passage_eq]
    have first' (call' : ReadCall) (room : call'.maxRead = call.maxRead)
        (more : call'.moreId = (call.moreId && !incoming.isEmpty)) :
        conn.readId (id :: incoming ++ rest) call' =
          beforeHeader rest (readOn passage call.moreId) := by
      rw [← readOn_before]
      simp only [readId, start, if_true, List.cons_append, passage_eq, ReadPassage.before, room,
        more]
    cases on : readOn passage call.moreId with
    | error outcome =>
        refine ⟨{ call with moreId := call.moreId && !incoming.isEmpty, moreSize := false }, ?_, ?_⟩
        · have left := first' { call with
            moreId := call.moreId && !incoming.isEmpty, moreSize := false } rfl rfl
          rw [read_eq_readBehind, read_eq_readBehind, first, on, left, on]
          rfl
        · rintro (⟨-, -, splits⟩ | ⟨state, -⟩)
          · cases splits.2.2.2.2
          · omega
    | ok behind =>
        obtain ⟨rfl, -, -, available⟩ := readOn_eq_ok on
        obtain ⟨recvSize, moreSize, vcRead, same, splits⟩ :=
          @readBehind_before rest _ call available
        refine ⟨{ call with
          moreId := call.moreId && !incoming.isEmpty, recvSize, moreSize, vcRead }, ?_, ?_⟩
        · have goes := first' { call with
            moreId := call.moreId && !incoming.isEmpty, recvSize, moreSize, vcRead } rfl rfl
          rw [read_eq_readBehind, read_eq_readBehind, first, on, goes, on]
          exact same _ rfl rfl rfl rfl
        · rintro (⟨-, more, split⟩ | ⟨state, -⟩)
          · rw [passage_eq] at splits
            refine Or.inl ⟨start, (Bool.and_eq_true _ _ ▸ more).1, ?_⟩
            exact splits rfl _ rfl rfl split
          · omega
  · have pass (bytes : Str) (call' : ReadCall) : conn.readId bytes call' =
        .ok { conn, incoming := bytes, maxRead := call'.maxRead, read := 0 } := by
      simp only [readId, start, if_false]
    obtain ⟨recvSize, moreSize, vcRead, same, splits⟩ := @readBehind_before rest
      { conn, incoming, maxRead := call.maxRead, read := 0 } call some
    refine ⟨{ call with recvSize, moreSize, vcRead }, ?_, ?_⟩
    · rw [read_eq_readBehind, read_eq_readBehind, pass, pass]
      exact same _ rfl rfl rfl rfl
    · rintro (⟨state, -⟩ | ⟨state, split⟩)
      · exact absurd state start
      · exact Or.inr ⟨state, splits state _ rfl rfl split⟩

/-- What a call with nothing to read leaves. -/
theorem read_nil (call : ReadCall) : (conn.rState = 0 ∧ conn.read [] call =
      { conn, incoming := [], result := 0 }) ∨
    conn.rState ≠ 0 ∧ ∃ call' : ReadCall, (conn.read [] call).before rest = conn.read rest call' ∧
      ¬ReadsEarly conn rest call' := by
  by_cases start : conn.rState = 0
  · refine Or.inl ⟨start, ?_⟩
    simp only [read_eq_readBehind, readId, start, if_true]
  · refine Or.inr ⟨start, { call with maxRead := 0 }, ?_, ?_⟩
    · have nothing (asked answer : Nat) : transferred asked 0 answer = 0 := by
        simp [transferred]
      have unasked (available answer : Nat) : transferred 0 available answer = 0 := by
        simp [transferred]
      simp only [read_eq_readBehind, readId, start, if_false, readBehind, readSize]
      by_cases header : conn.rState < 3
      · simp [header, nothing, unasked, ReadOutcome.before]
      · simp [header, readPayload, nothing, unasked, ReadOutcome.before]
    · rintro (⟨state, -⟩ | ⟨-, room, -⟩)
      · exact start state
      · exact absurd room (Nat.not_succ_le_zero 1)

/-- The link has read part of the stream of the frames, of which this has not arrived. -/
def Link.TracksBefore (frames : List Frame) (rest : Str) (link : Link) : Prop :=
  Multiconn.Tracks frames link.conn (link.incoming ++ rest) link.delivered

namespace Link

variable {frames : List Frame} {link : Link} {event : Event}

theorem TracksBefore.step (tracks : link.TracksBefore frames rest)
    (timely : ¬link.ReadsEarly event) : (link.step event).TracksBefore frames rest := by
  unfold TracksBefore at tracks ⊢
  cases event with
  | read call =>
      simp only [Link.step]
      by_cases none : link.incoming = []
      · rw [none] at tracks ⊢
        rcases @read_nil link.conn rest call with ⟨-, same⟩ | ⟨-, call', same, timely'⟩
        · simpa [same] using tracks
        · have reads := tracks.read timely'
          rw [List.nil_append, ← same] at reads
          exact reads
      · obtain ⟨call', same, early⟩ := @read_before link.conn rest _ call none
        have reads := tracks.read (mt early timely)
        rw [same] at reads
        exact reads
  | getWriteSize => exact tracks.congr (sameReader_getWriteSize _)
  | write call => exact tracks.congr (sameReader_write _ _)
  | update =>
      simp only [Link.step]
      exact tracks.congr (sameReader_update _)
  | addVirtualConnection bytes => exact tracks.congr (sameReader_addVirtualConnection _ _)
  | grow id bytes => exact tracks.congr ⟨rfl, rfl, rfl⟩

/-- What is read next was sent before it. -/
theorem TracksBefore.exactly (tracks : link.TracksBefore frames rest) :
    link.delivered = payloadOf ((marks frames).take
      ((encodes frames).length - (link.incoming.length + rest.length))) := by
  have whole : Link.Tracks frames { link with incoming := link.incoming ++ rest } := tracks
  simpa using whole.demultiplexed.exactly

/-- Bytes arrive. -/
def arrive (link : Link) (bytes : Str) : Link := { link with incoming := link.incoming ++ bytes }

theorem TracksBefore.arrive {bytes : Str} (tracks : link.TracksBefore frames (bytes ++ rest)) :
    (link.arrive bytes).TracksBefore frames rest := by
  simpa [TracksBefore, Link.arrive] using tracks

/-- What was sent stays sent. -/
theorem sent_step (link : Link) (event : Event) : link.sent <+: (link.step event).sent := by
  cases event <;> simp [Link.step]

/-- The stream that is being sent, with all of the frame in progress. -/
theorem Emits.stream (emits : link.Emits) :
    ∃ frames, link.sent <+: encodes frames ∧
      link.wrote = payloadOf ((marks frames).take link.sent.length) := by
  obtain ⟨-, done, sent, wrote⟩ | ⟨done, frame, offset, here, sent, wrote⟩ := emits.emits
  · refine ⟨done, sent ▸ List.prefix_rfl, ?_⟩
    have length : (encodes done).length = (marks done).length := by
      rw [← map_snd_marks, List.length_map]
    rw [wrote, sent, length, List.take_length, payloadOf_marks]
  · refine ⟨done ++ [frame], ?_, ?_⟩
    · rw [sent, encodes_append, encodes_cons, encodes_nil, List.append_nil]
      exact (List.prefix_append_right_inj _).mpr (List.take_prefix _ _)
    · have length : link.sent.length = (encodes done).length + offset := by
        rw [sent, List.length_append, List.length_take, min_eq_left here.inside.le]
      rw [length, payloadOf_take here.inside.le, wrote]

end Link

/-! ## What virtual connections are given -/

/-- The bytes are for the virtual connection that has read. -/
def answers (delivered : List (UInt8 × UInt8)) (response : Str) : List (UInt8 × UInt8) :=
  match delivered with
  | [] => []
  | (id, _) :: _ => response.map (id, ·)

/-- A part of `read` that ends the call lets no virtual connection read. -/
theorem delivered_readHeader {incoming : Str} {call : ReadCall} {outcome : ReadOutcome}
    (ended : conn.readHeader incoming call = .error outcome) : outcome.delivered = [] := by
  have on {passage : ReadPassage} {more : Bool} {outcome : ReadOutcome}
      (ended : readOn passage more = .error outcome) : outcome.delivered = [] := by
    unfold readOn at ended
    split at ended
    · cases ended
      rfl
    · cases ended
  unfold readHeader at ended
  cases id_eq : conn.readId incoming call with
  | error early =>
      rw [id_eq] at ended
      cases ended
      unfold readId at id_eq
      split at id_eq
      · split at id_eq
        · cases id_eq
          rfl
        · exact on id_eq
      · cases id_eq
  | ok passage =>
      rw [id_eq] at ended
      have size_eq : readSize passage call = .error outcome := ended
      simp only [readSize] at size_eq
      split at size_eq
      · split at size_eq
        · cases size_eq
          rfl
        · exact on size_eq
      · cases size_eq

/-- A part of `write` that ends the call lets no virtual connection write. -/
theorem wrote_writeHeader {call : WriteCall} {outcome : WriteOutcome}
    (ended : conn.writeHeader call = .error outcome) : outcome.wrote = [] := by
  have on {passage : WritePassage} {more : Bool} {outcome : WriteOutcome}
      (ended : writeOn passage more = .error outcome) : outcome.wrote = [] := by
    unfold writeOn at ended
    split at ended
    · cases ended
      rfl
    · cases ended
  unfold writeHeader at ended
  cases id_eq : conn.writeId call with
  | error early =>
      rw [id_eq] at ended
      cases ended
      unfold writeId at id_eq
      split at id_eq
      · exact on id_eq
      · cases id_eq
  | ok passage =>
      rw [id_eq] at ended
      have size_eq : writeSize passage call = .error outcome := ended
      simp only [writeSize] at size_eq
      split at size_eq
      · split at size_eq
        · cases size_eq
          rfl
        · exact on size_eq
      · cases size_eq

/-- What a virtual connection has to write behind its `grow`. -/
theorem pending_grow_eq (conn : Multiconn) (other id : UInt8) (bytes : Str) :
    (conn.grow other bytes).pending id =
      conn.pending id ++ if other = id ∧ (conn.vconn other).isSome then bytes else [] := by
  by_cases same : other = id
  · subst same
    cases present : conn.vconn other <;> simp [pending, grow, present]
  · simp [pending, grow, Function.update_of_ne (Ne.symm same), same]

theorem pending_readPayload (passage : ReadPassage) (call : ReadCall) (id : UInt8) :
    (readPayload passage call).conn.pending id = passage.conn.pending id ++
      bytesFor id (answers (readPayload passage call).delivered call.response) := by
  obtain ⟨amt, amt_eq⟩ : ∃ amt, transferred (min (passage.conn.getVirtualConnection
    passage.conn.rId).rSz passage.maxRead) passage.incoming.length call.vcRead = amt := ⟨_, rfl⟩
  have bound := (transferred_le (min (passage.conn.getVirtualConnection passage.conn.rId).rSz
    passage.maxRead) passage.incoming.length call.vcRead).2
  rw [amt_eq] at bound
  by_cases none : amt = 0
  · simp only [readPayload, amt_eq, none, if_true, pending_getVirtualConnection, answers]
    simp [bytesFor]
  · -- the virtual connection that reads is there
    have present : ((passage.conn.getVirtualConnection passage.conn.rId).vconn
        passage.conn.rId).isSome := by
      simp [getVirtualConnection]
    have reads : answers ((passage.incoming.take amt).map (passage.conn.rId, ·)) call.response =
        call.response.map (passage.conn.rId, ·) := by
      cases incoming_eq : passage.incoming with
      | nil => simp [incoming_eq, none] at bound
      | cons byte later =>
          obtain ⟨before, rfl⟩ := Nat.exists_eq_succ_of_ne_zero none
          rfl
    have grown := pending_grow_eq (passage.conn.getVirtualConnection passage.conn.rId)
      passage.conn.rId id call.response
    simp only [present, and_true, pending_getVirtualConnection] at grown
    simp only [readPayload, amt_eq, none, if_false, reads, bytesFor_map]
    rw [← grown]
    split <;> split <;> rfl

theorem pending_read (conn : Multiconn) (incoming : Str) (call : ReadCall) (id : UInt8) :
    (conn.read incoming call).conn.pending id = conn.pending id ++
      bytesFor id (answers (conn.read incoming call).delivered call.response) := by
  have leaves := readHeader_leaves (P := fun later => later.pending id = conn.pending id)
    (fun _ _ _ => rfl) incoming call
  unfold Multiconn.read
  cases header : conn.readHeader incoming call with
  | error outcome =>
      rw [header] at leaves
      have same : outcome.conn.pending id = conn.pending id := leaves
      rw [delivered_readHeader header]
      simpa [answers, bytesFor] using same
  | ok passage =>
      rw [header] at leaves
      have same : passage.conn.pending id = conn.pending id := leaves
      simp only
      rw [pending_readPayload, same]

/-- What is written is taken from the front of what is to be written. -/
theorem pending_writePayload (passage : WritePassage) (call : WriteCall) (id : UInt8) :
    bytesFor id (writePayload passage call).wrote ++ (writePayload passage call).conn.pending id =
      passage.conn.pending id := by
  obtain ⟨amt, amt_eq⟩ : ∃ amt, transferred (min (passage.conn.getVirtualConnection
    passage.conn.wId).wSz passage.maxWrite) ((passage.conn.getVirtualConnection
    passage.conn.wId).pending passage.conn.wId).length call.vcWrite = amt := ⟨_, rfl⟩
  have wrote : (writePayload passage call).wrote =
      ((passage.conn.pending passage.conn.wId).take amt).map (passage.conn.wId, ·) := by
    simp only [writePayload, amt_eq]
    by_cases none : amt = 0
    · simp [none]
    · simp [none]
  have left : (writePayload passage call).conn.pending id =
      (passage.conn.took passage.conn.wId amt).pending id := by
    obtain ⟨amt', amt_eq', -, cases⟩ := writePayload_cases passage call
    have same : amt' = amt := by
      rw [amt_eq', ← amt_eq, pending_getVirtualConnection]
      rfl
    subst same
    rcases cases with ⟨-, same⟩ | ⟨-, -, ⟨-, same⟩ | ⟨-, same⟩⟩ <;>
    · rw [same]
      rfl
  rw [wrote, left, bytesFor_map]
  by_cases same : passage.conn.wId = id
  · subst same
    rw [if_pos rfl, pending_took, List.take_append_drop]
  · rw [if_neg same, pending_took_of_ne (Ne.symm same), List.nil_append]

theorem pending_write (conn : Multiconn) (call : WriteCall) (id : UInt8) :
    bytesFor id (conn.write call).wrote ++ (conn.write call).conn.pending id =
      conn.pending id := by
  have leaves := writeHeader_leaves (P := fun later => later.pending id = conn.pending id) rfl
    (fun _ _ => rfl) call
  unfold Multiconn.write
  split
  · simp [bytesFor]
  · cases header : conn.writeHeader call with
    | error outcome =>
        rw [header] at leaves
        have same : outcome.conn.pending id = conn.pending id := leaves
        rw [wrote_writeHeader header]
        simpa [bytesFor] using same
    | ok passage =>
        rw [header] at leaves
        have same : passage.conn.pending id = conn.pending id := leaves
        simp only
        rw [pending_writePayload, same]

theorem pending_getWriteSize (conn : Multiconn) (id : UInt8) :
    conn.getWriteSize.1.pending id = conn.pending id := by
  unfold Multiconn.getWriteSize
  split
  · split
    · rfl
    · exact pending_getVirtualConnection conn _ id
  · rfl

namespace Link

/-- What the event gives virtual connections to write. -/
def offers (link : Link) : Event → List (UInt8 × UInt8)
  | .read call => answers (link.conn.read link.incoming call).delivered call.response
  | .addVirtualConnection bytes =>
      match ids.find? fun id => (link.conn.vconn id).isNone with
      | none => []
      | some id => bytes.map (id, ·)
  | .grow id bytes => if (link.conn.vconn id).isSome then bytes.map (id, ·) else []
  | .getWriteSize | .write _ | .update => []

/-- What is given to a virtual connection is written, or still to be written. -/
theorem conserves_step (link : Link) (event : Event) (id : UInt8) :
    bytesFor id (link.step event).wrote ++ (link.step event).conn.pending id =
      bytesFor id link.wrote ++ link.conn.pending id ++ bytesFor id (link.offers event) := by
  cases event with
  | read call =>
      simp only [Link.step, offers]
      rw [pending_read, List.append_assoc]
  | getWriteSize =>
      simp only [Link.step, offers]
      rw [pending_getWriteSize]
      simp [bytesFor]
  | write call =>
      simp only [Link.step, offers]
      rw [bytesFor_append, List.append_assoc, pending_write]
      simp [bytesFor]
  | update =>
      simp only [Link.step, offers]
      rw [pending_update]
      simp [bytesFor]
  | addVirtualConnection bytes =>
      simp only [Link.step, offers, addVirtualConnection]
      cases free : ids.find? fun id => (link.conn.vconn id).isNone with
      | none => simp [bytesFor]
      | some new =>
          have absent : link.conn.vconn new = none := by simpa using List.find?_some free
          have added : ((Function.update link.conn.vconn new (some bytes)) id).getD [] =
              link.conn.pending id ++ bytesFor id (bytes.map (new, ·)) := by
            rw [bytesFor_map]
            by_cases same : new = id
            · subst same
              simp [pending, absent]
            · simp [pending, Function.update_of_ne (Ne.symm same), same]
          simp only
          rw [List.append_assoc, ← added]
          split <;> rfl
  | grow other bytes =>
      simp only [Link.step, offers]
      rw [pending_grow_eq, List.append_assoc]
      congr 2
      by_cases present : (link.conn.vconn other).isSome
      · rw [if_pos present, bytesFor_map]
        simp [present]
      · rw [if_neg present]
        simp [present, bytesFor]

end Link
end Multiconn

/-! ## Both ends -/

/-- An end of the connection. -/
inductive Side where
  | client
  | server
  deriving DecidableEq

def Side.other : Side → Side
  | client => server
  | server => client

@[simp] theorem Side.other_other (side : Side) : side.other.other = side := by
  cases side <;> rfl

theorem Side.other_ne (side : Side) : side.other ≠ side := by
  cases side <;> exact nofun

/-- The two ends, and how many of the bytes from the other end have arrived at each. -/
structure Wire where
  ends : Side → Multiconn.Link := fun _ => { incoming := [] }
  arrived : Side → Nat := fun _ => 0

namespace Wire

open Multiconn (Link)

/-- What may happen: something at one end, or some of the bytes that are on their way to an end
arrive there. -/
inductive Event where
  | act (side : Side) (event : Multiconn.Event)
  | carry (side : Side) (amount : Nat)

/-- The bytes that are on their way to an end. -/
def onTheWay (wire : Wire) (side : Side) : Str :=
  (wire.ends side.other).sent.drop (wire.arrived side)

def step (wire : Wire) : Event → Wire
  | .act side event =>
      { wire with ends := Function.update wire.ends side ((wire.ends side).step event) }
  | .carry side amount =>
      let bytes := (wire.onTheWay side).take amount
      { ends := Function.update wire.ends side ((wire.ends side).arrive bytes)
        arrived := Function.update wire.arrived side (wire.arrived side + bytes.length) }

def run (wire : Wire) (events : List Event) : Wire := events.foldl step wire

/-- The event is a call that goes on to a payload before the size is passed as a whole. -/
def Early (wire : Wire) : Event → Prop
  | .act side event => (wire.ends side).WritesEarly event ∨ (wire.ends side).ReadsEarly event
  | .carry _ _ => False

/-- A run without such a call. -/
def InTime (wire : Wire) : List Event → Prop
  | [] => True
  | event :: events => ¬wire.Early event ∧ (wire.step event).InTime events

instance decidableEarly (wire : Wire) : (event : Event) → Decidable (wire.Early event)
  | .act side event =>
      inferInstanceAs (Decidable ((wire.ends side).WritesEarly event ∨
        (wire.ends side).ReadsEarly event))
  | .carry _ _ => isFalse id

instance decidableInTime : (wire : Wire) → (events : List Event) → Decidable (wire.InTime events)
  | _, [] => isTrue trivial
  | wire, event :: events =>
      have := decidableInTime (wire.step event) events
      inferInstanceAs (Decidable (¬wire.Early event ∧ (wire.step event).InTime events))

variable {wire : Wire} {side : Side} {event : Event} {events : List Event} {frames : List Frame}

/-- Nothing has arrived that was not sent, and what was sent is a part of the stream. -/
structure Follows (frames : List Frame) (side : Side) (wire : Wire) : Prop where
  tracks : (wire.ends side).TracksBefore frames ((encodes frames).drop (wire.arrived side))
  arrived : wire.arrived side ≤ (wire.ends side.other).sent.length

theorem sent_step (wire : Wire) (event : Event) (side : Side) :
    (wire.ends side).sent <+: ((wire.step event).ends side).sent := by
  cases event with
  | act place event =>
      by_cases same : side = place
      · subst same
        simpa [step] using (wire.ends side).sent_step event
      · simp [step, Function.update_of_ne same]
  | carry place amount =>
      by_cases same : side = place
      · subst same
        simp [step, Link.arrive]
      · simp [step, Function.update_of_ne same]

theorem sent_run (wire : Wire) (events : List Event) (side : Side) :
    (wire.ends side).sent <+: ((wire.run events).ends side).sent := by
  induction events generalizing wire with
  | nil => exact List.prefix_rfl
  | cons event events ih => exact (wire.sent_step event side).trans (ih (wire.step event))

/-- One step, as long as what is sent is a part of the stream. -/
theorem Follows.step (follows : wire.Follows frames side) (timely : ¬wire.Early event)
    (sent : (wire.ends side.other).sent <+: encodes frames) :
    (wire.step event).Follows frames side := by
  have longer := (wire.sent_step event side.other).length_le
  cases event with
  | act place event =>
      refine ⟨?_, follows.arrived.trans longer⟩
      by_cases same : side = place
      · subst same
        have moved := @Link.TracksBefore.step _ _ _ event follows.tracks fun early =>
          timely (Or.inr early)
        simpa [Wire.step] using moved
      · simpa [Wire.step, Function.update_of_ne same] using follows.tracks
  | carry place amount =>
      by_cases same : side = place
      · subst same
        obtain ⟨bytes, bytes_eq⟩ : ∃ bytes, (wire.onTheWay side).take amount = bytes := ⟨_, rfl⟩
        have within : wire.arrived side + bytes.length ≤ (wire.ends side.other).sent.length := by
          have arrived := follows.arrived
          rw [← bytes_eq, List.length_take, onTheWay, List.length_drop]
          omega
        have next : (encodes frames).drop (wire.arrived side) =
            bytes ++ (encodes frames).drop (wire.arrived side + bytes.length) := by
          obtain ⟨later, later_eq⟩ := sent
          have begins : bytes <+: (encodes frames).drop (wire.arrived side) := by
            rw [← bytes_eq, ← later_eq, List.drop_append_of_le_length follows.arrived]
            exact (List.take_prefix _ _).trans (List.prefix_append _ _)
          rw [← List.drop_drop]
          exact (List.prefix_iff_eq_append.mp begins).symm
        refine ⟨?_, ?_⟩
        · have tracks := follows.tracks
          rw [next] at tracks
          simpa [Wire.step, bytes_eq] using tracks.arrive
        · simpa [Wire.step, bytes_eq, Function.update_of_ne side.other_ne] using within
      · have other : side ≠ place := same
        refine ⟨?_, ?_⟩
        · simpa [Wire.step, Function.update_of_ne other] using follows.tracks
        · have arrived := follows.arrived.trans longer
          simpa [Wire.step, Function.update_of_ne other] using arrived

theorem Follows.run (follows : wire.Follows frames side) (timely : wire.InTime events)
    (sent : ((wire.run events).ends side.other).sent <+: encodes frames) :
    (wire.run events).Follows frames side := by
  induction events generalizing wire with
  | nil => exact follows
  | cons event events ih =>
      have before := (wire.sent_run (event :: events) side.other).trans sent
      exact ih (follows.step timely.1 before) timely.2 sent

/-- What every event and every arrival at an end keeps holds there in every run in time. -/
theorem forall_run {P : Link → Prop}
    (act : ∀ link event, P link → ¬link.WritesEarly event → P (link.step event))
    (arrive : ∀ link bytes, P link → P (link.arrive bytes))
    (start : P (wire.ends side)) (timely : wire.InTime events) :
    P ((wire.run events).ends side) := by
  induction events generalizing wire with
  | nil => exact start
  | cons event events ih =>
      refine ih ?_ timely.2
      cases event with
      | act place event =>
          by_cases same : side = place
          · subst same
            have stepped := act _ event start fun early => timely.1 (Or.inl early)
            simpa [step] using stepped
          · simpa [step, Function.update_of_ne same] using start
      | carry place amount =>
          by_cases same : side = place
          · subst same
            have arrived := arrive _ ((wire.onTheWay side).take amount) start
            simpa [step] using arrived
          · simpa [step, Function.update_of_ne same] using start

/-- Each end puts frames on the connection. -/
theorem emits_run (emits : (wire.ends side).Emits) (timely : wire.InTime events) :
    ((wire.run events).ends side).Emits :=
  forall_run (P := Link.Emits) (fun _ _ emits timely => emits.step timely)
    (fun _ _ emits => ⟨emits.emits, emits.answered⟩) emits timely

theorem scheduled_run (scheduled : (wire.ends side).conn.Scheduled) (timely : wire.InTime events) :
    ((wire.run events).ends side).conn.Scheduled :=
  forall_run (P := fun link => link.conn.Scheduled)
    (fun _ event scheduled _ => scheduled.step event) (fun _ _ scheduled => scheduled) scheduled
    timely

/-- What the virtual connections of one end have read is the beginning of what those of the other
end have written, and all of it when nothing is on its way. -/
structure InOrder (wire : Wire) (side : Side) : Prop where
  begins : (wire.ends side).delivered <+: (wire.ends side.other).wrote
  each : ∀ id, bytesFor id (wire.ends side).delivered <+: bytesFor id (wire.ends side.other).wrote
  whole : wire.onTheWay side = [] → (wire.ends side).incoming = [] →
    (wire.ends side).delivered = (wire.ends side.other).wrote

theorem bytesFor_prefix {left right : List (UInt8 × UInt8)} (begins : left <+: right) (id : UInt8) :
    bytesFor id left <+: bytesFor id right := by
  obtain ⟨more, rfl⟩ := begins
  rw [bytesFor_append]
  exact List.prefix_append _ _

theorem Follows.inOrder (follows : wire.Follows frames side)
    (sent : (wire.ends side.other).sent <+: encodes frames)
    (wrote : (wire.ends side.other).wrote =
      payloadOf ((marks frames).take (wire.ends side.other).sent.length)) : wire.InOrder side := by
  have total := sent.length_le
  have arrived := follows.arrived
  -- the bytes that were read are the first ones of the stream
  have passed : (wire.ends side).delivered =
      payloadOf ((marks frames).take (wire.arrived side - (wire.ends side).incoming.length)) := by
    rw [follows.tracks.exactly, List.length_drop]
    congr 2
    omega
  have begins : (wire.ends side).delivered <+: (wire.ends side.other).wrote := by
    rw [passed, wrote]
    refine List.IsPrefix.filterMap _ ?_
    exact List.take_prefix_take_left (by omega)
  refine ⟨begins, bytesFor_prefix begins, fun none nothing => ?_⟩
  have all : (wire.ends side.other).sent.length ≤ wire.arrived side :=
    List.drop_eq_nil_iff.mp none
  rw [passed, wrote, nothing, List.length_nil, Nat.sub_zero, le_antisymm arrived all]

theorem inOrder_of_follows (emits : (wire.ends side.other).Emits)
    (follows : ∀ frames, (wire.ends side.other).sent <+: encodes frames →
      wire.Follows frames side) : wire.InOrder side := by
  obtain ⟨frames, sent, wrote⟩ := emits.stream
  exact (follows frames sent).inOrder sent wrote

theorem emits_start (side : Side) : (({} : Wire).ends side).Emits :=
  ⟨Or.inl ⟨rfl, [], rfl, rfl⟩, nofun⟩

theorem follows_start (frames : List Frame) (side : Side) : ({} : Wire).Follows frames side := by
  have start : Multiconn.Tracks ([] ++ frames) {} (encodes frames) [] :=
    Multiconn.tracks_between rfl rfl rfl rfl
  exact ⟨start, le_rfl⟩

/-- In every run of both ends in which no call splits a size, each virtual connection reads what the
one with its id at the other end has written, in order and without gaps. -/
theorem transparent (events : List Event) (timely : ({} : Wire).InTime events) (side : Side) :
    (({} : Wire).run events).InOrder side := by
  refine inOrder_of_follows (emits_run (emits_start _) timely) fun frames sent => ?_
  exact (follows_start frames side).run timely sent

/-- A virtual connection asks for a page in two pieces, and gets its answer from the one at the
other end. -/
def twoPieces : List Event :=
  [.act .client (.addVirtualConnection (ascii "ask")), .act .client .getWriteSize,
    .act .client (.write ⟨6, 2, true, true, 1⟩), .carry .server 2,
    .act .server (.read ⟨100, 1, true, true, 1, []⟩), .act .client .getWriteSize,
    .act .client (.write ⟨2, 1, true, true, 9⟩), .carry .server 100,
    .act .server (.read ⟨100, 2, true, true, 9, ascii "told"⟩), .act .server .getWriteSize,
    .act .server (.write ⟨7, 2, true, true, 9⟩), .carry .client 7,
    .act .client (.read ⟨100, 2, true, true, 9, []⟩)]

theorem transparent_twoPieces : (({} : Wire).run twoPieces).InOrder .client ∧
    bytesFor 0 ((({} : Wire).run twoPieces).ends .client).delivered = ascii "told" :=
  ⟨transparent twoPieces (by decide +kernel) .client, by decide +kernel⟩

/-! ## Nothing is left behind -/

/-- What the event gives the virtual connections of an end to write. -/
def offers (wire : Wire) (side : Side) : Event → List (UInt8 × UInt8)
  | .act place event => if place = side then (wire.ends side).offers event else []
  | .carry _ _ => []

/-- All that the virtual connections of an end are given in a run. -/
def offered (side : Side) : Wire → List Event → List (UInt8 × UInt8)
  | _, [] => []
  | wire, event :: events => wire.offers side event ++ offered side (wire.step event) events

theorem conserves_step (wire : Wire) (event : Event) (side : Side) (id : UInt8) :
    bytesFor id ((wire.step event).ends side).wrote ++
        ((wire.step event).ends side).conn.pending id =
      bytesFor id (wire.ends side).wrote ++ (wire.ends side).conn.pending id ++
        bytesFor id (wire.offers side event) := by
  cases event with
  | act place event =>
      by_cases same : side = place
      · subst same
        simpa [step, offers] using (wire.ends side).conserves_step event id
      · simp [step, offers, Function.update_of_ne same, Ne.symm same, bytesFor]
  | carry place amount =>
      by_cases same : side = place
      · subst same
        simp [step, offers, Link.arrive, bytesFor]
      · simp [step, offers, Function.update_of_ne same, bytesFor]

/-- What a virtual connection is given in a run is written, or still to be written. -/
theorem conserves_run (wire : Wire) (events : List Event) (side : Side) (id : UInt8) :
    bytesFor id ((wire.run events).ends side).wrote ++
        ((wire.run events).ends side).conn.pending id =
      bytesFor id (wire.ends side).wrote ++ (wire.ends side).conn.pending id ++
        bytesFor id (offered side wire events) := by
  induction events generalizing wire with
  | nil => simp [run, offered, bytesFor]
  | cons event events ih =>
      have first := wire.conserves_step event side id
      rw [offered, bytesFor_append, ← List.append_assoc, ← first]
      exact ih (wire.step event)

/-- Nothing is on its way to an end, and the other end has nothing more to send. -/
structure Quiet (wire : Wire) (side : Side) : Prop where
  onTheWay : wire.onTheWay side = []
  incoming : (wire.ends side).incoming = []
  writeSize : (wire.ends side.other).conn.update.getWriteSize.2 = 0

/-- Each virtual connection has read the beginning of what the one at the other end was given, and
all of it once the connection is quiet. -/
structure Complete (wire : Wire) (side : Side) (given : List (UInt8 × UInt8)) : Prop where
  begins : ∀ id, bytesFor id (wire.ends side).delivered <+: bytesFor id given
  whole : wire.Quiet side → ∀ id, bytesFor id (wire.ends side).delivered = bytesFor id given

/-- An end that has nothing to send holds nothing back. -/
theorem pending_of_quiet {conn : Multiconn} (scheduled : conn.Scheduled)
    (quiet : conn.update.getWriteSize.2 = 0) (id : UInt8) : conn.pending id = [] := by
  by_contra some
  have idle := mt scheduled.update.getWriteSize_pos.mpr (by omega)
  rcases (scheduled.update.flagged id).mp (Multiconn.isQueued_update some) with waits | progress
  · exact idle (Or.inr (List.ne_nil_of_mem waits))
  · exact idle (Or.inl progress.1)

/-- In every run in time nothing that a virtual connection is given is lost or stays behind. -/
theorem complete (events : List Event) (timely : ({} : Wire).InTime events) (side : Side) :
    (({} : Wire).run events).Complete side (offered side.other {} events) := by
  have inOrder : (({} : Wire).run events).InOrder side :=
    inOrder_of_follows (emits_run (emits_start _) timely) fun frames sent =>
      (follows_start frames side).run timely sent
  have scheduled : ((({} : Wire).run events).ends side.other).conn.Scheduled :=
    scheduled_run Multiconn.scheduled_empty timely
  have conserved (id : UInt8) := ({} : Wire).conserves_run events side.other id
  have nothing (id : UInt8) : bytesFor id (({} : Wire).ends side.other).wrote ++
      (({} : Wire).ends side.other).conn.pending id = [] := rfl
  refine ⟨fun id => ?_, fun quiet id => ?_⟩
  · have given := conserved id
    rw [nothing, List.nil_append] at given
    exact (inOrder.each id).trans ⟨_, given⟩
  · have given := conserved id
    rw [nothing, List.nil_append, pending_of_quiet scheduled quiet.writeSize,
      List.append_nil] at given
    rw [inOrder.whole quiet.onTheWay quiet.incoming, given]

theorem complete_twoPieces : (({} : Wire).run twoPieces).Complete .client
      (offered .server {} twoPieces) ∧
    bytesFor 0 (offered .server {} twoPieces) = ascii "told" :=
  ⟨complete twoPieces (by decide +kernel) .client, by decide +kernel⟩

end Wire
end GnyProxy
