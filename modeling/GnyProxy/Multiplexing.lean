import GnyProxy.Multiconn

/-!
# Multiplexing

Where the header of a frame is sent as a whole before its payload, only frames are put on the
socket.  The writer goes on to the payload too early when `send` takes one of two bytes of the size
and more can be written at once.
-/

namespace GnyProxy

namespace Multiconn

/-! ## What virtual connections have to write -/

@[simp] theorem pending_getVirtualConnection (conn : Multiconn) (other id : UInt8) :
    (conn.getVirtualConnection other).pending id = conn.pending id := by
  by_cases same : id = other
  · subst same
    simp [pending, getVirtualConnection]
  · simp [pending, getVirtualConnection, Function.update_of_ne same]

theorem pending_grow (conn : Multiconn) (other id : UInt8) (bytes : Str) :
    conn.pending id <+: (conn.grow other bytes).pending id := by
  by_cases same : id = other
  · subst same
    cases present : conn.vconn id <;> simp [pending, grow, present]
  · simp [pending, grow, Function.update_of_ne same]

/-- The part of the state that writing goes by is the same, and what virtual connections have to
write only gets longer. -/
structure SameWriter (conn conn' : Multiconn) : Prop where
  wId : conn'.wId = conn.wId
  wSz : conn'.wSz = conn.wSz
  wState : conn'.wState = conn.wState
  pending : ∀ id, conn.pending id <+: conn'.pending id

theorem SameWriter.refl (conn : Multiconn) : SameWriter conn conn :=
  ⟨rfl, rfl, rfl, fun _ => List.prefix_rfl⟩

theorem SameWriter.trans {conn conn' conn'' : Multiconn} (first : SameWriter conn conn')
    (second : SameWriter conn' conn'') : SameWriter conn conn'' :=
  ⟨second.wId.trans first.wId, second.wSz.trans first.wSz, second.wState.trans first.wState,
    fun id => (first.pending id).trans (second.pending id)⟩

theorem sameWriter_getVirtualConnection (conn : Multiconn) (id : UInt8) :
    SameWriter conn (conn.getVirtualConnection id) :=
  ⟨rfl, rfl, rfl, fun _ => by simp⟩

theorem sameWriter_grow (conn : Multiconn) (id : UInt8) (bytes : Str) :
    SameWriter conn (conn.grow id bytes) :=
  ⟨rfl, rfl, rfl, fun _ => pending_grow conn id _ bytes⟩

theorem sameWriter_enqueue (conn : Multiconn) (id : UInt8) : SameWriter conn (conn.enqueue id) :=
  ⟨rfl, rfl, rfl, fun _ => List.prefix_rfl⟩

/-- A part of `read` leaves the writer alone. -/
def KeepsWriter (conn : Multiconn) : Except ReadOutcome ReadPassage → Prop
  | .error outcome => SameWriter conn outcome.conn
  | .ok passage => SameWriter conn passage.conn

theorem keepsWriter_readHeader (conn : Multiconn) (incoming : Str) (call : ReadCall) :
    KeepsWriter conn (conn.readHeader incoming call) := by
  have leaves := readHeader_leaves (P := SameWriter conn)
    (fun _ _ _ => ⟨rfl, rfl, rfl, fun _ => List.prefix_rfl⟩) incoming call
  cases header : conn.readHeader incoming call <;>
  · rw [header] at leaves
    exact leaves

theorem sameWriter_readPayload (passage : ReadPassage) (call : ReadCall) :
    SameWriter passage.conn (readPayload passage call).conn := by
  have found := sameWriter_getVirtualConnection passage.conn passage.conn.rId
  simp only [readPayload]
  split
  · exact found
  · have grown := found.trans (sameWriter_grow _ passage.conn.rId call.response)
    obtain ⟨wId, wSz, wState, pending⟩ := grown
    split
    · split <;> exact ⟨wId, wSz, wState, pending⟩
    · split <;> exact ⟨wId, wSz, wState, pending⟩

theorem sameWriter_read (conn : Multiconn) (incoming : Str) (call : ReadCall) :
    SameWriter conn (conn.read incoming call).conn := by
  have header := keepsWriter_readHeader conn incoming call
  unfold Multiconn.read
  cases header_eq : conn.readHeader incoming call with
  | error outcome =>
      rw [header_eq] at header
      exact header
  | ok passage =>
      rw [header_eq] at header
      exact header.trans (sameWriter_readPayload passage call)

theorem sameWriter_update (conn : Multiconn) : SameWriter conn conn.update := by
  unfold update
  induction ids generalizing conn with
  | nil => exact .refl conn
  | cons id ids ih =>
      rw [List.foldl_cons]
      split
      · exact (sameWriter_enqueue conn id).trans (ih (conn.enqueue id))
      · exact ih conn

theorem sameWriter_addVirtualConnection (conn : Multiconn) (bytes : Str) :
    SameWriter conn (conn.addVirtualConnection bytes).1 := by
  unfold addVirtualConnection
  cases free : ids.find? fun id => (conn.vconn id).isNone with
  | none => exact .refl conn
  | some id =>
      have absent : conn.vconn id = none := by simpa using List.find?_some free
      have added : SameWriter conn
          { conn with vconn := Function.update conn.vconn id (some bytes) } := by
        refine ⟨rfl, rfl, rfl, fun other => ?_⟩
        by_cases same : other = id
        · subst same
          simp [pending, absent]
        · simp [pending, Function.update_of_ne same]
      simp only
      split
      · exact added.trans (sameWriter_enqueue _ id)
      · exact added

/-! ## One frame -/

/-- The writer is at an offset into a frame, whose payload is what the virtual connection has to
write next. -/
structure Writing (frame : Frame) (offset : Nat) (conn : Multiconn) : Prop where
  inside : offset < frame.encode.length
  wId : conn.wId = frame.id
  wState : conn.wState = min offset 3
  wSz : conn.wSz = frame.payload.length - (offset - 3)
  payload : frame.payload.drop (offset - 3) <+: conn.pending frame.id

variable {frame : Frame} {offset : Nat} {conn : Multiconn}

theorem Writing.congr {conn' : Multiconn} (here : Writing frame offset conn)
    (same : SameWriter conn conn') : Writing frame offset conn' :=
  ⟨here.inside, same.wId.trans here.wId, same.wState.trans here.wState, same.wSz.trans here.wSz,
    here.payload.trans (same.pending _)⟩

theorem Writing.wSz_pos (here : Writing frame offset conn) : 0 < conn.wSz := by
  have inside := here.inside
  have nonempty := frame.length_payload_pos
  rw [Frame.length_encode] at inside
  rw [here.wSz]
  omega

/-- `get_write_size` answers how much of the frame is left. -/
theorem Writing.left (here : Writing frame offset conn) :
    offset + sizeSub (conn.wSz + 3) conn.wState = frame.encode.length := by
  have inside := here.inside
  rw [Frame.length_encode] at inside ⊢
  rw [sizeSub_eq (by rw [here.wState]; omega), here.wSz, here.wState]
  omega

/-- What a part of a call does within a frame: it moves on, puts these bytes on the socket and lets
no virtual connection write. -/
def Sends (frame : Frame) (offset : Nat) : Except WriteOutcome WritePassage → Prop
  | .error outcome => ∃ offset', Writing frame offset' outcome.conn ∧
      frame.encode.take offset' = frame.encode.take offset ++ outcome.sent ∧
      frame.tagged offset' = frame.tagged offset ∧ outcome.wrote = []
  | .ok passage => ∃ offset', 0 < offset' ∧ Writing frame offset' passage.conn ∧
      frame.encode.take offset' = frame.encode.take offset ++ passage.sent ∧
      frame.tagged offset' = frame.tagged offset

theorem sends_writeOn (offset' : Nat) {passage : WritePassage} (positive : 0 < offset')
    (moved : Writing frame offset' passage.conn)
    (sent : frame.encode.take offset' = frame.encode.take offset ++ passage.sent)
    (same : frame.tagged offset' = frame.tagged offset) (more : Bool) :
    Sends frame offset (writeOn passage more) := by
  unfold writeOn
  split
  · exact ⟨offset', moved, sent, same, rfl⟩
  · exact ⟨offset', positive, moved, sent, same⟩

/-- The id is the first byte of the frame. -/
theorem Writing.writeId (here : Writing frame offset conn) (call : WriteCall) :
    Sends frame offset (conn.writeId call) := by
  unfold Multiconn.writeId
  by_cases start : offset = 0
  · subst start
    have state : conn.wState = 0 := here.wState
    rw [if_pos state]
    refine sends_writeOn 1 one_pos ⟨?_, here.wId, rfl, here.wSz, here.payload⟩ ?_ (by simp) _
    · simp
    · simp [Frame.encode, Frame.header, here.wId]
  · have state : conn.wState ≠ 0 := by
      rw [here.wState]
      omega
    rw [if_neg state]
    exact ⟨offset, by omega, here, by simp, rfl⟩

/-- The size on the wire, where the largest one is zero. -/
theorem sizeBytes_of_bounded {size : Nat} :
    sizeBytes (if size = multiconnMaxSz then 0 else size) = sizeBytes size := by
  split
  · rename_i largest
    rw [largest]
    rfl
  · rfl

/-- The bytes of the size are those of the frame behind its id. -/
theorem sizeBytes_encode {amt : Nat} (positive : 0 < offset) (within : offset + amt ≤ 3) :
    ((sizeBytes frame.payload.length).drop (offset - 1)).take amt =
      (frame.encode.drop offset).take amt := by
  obtain ⟨before, rfl⟩ : ∃ before, offset = before + 1 := ⟨offset - 1, by omega⟩
  have length : (sizeBytes frame.payload.length).length = 2 := rfl
  rw [Frame.encode, Frame.header, List.cons_append, List.drop_succ_cons, Nat.add_sub_cancel,
    List.drop_append_of_le_length (by omega), List.take_append_of_le_length]
  rw [List.length_drop]
  omega

theorem Writing.writeSize {passage : WritePassage} (here : Writing frame offset passage.conn)
    (positive : 0 < offset) {before : Nat}
    (sent : frame.encode.take offset = frame.encode.take before ++ passage.sent)
    (same : frame.tagged offset = frame.tagged before) (call : WriteCall) :
    Sends frame before (writeSize passage call) := by
  obtain ⟨conn, sent_before, maxWrite⟩ := passage
  have wState : conn.wState = min offset 3 := here.wState
  unfold Multiconn.writeSize
  by_cases header : offset < 3
  · have state : conn.wState = offset := by omega
    have below : conn.wState < 3 := by omega
    have wSz : conn.wSz = frame.payload.length := by
      rw [here.wSz]
      omega
    simp only [below, if_true]
    obtain ⟨amt, amt_eq⟩ : ∃ amt, transferred (min maxWrite (3 - conn.wState))
      (min maxWrite (3 - conn.wState)) call.sendSize = amt := ⟨_, rfl⟩
    have bound := (transferred_le (min maxWrite (3 - conn.wState))
      (min maxWrite (3 - conn.wState)) call.sendSize).1
    rw [amt_eq] at bound ⊢
    by_cases none : amt = 0
    · rw [if_pos none]
      exact ⟨offset, here, sent, same, rfl⟩
    · rw [if_neg none]
      have within : offset + amt ≤ 3 := by omega
      have nonempty := frame.length_payload_pos
      refine sends_writeOn (offset + amt) (by omega) ?_ ?_ ?_ _
      · refine ⟨?_, here.wId, ?_, ?_, ?_⟩
        · rw [Frame.length_encode]
          omega
        · simp only [state]
          omega
        · simp only [wSz]
          omega
        · have payload := here.payload
          rw [Nat.sub_eq_zero_of_le within]
          rwa [Nat.sub_eq_zero_of_le (by omega)] at payload
      · simp only at sent
        simp only [sizeBytes_of_bounded, wSz, state, sizeBytes_encode positive within]
        rw [List.take_add, sent, List.append_assoc]
      · rw [← same, frame.tagged_of_le within, frame.tagged_of_le (by omega)]
  · have state : ¬conn.wState < 3 := by omega
    simp only [state, if_false]
    exact ⟨offset, positive, here, sent, same⟩

theorem Writing.writeHeader (here : Writing frame offset conn) (call : WriteCall) :
    Sends frame offset (conn.writeHeader call) := by
  have id_sends := here.writeId call
  unfold Multiconn.writeHeader
  cases id_eq : conn.writeId call with
  | error outcome =>
      rw [id_eq] at id_sends
      exact id_sends
  | ok passage =>
      rw [id_eq] at id_sends
      obtain ⟨offset', positive, there, sent, same⟩ := id_sends
      exact there.writeSize positive sent same call

/-- The virtual connection writes payload of the frame, perhaps up to its end. -/
theorem Writing.writePayload {passage : WritePassage} (here : Writing frame offset passage.conn)
    (behind : passage.conn.wState = 3) (call : WriteCall) :
    ∃ bytes, (Multiconn.writePayload passage call).sent = passage.sent ++ bytes ∧
      (Multiconn.writePayload passage call).wrote = bytes.map (frame.id, ·) ∧
      frame.encode.take (offset + bytes.length) = frame.encode.take offset ++ bytes ∧
      frame.tagged (offset + bytes.length) = frame.tagged offset ++ bytes.map (frame.id, ·) ∧
      (Writing frame (offset + bytes.length) (Multiconn.writePayload passage call).conn ∨
        (offset + bytes.length = frame.encode.length ∧
          (Multiconn.writePayload passage call).conn.wSz = 0)) := by
  obtain ⟨conn, sent, maxWrite⟩ := passage
  have wState : conn.wState = min offset 3 := here.wState
  have wId : conn.wId = frame.id := here.wId
  have wSz : conn.wSz = frame.payload.length - (offset - 3) := here.wSz
  have payload : frame.payload.drop (offset - 3) <+: conn.pending frame.id := here.payload
  have state : conn.wState = 3 := behind
  obtain ⟨amt, amt_eq⟩ : ∃ amt, transferred (min (conn.getVirtualConnection conn.wId).wSz maxWrite)
    ((conn.getVirtualConnection conn.wId).pending conn.wId).length call.vcWrite = amt := ⟨_, rfl⟩
  have bound : amt ≤ conn.wSz := by
    have asked := (transferred_le (min (conn.getVirtualConnection conn.wId).wSz maxWrite)
      ((conn.getVirtualConnection conn.wId).pending conn.wId).length call.vcWrite).1
    rw [amt_eq] at asked
    exact asked.trans (min_le_left _ _)
  simp only [Multiconn.writePayload, amt_eq]
  by_cases none : amt = 0
  · rw [if_pos none]
    exact ⟨[], by simp, rfl, by simp, by simp,
      Or.inl (here.congr (sameWriter_getVirtualConnection _ _))⟩
  · rw [if_neg none]
    have inside := here.inside
    rw [Frame.length_encode] at inside
    -- what is written is the next payload of the frame
    have next : (conn.pending conn.wId).take amt = (frame.encode.drop offset).take amt := by
      obtain ⟨rest, rest_eq⟩ := payload
      rw [wId, ← rest_eq, frame.drop_encode (by omega), List.take_append_of_le_length]
      rw [List.length_drop]
      omega
    have length : ((conn.pending conn.wId).take amt).length = amt := by
      rw [next, List.length_take, List.length_drop, Frame.length_encode]
      omega
    have size : (conn.getVirtualConnection conn.wId).wSz = conn.wSz := rfl
    refine ⟨(conn.pending conn.wId).take amt, ?_, ?_, ?_, ?_, ?_⟩
    · simp
    · simp [wId]
    · rw [length, next, List.take_add]
    · rw [length, next, frame.tagged_add (by omega)]
    · rw [length, size, sizeSub_eq bound]
      by_cases ended : conn.wSz - amt = 0
      · right
        refine ⟨by rw [Frame.length_encode]; omega, ?_⟩
        simp only [ended, if_true]
      · left
        simp only [ended, if_false]
        refine ⟨by rw [Frame.length_encode]; omega, wId, ?_, ?_, ?_⟩
        · have kept : (conn.getVirtualConnection conn.wId).wState = conn.wState := rfl
          simp only [kept]
          omega
        · simp only [wSz]
          omega
        · obtain ⟨rest, rest_eq⟩ := payload
          have place : offset + amt - 3 = offset - 3 + amt := by omega
          have long : amt ≤ (frame.payload.drop (offset - 3)).length := by
            rw [List.length_drop]
            omega
          rw [place, ← List.drop_drop]
          have left : (conn.pending frame.id).drop amt =
              (frame.payload.drop (offset - 3)).drop amt ++ rest := by
            rw [← rest_eq, List.drop_append_of_le_length long]
          rw [← pending_getVirtualConnection conn frame.id frame.id] at left
          simp only [pending, wId, Function.update_self, Option.getD_some]
          exact ⟨rest, left.symm⟩

/-! ## Calls that go on too early -/

/-- `send` takes one byte of the size alone, and then more can be written. -/
def SplitsSentSize (maxWrite : Nat) (call : WriteCall) : Prop :=
  2 ≤ maxWrite ∧ call.sendSize ≤ 1 ∧ call.moreSize = true

/-- The call goes on to the payload before it has sent the second byte of the size. -/
def WritesEarly (conn : Multiconn) (call : WriteCall) : Prop :=
  conn.wSz ≠ 0 ∧
    ((conn.wState = 0 ∧ call.moreId = true ∧ SplitsSentSize (sizeSub call.maxWrite 1) call) ∨
      (conn.wState = 1 ∧ SplitsSentSize call.maxWrite call))

instance (maxWrite : Nat) (call : WriteCall) : Decidable (SplitsSentSize maxWrite call) := by
  unfold SplitsSentSize
  infer_instance

instance (conn : Multiconn) (call : WriteCall) : Decidable (WritesEarly conn call) := by
  unfold WritesEarly
  infer_instance

theorem Writing.writeSize_timely {passage passage' : WritePassage} {call : WriteCall}
    (here : Writing frame offset passage.conn) (positive : 0 < offset)
    (timely : ¬(passage.conn.wState = 1 ∧ SplitsSentSize passage.maxWrite call))
    (goes_on : Multiconn.writeSize passage call = .ok passage') : passage'.conn.wState = 3 := by
  obtain ⟨conn, sent, maxWrite⟩ := passage
  have wState : conn.wState = min offset 3 := here.wState
  simp only at timely
  unfold Multiconn.writeSize at goes_on
  by_cases header : conn.wState < 3
  · simp only [header, if_true] at goes_on
    obtain ⟨amt, amt_eq⟩ : ∃ amt, transferred (min maxWrite (3 - conn.wState))
      (min maxWrite (3 - conn.wState)) call.sendSize = amt := ⟨_, rfl⟩
    have bound := (transferred_le (min maxWrite (3 - conn.wState))
      (min maxWrite (3 - conn.wState)) call.sendSize).1
    rw [amt_eq] at bound goes_on
    by_cases none : amt = 0
    · rw [if_pos none] at goes_on
      cases goes_on
    · rw [if_neg none] at goes_on
      obtain ⟨rfl, room, more⟩ := writeOn_eq_ok goes_on
      have enough : amt < maxWrite := by
        rw [sizeSub_eq (by omega)] at room
        have room' : maxWrite - amt ≠ 0 := room
        omega
      have whole : conn.wState + amt = 3 := by
        by_contra part
        refine timely ⟨by omega, by omega, ?_, more⟩
        unfold transferred at amt_eq
        omega
      exact whole
  · simp only [header, if_false] at goes_on
    cases goes_on
    simp only
    omega

/-- A call that does not go on too early lets the virtual connection write only behind the whole
header. -/
theorem Writing.writeHeader_timely {passage : WritePassage} {call : WriteCall}
    (here : Writing frame offset conn) (timely : ¬WritesEarly conn call)
    (goes_on : conn.writeHeader call = .ok passage) : passage.conn.wState = 3 := by
  have nonzero : conn.wSz ≠ 0 := here.wSz_pos.ne'
  have sends := here.writeId call
  unfold Multiconn.writeHeader at goes_on
  cases id_eq : conn.writeId call with
  | error outcome =>
      rw [id_eq] at goes_on
      cases goes_on
  | ok behind =>
      rw [id_eq] at goes_on sends
      obtain ⟨offset', positive, there, -⟩ := sends
      refine there.writeSize_timely positive (fun split => timely ⟨nonzero, ?_⟩) goes_on
      unfold Multiconn.writeId at id_eq
      by_cases start : conn.wState = 0
      · rw [if_pos start] at id_eq
        obtain ⟨rfl, -, more⟩ := writeOn_eq_ok id_eq
        exact Or.inl ⟨start, more, split.2⟩
      · rw [if_neg start] at id_eq
        cases id_eq
        exact Or.inr split

/-! ## Streams of frames -/

/-- Whole frames and perhaps the first bytes of one more are on the socket, and the virtual
connections wrote the payload among them. -/
def Emits (conn : Multiconn) (sent : Str) (wrote : List (UInt8 × UInt8)) : Prop :=
  (conn.wSz = 0 ∧ ∃ done, sent = encodes done ∧ wrote = taggedPayload done) ∨
  ∃ done frame offset, Writing frame offset conn ∧
    sent = encodes done ++ frame.encode.take offset ∧
    wrote = taggedPayload done ++ frame.tagged offset

variable {sent : Str} {wrote : List (UInt8 × UInt8)}

theorem Emits.congr {conn' : Multiconn} (emits : Emits conn sent wrote)
    (same : SameWriter conn conn') : Emits conn' sent wrote := by
  obtain ⟨idle, between⟩ | ⟨done, frame, offset, here, emitted⟩ := emits
  · exact Or.inl ⟨same.wSz.trans idle, between⟩
  · exact Or.inr ⟨done, frame, offset, here.congr same, emitted⟩

/-- A virtual connection that has something to write starts a frame. -/
theorem Emits.getWriteSize (emits : Emits conn sent wrote) :
    Emits conn.getWriteSize.1 sent wrote := by
  obtain ⟨idle, done, sent_eq, wrote_eq⟩ | ⟨done, frame, offset, here, emitted⟩ := emits
  · unfold Multiconn.getWriteSize
    simp only [idle, if_true]
    cases queue_eq : conn.wQueue with
    | nil => exact Or.inl ⟨idle, done, sent_eq, wrote_eq⟩
    | cons id queue =>
        by_cases lowered : conn.pending id = []
        · refine Or.inl ⟨?_, done, sent_eq, wrote_eq⟩
          simp [lowered]
        · have positive : 0 < (conn.pending id).length := List.length_pos_iff.mpr lowered
          have size : ((conn.pending id).take multiconnMaxSz).length =
              min multiconnMaxSz (conn.pending id).length := List.length_take
          let frame : Frame :=
            { id
              payload := (conn.pending id).take multiconnMaxSz
              nonempty := by
                rw [← List.length_pos_iff, size, multiconnMaxSz]
                omega
              bounded := by
                rw [size]
                exact min_le_left _ _ }
          refine Or.inr ⟨done, frame, 0, ⟨?_, rfl, rfl, ?_, ?_⟩, by simp [sent_eq],
            by simp [wrote_eq]⟩
          · rw [Frame.length_encode]
            omega
          · exact size.symm
          · have next : (conn.pending id).take multiconnMaxSz <+:
                (conn.getVirtualConnection id).pending id := by
              rw [pending_getVirtualConnection]
              exact List.take_prefix _ _
            exact next
  · have same : conn.getWriteSize.1 = conn := by
      simp only [Multiconn.getWriteSize, here.wSz_pos.ne', if_false]
    rw [same]
    exact Or.inr ⟨done, frame, offset, here, emitted⟩

/-- A call of `write` in time puts the next bytes of the frame on the socket. -/
theorem Emits.write {call : WriteCall} (emits : Emits conn sent wrote)
    (timely : ¬WritesEarly conn call) :
    Emits (conn.write call).conn (sent ++ (conn.write call).sent)
      (wrote ++ (conn.write call).wrote) := by
  unfold Multiconn.write
  obtain ⟨idle, done, sent_eq, wrote_eq⟩ | ⟨done, frame, offset, here, sent_eq, wrote_eq⟩ := emits
  · rw [if_pos idle]
    exact Or.inl ⟨idle, done, by simpa using sent_eq, by simpa using wrote_eq⟩
  · rw [if_neg here.wSz_pos.ne']
    have sends := here.writeHeader call
    cases header : conn.writeHeader call with
    | error outcome =>
        rw [header] at sends
        obtain ⟨offset', there, more, same, nothing⟩ := sends
        refine Or.inr ⟨done, frame, offset', there, ?_, ?_⟩
        · simp only [sent_eq, more, List.append_assoc]
        · simp only [nothing, wrote_eq, same, List.append_nil]
    | ok passage =>
        rw [header] at sends
        obtain ⟨offset', -, there, more, same⟩ := sends
        obtain ⟨bytes, sent_more, wrote_more, taken, tagged, further⟩ :=
          there.writePayload (here.writeHeader_timely timely header) call
        have sent_all : sent ++ (writePayload passage call).sent =
            encodes done ++ frame.encode.take (offset' + bytes.length) := by
          simp only [sent_eq, sent_more, taken, more, List.append_assoc]
        have wrote_all : wrote ++ (writePayload passage call).wrote =
            taggedPayload done ++ frame.tagged (offset' + bytes.length) := by
          simp only [wrote_eq, wrote_more, tagged, same, List.append_assoc]
        obtain beyond | ⟨last, idle⟩ := further
        · exact Or.inr ⟨done, frame, _, beyond, sent_all, wrote_all⟩
        · refine Or.inl ⟨idle, done ++ [frame], ?_, ?_⟩
          · rw [sent_all, last, List.take_length]
            simp
          · rw [wrote_all, last, taggedPayload_snoc]

/-! ## Runs -/

/-- The event is a call of `write` that goes on too early. -/
def Link.WritesEarly (link : Link) : Event → Prop
  | .write call => Multiconn.WritesEarly link.conn call
  | _ => False

/-- A run without a call of `write` that goes on too early. -/
def Link.WritesInTime (link : Link) : List Event → Prop
  | [] => True
  | event :: events => ¬link.WritesEarly event ∧ (link.step event).WritesInTime events

instance Link.decidableWritesEarly (link : Link) :
    (event : Event) → Decidable (link.WritesEarly event)
  | .write call => inferInstanceAs (Decidable (Multiconn.WritesEarly link.conn call))
  | .read _ | .getWriteSize | .update | .addVirtualConnection _ | .grow _ _ => isFalse id

instance Link.decidableWritesInTime (link : Link) (events : List Event) :
    Decidable (link.WritesInTime events) := by
  induction events generalizing link with
  | nil => exact isTrue trivial
  | cons event events ih =>
      have later := ih (link.step event)
      unfold Link.WritesInTime
      infer_instance

/-- The invariant of the writer, and what `get_write_size` answered if nothing happened since. -/
structure Link.Emits (link : Link) : Prop where
  emits : Multiconn.Emits link.conn link.sent link.wrote
  answered : ∀ size, link.answer = some size →
    size = if link.conn.wSz ≠ 0 then sizeSub (link.conn.wSz + 3) link.conn.wState else 0

theorem Link.Emits.step {link : Link} {event : Event} (emits : link.Emits)
    (timely : ¬link.WritesEarly event) : (link.step event).Emits := by
  cases event with
  | read call =>
      simp only [Link.step]
      exact ⟨emits.emits.congr (sameWriter_read _ _ _), by simp⟩
  | getWriteSize =>
      simp only [Link.step]
      refine ⟨emits.emits.getWriteSize, fun size answered => ?_⟩
      cases answered
      rfl
  | write call =>
      simp only [Link.step]
      exact ⟨emits.emits.write timely, by simp⟩
  | update =>
      have updated := emits.emits.congr (sameWriter_update link.conn)
      constructor
      · simp only [Link.step]
        exact updated
      · exact fun _ answered => nomatch answered
  | addVirtualConnection bytes =>
      simp only [Link.step]
      exact ⟨emits.emits.congr (sameWriter_addVirtualConnection _ _), by simp⟩
  | grow id bytes =>
      simp only [Link.step]
      exact ⟨emits.emits.congr (sameWriter_grow _ _ _), by simp⟩

theorem Link.Emits.run {link : Link} {events : List Event} (emits : link.Emits)
    (timely : link.WritesInTime events) : (link.run events).Emits := by
  induction events generalizing link with
  | nil => exact emits
  | cons event events ih =>
      obtain ⟨here, later⟩ := timely
      exact ih (emits.step here) later

/-- The first bytes of the frame that is being sent. -/
def begun : Option (Frame × Nat) → Str
  | none => []
  | some (frame, offset) => frame.encode.take offset

/-- The payload among the first bytes of the frame that is being sent. -/
def begunPayload : Option (Frame × Nat) → List (UInt8 × UInt8)
  | none => []
  | some (frame, offset) => frame.tagged offset

/-- What is on the socket are whole frames and the first bytes of at most one more; their payload
is exactly what the virtual connections wrote. -/
structure Link.Multiplexed (done : List Frame) (current : Option (Frame × Nat)) (link : Link) :
    Prop where
  stream : link.sent = encodes done ++ begun current
  inside : ∀ frame offset, current = some (frame, offset) → offset < frame.encode.length
  inOrder : ∀ id, bytesFor id link.wrote = payloads id done ++ bytesFor id (begunPayload current)
  remaining : ∀ size, link.answer = some size → 0 < size →
    ∃ frame offset, current = some (frame, offset) ∧ offset + size = frame.encode.length

theorem Link.Emits.multiplexed {link : Link} (emits : link.Emits) :
    ∃ done current, link.Multiplexed done current := by
  obtain ⟨⟨idle, done, sent_eq, wrote_eq⟩ | ⟨done, frame, offset, here, sent_eq, wrote_eq⟩,
    answered⟩ := emits
  · refine ⟨done, none, by simpa [begun] using sent_eq, by simp, fun id => ?_,
      fun size answer positive => ?_⟩
    · rw [wrote_eq, bytesFor_taggedPayload, begunPayload]
      simp [bytesFor]
    · rw [answered size answer, idle] at positive
      simp at positive
  · refine ⟨done, some (frame, offset), sent_eq, ?_, fun id => ?_, fun size answer positive => ?_⟩
    · rintro _ _ ⟨⟩
      exact here.inside
    · rw [wrote_eq, bytesFor_append, bytesFor_taggedPayload]
      rfl
    · refine ⟨frame, offset, rfl, ?_⟩
      rw [answered size answer, if_pos here.wSz_pos.ne']
      exact here.left

/-- In every run without a call of `write` that goes on too early, frames are sent whose payloads
are what the virtual connections wrote. -/
theorem multiplexing (incoming : Str) (events : List Event)
    (timely : ({ incoming } : Link).WritesInTime events) :
    ∃ done current, (({ incoming } : Link).run events).Multiplexed done current := by
  have start : ({ incoming } : Link).Emits :=
    ⟨Or.inl ⟨rfl, [], rfl, rfl⟩, by simp⟩
  exact (start.run timely).multiplexed

/-- Two virtual connections, with the header of the first frame in pieces. -/
theorem multiplexing_two :
    let events : List Event :=
      [.addVirtualConnection (ascii "abc"), .addVirtualConnection (ascii "d"), .getWriteSize,
        .write ⟨6, 1, true, false, 1⟩, .write ⟨4, 1, true, true, 2⟩, .getWriteSize,
        .write ⟨1, 1, true, true, 1⟩, .getWriteSize, .write ⟨2, 1, true, true, 1⟩]
    ∃ done current, (({ incoming := [] } : Link).run events).Multiplexed done current :=
  multiplexing [] _ (by decide +kernel)

/-- A call of `write` whose `send` takes the first byte of the size; then more can be written. -/
def splitWrite : List Event :=
  [.addVirtualConnection (ascii "AAAAA"), .getWriteSize, .write ⟨8, 1, true, true, 1⟩]

/-- The payload is on the socket where the second byte of the size should be. -/
theorem not_multiplexing :
    ¬∃ done current, (({ incoming := [] } : Link).run splitWrite).Multiplexed done current := by
  rintro ⟨done, current, stream, inside, inOrder, -⟩
  have sent : (({ incoming := [] } : Link).run splitWrite).sent = [0, 0, 65] := by decide +kernel
  have wrote : bytesFor 0 (({ incoming := [] } : Link).run splitWrite).wrote = [65] := by
    decide +kernel
  have length := congrArg List.length (sent.symm.trans stream)
  have here := wrote.symm.trans (inOrder 0)
  cases done with
  | cons frame done =>
      have nonempty := frame.length_payload_pos
      simp only [encodes_cons, List.length_append, Frame.length_encode, List.length_cons,
        List.length_nil] at length
      omega
  | nil =>
      cases current with
      | none => simp [payloads, begunPayload, bytesFor] at here
      | some current =>
          obtain ⟨frame, offset⟩ := current
          have within := inside frame offset rfl
          have header : offset ≤ 3 := by
            simp only [encodes_nil, begun, List.nil_append, List.length_take, List.length_cons,
              List.length_nil] at length
            omega
          simp [payloads, begunPayload, bytesFor, frame.tagged_of_le header] at here

end Multiconn
end GnyProxy
