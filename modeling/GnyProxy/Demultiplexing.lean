import GnyProxy.Multiconn

/-!
# Demultiplexing

Where the header of a frame is read as a whole before its payload, the virtual connections read
exactly the payloads.  The reader goes on to the payload too early when `recv` returns one of two
bytes of the size and more can be read at once.
-/

namespace GnyProxy

namespace Multiconn

/-! ## One frame -/

/-- What `rSz` holds at an offset into a frame: nothing, the first byte of the size, or how much of
the payload is left. -/
def readerSize (frame : Frame) (offset : Nat) : Nat :=
  if offset ≤ 1 then 0
  else if offset = 2 then frame.payload.length / 256 % 256
  else frame.payload.length + 3 - offset

/-- The reader is at an offset into a frame, and later frames follow. -/
structure AtOffset (frame : Frame) (later : List Frame) (conn : Multiconn) (incoming : Str)
    (offset : Nat) : Prop where
  inside : offset < frame.encode.length
  rState : conn.rState = min offset 3
  rId : 0 < offset → conn.rId = frame.id
  rSz : conn.rSz = readerSize frame offset
  incoming : incoming = (frame.encode ++ encodes later).drop offset

/-- What a part of a call does within a frame: it moves on, and delivers nothing. -/
def Moves (frame : Frame) (later : List Frame) (offset : Nat) :
    Except ReadOutcome ReadPassage → Prop
  | .error outcome => ∃ offset', AtOffset frame later outcome.conn outcome.incoming offset' ∧
      frame.tagged offset' = frame.tagged offset ∧ outcome.delivered = []
  | .ok passage => ∃ offset', 0 < offset' ∧
      AtOffset frame later passage.conn passage.incoming offset' ∧
      frame.tagged offset' = frame.tagged offset

variable {frame : Frame} {later : List Frame} {conn : Multiconn} {incoming : Str} {offset : Nat}

theorem moves_readOn (offset' : Nat) {passage : ReadPassage} (positive : 0 < offset')
    (moved : AtOffset frame later passage.conn passage.incoming offset')
    (same : frame.tagged offset' = frame.tagged offset) (more : Bool) :
    Moves frame later offset (readOn passage more) := by
  unfold readOn
  split
  · exact ⟨offset', moved, same, rfl⟩
  · exact ⟨offset', positive, moved, same⟩

/-- The id is the first byte of the frame. -/
theorem AtOffset.readId (here : AtOffset frame later conn incoming offset) (call : ReadCall) :
    Moves frame later offset (conn.readId incoming call) := by
  unfold Multiconn.readId
  by_cases start : offset = 0
  · subst start
    have state : conn.rState = 0 := here.rState
    have shape : incoming = frame.id :: (sizeBytes frame.payload.length ++ frame.payload ++
        encodes later) := by
      simp [here.incoming, Frame.encode, Frame.header]
    rw [if_pos state, shape]
    refine moves_readOn 1 one_pos ⟨?_, rfl, fun _ => rfl, ?_, ?_⟩ (by simp) _
    · simp only [Frame.length_encode]
      omega
    · simpa [readerSize] using here.rSz
    · simp [Frame.encode, Frame.header]
  · have state : conn.rState ≠ 0 := by
      rw [here.rState]
      omega
    rw [if_neg state]
    exact ⟨offset, by omega, here, rfl⟩

theorem toNat_toUInt8 {number : Nat} (small : number < 256) : number.toUInt8.toNat = number := by
  rw [Nat.toUInt8, UInt8.toNat_ofNat']
  omega

/-- The first byte of a size, stored in place. -/
theorem storeBytes_first (size : Nat) :
    storeBytes 0 0 [(size / 256 % 256).toUInt8] = size / 256 % 256 := by
  simp [storeBytes, toNat_toUInt8 (Nat.mod_lt _ (by decide : 0 < 256))]

/-- The second byte of a size, stored behind the first. -/
theorem storeBytes_second (size : Nat) :
    storeBytes (size / 256 % 256) 1 [(size % 256).toUInt8] =
      size / 256 % 256 + size % 256 * 256 := by
  have first := Nat.mod_lt (size / 256) (by decide : 0 < 256)
  simp only [storeBytes, toNat_toUInt8 (Nat.mod_lt size (by decide : 0 < 256))]
  norm_num
  omega

/-- Both bytes of a size, stored at once. -/
theorem storeBytes_both (size : Nat) :
    storeBytes 0 0 (sizeBytes size) = size / 256 % 256 + size % 256 * 256 := by
  rw [← storeBytes_second, ← storeBytes_first]
  simp [storeBytes, sizeBytes]

theorem ntohs_stored {first second : Nat} (first_lt : first < 256) (second_lt : second < 256) :
    ntohs (first + second * 256) = first * 256 + second := by
  rw [ntohs]
  omega

/-- The size that is made of the stored bytes. -/
theorem size_of_stored {size : Nat} (positive : 0 < size) (bounded : size ≤ multiconnMaxSz) :
    (if size / 256 % 256 + size % 256 * 256 ≠ 0 then
      ntohs (size / 256 % 256 + size % 256 * 256) else multiconnMaxSz) = size := by
  rw [multiconnMaxSz] at bounded ⊢
  rw [ntohs_stored (Nat.mod_lt _ (by decide)) (Nat.mod_lt _ (by decide))]
  split <;> omega

/-- The bytes of the size are stored at once, or one after the other. -/
theorem storeBytes_header {amt : Nat} (positive : 0 < offset) (some : 0 < amt)
    (within : offset + amt ≤ 3) (rest : Str) :
    storeBytes (readerSize frame offset) (offset - 1)
        (((frame.encode ++ rest).drop offset).take amt) =
      if offset + amt = 2 then frame.payload.length / 256 % 256
      else frame.payload.length / 256 % 256 + frame.payload.length % 256 * 256 := by
  obtain ⟨rfl, rfl⟩ | ⟨rfl, rfl⟩ | ⟨rfl, rfl⟩ : (offset = 1 ∧ amt = 1) ∨
      (offset = 1 ∧ amt = 2) ∨ (offset = 2 ∧ amt = 1) := by omega
  · exact storeBytes_first frame.payload.length
  · exact storeBytes_both frame.payload.length
  · exact storeBytes_second frame.payload.length

theorem AtOffset.readSize {passage : ReadPassage}
    (here : AtOffset frame later passage.conn passage.incoming offset) (positive : 0 < offset)
    (call : ReadCall) : Moves frame later offset (readSize passage call) := by
  obtain ⟨conn, incoming, maxRead, read⟩ := passage
  have rState : conn.rState = min offset 3 := here.rState
  have rSz : conn.rSz = readerSize frame offset := here.rSz
  have incoming_eq : incoming = (frame.encode ++ encodes later).drop offset := here.incoming
  unfold Multiconn.readSize
  by_cases header : offset < 3
  · have state : conn.rState = offset := by omega
    have below : conn.rState < 3 := by omega
    simp only [below, if_true]
    obtain ⟨amt, amt_eq⟩ : ∃ amt, transferred (min maxRead (3 - conn.rState)) incoming.length
      call.recvSize = amt := ⟨_, rfl⟩
    have bound := (transferred_le (min maxRead (3 - conn.rState)) incoming.length
      call.recvSize).1
    rw [amt_eq] at bound ⊢
    by_cases none : amt = 0
    · rw [if_pos none]
      exact ⟨offset, here, rfl, rfl⟩
    · rw [if_neg none]
      have within : offset + amt ≤ 3 := by omega
      have stored := @storeBytes_header frame offset amt positive (by omega) within (encodes later)
      rw [← rSz, ← incoming_eq, ← state] at stored
      refine moves_readOn (offset + amt) (by omega) ?_ ?_ _
      · refine ⟨?_, ?_, fun _ => here.rId positive, ?_, ?_⟩
        · have size := frame.length_payload_pos
          rw [Frame.length_encode]
          omega
        · simp only [state]
          omega
        · simp only [stored, readerSize]
          rw [← state]
          by_cases second : conn.rState + amt = 3
          · have whole := size_of_stored frame.length_payload_pos frame.bounded
            simpa [second] using whole
          · have first : conn.rState + amt = 2 := by omega
            simp [first]
        · rw [incoming_eq, List.drop_drop]
      · rw [frame.tagged_of_le within, frame.tagged_of_le (by omega)]
  · have state : ¬conn.rState < 3 := by omega
    simp only [state, if_false]
    exact ⟨offset, positive, here, rfl⟩

theorem AtOffset.readHeader (here : AtOffset frame later conn incoming offset) (call : ReadCall) :
    Moves frame later offset (conn.readHeader incoming call) := by
  have id_moves := here.readId call
  unfold Multiconn.readHeader
  cases id_eq : conn.readId incoming call with
  | error outcome =>
      rw [id_eq] at id_moves
      exact id_moves
  | ok passage =>
      rw [id_eq] at id_moves
      obtain ⟨offset', positive, there, same⟩ := id_moves
      have size_moves := there.readSize positive call
      unfold Moves at size_moves
      rw [same] at size_moves
      exact size_moves

/-- The part of the state that reading goes by is the same. -/
def SameReader (conn conn' : Multiconn) : Prop :=
  conn'.rId = conn.rId ∧ conn'.rSz = conn.rSz ∧ conn'.rState = conn.rState

theorem AtOffset.congr {conn' : Multiconn} (here : AtOffset frame later conn incoming offset)
    (same : SameReader conn conn') : AtOffset frame later conn' incoming offset := by
  obtain ⟨rId, rSz, rState⟩ := same
  exact ⟨here.inside, by rw [rState, here.rState], fun positive => by rw [rId, here.rId positive],
    by rw [rSz, here.rSz], here.incoming⟩

/-- What reading the payload leaves of the reader. -/
theorem readPayload_reader {passage : ReadPassage} {call : ReadCall} {amt : Nat}
    (amt_eq : transferred (min passage.conn.rSz passage.maxRead) passage.incoming.length
      call.vcRead = amt) (some : amt ≠ 0) :
    SameReader
      (if sizeSub passage.conn.rSz amt = 0 then
        { passage.conn with rId := 0, rSz := 0, rState := 0 }
      else
        { passage.conn with rSz := sizeSub passage.conn.rSz amt })
      (readPayload passage call).conn ∧
    (readPayload passage call).incoming = passage.incoming.drop amt ∧
    (readPayload passage call).delivered =
      (passage.incoming.take amt).map (passage.conn.rId, ·) := by
  have amt_eq' : transferred (min (passage.conn.getVirtualConnection passage.conn.rId).rSz
      passage.maxRead) passage.incoming.length call.vcRead = amt := amt_eq
  simp only [readPayload, amt_eq', some, if_false]
  refine ⟨?_, trivial, trivial⟩
  have size : (passage.conn.getVirtualConnection passage.conn.rId).rSz = passage.conn.rSz := rfl
  rw [size]
  split
  · exact ⟨rfl, rfl, rfl⟩
  · split <;> exact ⟨rfl, rfl, rfl⟩

/-- The virtual connection reads payload of the frame, perhaps up to its end. -/
theorem AtOffset.readPayload {passage : ReadPassage}
    (here : AtOffset frame later passage.conn passage.incoming offset)
    (timely : passage.conn.rState = 3 ∨ passage.conn.rSz = 0) (call : ReadCall) :
    (∃ offset', AtOffset frame later (readPayload passage call).conn
        (readPayload passage call).incoming offset' ∧
      frame.tagged offset' = frame.tagged offset ++ (readPayload passage call).delivered) ∨
    ((readPayload passage call).conn.rState = 0 ∧ (readPayload passage call).conn.rSz = 0 ∧
      (readPayload passage call).incoming = encodes later ∧
      frame.tagged frame.encode.length =
        frame.tagged offset ++ (readPayload passage call).delivered) := by
  obtain ⟨amt, amt_eq⟩ : ∃ amt, transferred (min passage.conn.rSz passage.maxRead)
    passage.incoming.length call.vcRead = amt := ⟨_, rfl⟩
  have bound := (transferred_le (min passage.conn.rSz passage.maxRead) passage.incoming.length
    call.vcRead).1
  rw [amt_eq] at bound
  by_cases none : amt = 0
  · have amt_eq' : transferred (min (passage.conn.getVirtualConnection passage.conn.rId).rSz
        passage.maxRead) passage.incoming.length call.vcRead = 0 := amt_eq.trans none
    refine Or.inl ⟨offset, ?_, ?_⟩
    · simp only [Multiconn.readPayload, amt_eq', if_true]
      exact here.congr ⟨rfl, rfl, rfl⟩
    · simp [Multiconn.readPayload, amt_eq']
  · obtain ⟨same, incoming_eq, delivered_eq⟩ := readPayload_reader amt_eq none
    have state : passage.conn.rState = 3 := timely.resolve_right (by omega)
    have rState := here.rState
    have behind : 3 ≤ offset := by omega
    have inside := here.inside
    rw [Frame.length_encode] at inside
    have rSz : passage.conn.rSz = frame.payload.length + 3 - offset := by
      rw [here.rSz, readerSize, if_neg (by omega)]
      split <;> omega
    rw [sizeSub_eq (by omega)] at same
    have within : offset + amt ≤ frame.encode.length := by
      rw [Frame.length_encode]
      omega
    have payload : passage.incoming.take amt = (frame.encode.drop offset).take amt := by
      rw [here.incoming, List.drop_append_of_le_length (by omega), List.take_append_of_le_length]
      rw [List.length_drop]
      omega
    have tagged : frame.tagged (offset + amt) =
        frame.tagged offset ++ (Multiconn.readPayload passage call).delivered := by
      rw [frame.tagged_add behind, delivered_eq, payload, here.rId (by omega)]
    by_cases ended : passage.conn.rSz - amt = 0
    · rw [if_pos ended] at same
      obtain ⟨-, rSz', rState'⟩ := same
      have last : offset + amt = frame.encode.length := by
        rw [Frame.length_encode]
        omega
      refine Or.inr ⟨rState', rSz', ?_, by rw [← last, tagged]⟩
      rw [incoming_eq, here.incoming, List.drop_drop, last, List.drop_left]
    · rw [if_neg ended] at same
      have moved : AtOffset frame later
          { passage.conn with rSz := passage.conn.rSz - amt } (passage.incoming.drop amt)
          (offset + amt) := by
        refine ⟨by rw [Frame.length_encode]; omega, by simp only; omega,
          fun _ => here.rId (by omega), ?_, by rw [here.incoming, List.drop_drop]⟩
        rw [readerSize, if_neg (by omega), if_neg (by omega)]
        simp only
        omega
      refine Or.inl ⟨offset + amt, ?_, tagged⟩
      rw [incoming_eq]
      exact moved.congr same

/-! ## Streams of frames -/

/-- The virtual connections have read exactly the payload among the bytes of the frames that were
read, and the reader is between two frames or inside of one. -/
def Tracks (frames : List Frame) (conn : Multiconn) (incoming : Str)
    (delivered : List (UInt8 × UInt8)) : Prop :=
  (conn.rState = 0 ∧ conn.rSz = 0 ∧ incoming = [] ∧ delivered = taggedPayload frames) ∨
  ∃ done frame later offset, frames = done ++ frame :: later ∧
    AtOffset frame later conn incoming offset ∧
    delivered = taggedPayload done ++ frame.tagged offset

variable {frames : List Frame} {delivered : List (UInt8 × UInt8)}

/-- Behind a frame, or before the first one. -/
theorem tracks_between {done later : List Frame} (rState : conn.rState = 0) (rSz : conn.rSz = 0)
    (incoming_eq : incoming = encodes later) (delivered_eq : delivered = taggedPayload done) :
    Tracks (done ++ later) conn incoming delivered := by
  cases later with
  | nil => exact Or.inl ⟨rState, rSz, incoming_eq, by rw [delivered_eq, List.append_nil]⟩
  | cons frame later =>
      refine Or.inr ⟨done, frame, later, 0, rfl, ⟨?_, rState, by simp, rSz, by simpa using
        incoming_eq⟩, by simp [delivered_eq]⟩
      simp

theorem Tracks.congr {conn' : Multiconn} (tracks : Tracks frames conn incoming delivered)
    (same : SameReader conn conn') : Tracks frames conn' incoming delivered := by
  obtain ⟨rState, rSz, incoming_eq, delivered_eq⟩ |
    ⟨done, frame, later, offset, frames_eq, here, delivered_eq⟩ := tracks
  · obtain ⟨-, sameSz, sameState⟩ := same
    exact Or.inl ⟨sameState.trans rState, sameSz.trans rSz, incoming_eq, delivered_eq⟩
  · exact Or.inr ⟨done, frame, later, offset, frames_eq, here.congr same, delivered_eq⟩

/-- `recv` returns one byte of the size alone, which is not zero, and then more can be read. -/
def SplitsSize (maxRead : Nat) (incoming : Str) (call : ReadCall) : Prop :=
  2 ≤ maxRead ∧ 2 ≤ incoming.length ∧ incoming.head? ≠ some 0 ∧ call.recvSize ≤ 1 ∧
    call.moreSize = true

/-- The call goes on to the payload before it has the second byte of the size. -/
def ReadsEarly (conn : Multiconn) (incoming : Str) (call : ReadCall) : Prop :=
  (conn.rState = 0 ∧ call.moreId = true ∧
    SplitsSize (sizeSub call.maxRead 1) incoming.tail call) ∨
  (conn.rState = 1 ∧ SplitsSize call.maxRead incoming call)

instance : Decidable (SplitsSize maxRead incoming call) := by
  unfold SplitsSize
  infer_instance

instance : Decidable (ReadsEarly conn incoming call) := by
  unfold ReadsEarly
  infer_instance

/-- Unless the size is split, the whole of it is there, or the virtual connection is asked for
nothing. -/
theorem AtOffset.readSize_timely {passage passage' : ReadPassage} {call : ReadCall}
    (here : AtOffset frame later passage.conn passage.incoming offset) (positive : 0 < offset)
    (timely : ¬(passage.conn.rState = 1 ∧ SplitsSize passage.maxRead passage.incoming call))
    (goes_on : Multiconn.readSize passage call = .ok passage') :
    passage'.conn.rState = 3 ∨ passage'.conn.rSz = 0 := by
  obtain ⟨conn, incoming, maxRead, read⟩ := passage
  have rState : conn.rState = min offset 3 := here.rState
  have rSz : conn.rSz = readerSize frame offset := here.rSz
  simp only at timely
  unfold Multiconn.readSize at goes_on
  by_cases header : conn.rState < 3
  · simp only [header, if_true] at goes_on
    obtain ⟨amt, amt_eq⟩ : ∃ amt, transferred (min maxRead (3 - conn.rState)) incoming.length
      call.recvSize = amt := ⟨_, rfl⟩
    have bound := transferred_le (min maxRead (3 - conn.rState)) incoming.length call.recvSize
    rw [amt_eq] at bound goes_on
    by_cases none : amt = 0
    · rw [if_pos none] at goes_on
      cases goes_on
    rw [if_neg none] at goes_on
    obtain ⟨rfl, room, more, available⟩ := readOn_eq_ok goes_on
    by_cases whole : conn.rState + amt = 3
    · exact Or.inl whole
    · -- one of two bytes: as the size is not split, it is zero
      right
      have state : conn.rState = 1 := by omega
      have one : amt = 1 := by omega
      subst one
      have enough : 2 ≤ maxRead := by
        rw [sizeSub_eq (by omega)] at room
        have room' : maxRead - 1 ≠ 0 := room
        omega
      have length : 2 ≤ incoming.length := by
        have drop_length := List.length_pos_iff.mpr available
        rw [List.length_drop] at drop_length
        omega
      have alone : call.recvSize ≤ 1 := by
        unfold transferred at amt_eq
        omega
      have zero : incoming.head? = some 0 := by
        by_contra head
        exact timely ⟨state, enough, length, head, alone, more⟩
      obtain ⟨rest, rfl⟩ : ∃ rest, incoming = 0 :: rest := by
        cases incoming with
        | nil => simp at zero
        | cons first rest => exact ⟨rest, by simpa using zero⟩
      have start : conn.rSz = 0 := by
        rw [rSz, readerSize, if_pos (by omega)]
      simp [state, start, storeBytes]
  · simp only [header, if_false] at goes_on
    cases goes_on
    exact Or.inl (by simp only; omega)

/-- A call that does not go on too early asks the virtual connection for payload only behind the
whole header. -/
theorem AtOffset.readHeader_timely {passage : ReadPassage} {call : ReadCall}
    (here : AtOffset frame later conn incoming offset) (timely : ¬ReadsEarly conn incoming call)
    (goes_on : conn.readHeader incoming call = .ok passage) :
    passage.conn.rState = 3 ∨ passage.conn.rSz = 0 := by
  have moves := here.readId call
  unfold Multiconn.readHeader at goes_on
  cases id_eq : conn.readId incoming call with
  | error outcome =>
      rw [id_eq] at goes_on
      cases goes_on
  | ok behind =>
      rw [id_eq] at goes_on moves
      obtain ⟨offset', positive, there, -⟩ := moves
      refine there.readSize_timely positive (fun split => timely ?_) goes_on
      unfold Multiconn.readId at id_eq
      by_cases start : conn.rState = 0
      · rw [if_pos start] at id_eq
        cases incoming with
        | nil => cases id_eq
        | cons id incoming =>
            obtain ⟨rfl, -, more, -⟩ := readOn_eq_ok id_eq
            exact Or.inl ⟨start, more, split.2⟩
      · rw [if_neg start] at id_eq
        cases id_eq
        exact Or.inr split

/-- A call of `read` in time delivers the payload that it passes. -/
theorem Tracks.read {call : ReadCall} (tracks : Tracks frames conn incoming delivered)
    (timely : ¬ReadsEarly conn incoming call) :
    Tracks frames (conn.read incoming call).conn (conn.read incoming call).incoming
      (delivered ++ (conn.read incoming call).delivered) := by
  obtain ⟨rState, rSz, rfl, delivered_eq⟩ |
    ⟨done, frame, later, offset, frames_eq, here, delivered_eq⟩ := tracks
  · have header : conn.readHeader [] call = .error { conn, incoming := [], result := 0 } := by
      simp only [readHeader, readId, rState, if_true]
      rfl
    simp only [Multiconn.read, header, List.append_nil]
    exact Or.inl ⟨rState, rSz, rfl, delivered_eq⟩
  · have moves := here.readHeader call
    rw [Multiconn.read]
    cases header : conn.readHeader incoming call with
    | error outcome =>
        rw [header] at moves
        obtain ⟨offset', there, same, nothing⟩ := moves
        refine Or.inr ⟨done, frame, later, offset', frames_eq, there, ?_⟩
        simp only [nothing, List.append_nil, delivered_eq, same]
    | ok passage =>
        rw [header] at moves
        obtain ⟨offset', -, there, same⟩ := moves
        obtain ⟨offset'', beyond, tagged⟩ | ⟨rState, rSz, incoming_eq, tagged⟩ :=
          there.readPayload (here.readHeader_timely timely header) call
        · refine Or.inr ⟨done, frame, later, offset'', frames_eq, beyond, ?_⟩
          simp only [tagged, same, delivered_eq, List.append_assoc]
        · have between := tracks_between rState rSz incoming_eq
            (rfl : taggedPayload (done ++ [frame]) = _)
          rw [List.append_assoc, List.singleton_append, ← frames_eq, taggedPayload_snoc, tagged,
            same, ← List.append_assoc, ← delivered_eq] at between
          exact between

/-! ## Runs -/

/-- Calls other than `read` leave the reader alone. -/
theorem sameReader_getWriteSize (conn : Multiconn) : SameReader conn conn.getWriteSize.1 := by
  unfold getWriteSize
  split
  · split <;> exact ⟨rfl, rfl, rfl⟩
  · exact ⟨rfl, rfl, rfl⟩

/-- A part of `write` leaves the reader alone. -/
def KeepsReader (conn : Multiconn) : Except WriteOutcome WritePassage → Prop
  | .error outcome => SameReader conn outcome.conn
  | .ok passage => SameReader conn passage.conn

theorem keepsReader_writeHeader (conn : Multiconn) (call : WriteCall) :
    KeepsReader conn (conn.writeHeader call) := by
  have leaves := writeHeader_leaves (P := SameReader conn) ⟨rfl, rfl, rfl⟩
    (fun _ _ => ⟨rfl, rfl, rfl⟩) call
  cases header : conn.writeHeader call <;>
  · rw [header] at leaves
    exact leaves

theorem sameReader_write (conn : Multiconn) (call : WriteCall) :
    SameReader conn (conn.write call).conn := by
  have payload (passage : WritePassage) :
      SameReader passage.conn (writePayload passage call).conn := by
    simp only [writePayload]
    split
    · exact ⟨rfl, rfl, rfl⟩
    · split
      · split <;> exact ⟨rfl, rfl, rfl⟩
      · exact ⟨rfl, rfl, rfl⟩
  have header := keepsReader_writeHeader conn call
  unfold write
  split
  · exact ⟨rfl, rfl, rfl⟩
  · cases header_eq : conn.writeHeader call with
    | error outcome =>
        rw [header_eq] at header
        exact header
    | ok passage =>
        rw [header_eq] at header
        obtain ⟨rId, rSz, rState⟩ := header
        obtain ⟨rId', rSz', rState'⟩ := payload passage
        exact ⟨rId'.trans rId, rSz'.trans rSz, rState'.trans rState⟩

theorem sameReader_update (conn : Multiconn) : SameReader conn conn.update := by
  unfold update
  induction ids generalizing conn with
  | nil => exact ⟨rfl, rfl, rfl⟩
  | cons id ids ih =>
      rw [List.foldl_cons]
      split
      · obtain ⟨rId, rSz, rState⟩ := ih (conn.enqueue id)
        exact ⟨rId, rSz, rState⟩
      · exact ih conn

theorem sameReader_addVirtualConnection (conn : Multiconn) (bytes : Str) :
    SameReader conn (conn.addVirtualConnection bytes).1 := by
  unfold addVirtualConnection
  split
  · exact ⟨rfl, rfl, rfl⟩
  · simp only
    split <;> exact ⟨rfl, rfl, rfl⟩

/-- The event is a call of `read` that goes on too early. -/
def Link.ReadsEarly (link : Link) : Event → Prop
  | .read call => Multiconn.ReadsEarly link.conn link.incoming call
  | _ => False

/-- A run without a call of `read` that goes on too early. -/
def Link.RunsInTime (link : Link) : List Event → Prop
  | [] => True
  | event :: events => ¬link.ReadsEarly event ∧ (link.step event).RunsInTime events

instance Link.decidableReadsEarly (link : Link) (event : Event) :
    Decidable (link.ReadsEarly event) := by
  cases event <;> (unfold Link.ReadsEarly; infer_instance)

instance Link.decidableRunsInTime (link : Link) (events : List Event) :
    Decidable (link.RunsInTime events) := by
  induction events generalizing link with
  | nil => exact isTrue trivial
  | cons event events ih =>
      have later := ih (link.step event)
      unfold Link.RunsInTime
      infer_instance

/-- The link has read part of the stream of the frames. -/
def Link.Tracks (frames : List Frame) (link : Link) : Prop :=
  Multiconn.Tracks frames link.conn link.incoming link.delivered

theorem Link.Tracks.step {link : Link} {event : Event} (tracks : link.Tracks frames)
    (timely : ¬link.ReadsEarly event) : (link.step event).Tracks frames := by
  unfold Link.Tracks at tracks ⊢
  cases event with
  | read call => exact tracks.read timely
  | getWriteSize =>
      simp only [Link.step]
      exact tracks.congr (sameReader_getWriteSize _)
  | write call =>
      simp only [Link.step]
      exact tracks.congr (sameReader_write _ _)
  | update =>
      simp only [Link.step]
      exact tracks.congr (sameReader_update _)
  | addVirtualConnection bytes =>
      simp only [Link.step]
      exact tracks.congr (sameReader_addVirtualConnection _ _)
  | grow id bytes => exact tracks.congr ⟨rfl, rfl, rfl⟩

theorem Link.Tracks.run {link : Link} {events : List Event} (tracks : link.Tracks frames)
    (timely : link.RunsInTime events) : (link.run events).Tracks frames := by
  induction events generalizing link with
  | nil => exact tracks
  | cons event events ih =>
      obtain ⟨here, later⟩ := timely
      exact ih (tracks.step here) later

/-- The bytes that the virtual connections read are exactly the payload among the bytes of the
frames that were read so far. -/
structure Link.Demultiplexed (frames : List Frame) (link : Link) : Prop where
  stream : link.incoming <:+ encodes frames
  exactly : link.delivered =
    payloadOf ((marks frames).take ((encodes frames).length - link.incoming.length))
  inOrder : ∀ id, bytesFor id link.delivered <+: payloads id frames
  whole : link.incoming = [] → ∀ id, bytesFor id link.delivered = payloads id frames
  /-- A subtraction that wraps around would leave a number far above. -/
  noUnderflow : link.conn.rSz ≤ multiconnMaxSz
  unwarned : ∀ call, (link.conn.read link.incoming call).warned = false

/-- A virtual connection is never asked for more than what is left of the frame. -/
theorem unwarned_read (conn : Multiconn) (incoming : Str) (call : ReadCall) :
    (conn.read incoming call).warned = false := by
  have readOn_unwarned {passage : ReadPassage} {more : Bool} {outcome : ReadOutcome}
      (ended : readOn passage more = .error outcome) : outcome.warned = false := by
    unfold readOn at ended
    split at ended <;> cases ended
    rfl
  have id_unwarned {outcome : ReadOutcome} (ended : conn.readId incoming call = .error outcome) :
      outcome.warned = false := by
    unfold readId at ended
    split at ended
    · split at ended
      · cases ended
        rfl
      · exact readOn_unwarned ended
    · cases ended
  have size_unwarned {passage : ReadPassage} {outcome : ReadOutcome}
      (ended : readSize passage call = .error outcome) : outcome.warned = false := by
    unfold readSize at ended
    simp only at ended
    split at ended
    · split at ended
      · cases ended
        rfl
      · exact readOn_unwarned ended
    · cases ended
  have payload_unwarned (passage : ReadPassage) : (readPayload passage call).warned = false := by
    simp only [readPayload]
    split
    · rfl
    · have bound := (transferred_le
        (min (passage.conn.getVirtualConnection passage.conn.rId).rSz passage.maxRead)
        passage.incoming.length call.vcRead).1
      simp only [decide_eq_false_iff_not, not_lt]
      omega
  rw [Multiconn.read]
  cases header : conn.readHeader incoming call with
  | ok passage => exact payload_unwarned passage
  | error outcome =>
      unfold readHeader at header
      cases id_eq : conn.readId incoming call with
      | error early =>
          rw [id_eq] at header
          cases header
          exact id_unwarned id_eq
      | ok passage =>
          rw [id_eq] at header
          exact size_unwarned header

theorem readerSize_le (frame : Frame) (offset : Nat) :
    readerSize frame offset ≤ multiconnMaxSz := by
  have bounded := frame.bounded
  unfold readerSize
  rw [multiconnMaxSz] at bounded ⊢
  split
  · omega
  · split <;> omega

theorem bytesFor_taggedPayload_prefix (done later : List Frame) (frame : Frame) (offset : Nat)
    (id : UInt8) : bytesFor id (taggedPayload done ++ frame.tagged offset) <+:
      payloads id (done ++ frame :: later) := by
  rw [← bytesFor_taggedPayload]
  have split : taggedPayload (done ++ frame :: later) =
      taggedPayload done ++ (frame.payload.map (frame.id, ·) ++ taggedPayload later) := by
    simp [taggedPayload]
  have part : frame.tagged offset <+: frame.payload.map (frame.id, ·) :=
    (List.take_prefix _ _).map _
  obtain ⟨rest, rest_eq⟩ := part
  rw [split, ← rest_eq]
  exact ⟨bytesFor id (rest ++ taggedPayload later), by simp [bytesFor_append]⟩

theorem Link.Tracks.demultiplexed {link : Link} (tracks : link.Tracks frames) :
    link.Demultiplexed frames := by
  obtain ⟨rState, rSz, incoming_eq, delivered_eq⟩ |
    ⟨done, frame, later, offset, rfl, here, delivered_eq⟩ := tracks
  · have length : (encodes frames).length = (marks frames).length := by
      rw [← map_snd_marks, List.length_map]
    refine ⟨by simp [incoming_eq], ?_, fun id => ?_, fun _ id => ?_, by simp [rSz],
      unwarned_read _ _⟩
    · rw [incoming_eq, List.length_nil, Nat.sub_zero, length, List.take_length, payloadOf_marks,
        delivered_eq]
    · rw [delivered_eq, bytesFor_taggedPayload]
    · rw [delivered_eq, bytesFor_taggedPayload]
  · have inside := here.inside
    have left : link.incoming.length =
        frame.encode.length + (encodes later).length - offset := by
      rw [here.incoming, List.length_drop, List.length_append]
    have stream : encodes (done ++ frame :: later) =
        encodes done ++ (frame.encode ++ encodes later) := by simp
    have passed : (encodes (done ++ frame :: later)).length - link.incoming.length =
        (encodes done).length + offset := by
      rw [stream, List.length_append, List.length_append, left]
      omega
    refine ⟨?_, ?_, fun id => ?_, fun ended => ?_, ?_, unwarned_read _ _⟩
    · rw [stream, here.incoming]
      exact (List.drop_suffix _ _).trans (List.suffix_append _ _)
    · rw [passed, payloadOf_take inside.le, delivered_eq]
    · rw [delivered_eq]
      exact bytesFor_taggedPayload_prefix done later frame offset id
    · rw [ended, List.length_nil] at left
      omega
    · rw [here.rSz]
      exact readerSize_le frame offset

/-! ## From the start -/

/-- Nothing of the stream of the frames was read yet. -/
def Link.start (frames : List Frame) : Link := { incoming := encodes frames }

/-- In every run without a call of `read` that goes on too early, the virtual connections read
exactly the payloads of the frames. -/
theorem demultiplexing (frames : List Frame) (events : List Event)
    (timely : (Link.start frames).RunsInTime events) :
    ((Link.start frames).run events).Demultiplexed frames := by
  have start : Multiconn.Tracks ([] ++ frames) (Link.start frames).conn (encodes frames) [] :=
    tracks_between rfl rfl rfl rfl
  exact (Link.Tracks.run start timely).demultiplexed

/-- Two frames, with the header of the second in pieces. -/
theorem demultiplexing_two :
    let first : Frame := ⟨7, ascii "abc", by decide, by decide⟩
    let second : Frame := ⟨9, ascii "d", by decide, by decide⟩
    let events : List Event :=
      [.read ⟨100, 2, true, true, 2, []⟩, .read ⟨100, 2, true, true, 1, []⟩,
        .read ⟨2, 1, true, false, 1, []⟩, .read ⟨100, 1, true, true, 1, []⟩]
    ((Link.start [first, second]).run events).Demultiplexed [first, second] :=
  demultiplexing _ _ (by decide)

/-- A frame of 256 bytes. -/
def wideFrame : Frame :=
  ⟨7, List.replicate 256 65, by decide +kernel, by decide +kernel⟩

/-- `recv` returns the first byte of the size, the next one can be read then, and the virtual
connection gets it. -/
theorem not_demultiplexing :
    ¬((Link.start [wideFrame]).run [.read ⟨100, 1, true, true, 1, []⟩]).Demultiplexed
      [wideFrame] := by
  intro demultiplexed
  have inOrder := demultiplexed.inOrder 7
  revert inOrder
  decide +kernel

end Multiconn
end GnyProxy
