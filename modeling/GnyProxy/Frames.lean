import GnyProxy.CString

/-!
# Frames

The wire format of the multiplexing layer: an id, two bytes of size with the largest size as zero,
and the payload.  Every byte of a stream of frames is a byte of a header, or one of the payload
for an id.
-/

namespace GnyProxy

/-- `MULTICONN_MAX_SZ`. -/
def multiconnMaxSz : Nat := 65536

/-- A payload of possible size for a virtual connection. -/
structure Frame where
  id : UInt8
  payload : Str
  nonempty : payload ≠ []
  bounded : payload.length ≤ multiconnMaxSz
  deriving DecidableEq

/-- The size in network byte order; the largest size is zero. -/
def sizeBytes (size : Nat) : Str := [(size / 256 % 256).toUInt8, (size % 256).toUInt8]

namespace Frame

variable (frame : Frame)

def header : Str := frame.id :: sizeBytes frame.payload.length

def encode : Str := frame.header ++ frame.payload

@[simp] theorem length_header : frame.header.length = 3 := rfl

@[simp] theorem length_encode : frame.encode.length = frame.payload.length + 3 := by
  simp [encode, Nat.add_comm]

theorem length_payload_pos : 0 < frame.payload.length := List.length_pos_iff.mpr frame.nonempty

/-- The bytes of the payload among the first ones of the frame, with the id that they are for. -/
def tagged (offset : Nat) : List (UInt8 × UInt8) :=
  (frame.payload.take (offset - 3)).map (frame.id, ·)

@[simp] theorem tagged_of_le {offset : Nat} (header : offset ≤ 3) : frame.tagged offset = [] := by
  simp [tagged, Nat.sub_eq_zero_of_le header]

/-- The payload that is read next. -/
theorem drop_encode {offset : Nat} (header : 3 ≤ offset) :
    frame.encode.drop offset = frame.payload.drop (offset - 3) := by
  rw [encode, List.drop_append, List.drop_of_length_le (by simpa using header), List.nil_append,
    length_header]

/-- Payload that is read comes behind the payload before it. -/
theorem tagged_add {offset : Nat} (header : 3 ≤ offset) (amount : Nat) :
    frame.tagged (offset + amount) =
      frame.tagged offset ++ ((frame.encode.drop offset).take amount).map (frame.id, ·) := by
  have place : offset + amount - 3 = offset - 3 + amount := by omega
  rw [tagged, tagged, place, List.take_add, List.map_append, frame.drop_encode header]

/-- Each byte of the frame with the id that it is payload for, if it is. -/
def marks : List (Option UInt8 × UInt8) :=
  frame.header.map (none, ·) ++ frame.payload.map (some frame.id, ·)

end Frame

/-! ## Streams -/

/-- The stream of the frames. -/
def encodes (frames : List Frame) : Str := frames.flatMap Frame.encode

@[simp] theorem encodes_nil : encodes [] = [] := rfl

@[simp] theorem encodes_cons (frame : Frame) (frames : List Frame) :
    encodes (frame :: frames) = frame.encode ++ encodes frames := rfl

@[simp] theorem encodes_append (left right : List Frame) :
    encodes (left ++ right) = encodes left ++ encodes right := List.flatMap_append

/-- The payload of the frames, each byte with the id that it is for. -/
def taggedPayload (frames : List Frame) : List (UInt8 × UInt8) :=
  frames.flatMap fun frame => frame.payload.map (frame.id, ·)

@[simp] theorem taggedPayload_nil : taggedPayload [] = [] := rfl

theorem taggedPayload_snoc (frames : List Frame) (frame : Frame) :
    taggedPayload (frames ++ [frame]) = taggedPayload frames ++
      frame.tagged frame.encode.length := by
  simp [taggedPayload, Frame.tagged]

/-- The bytes that are for an id. -/
def bytesFor (id : UInt8) (tagged : List (UInt8 × UInt8)) : Str :=
  (tagged.filter (·.1 = id)).map (·.2)

/-- The payloads of the frames with an id. -/
def payloads (id : UInt8) (frames : List Frame) : Str :=
  (frames.filter (·.id = id)).flatMap (·.payload)

theorem bytesFor_append (id : UInt8) (left right : List (UInt8 × UInt8)) :
    bytesFor id (left ++ right) = bytesFor id left ++ bytesFor id right := by
  simp [bytesFor]

theorem bytesFor_map (id other : UInt8) (bytes : Str) :
    bytesFor id (bytes.map (other, ·)) = if other = id then bytes else [] := by
  rw [bytesFor, List.filter_map, List.map_map]
  by_cases same : other = id <;> simp [same, Function.comp_def]

theorem bytesFor_taggedPayload (id : UInt8) (frames : List Frame) :
    bytesFor id (taggedPayload frames) = payloads id frames := by
  induction frames with
  | nil => rfl
  | cons frame frames ih =>
      have split : taggedPayload (frame :: frames) =
          frame.payload.map (frame.id, ·) ++ taggedPayload frames := rfl
      rw [split, bytesFor_append, bytesFor_map, ih]
      by_cases same : frame.id = id <;> simp [payloads, same]

/-- Each byte of the stream with the id that it is payload for, if it is. -/
def marks (frames : List Frame) : List (Option UInt8 × UInt8) := frames.flatMap Frame.marks

/-- The payload among marked bytes. -/
def payloadOf (marks : List (Option UInt8 × UInt8)) : List (UInt8 × UInt8) :=
  marks.filterMap fun mark => mark.1.map (·, mark.2)

theorem payloadOf_append (left right : List (Option UInt8 × UInt8)) :
    payloadOf (left ++ right) = payloadOf left ++ payloadOf right := List.filterMap_append

theorem payloadOf_map_none (bytes : Str) : payloadOf (bytes.map (none, ·)) = [] := by
  simp [payloadOf]

theorem payloadOf_map_some (id : UInt8) (bytes : Str) :
    payloadOf (bytes.map (some id, ·)) = bytes.map (id, ·) := by
  simp [payloadOf, List.filterMap_map]

/-- The marked bytes are the bytes of the stream. -/
theorem map_snd_marks (frames : List Frame) : (marks frames).map (·.2) = encodes frames := by
  induction frames with
  | nil => rfl
  | cons frame frames ih =>
      have here : frame.marks.map (·.2) = frame.encode := by
        simp [Frame.marks, Frame.encode, Function.comp_def]
      rw [encodes_cons, ← here, ← ih, ← List.map_append]
      rfl

theorem Frame.payloadOf_marks (frame : Frame) : payloadOf frame.marks =
    frame.payload.map (frame.id, ·) := by
  rw [Frame.marks, payloadOf_append, payloadOf_map_none, payloadOf_map_some, List.nil_append]

theorem payloadOf_marks (frames : List Frame) :
    payloadOf (marks frames) = taggedPayload frames := by
  induction frames with
  | nil => rfl
  | cons frame frames ih =>
      have split : marks (frame :: frames) = frame.marks ++ marks frames := rfl
      rw [split, payloadOf_append, frame.payloadOf_marks, ih]
      rfl

/-- The payload within the first bytes of a frame. -/
theorem Frame.payloadOf_take_marks (frame : Frame) (offset : Nat) :
    payloadOf (frame.marks.take offset) = frame.tagged offset := by
  have length : (frame.header.map ((none : Option UInt8), ·)).length = 3 := by simp
  rw [Frame.marks, List.take_append, payloadOf_append, length, ← List.map_take, ← List.map_take,
    payloadOf_map_none, payloadOf_map_some, List.nil_append, Frame.tagged]

/-- The payload within a prefix that ends in a frame. -/
theorem payloadOf_take {done later : List Frame} {frame : Frame} {offset : Nat}
    (inside : offset ≤ frame.encode.length) :
    payloadOf ((marks (done ++ frame :: later)).take ((encodes done).length + offset)) =
      taggedPayload done ++ frame.tagged offset := by
  have split : marks (done ++ frame :: later) = marks done ++ (frame.marks ++ marks later) := by
    simp [marks]
  have before : (marks done).length = (encodes done).length := by
    rw [← map_snd_marks, List.length_map]
  have here : frame.marks.length = frame.encode.length := by
    simp [Frame.marks, Nat.add_comm]
  rw [split, ← before, List.take_length_add_append, payloadOf_append, payloadOf_marks,
    List.take_append_of_le_length (by rw [here]; exact inside), frame.payloadOf_take_marks]

end GnyProxy
