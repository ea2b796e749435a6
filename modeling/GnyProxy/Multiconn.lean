import GnyProxy.Frames
import Mathlib.Logic.Function.Basic

/-!
# The multiplexed connection

`Multiconn`: many virtual connections over one socket.  The bytes that a virtual connection still
has to write stand for it.  What the system answers (how much `recv` and `send` transfer, whether
more can be read or written at once) is given to each call.
-/

namespace GnyProxy

/-- Subtraction of `size_t` values, which wraps around. -/
def sizeSub (left right : Nat) : Nat :=
  if right ≤ left then left - right else left + 2 ^ 64 - right

theorem sizeSub_eq {left right : Nat} (below : right ≤ left) : sizeSub left right = left - right :=
  if_pos below

/-- How many bytes are transferred: any positive number up to what is asked for and available, if
there are any. -/
def transferred (asked available answer : Nat) : Nat := min (max 1 answer) (min asked available)

theorem transferred_le (asked available answer : Nat) :
    transferred asked available answer ≤ asked ∧
      transferred asked available answer ≤ available := by
  unfold transferred
  omega

/-- Store bytes into a little-endian number, from an offset on. -/
def storeBytes (value offset : Nat) : Str → Nat
  | [] => value
  | byte :: bytes =>
      storeBytes (value % 256 ^ offset + byte.toNat * 256 ^ offset +
        value / 256 ^ (offset + 1) * 256 ^ (offset + 1)) (offset + 1) bytes

/-- `ntohs` of the low half-word. -/
def ntohs (value : Nat) : Nat := value % 256 * 256 + value / 256 % 256

structure Multiconn where
  rId : UInt8 := 0
  rSz : Nat := 0
  rState : Nat := 0
  wId : UInt8 := 0
  wSz : Nat := 0
  wState : Nat := 0
  /-- Virtual connections waiting to write. -/
  wQueue : List UInt8 := []
  /-- What each virtual connection has to write. -/
  vconn : UInt8 → Option Str := fun _ => none
  isQueued : UInt8 → Bool := fun _ => false

namespace Multiconn

/-- What the virtual connection has to write; its `get_write_size` is the length. -/
def pending (conn : Multiconn) (id : UInt8) : Str := (conn.vconn id).getD []

/-- `get_virtual_connection`: a missing one is created. -/
def getVirtualConnection (conn : Multiconn) (id : UInt8) : Multiconn :=
  { conn with vconn := Function.update conn.vconn id (some (conn.pending id)) }

/-- A virtual connection gets more to write. -/
def grow (conn : Multiconn) (id : UInt8) (bytes : Str) : Multiconn :=
  { conn with vconn := Function.update conn.vconn id ((conn.vconn id).map (· ++ bytes)) }

def enqueue (conn : Multiconn) (id : UInt8) : Multiconn :=
  { conn with wQueue := conn.wQueue ++ [id], isQueued := Function.update conn.isQueued id true }

/-- All ids in order. -/
def ids : List UInt8 := (List.range 256).map (·.toUInt8)

/-! ## Reading -/

/-- What the system answers during a call of `read`. -/
structure ReadCall where
  maxRead : Nat
  /-- What `recv` returns for the size. -/
  recvSize : Nat
  /-- What `can_read` says behind the id and behind the size. -/
  moreId : Bool
  moreSize : Bool
  /-- How much the virtual connection reads, and what it then has to write in addition. -/
  vcRead : Nat
  response : Str := []

/-- The end of a call of `read`. -/
structure ReadOutcome where
  conn : Multiconn
  incoming : Str
  /-- What a virtual connection read. -/
  delivered : List (UInt8 × UInt8) := []
  /-- A virtual connection read more than it should. -/
  warned : Bool := false
  result : Nat

/-- A call of `read` that goes on behind a part of the header. -/
structure ReadPassage where
  conn : Multiconn
  incoming : Str
  maxRead : Nat
  read : Nat

/-- Leave the call unless there is room and more to be read at once. -/
def readOn (passage : ReadPassage) (more : Bool) : Except ReadOutcome ReadPassage :=
  if passage.maxRead = 0 ∨ ¬(more = true ∧ passage.incoming ≠ []) then
    .error { conn := passage.conn, incoming := passage.incoming, result := passage.read }
  else
    .ok passage

/-- The id of the next frame. -/
def readId (conn : Multiconn) (incoming : Str) (call : ReadCall) :
    Except ReadOutcome ReadPassage :=
  if conn.rState = 0 then
    match incoming with
    | [] => .error { conn, incoming := [], result := 0 }
    | id :: incoming =>
        readOn
          { conn := { conn with rId := id, rState := 1 }
            incoming
            maxRead := sizeSub call.maxRead 1
            read := 1 } call.moreId
  else
    .ok { conn, incoming, maxRead := call.maxRead, read := 0 }

/-- The size of the frame, whose bytes are stored in place. -/
def readSize (passage : ReadPassage) (call : ReadCall) : Except ReadOutcome ReadPassage :=
  let conn := passage.conn
  if conn.rState < 3 then
    let amt := transferred (min passage.maxRead (3 - conn.rState)) passage.incoming.length
      call.recvSize
    if amt = 0 then
      .error { conn, incoming := passage.incoming, result := 0 }
    else
      let rSz := storeBytes conn.rSz (conn.rState - 1) (passage.incoming.take amt)
      let rState := conn.rState + amt
      readOn
        { conn := { conn with
            rState
            rSz := if rState = 3 then if rSz ≠ 0 then ntohs rSz else multiconnMaxSz else rSz }
          incoming := passage.incoming.drop amt
          maxRead := sizeSub passage.maxRead amt
          read := passage.read + amt } call.moreSize
  else
    .ok passage

/-- The payload of the frame, which the virtual connection reads from the socket. -/
def readPayload (passage : ReadPassage) (call : ReadCall) : ReadOutcome :=
  let id := passage.conn.rId
  let conn := passage.conn.getVirtualConnection id
  let amt := transferred (min conn.rSz passage.maxRead) passage.incoming.length call.vcRead
  if amt = 0 then
    { conn, incoming := passage.incoming, result := 0 }
  else
    let rSz := sizeSub conn.rSz amt
    let warned := decide (conn.rSz < amt)
    let conn : Multiconn := { conn.grow id call.response with rSz }
    let conn :=
      if conn.isQueued id = false ∧ conn.pending id ≠ [] then conn.enqueue id else conn
    let conn := if rSz = 0 then { conn with rId := 0, rSz := 0, rState := 0 } else conn
    { conn
      incoming := passage.incoming.drop amt
      delivered := (passage.incoming.take amt).map (id, ·)
      warned
      result := amt + passage.read }

/-- The part of `Multiconn::read` before the payload. -/
def readHeader (conn : Multiconn) (incoming : Str) (call : ReadCall) :
    Except ReadOutcome ReadPassage := do
  let passage ← conn.readId incoming call
  readSize passage call

/-- `Multiconn::read`. -/
def read (conn : Multiconn) (incoming : Str) (call : ReadCall) : ReadOutcome :=
  match conn.readHeader incoming call with
  | .error outcome => outcome
  | .ok passage => readPayload passage call

/-! ## Writing -/

/-- What the system answers during a call of `write`. -/
structure WriteCall where
  maxWrite : Nat
  /-- What `send` returns for the size. -/
  sendSize : Nat
  /-- What `can_write` says behind the id and behind the size. -/
  moreId : Bool
  moreSize : Bool
  /-- How much the virtual connection writes. -/
  vcWrite : Nat

/-- The end of a call of `write`. -/
structure WriteOutcome where
  conn : Multiconn
  sent : Str := []
  /-- What a virtual connection wrote. -/
  wrote : List (UInt8 × UInt8) := []
  /-- A virtual connection wrote more than it should. -/
  warned : Bool := false
  result : Int

/-- A call of `write` that goes on behind a part of the header. -/
structure WritePassage where
  conn : Multiconn
  sent : Str
  maxWrite : Nat

/-- Leave the call unless there is room and more can be written at once. -/
def writeOn (passage : WritePassage) (more : Bool) : Except WriteOutcome WritePassage :=
  if passage.maxWrite = 0 ∨ more = false then
    .error { conn := passage.conn, sent := passage.sent, result := passage.sent.length }
  else
    .ok passage

/-- `get_write_size`: when no frame is being written, the next virtual connection in the queue
starts one. -/
def getWriteSize (conn : Multiconn) : Multiconn × Nat :=
  let conn :=
    if conn.wSz = 0 then
      match conn.wQueue with
      | [] => conn
      | id :: queue =>
          { conn.getVirtualConnection id with
            wId := id
            wQueue := queue
            wSz := min multiconnMaxSz (conn.pending id).length
            wState := 0 }
    else
      conn
  (conn, if conn.wSz ≠ 0 then sizeSub (conn.wSz + 3) conn.wState else 0)

def writeId (conn : Multiconn) (call : WriteCall) : Except WriteOutcome WritePassage :=
  if conn.wState = 0 then
    writeOn
      { conn := { conn with wState := 1 }
        sent := [conn.wId]
        maxWrite := sizeSub call.maxWrite 1 } call.moreId
  else
    .ok { conn, sent := [], maxWrite := call.maxWrite }

def writeSize (passage : WritePassage) (call : WriteCall) : Except WriteOutcome WritePassage :=
  let conn := passage.conn
  if conn.wState < 3 then
    let sz := sizeBytes (if conn.wSz = multiconnMaxSz then 0 else conn.wSz)
    let asked := min passage.maxWrite (3 - conn.wState)
    let amt := transferred asked asked call.sendSize
    if amt = 0 then
      .error { conn, sent := passage.sent, result := 0 }
    else
      writeOn
        { conn := { conn with wState := conn.wState + amt }
          sent := passage.sent ++ (sz.drop (conn.wState - 1)).take amt
          maxWrite := sizeSub passage.maxWrite amt } call.moreSize
  else
    .ok passage

def writePayload (passage : WritePassage) (call : WriteCall) : WriteOutcome :=
  let id := passage.conn.wId
  let conn := passage.conn.getVirtualConnection id
  let bytes := conn.pending id
  let amt := transferred (min conn.wSz passage.maxWrite) bytes.length call.vcWrite
  if amt = 0 then
    { conn, sent := passage.sent, result := 0 }
  else
    let wSz := sizeSub conn.wSz amt
    let warned := decide (conn.wSz < amt)
    let conn : Multiconn := { conn with
      vconn := Function.update conn.vconn id (some (bytes.drop amt))
      wSz }
    let conn :=
      if wSz = 0 then
        let conn :=
          if conn.pending id ≠ [] then { conn with wQueue := conn.wQueue ++ [id] }
          else { conn with isQueued := Function.update conn.isQueued id false }
        { conn with wId := 0, wSz := 0, wState := 0 }
      else
        conn
    { conn
      sent := passage.sent ++ bytes.take amt
      wrote := (bytes.take amt).map (id, ·)
      warned
      result := amt + passage.sent.length }

/-- The part of `Multiconn::write` before the payload. -/
def writeHeader (conn : Multiconn) (call : WriteCall) : Except WriteOutcome WritePassage := do
  let passage ← conn.writeId call
  writeSize passage call

/-- `Multiconn::write`. -/
def write (conn : Multiconn) (call : WriteCall) : WriteOutcome :=
  if conn.wSz = 0 then
    { conn, result := -1 }
  else
    match conn.writeHeader call with
    | .error outcome => outcome
    | .ok passage => writePayload passage call

/-! ## Virtual connections -/

/-- `add_virtual_connection`, for one that has these bytes to write: it gets the first free id. -/
def addVirtualConnection (conn : Multiconn) (bytes : Str) : Multiconn × Bool :=
  match ids.find? fun id => (conn.vconn id).isNone with
  | none => (conn, false)
  | some id =>
      let conn := { conn with vconn := Function.update conn.vconn id (some bytes) }
      (if bytes ≠ [] then conn.enqueue id else conn, true)

/-- `create_virtual_connection`, where the one that is created has these bytes to write. -/
def createVirtualConnection (conn : Multiconn) (bytes : Str) : Multiconn × Bool :=
  conn.addVirtualConnection bytes

/-- `update`. -/
def update (conn : Multiconn) : Multiconn :=
  ids.foldl (fun conn id =>
    if conn.isQueued id = false ∧ (conn.vconn id).isSome ∧ conn.pending id ≠ [] then
      conn.enqueue id
    else
      conn) conn

/-! ## What the headers change -/

theorem readOn_eq_ok {passage passage' : ReadPassage} {more : Bool}
    (goes_on : readOn passage more = .ok passage') :
    passage' = passage ∧ passage.maxRead ≠ 0 ∧ more = true ∧ passage.incoming ≠ [] := by
  unfold readOn at goes_on
  split at goes_on
  · cases goes_on
  · rename_i stays
    cases goes_on
    tauto

/-- The connection that a part of `read` leaves has a property. -/
def ReadLeaves (P : Multiconn → Prop) : Except ReadOutcome ReadPassage → Prop
  | .error outcome => P outcome.conn
  | .ok passage => P passage.conn

/-- The header of a frame is read into the reader alone. -/
theorem readHeader_leaves {P : Multiconn → Prop} {conn : Multiconn}
    (reader : ∀ rId rSz rState, P { conn with rId, rSz, rState }) (incoming : Str)
    (call : ReadCall) : ReadLeaves P (conn.readHeader incoming call) := by
  have readOn_leaves {passage : ReadPassage} (here : P passage.conn) (more : Bool) :
      ReadLeaves P (readOn passage more) := by
    unfold readOn
    split <;> exact here
  have size {passage : ReadPassage}
      (changed : ∃ rId rSz rState, passage.conn = { conn with rId, rSz, rState }) :
      ReadLeaves P (readSize passage call) := by
    obtain ⟨rId, rSz, rState, changed⟩ := changed
    have here : P passage.conn := changed ▸ reader rId rSz rState
    unfold readSize
    by_cases header : passage.conn.rState < 3
    · simp only [header, if_true]
      split
      · exact here
      · refine readOn_leaves ?_ _
        simp only [changed]
        exact reader _ _ _
    · simp only [header, if_false]
      exact here
  unfold readHeader readId
  split
  · split
    · exact reader _ _ _
    · rename_i id rest
      obtain ⟨passage, passage_eq⟩ : ∃ passage : ReadPassage, passage =
        { conn := { conn with rId := id, rState := 1 }, incoming := rest,
          maxRead := sizeSub call.maxRead 1, read := 1 } := ⟨_, rfl⟩
      have changed : passage.conn = { conn with rId := id, rState := 1 } := by rw [passage_eq]
      rw [← passage_eq]
      cases on : readOn passage call.moreId with
      | error outcome =>
          have here := readOn_leaves (changed ▸ reader id conn.rSz 1 : P passage.conn) call.moreId
          rw [on] at here
          exact here
      | ok behind =>
          obtain ⟨same, -⟩ := readOn_eq_ok on
          exact size ⟨id, conn.rSz, 1, same ▸ changed⟩
  · exact size ⟨conn.rId, conn.rSz, conn.rState, rfl⟩

theorem writeOn_eq_ok {passage passage' : WritePassage} {more : Bool}
    (goes_on : writeOn passage more = .ok passage') :
    passage' = passage ∧ passage.maxWrite ≠ 0 ∧ more = true := by
  unfold writeOn at goes_on
  split at goes_on
  · cases goes_on
  · rename_i stays
    cases goes_on
    simpa using stays

/-- The connection that a part of `write` leaves has a property. -/
def WriteLeaves (P : Multiconn → Prop) : Except WriteOutcome WritePassage → Prop
  | .error outcome => P outcome.conn
  | .ok passage => P passage.conn

/-- Of the header of a frame only how much of it was sent is kept. -/
theorem writeHeader_leaves {P : Multiconn → Prop} {conn : Multiconn} (here : P conn)
    (state : ∀ wState ≤ 3, P { conn with wState }) (call : WriteCall) :
    WriteLeaves P (conn.writeHeader call) := by
  have writeOn_leaves {passage : WritePassage} (here : P passage.conn) (more : Bool) :
      WriteLeaves P (writeOn passage more) := by
    unfold writeOn
    split <;> exact here
  have size {passage : WritePassage} (here : P passage.conn)
      (changed : ∃ wState, passage.conn = { conn with wState }) :
      WriteLeaves P (writeSize passage call) := by
    obtain ⟨wState, changed⟩ := changed
    unfold writeSize
    by_cases header : passage.conn.wState < 3
    · simp only [header, if_true]
      split
      · exact here
      · refine writeOn_leaves ?_ _
        have bound := (transferred_le (min passage.maxWrite (3 - passage.conn.wState))
          (min passage.maxWrite (3 - passage.conn.wState)) call.sendSize).1
        have below : passage.conn.wState + transferred
            (min passage.maxWrite (3 - passage.conn.wState))
            (min passage.maxWrite (3 - passage.conn.wState)) call.sendSize ≤ 3 := by
          omega
        simp only [changed] at below ⊢
        exact state _ below
    · simp only [header, if_false]
      exact here
  unfold writeHeader writeId
  split
  · obtain ⟨passage, passage_eq⟩ : ∃ passage : WritePassage, passage =
      { conn := { conn with wState := 1 }, sent := [conn.wId],
        maxWrite := sizeSub call.maxWrite 1 } := ⟨_, rfl⟩
    have changed : passage.conn = { conn with wState := 1 } := by rw [passage_eq]
    have begun : P passage.conn := changed ▸ state 1 (by decide)
    rw [← passage_eq]
    cases on : writeOn passage call.moreId with
    | error outcome =>
        have ended := writeOn_leaves begun call.moreId
        rw [on] at ended
        exact ended
    | ok behind =>
        obtain ⟨same, -⟩ := writeOn_eq_ok on
        exact size (same ▸ begun) ⟨1, same ▸ changed⟩
  · exact size here ⟨conn.wState, rfl⟩

/-! ## Runs -/

/-- What may happen to the connection. -/
inductive Event where
  | read (call : ReadCall)
  | getWriteSize
  | write (call : WriteCall)
  | update
  | addVirtualConnection (bytes : Str)
  /-- A virtual connection gets more to write. -/
  | grow (id : UInt8) (bytes : Str)

/-- The connection with the bytes that are still to be read from its socket and those that were
put on it. -/
structure Link where
  conn : Multiconn := {}
  incoming : Str
  /-- What the virtual connections read so far. -/
  delivered : List (UInt8 × UInt8) := []
  sent : Str := []
  /-- What the virtual connections wrote so far. -/
  wrote : List (UInt8 × UInt8) := []
  /-- What `get_write_size` answered, if that was the last call. -/
  answer : Option Nat := none

namespace Link

def step (link : Link) : Event → Link
  | .read call =>
      let outcome := link.conn.read link.incoming call
      { link with
        conn := outcome.conn
        incoming := outcome.incoming
        delivered := link.delivered ++ outcome.delivered
        answer := none }
  | .getWriteSize =>
      { link with conn := link.conn.getWriteSize.1, answer := some link.conn.getWriteSize.2 }
  | .write call =>
      let outcome := link.conn.write call
      { link with
        conn := outcome.conn
        sent := link.sent ++ outcome.sent
        wrote := link.wrote ++ outcome.wrote
        answer := none }
  | .update => { link with conn := link.conn.update, answer := none }
  | .addVirtualConnection bytes =>
      { link with conn := (link.conn.addVirtualConnection bytes).1, answer := none }
  | .grow id bytes => { link with conn := link.conn.grow id bytes, answer := none }

def run (link : Link) (events : List Event) : Link := events.foldl step link

end Link
end Multiconn
end GnyProxy
