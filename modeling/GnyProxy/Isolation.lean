import GnyProxy.Demultiplexing
import GnyProxy.Scheduling

/-!
# Virtual connections whose user is gone

The user of a virtual connection may end at any time: the client of a tunnel disconnects, or a
request upstream is answered.  From then on the virtual connection answers zero at once, and a call
that goes through to it answers zero too, by which the loops close the socket of all of them.
-/

namespace GnyProxy

namespace Multiconn

/-- The user of a virtual connection. -/
inductive User where
  | active
  /-- A `ReqLinker` without a request: `gen` is null. -/
  | idle
  /-- A `Tunnel` whose `ALinker` was destroyed: `*linked_count` is not 2. -/
  | gone
  deriving DecidableEq

/-- A connection on its socket, with the users of its virtual connections. -/
structure Shared where
  conn : Multiconn := {}
  incoming : Str
  user : UInt8 → User := fun _ => .active

/-- What may happen: a call, or something to a user. -/
inductive Happening where
  | call (event : Event)
  /-- The request of a `ReqLinker` is done. -/
  | finish (id : UInt8)
  /-- A `ReqLinker` gets its next request. -/
  | addRequest (id : UInt8)
  /-- The `ALinker` of a `Tunnel` is destroyed, and the bytes for the tunnel with it. -/
  | disconnect (id : UInt8)

namespace Shared

/-- `Multiconn::read`, where a virtual connection whose user ended answers zero at once. -/
def read (shared : Shared) (call : ReadCall) : ReadOutcome :=
  match shared.conn.readHeader shared.incoming call with
  | .error outcome => outcome
  | .ok passage =>
      if shared.user passage.conn.rId = .active then
        readPayload passage call
      else
        { conn := passage.conn.getVirtualConnection passage.conn.rId
          incoming := passage.incoming
          result := 0 }

/-- One event.  Without a user a virtual connection has nothing to write, and gets nothing.  A
`ReqLinker` is done only when its writer has nothing left. -/
def step (shared : Shared) : Happening → Shared
  | .call (.read call) =>
      { shared with conn := (shared.read call).conn, incoming := (shared.read call).incoming }
  | .call .getWriteSize => { shared with conn := shared.conn.getWriteSize.1 }
  | .call (.write call) => { shared with conn := (shared.conn.write call).conn }
  | .call .update => { shared with conn := shared.conn.update }
  | .call (.addVirtualConnection bytes) =>
      { shared with conn := (shared.conn.addVirtualConnection bytes).1 }
  | .call (.grow id bytes) =>
      if shared.user id = .active then { shared with conn := shared.conn.grow id bytes } else shared
  | .finish id =>
      if shared.user id = .active ∧ shared.conn.vconn id = some [] then
        { shared with user := Function.update shared.user id .idle }
      else
        shared
  | .addRequest id =>
      if shared.user id = .idle then
        { shared with user := Function.update shared.user id .active }
      else
        shared
  | .disconnect id =>
      if (shared.conn.vconn id).isSome then
        { shared with
          conn := shared.conn.took id (shared.conn.pending id).length
          user := Function.update shared.user id .gone }
      else
        shared

def run (shared : Shared) (happenings : List Happening) : Shared := happenings.foldl step shared

/-- What the loops see of a call. -/
def result (shared : Shared) : Happening → Option Int
  | .call (.read call) => some (shared.read call).result
  | .call (.write call) => some (shared.conn.write call).result
  | _ => none

/-- The frame that a call reads or writes, if there is one. -/
def frameId (shared : Shared) : Happening → Option UInt8
  | .call (.read _) =>
      if shared.conn.rState = 0 then shared.incoming.head? else some shared.conn.rId
  | .call (.write _) => some shared.conn.wId
  | _ => none

/-- The call reads or writes a frame of a virtual connection whose user ended. -/
def Orphaned (shared : Shared) (happening : Happening) : Prop :=
  ∃ id, shared.frameId happening = some id ∧ shared.user id ≠ .active

/-- The header of the frame was transferred before the call. -/
def HeaderThrough (shared : Shared) : Happening → Prop
  | .call (.read _) => shared.conn.rState = 3
  | .call (.write _) => shared.conn.wState = 3
  | _ => False

/-- `recv` returns one of two bytes of the size, and then more can be read: the virtual connection
is asked for as many bytes as half a size says, perhaps for none. -/
def HalfSize (conn : Multiconn) (call : ReadCall) : Prop :=
  conn.rState ≤ 1 ∧ call.recvSize ≤ 1 ∧ call.moreSize = true

/-- The call reads half a size and goes on. -/
def Halves (shared : Shared) : Happening → Prop
  | .call (.read call) => HalfSize shared.conn call
  | _ => False

/-- The socket is healthy and the loops do as they should: `read` is called when there is something
to be read, `write` behind a positive answer of `get_write_size`, both with room. -/
def Healthy (shared : Shared) : Happening → Prop
  | .call (.read call) => shared.incoming ≠ [] ∧ 0 < call.maxRead
  | .call (.write call) => shared.conn.wSz ≠ 0 ∧ 0 < call.maxWrite
  | _ => True

/-! ## The invariant -/

/-- What a reader knows of the size: as many bytes as it has stored of it, or all of it. -/
structure ReaderFits (conn : Multiconn) : Prop where
  rState : conn.rState ≤ 3
  stored : conn.rState < 3 → conn.rSz < 256 ^ (conn.rState - 1)
  whole : conn.rState = 3 → 0 < conn.rSz

/-- A frame that is being written is covered by what its virtual connection has to write, unless
its user is gone; an idle one has no frame. -/
structure Fits (shared : Shared) : Prop where
  reader : ReaderFits shared.conn
  wState : shared.conn.wState ≤ 3
  covered : shared.user shared.conn.wId ≠ .gone →
    shared.conn.wSz ≤ (shared.conn.pending shared.conn.wId).length
  silent : ∀ id, shared.user id ≠ .active → shared.conn.vconn id = some []

theorem transferred_pos {asked available : Nat} (room : 0 < asked) (some : 0 < available)
    (answer : Nat) : 0 < transferred asked available answer := by
  unfold transferred
  omega

/-- A size of two bytes is not zero, where zero stands for the largest one. -/
theorem size_pos {stored : Nat} (small : stored < 65536) :
    0 < if stored ≠ 0 then ntohs stored else multiconnMaxSz := by
  unfold ntohs multiconnMaxSz
  split <;> omega

theorem storeBytes_lt {value offset : Nat} (small : value < 256 ^ offset) (bytes : Str) :
    storeBytes value offset bytes < 256 ^ (offset + bytes.length) := by
  induction bytes generalizing value offset with
  | nil => exact small
  | cons byte bytes ih =>
      have below : value / 256 ^ (offset + 1) = 0 :=
        Nat.div_eq_of_lt (small.trans (Nat.pow_lt_pow_right (by decide) (Nat.lt_succ_self _)))
      have digit : byte.toNat * 256 ^ offset ≤ 255 * 256 ^ offset :=
        Nat.mul_le_mul_right _ (Nat.le_of_lt_succ byte.toNat_lt)
      have next : value % 256 ^ offset + byte.toNat * 256 ^ offset +
          value / 256 ^ (offset + 1) * 256 ^ (offset + 1) < 256 ^ (offset + 1) := by
        rw [below, Nat.mod_eq_of_lt small, pow_succ]
        omega
      have length : offset + (byte :: bytes).length = offset + 1 + bytes.length := by
        rw [List.length_cons]
        omega
      rw [length, storeBytes]
      exact ih next

variable {conn : Multiconn} {incoming : Str} {call : ReadCall}

theorem readOn_fits {passage : ReadPassage} (fits : ReaderFits passage.conn) (more : Bool) :
    ReadLeaves ReaderFits (readOn passage more) := by
  unfold readOn
  split <;> exact fits

theorem readSize_fits {passage : ReadPassage} (fits : ReaderFits passage.conn)
    (begun : 0 < passage.conn.rState) : ReadLeaves ReaderFits (readSize passage call) := by
  obtain ⟨conn, incoming, maxRead, read⟩ := passage
  change ReaderFits conn at fits
  change 0 < conn.rState at begun
  unfold readSize
  by_cases header : conn.rState < 3
  · simp only [header, if_true]
    obtain ⟨amt, amt_eq⟩ : ∃ amt, transferred (min maxRead (3 - conn.rState)) incoming.length
      call.recvSize = amt := ⟨_, rfl⟩
    have bound := transferred_le (min maxRead (3 - conn.rState)) incoming.length call.recvSize
    rw [amt_eq] at bound ⊢
    by_cases none : amt = 0
    · rw [if_pos none]
      exact fits
    rw [if_neg none]
    refine readOn_fits ?_ _
    have length : (incoming.take amt).length = amt := by
      rw [List.length_take]
      omega
    have stored := storeBytes_lt (fits.stored header) (incoming.take amt)
    rw [length, show conn.rState - 1 + amt = conn.rState + amt - 1 by omega] at stored
    refine ⟨?_, fun part => ?_, fun all => ?_⟩
    · simp only
      omega
    · simp only at part ⊢
      rw [if_neg part.ne]
      exact stored
    · simp only at all ⊢
      rw [all] at stored
      rw [if_pos all]
      exact size_pos stored
  · simp only [header, if_false]
    exact fits

theorem readHeader_fits (fits : ReaderFits conn) (incoming : Str) (call : ReadCall) :
    ReadLeaves ReaderFits (conn.readHeader incoming call) := by
  unfold readHeader readId
  by_cases start : conn.rState = 0
  · rw [if_pos start]
    cases incoming with
    | nil => exact fits
    | cons first rest =>
        have stored := fits.stored (by omega)
        rw [start] at stored
        have begun : ReaderFits { conn with rId := first, rState := 1 } :=
          ⟨Nat.one_le_ofNat, fun _ => stored, nofun⟩
        obtain ⟨passage, passage_eq⟩ : ∃ passage : ReadPassage, passage =
          { conn := { conn with rId := first, rState := 1 }, incoming := rest,
            maxRead := sizeSub call.maxRead 1, read := 1 } := ⟨_, rfl⟩
        have passage_fits : ReaderFits passage.conn := by
          rw [passage_eq]
          exact begun
        simp only [← passage_eq]
        have id := readOn_fits passage_fits call.moreId
        cases on : readOn passage call.moreId with
        | error outcome =>
            rw [on] at id
            exact id
        | ok behind =>
            rw [on] at id
            refine readSize_fits id ?_
            rw [(readOn_eq_ok on).1, passage_eq]
            exact one_pos
  · rw [if_neg start]
    exact readSize_fits fits (Nat.pos_of_ne_zero start)

/-- What is left of the state and the call behind a part of the header, or what the call returns
there. -/
def Proceeds (id : UInt8) (early : Prop) : Except ReadOutcome ReadPassage → Prop
  | .error outcome => 0 < outcome.result
  | .ok passage => passage.incoming ≠ [] ∧ 0 < passage.maxRead ∧ passage.conn.rId = id ∧
      (passage.conn.rState = 3 ∨ early)

theorem readOn_proceeds {passage : ReadPassage} {early : Prop} (more : Bool)
    (read : 0 < passage.read)
    (whole : passage.maxRead ≠ 0 → more = true → passage.incoming ≠ [] →
      passage.conn.rState = 3 ∨ early) :
    Proceeds passage.conn.rId early (readOn passage more) := by
  cases on : readOn passage more with
  | error outcome =>
      unfold readOn at on
      split at on <;> cases on
      exact read
  | ok behind =>
      obtain ⟨rfl, space, more, left⟩ := readOn_eq_ok on
      exact ⟨left, Nat.pos_of_ne_zero space, rfl, whole space more left⟩

theorem readSize_proceeds {passage : ReadPassage} (call : ReadCall)
    (rState : passage.conn.rState ≤ 3)
    (begun : 0 < passage.conn.rState) (readable : passage.incoming ≠ [])
    (room : 0 < passage.maxRead) :
    Proceeds passage.conn.rId
      (passage.conn.rState = 1 ∧ call.recvSize ≤ 1 ∧ call.moreSize = true)
      (readSize passage call) := by
  obtain ⟨conn, incoming, maxRead, read⟩ := passage
  change conn.rState ≤ 3 at rState
  change 0 < conn.rState at begun
  change incoming ≠ [] at readable
  change 0 < maxRead at room
  change Proceeds conn.rId (conn.rState = 1 ∧ call.recvSize ≤ 1 ∧ call.moreSize = true) _
  have available := List.length_pos_iff.mpr readable
  unfold readSize
  by_cases header : conn.rState < 3
  · simp only [header, if_true]
    obtain ⟨amt, amt_eq⟩ : ∃ amt, transferred (min maxRead (3 - conn.rState)) incoming.length
      call.recvSize = amt := ⟨_, rfl⟩
    have positive := transferred_pos (show 0 < min maxRead (3 - conn.rState) by omega) available
      call.recvSize
    have bound := transferred_le (min maxRead (3 - conn.rState)) incoming.length call.recvSize
    rw [amt_eq] at positive bound ⊢
    rw [if_neg positive.ne']
    refine readOn_proceeds _ (Nat.add_pos_right read positive) fun space more left => ?_
    simp only at space left ⊢
    by_cases all : conn.rState + amt = 3
    · exact Or.inl all
    · -- one of two bytes arrived
      right
      refine ⟨by omega, ?_, more⟩
      rw [sizeSub_eq (by omega)] at space
      have long : 2 ≤ incoming.length := by
        have drop_length := List.length_pos_iff.mpr left
        rw [List.length_drop] at drop_length
        omega
      unfold transferred at amt_eq
      omega
  · simp only [header, if_false]
    exact ⟨readable, room, rfl, Or.inl (le_antisymm rState (Nat.le_of_not_lt header))⟩

/-- With something to read and room for it a call reads a part of the header, or goes on to the
payload of its frame. -/
theorem readHeader_proceeds (fits : ReaderFits conn) (room : 0 < call.maxRead) {id : UInt8}
    (frame : (if conn.rState = 0 then incoming.head? else some conn.rId) = some id)
    (readable : incoming ≠ []) :
    Proceeds id (HalfSize conn call) (conn.readHeader incoming call) := by
  have size {passage : ReadPassage} (rState : passage.conn.rState ≤ 3)
      (begun : 0 < passage.conn.rState) (readable : passage.incoming ≠ [])
      (room : 0 < passage.maxRead) (rId : passage.conn.rId = id)
      (early : passage.conn.rState = 1 → conn.rState ≤ 1) :
      Proceeds id (HalfSize conn call) (readSize passage call) := by
    have proceeds := readSize_proceeds call rState begun readable room
    cases size_eq : readSize passage call with
    | error outcome =>
        rw [size_eq] at proceeds
        exact proceeds
    | ok behind =>
        rw [size_eq] at proceeds
        obtain ⟨readable', room', rId', half⟩ := proceeds
        exact ⟨readable', room', rId'.trans rId,
          half.imp_right fun halves => ⟨early halves.1, halves.2⟩⟩
  unfold readHeader readId
  by_cases start : conn.rState = 0
  · rw [if_pos start] at frame ⊢
    cases incoming with
    | nil => cases frame
    | cons first rest =>
        obtain rfl : first = id := by simpa using frame
        obtain ⟨passage, passage_eq⟩ : ∃ passage : ReadPassage, passage =
          { conn := { conn with rId := first, rState := 1 }, incoming := rest,
            maxRead := sizeSub call.maxRead 1, read := 1 } := ⟨_, rfl⟩
        have rState : passage.conn.rState = 1 := by rw [passage_eq]
        have rId : passage.conn.rId = first := by rw [passage_eq]
        have read : passage.read = 1 := by rw [passage_eq]
        simp only [← passage_eq]
        have proceeds := readOn_proceeds call.moreId (read ▸ one_pos) fun _ _ _ =>
          Or.inr trivial
        cases on : readOn passage call.moreId with
        | error outcome =>
            rw [on] at proceeds
            exact proceeds
        | ok behind =>
            obtain ⟨rfl, space, -, left⟩ := readOn_eq_ok on
            exact size (by omega) (by omega) left (Nat.pos_of_ne_zero space) rId fun _ => by omega
  · rw [if_neg start] at frame ⊢
    exact size fits.rState (Nat.pos_of_ne_zero start) readable room (Option.some.inj frame)
      fun one => Nat.le_of_eq one

theorem ReaderFits.congr {conn' : Multiconn} (fits : ReaderFits conn)
    (same : SameReader conn conn') : ReaderFits conn' := by
  obtain ⟨-, rSz, rState⟩ := same
  exact ⟨by rw [rState]; exact fits.rState, by rw [rState, rSz]; exact fits.stored,
    by rw [rState, rSz]; exact fits.whole⟩

/-- Behind the payload the size is what is left of it, or the next frame begins. -/
theorem readPayload_fits {passage : ReadPassage} (fits : ReaderFits passage.conn) :
    ReaderFits (readPayload passage call).conn := by
  obtain ⟨amt, amt_eq⟩ : ∃ amt, transferred (min passage.conn.rSz passage.maxRead)
    passage.incoming.length call.vcRead = amt := ⟨_, rfl⟩
  have bound := (transferred_le (min passage.conn.rSz passage.maxRead) passage.incoming.length
    call.vcRead).1
  rw [amt_eq] at bound
  by_cases none : amt = 0
  · have amt_eq' : transferred (min (passage.conn.getVirtualConnection passage.conn.rId).rSz
        passage.maxRead) passage.incoming.length call.vcRead = 0 := amt_eq.trans none
    simp only [readPayload, amt_eq', if_true]
    exact fits.congr ⟨rfl, rfl, rfl⟩
  · refine ReaderFits.congr ?_ (readPayload_reader amt_eq none).1
    rw [sizeSub_eq (bound.trans (min_le_left _ _))]
    split
    · exact ⟨Nat.zero_le _, fun _ => Nat.one_pos, by simp⟩
    · exact ⟨fits.rState, fun part => (Nat.sub_le _ _).trans_lt (fits.stored part),
        fun _ => by simp only; omega⟩

/-- The virtual connection reads at least one byte if it is asked for one. -/
theorem readPayload_result {passage : ReadPassage} (size : 0 < passage.conn.rSz)
    (room : 0 < passage.maxRead) (readable : passage.incoming ≠ []) :
    0 < (readPayload passage call).result := by
  have positive := transferred_pos (show 0 < min passage.conn.rSz passage.maxRead by omega)
    (List.length_pos_iff.mpr readable) call.vcRead
  have amt_ne : transferred (min (passage.conn.getVirtualConnection passage.conn.rId).rSz
      passage.maxRead) passage.incoming.length call.vcRead ≠ 0 := positive.ne'
  simp only [readPayload, amt_ne, if_false]
  omega

/-! ## Writing -/

/-- What a part of `write` leaves goes on with room for more, or was sent. -/
def Sent (conn : Multiconn) : Except WriteOutcome WritePassage → Prop
  | .error outcome => 0 < outcome.result
  | .ok passage => 0 < passage.maxWrite ∧ ∃ wState, passage.conn = { conn with wState }

theorem writeOn_sent {passage : WritePassage} {more : Bool} (some : passage.sent ≠ [])
    (kept : ∃ wState, passage.conn = { conn with wState }) :
    Sent conn (writeOn passage more) := by
  unfold writeOn
  split
  · exact Int.natCast_pos.mpr (List.length_pos_iff.mpr some)
  · rename_i on
    rw [not_or] at on
    exact ⟨Nat.pos_of_ne_zero on.1, kept⟩

theorem writeSize_sent {passage : WritePassage} {call : WriteCall} (begun : 0 < passage.conn.wState)
    (room : 0 < passage.maxWrite) (kept : ∃ wState, passage.conn = { conn with wState }) :
    Sent conn (writeSize passage call) := by
  unfold writeSize
  by_cases header : passage.conn.wState < 3
  · simp only [header, if_true]
    obtain ⟨amt, amt_eq⟩ : ∃ amt, transferred (min passage.maxWrite (3 - passage.conn.wState))
      (min passage.maxWrite (3 - passage.conn.wState)) call.sendSize = amt := ⟨_, rfl⟩
    have positive := transferred_pos
      (show 0 < min passage.maxWrite (3 - passage.conn.wState) by omega)
      (show 0 < min passage.maxWrite (3 - passage.conn.wState) by omega) call.sendSize
    have bound := (transferred_le (min passage.maxWrite (3 - passage.conn.wState))
      (min passage.maxWrite (3 - passage.conn.wState)) call.sendSize).1
    rw [amt_eq] at positive bound ⊢
    rw [if_neg positive.ne']
    obtain ⟨wState, kept⟩ := kept
    refine writeOn_sent ?_ ⟨passage.conn.wState + amt, by simp only [kept]⟩
    have bytes (size : Nat) : (((sizeBytes size).drop (passage.conn.wState - 1)).take amt).length =
        amt := by
      rw [List.length_take, List.length_drop, show (sizeBytes size).length = 2 from rfl]
      omega
    intro nothing
    have length := congrArg List.length nothing
    rw [List.length_append, bytes, List.length_nil] at length
    omega
  · simp only [header, if_false]
    exact ⟨room, kept⟩

/-- With a frame in progress and room a call sends a part of the header, or goes on to the payload
of the frame. -/
theorem writeHeader_sent (conn : Multiconn) {call : WriteCall} (room : 0 < call.maxWrite) :
    Sent conn (conn.writeHeader call) := by
  have id : Sent conn (conn.writeId call) ∧
      ∀ passage, conn.writeId call = .ok passage → 0 < passage.conn.wState := by
    unfold writeId
    by_cases start : conn.wState = 0
    · rw [if_pos start]
      refine ⟨writeOn_sent (List.cons_ne_nil _ _) ⟨1, rfl⟩, fun passage on => ?_⟩
      rw [(writeOn_eq_ok on).1]
      exact one_pos
    · rw [if_neg start]
      refine ⟨⟨room, conn.wState, rfl⟩, fun passage on => ?_⟩
      cases on
      exact Nat.pos_of_ne_zero start
  obtain ⟨sent, begun⟩ := id
  unfold writeHeader
  cases id_eq : conn.writeId call with
  | error outcome =>
      rw [id_eq] at sent
      exact sent
  | ok passage =>
      rw [id_eq] at sent
      exact writeSize_sent (begun passage id_eq) sent.1 sent.2

/-! ## Runs -/

variable {shared : Shared}

/-- A virtual connection that has something to write writes; one without a user does not. -/
theorem Fits.write_result {call : WriteCall} (fits : shared.Fits) (progress : shared.conn.wSz ≠ 0)
    (room : 0 < call.maxWrite) (active : shared.user shared.conn.wId = .active) :
    0 < (shared.conn.write call).result := by
  have sent := writeHeader_sent shared.conn room
  unfold Multiconn.write
  rw [if_neg progress]
  cases header : shared.conn.writeHeader call with
  | error outcome =>
      rw [header] at sent
      exact sent
  | ok passage =>
      rw [header] at sent
      obtain ⟨space, wState, kept⟩ := sent
      obtain ⟨amt, amt_eq, result, -⟩ := writePayload_cases passage call
      have covered := fits.covered (by simp [active])
      have size : 0 < passage.conn.wSz := by
        rw [kept]
        exact Nat.pos_of_ne_zero progress
      have pending : passage.conn.wSz ≤ (passage.conn.pending passage.conn.wId).length := by
        rw [kept]
        exact covered
      have positive := transferred_pos
        (show 0 < min passage.conn.wSz passage.maxWrite by omega) (size.trans_le pending)
        call.vcWrite
      rw [← amt_eq] at positive
      simp only [result, if_neg positive.ne']
      omega

theorem Fits.read_result {call : ReadCall} (fits : shared.Fits) (readable : shared.incoming ≠ [])
    (room : 0 < call.maxRead) (whole : ¬HalfSize shared.conn call) {id : UInt8}
    (frame : shared.frameId (.call (.read call)) = some id) (active : shared.user id = .active) :
    0 < (shared.read call).result := by
  have proceeds := readHeader_proceeds fits.reader room frame readable
  unfold Shared.read
  cases header : shared.conn.readHeader shared.incoming call with
  | error outcome =>
      rw [header] at proceeds
      exact Nat.cast_pos.mpr proceeds
  | ok passage =>
      have fits' := readHeader_fits fits.reader shared.incoming call
      rw [header] at proceeds fits'
      obtain ⟨readable', room', rId, state | half⟩ := proceeds
      · simp only [rId, active, if_true]
        exact readPayload_result (fits'.whole state) room' readable'
      · exact absurd half whole

/-- Without a user a virtual connection neither reads nor writes. -/
theorem Fits.orphaned_result {happening : Happening} {result : Int} (fits : shared.Fits)
    (healthy : shared.Healthy happening) (orphaned : shared.Orphaned happening)
    (through : shared.HeaderThrough happening)
    (outcome : shared.result happening = some result) : result = 0 := by
  obtain ⟨id, frame, ended⟩ := orphaned
  cases happening with
  | call event =>
      cases event with
      | read call =>
          have rState : shared.conn.rState = 3 := through
          simp only [frameId, rState, OfNat.ofNat_ne_zero, if_false, Option.some.injEq] at frame
          subst frame
          have header : shared.conn.readHeader shared.incoming call =
              .ok ⟨shared.conn, shared.incoming, call.maxRead, 0⟩ := by
            simp only [readHeader, readId, rState, OfNat.ofNat_ne_zero, if_false]
            exact if_neg (by rw [rState]; exact lt_irrefl 3)
          have nothing : (shared.read call).result = 0 := by
            simp only [Shared.read, header, ended, if_false]
          have result_eq : ((shared.read call).result : Int) = result := Option.some.inj outcome
          rw [← result_eq, nothing]
          rfl
      | write call =>
          have wState : shared.conn.wState = 3 := through
          obtain rfl : shared.conn.wId = id := Option.some.inj frame
          have header : shared.conn.writeHeader call = .ok ⟨shared.conn, [], call.maxWrite⟩ := by
            simp only [writeHeader, writeId, wState, OfNat.ofNat_ne_zero, if_false]
            exact if_neg (by rw [wState]; exact lt_irrefl 3)
          have silent : shared.conn.pending shared.conn.wId = [] := by
            rw [pending, fits.silent _ ended]
            rfl
          obtain ⟨amt, amt_eq, result_eq, -⟩ :=
            writePayload_cases ⟨shared.conn, [], call.maxWrite⟩ call
          have none : amt = 0 := by
            rw [amt_eq, silent]
            simp [transferred]
          have nothing : (shared.conn.write call).result = 0 := by
            rw [Multiconn.write, if_neg healthy.1, header]
            simp only [result_eq, none, if_true]
            rfl
          have result_eq' : (shared.conn.write call).result = result := Option.some.inj outcome
          rw [← result_eq', nothing]
      | getWriteSize | update | addVirtualConnection bytes | grow id bytes => cases outcome
  | finish id | addRequest id | disconnect id => cases outcome

/-! ### What the calls leave of the invariant -/

/-- The reader and the writer stay, and the virtual connections without a user as well. -/
structure Keeps (shared : Shared) (conn : Multiconn) : Prop where
  reader : ReaderFits conn
  writer : SameWriter shared.conn conn
  silent : ∀ id, shared.conn.vconn id = some [] → shared.user id ≠ .active →
    conn.vconn id = some []

theorem Fits.keep {conn : Multiconn} (fits : shared.Fits) (keeps : shared.Keeps conn)
    (incoming : Str) : Fits { shared with conn, incoming } := by
  obtain ⟨reader, ⟨wId, wSz, wState, pending⟩, silent⟩ := keeps
  refine ⟨reader, wState ▸ fits.wState, fun stays => ?_, fun id ended =>
    silent id (fits.silent id ended) ended⟩
  simp only [wId, wSz] at stays ⊢
  exact (fits.covered stays).trans (pending _).length_le

theorem vconn_getVirtualConnection {id : UInt8} (silent : conn.vconn id = some [])
    (other : UInt8) : (conn.getVirtualConnection other).vconn id = some [] := by
  by_cases same : id = other
  · subst same
    simp [getVirtualConnection, pending, silent]
  · simp [getVirtualConnection, Function.update_of_ne same, silent]

theorem Fits.read (fits : shared.Fits) (call : ReadCall) :
    Fits { shared with
      conn := (shared.read call).conn, incoming := (shared.read call).incoming } := by
  refine fits.keep ?_ _
  have reader := readHeader_fits fits.reader shared.incoming call
  have rest := readHeader_leaves (P := fun conn =>
    SameWriter shared.conn conn ∧ conn.vconn = shared.conn.vconn)
    (fun _ _ _ => ⟨⟨rfl, rfl, rfl, fun _ => List.prefix_rfl⟩, rfl⟩) shared.incoming call
  unfold Shared.read
  cases header : shared.conn.readHeader shared.incoming call with
  | error outcome =>
      rw [header] at reader rest
      exact ⟨reader, rest.1, fun id silent _ => by rw [rest.2, silent]⟩
  | ok passage =>
      rw [header] at reader rest
      obtain ⟨writer, vconn⟩ := rest
      by_cases active : shared.user passage.conn.rId = .active
      · simp only [active, if_true]
        refine ⟨readPayload_fits reader, writer.trans (sameWriter_readPayload passage call),
          fun id silent ended => ?_⟩
        have other : id ≠ passage.conn.rId := fun same => ended (same ▸ active)
        have found := vconn_getVirtualConnection (vconn ▸ silent : passage.conn.vconn id = _)
          passage.conn.rId
        have grown : ((passage.conn.getVirtualConnection passage.conn.rId).grow passage.conn.rId
            call.response).vconn id = some [] := by
          simp only [grow, Function.update_of_ne other]
          exact found
        obtain same | ⟨behind, rId, rSz, rState, same, joins⟩ := readPayload_cases passage call
        · rw [same]
          exact found
        · rw [same]
          obtain rfl | ⟨-, -, rfl⟩ := joins
          · exact grown
          · exact grown
      · simp only [active, if_false]
        exact ⟨reader.congr ⟨rfl, rfl, rfl⟩,
          writer.trans (sameWriter_getVirtualConnection _ _), fun id silent _ =>
            vconn_getVirtualConnection (vconn ▸ silent : passage.conn.vconn id = _) _⟩

theorem Fits.getWriteSize (fits : shared.Fits) :
    Fits { shared with conn := shared.conn.getWriteSize.1 } := by
  have reader := fits.reader.congr (sameReader_getWriteSize shared.conn)
  by_cases starts : shared.conn.wSz = 0 ∧ shared.conn.wQueue ≠ []
  · obtain ⟨idle, waits⟩ := starts
    obtain ⟨id, queue, queue_eq⟩ := List.exists_cons_of_ne_nil waits
    have next : shared.conn.getWriteSize.1 = { shared.conn.getVirtualConnection id with
        wId := id
        wQueue := queue
        wSz := min multiconnMaxSz (shared.conn.pending id).length
        wState := 0 } := by
      simp only [Multiconn.getWriteSize, idle, if_true, queue_eq]
    refine ⟨reader, ?_, fun _ => ?_, fun other ended => ?_⟩
    · simp only [next]
      exact Nat.zero_le _
    · have same := pending_getVirtualConnection shared.conn id id
      simp only [next]
      exact (min_le_right _ _).trans_eq (congrArg List.length same.symm)
    · simp only [next]
      exact vconn_getVirtualConnection (fits.silent other ended) id
  · have same : shared.conn.getWriteSize.1 = shared.conn := by
      unfold Multiconn.getWriteSize
      by_cases idle : shared.conn.wSz = 0
      · have nobody : shared.conn.wQueue = [] := by
          by_contra waits
          exact starts ⟨idle, waits⟩
        simp [idle, nobody]
      · simp [idle]
    rw [same]
    exact fits

theorem Fits.write (fits : shared.Fits) (call : WriteCall) :
    Fits { shared with conn := (shared.conn.write call).conn } := by
  have reader := fits.reader.congr (sameReader_write shared.conn call)
  by_cases idle : shared.conn.wSz = 0
  · have same : (shared.conn.write call).conn = shared.conn := by
      rw [Multiconn.write, if_pos idle]
    rw [same]
    exact fits
  · have header := writeHeader_leaves (P := fun conn => ∃ wState ≤ 3, conn =
      { shared.conn with wState }) ⟨shared.conn.wState, fits.wState, rfl⟩
      (fun wState bound => ⟨wState, bound, rfl⟩) call
    rw [Multiconn.write, if_neg idle] at reader ⊢
    cases header_eq : shared.conn.writeHeader call with
    | error outcome =>
        rw [header_eq] at header reader
        obtain ⟨wState, bound, same⟩ := header
        simp only [same] at reader ⊢
        exact ⟨reader, bound, fits.covered, fits.silent⟩
    | ok passage =>
        rw [header_eq] at header reader
        obtain ⟨wState, bound, same⟩ := header
        obtain ⟨amt, -, -, further⟩ := writePayload_cases passage call
        simp only at reader ⊢
        have silent (id : UInt8) (ended : shared.user id ≠ .active) :
            (shared.conn.took shared.conn.wId amt).vconn id = some [] := by
          have silent := fits.silent id ended
          by_cases here : id = shared.conn.wId
          · subst here
            simp [took, pending, silent]
          · simp [took, Function.update_of_ne here, silent]
        obtain ⟨-, next⟩ | ⟨-, -, ⟨-, next⟩ | ⟨-, next⟩⟩ := further
        · rw [next] at reader ⊢
          simp only [same] at reader ⊢
          refine ⟨reader, bound, fun stays => ?_, silent⟩
          have covered := fits.covered stays
          have pending := pending_took shared.conn shared.conn.wId amt
          change shared.conn.wSz - amt ≤
            ((shared.conn.took shared.conn.wId amt).pending shared.conn.wId).length
          rw [pending, List.length_drop]
          omega
        · rw [next] at reader ⊢
          simp only [same] at reader ⊢
          exact ⟨reader, Nat.zero_le _, fun _ => Nat.zero_le _, silent⟩
        · rw [next] at reader ⊢
          simp only [same] at reader ⊢
          exact ⟨reader, Nat.zero_le _, fun _ => Nat.zero_le _, silent⟩

theorem vconn_update (conn : Multiconn) : conn.update.vconn = conn.vconn := by
  unfold Multiconn.update
  induction ids generalizing conn with
  | nil => rfl
  | cons id ids ih =>
      rw [List.foldl_cons, ih]
      split <;> rfl

theorem Fits.step (fits : shared.Fits) (happening : Happening) : (shared.step happening).Fits := by
  cases happening with
  | call event =>
      cases event with
      | read call => exact fits.read call
      | getWriteSize => exact fits.getWriteSize
      | write call => exact fits.write call
      | update =>
          simp only [Shared.step]
          refine fits.keep ⟨fits.reader.congr (sameReader_update _), sameWriter_update _,
            fun id silent _ => ?_⟩ shared.incoming
          rw [vconn_update, silent]
      | addVirtualConnection bytes =>
          refine fits.keep ⟨fits.reader.congr (sameReader_addVirtualConnection _ _),
            sameWriter_addVirtualConnection _ _, fun id silent _ => ?_⟩ shared.incoming
          unfold addVirtualConnection
          split
          · exact silent
          · rename_i free found
            have absent : shared.conn.vconn free = none := by simpa using List.find?_some found
            have other : id ≠ free := fun same => by
              rw [same, absent] at silent
              cases silent
            simp only
            split <;> simpa [enqueue, Function.update_of_ne other] using silent
      | grow id bytes =>
          simp only [Shared.step]
          split
          · rename_i active
            have keeps : shared.Keeps (shared.conn.grow id bytes) := by
              refine ⟨fits.reader.congr ⟨rfl, rfl, rfl⟩, sameWriter_grow shared.conn id bytes,
                fun other silent ended => ?_⟩
              have differs : other ≠ id := fun same => ended (same ▸ active)
              simpa [grow, Function.update_of_ne differs] using silent
            exact fits.keep keeps shared.incoming
          · exact fits
  | finish id =>
      simp only [Shared.step]
      split
      · rename_i done
        refine ⟨fits.reader, fits.wState, fun stays => ?_, fun other ended => ?_⟩
        · refine fits.covered fun gone => stays ?_
          have differs : shared.conn.wId ≠ id := fun same => by
            rw [same, done.1] at gone
            cases gone
          simp only [Function.update_of_ne differs, gone]
        · by_cases same : other = id
          · exact same ▸ done.2
          · exact fits.silent other (by simpa [Function.update_of_ne same] using ended)
      · exact fits
  | addRequest id =>
      simp only [Shared.step]
      split
      · rename_i idle
        refine ⟨fits.reader, fits.wState, fun stays => ?_, fun other ended => ?_⟩
        · refine fits.covered fun gone => stays ?_
          have differs : shared.conn.wId ≠ id := fun same => by
            rw [same, idle] at gone
            cases gone
          simp only [Function.update_of_ne differs, gone]
        · have differs : other ≠ id := fun same => by simp [same] at ended
          exact fits.silent other (by simpa [Function.update_of_ne differs] using ended)
      · exact fits
  | disconnect id =>
      simp only [Shared.step]
      split
      · refine ⟨fits.reader.congr ⟨rfl, rfl, rfl⟩, fits.wState, fun stays => ?_,
          fun other ended => ?_⟩
        · have differs : shared.conn.wId ≠ id := fun same => by simp [took, same] at stays
          have kept : (shared.conn.took id (shared.conn.pending id).length).pending
              shared.conn.wId = shared.conn.pending shared.conn.wId :=
            pending_took_of_ne differs _
          refine (fits.covered ?_).trans_eq (congrArg List.length kept.symm)
          simpa [took, Function.update_of_ne differs] using stays
        · by_cases same : other = id
          · subst same
            simp [took]
          · have silent := fits.silent other (by simpa [Function.update_of_ne same] using ended)
            simpa [took, Function.update_of_ne same] using silent
      · exact fits

theorem Fits.run (fits : shared.Fits) (happenings : List Happening) :
    (shared.run happenings).Fits := by
  induction happenings generalizing shared with
  | nil => exact fits
  | cons happening happenings ih => exact ih (fits.step happening)

theorem fits_start (incoming : Str) : Fits { incoming } where
  reader := ⟨Nat.zero_le _, fun _ => one_pos, nofun⟩
  wState := Nat.zero_le _
  covered _ := Nat.zero_le _
  silent _ ended := absurd rfl ended

end Shared

/-- In every run, a call on a healthy socket transfers something unless it is for a frame of a
virtual connection whose user ended, or goes on with half a size; and for a user that ended it
returns zero once the header is through. -/
theorem isolation (incoming : Str) (happenings : List Happening) (happening : Happening)
    (result : Int)
    (healthy : (({ incoming } : Shared).run happenings).Healthy happening)
    (outcome : (({ incoming } : Shared).run happenings).result happening = some result) :
    (¬(({ incoming } : Shared).run happenings).Orphaned happening →
        ¬(({ incoming } : Shared).run happenings).Halves happening → 0 < result) ∧
      ((({ incoming } : Shared).run happenings).Orphaned happening →
        (({ incoming } : Shared).run happenings).HeaderThrough happening → result = 0) := by
  have fits := (Shared.fits_start incoming).run happenings
  generalize ({ incoming } : Shared).run happenings = shared at healthy outcome fits ⊢
  refine ⟨fun alone whole => ?_, fun orphaned through =>
    fits.orphaned_result healthy orphaned through outcome⟩
  have active {id : UInt8} (frame : shared.frameId happening = some id) :
      shared.user id = .active := by
    by_contra ended
    exact alone ⟨id, frame, ended⟩
  cases happening with
  | call event =>
      cases event with
      | read call =>
          cases outcome
          obtain ⟨id, frame⟩ : ∃ id, shared.frameId (.call (.read call)) = some id := by
            by_cases start : shared.conn.rState = 0
            · obtain ⟨first, rest, incoming_eq⟩ := List.exists_cons_of_ne_nil healthy.1
              exact ⟨first, by simp [Shared.frameId, start, incoming_eq]⟩
            · exact ⟨shared.conn.rId, by simp [Shared.frameId, start]⟩
          exact Int.natCast_pos.mpr
            (fits.read_result healthy.1 healthy.2 whole frame (active frame))
      | write call =>
          cases outcome
          exact fits.write_result healthy.1 healthy.2 (active rfl)
      | getWriteSize | update | addVirtualConnection bytes | grow id bytes => cases outcome
  | finish id | addRequest id | disconnect id => cases outcome

/-- Two virtual connections, and a frame of the first one is next. -/
def twoUsers : Shared :=
  ({ incoming := [] } : Shared).run [.call (.addVirtualConnection [65]),
    .call (.addVirtualConnection [66, 67]), .call .getWriteSize]

/-- The user of the second one is gone when a frame of the first one is written. -/
theorem isolation_two :
    ∃ result, (twoUsers.step (.disconnect 1)).result (.call (.write ⟨100, 2, true, true, 1⟩)) =
      some result ∧ 0 < result := by
  refine ⟨4, by decide +kernel, ?_⟩
  have isolated := isolation [] [.call (.addVirtualConnection [65]),
    .call (.addVirtualConnection [66, 67]), .call .getWriteSize, .disconnect 1]
    (.call (.write ⟨100, 2, true, true, 1⟩)) 4 ⟨by decide +kernel, by decide⟩ (by decide +kernel)
  refine isolated.1 ?_ (fun halves => halves)
  rintro ⟨id, frame, ended⟩
  cases frame
  revert ended
  decide +kernel

/-- The user of the first one is gone before its frame is written: the loop closes the socket of
both. -/
theorem not_isolation :
    let write := Happening.call (.write ⟨100, 2, true, true, 1⟩)
    (twoUsers.Healthy write ∧ twoUsers.result write = some 4) ∧
      (twoUsers.step (.disconnect 0)).Healthy write ∧
      (twoUsers.step (.disconnect 0)).result write = some 0 :=
  ⟨⟨⟨by decide +kernel, by decide⟩, by decide +kernel⟩, ⟨by decide +kernel, by decide⟩,
    by decide +kernel⟩

end Multiconn
end GnyProxy
