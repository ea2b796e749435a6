import GnyProxy.Framing

/-!
# The sizes of chunks

`message_source_11` gathers the digits of a chunk size in a signed number of 64 bits and does not
count them.  The number is the size that the numeral denotes, and is counted down without a sign,
exactly for numerals below `2 ^ 63`.
-/

namespace GnyProxy

open Incremental Decoder11

/-- A line that announces a chunk: digits, and an extension behind a semicolon. -/
structure SizeLine where
  digits : Str
  extension : Option Str := none
  nonempty : digits ≠ []
  hex : ∀ char ∈ digits, isHexDigit char = true
  clean : ∀ text ∈ extension, 10 ∉ text

namespace SizeLine

/-- What stands between the digits and the end of the line. -/
def suffix (line : SizeLine) : Str := line.extension.elim [] (59 :: ·)

def bytes (line : SizeLine) : Str := line.digits ++ (line.suffix ++ crlf)

/-- The number that the digits denote. -/
def value (line : SizeLine) : Nat := hexValue line.digits

end SizeLine

/-! ## What is claimed of a size -/

/-- Between two reads, before the line of a chunk. -/
structure AwaitsSize (isRequest : Bool) (reader : MessageSource11 × HttpMessage) : Prop where
  reached : ∃ cut count, feed MessageSource11.read ({}, .fresh isRequest) cut = .ok (reader, count)
  chunks : ReadsChunks reader.1
  before : reader.1.entityState1 = 0
  nothing : reader.1.entityState2 = 0

/-- The next byte is taken as chunk data. -/
def TakesData (src : MessageSource11) : Prop := src.entityState1 = 2 ∧ src.entityState2 ≠ 0

/-- Behind the line the reader is in the chunk, or in the trailer. -/
def Accepts (reader : MessageSource11 × HttpMessage) (line : SizeLine) : Prop :=
  ∀ cut next count, IsCut line.bytes cut →
    feed MessageSource11.read reader cut = .ok (next, count) → 2 ≤ next.1.entityState1

/-- The size is the number that the digits denote. -/
structure DecodesSize (reader : MessageSource11 × HttpMessage) (line : SizeLine) : Prop where
  /-- If the line is accepted, as many bytes are taken as chunk data. -/
  takes : Accepts reader line → ∀ data, data.length ≤ line.value →
    ∀ cut, IsCut (line.bytes ++ data) cut →
      ∃ next, feed MessageSource11.read reader cut = .ok (next, (line.bytes ++ data).length) ∧
        next.2.entity = reader.2.entity ++ data ∧
          (TakesData next.1 ↔ data.length < line.value)
  /-- Another number than zero does not end the entity. -/
  goes_on : line.value ≠ 0 → ∀ cut, IsCut line.bytes cut →
    ∃ next, feed MessageSource11.read reader cut = .ok (next, line.bytes.length) ∧
      next.1.state = .entity ∧ next.1.entityState1 ≠ 3
  /-- What is left of a chunk is no negative number. -/
  nonnegative : ∀ data, data.length ≤ line.value → ∀ part, part <+: line.bytes ++ data →
    ∀ cut, IsCut part cut →
      ∃ next, feed MessageSource11.read reader cut = .ok (next, part.length) ∧
        0 ≤ next.1.entityState2.toInt

/-! ## Reading a size -/

namespace Decoder11

/-- Digits of any number are gathered on 64 bits. -/
theorem reads_digits {digits : Str} (hex : ∀ char ∈ digits, isHexDigit char = true)
    (msg : HttpMessage) :
    automaton.Reads ⟨.chunkSize 0, msg⟩ digits
      ⟨.chunkSize (BitVec.ofNat 64 (hexValue digits)), msg⟩ := by
  induction digits using List.reverseRecOn with
  | nil => exact .nil _
  | append_singleton digits digit ih =>
      rw [List.forall_mem_append, List.forall_mem_singleton] at hex
      rcases hextoi_digit digit hex.2 with ⟨accepted, decoded, small⟩
      apply (ih hex.1).snoc
      · rfl
      · simp only [automaton, step, accepted, if_true, decoded, size_digit small,
          hexValue_append_singleton]

/-- In an entity of chunks, with no negative number left. -/
def Counting (dec : Decoder11) : Prop :=
  match dec.phase with
  | .chunkSize size | .chunkExtension size | .chunkData size => 0 ≤ size.toInt
  | .trailer _ => True
  | .firstLine _ | .header _ _ | .fixed _ | .done => False

theorem toInt_nonneg {number : Nat} (small : number < 2 ^ 63) :
    0 ≤ (BitVec.ofNat 64 number).toInt := by
  rw [BitVec.toInt_eq_toNat_of_lt]
  · exact Int.natCast_nonneg _
  · rw [BitVec.toNat_ofNat]
    omega

theorem along_digits {digits : Str} (hex : ∀ char ∈ digits, isHexDigit char = true)
    (small : hexValue digits < 2 ^ 63) (msg : HttpMessage) :
    automaton.Along Counting ⟨.chunkSize 0, msg⟩ digits := by
  intro front middle begins reads
  have hex_front : ∀ char ∈ front, isHexDigit char = true := fun char member =>
    hex char (begins.subset member)
  obtain rfl := (reads_digits hex_front msg).deterministic reads
  exact toInt_nonneg (lt_of_le_of_lt (hexValue_le_of_begins begins) small)

/-- Behind the digits nothing counts but the end of the line. -/
theorem reads_suffix (line : SizeLine) {size : BitVec 64} {msg : HttpMessage} {next : Decoder11}
    (ends : endSize size msg = .ok next) :
    automaton.Reads ⟨.chunkSize size, msg⟩ (line.suffix ++ crlf) next ∧
      (0 ≤ size.toInt → Counting next →
        automaton.Along Counting ⟨.chunkSize size, msg⟩ (line.suffix ++ crlf)) := by
  cases shape : line.extension with
  | none =>
      have suffix_eq : line.suffix ++ crlf = [13] ++ [10] := by simp [SizeLine.suffix, shape, crlf]
      have stays : ∀ ch ∈ [13], automaton.step ⟨.chunkSize size, msg⟩ ch =
          .ok ⟨.chunkSize size, msg⟩ := by
        simp [automaton, step, isHex]
      have last : automaton.step ⟨.chunkSize size, msg⟩ 10 = .ok next := by
        simp [automaton, step, isHex, ends]
      rw [suffix_eq]
      constructor
      · exact (Automaton.Reads.stay rfl stays).snoc rfl last
      · intro nonneg counting
        exact .append (.stay rfl stays) (.stay rfl nonneg stays)
          (.cons rfl last nonneg (.nil counting))
  | some text =>
      have clean := line.clean text shape
      have suffix_eq : line.suffix ++ crlf = 59 :: ((text ++ [13]) ++ [10]) := by
        simp [SizeLine.suffix, shape, crlf]
      have first : automaton.step ⟨.chunkSize size, msg⟩ 59 = .ok ⟨.chunkExtension size, msg⟩ := by
        simp [automaton, step, isHex]
      have stays : ∀ ch ∈ text ++ [13], automaton.step ⟨.chunkExtension size, msg⟩ ch =
          .ok ⟨.chunkExtension size, msg⟩ := by
        intro ch member
        have other : ch ≠ 10 := by
          rintro rfl
          simp [clean] at member
        simp [automaton, step, other]
      have last : automaton.step ⟨.chunkExtension size, msg⟩ 10 = .ok next := by
        simp [automaton, step, ends]
      rw [suffix_eq]
      constructor
      · exact .cons rfl first ((Automaton.Reads.stay rfl stays).snoc rfl last)
      · intro nonneg counting
        exact .cons rfl first nonneg (.append (.stay rfl stays) (.stay rfl nonneg stays)
          (.cons rfl last nonneg (.nil counting)))

theorem along_data {data : Str} {msg : HttpMessage} {left : Nat} (entity : msg.state = .entity)
    (small : left < 2 ^ 63) (fits : data.length ≤ left) :
    automaton.Along Counting ⟨.chunkData (BitVec.ofNat 64 left), msg⟩ data := by
  intro front middle begins reads
  have length := begins.length_le
  obtain rfl := (reads_data entity (by omega) (by omega)).deterministic reads
  exact toInt_nonneg (by omega)

end Decoder11

/-! ## What is left in the trailer -/

namespace MessageSource11

/-- In the trailer nothing is left of a chunk. -/
def Spent (src : MessageSource11) : Prop := src.entityState1 = 3 → src.entityState2 = 0

variable {pass pass' : Pass} {i : Nat} {ch : UInt8}

theorem Spent.of_ne {src : MessageSource11} (other : src.entityState1 ≠ 3) : Spent src :=
  fun trailer => absurd trailer other

theorem Spent.endSize (outcome : pass.endSize i = .ok pass') : Spent pass'.src := by
  rw [Pass.endSize] at outcome
  split at outcome
  · cases outcome
    exact .of_ne (by simp)
  · rename_i zero
    rcases bind_eq_ok.mp outcome with ⟨msg, -, outcome⟩
    rcases bind_eq_ok.mp outcome with ⟨msg', -, outcome⟩
    cases outcome
    exact fun _ => by simpa using zero

theorem Spent.chunkedChar (spent : Spent pass.src) (outcome : pass.chunkedChar i ch = .ok pass') :
    Spent pass'.src := by
  simp only [Pass.chunkedChar] at outcome
  split at outcome
  · rename_i size
    have other : pass.src.entityState1 ≠ 3 := by omega
    split at outcome
    · cases outcome
      exact .of_ne other
    · split at outcome
      · cases outcome
        exact .of_ne (by simp)
      · split at outcome
        · exact .endSize outcome
        · cases outcome
          exact spent
  · split at outcome
    · split at outcome
      · exact .endSize outcome
      · cases outcome
        exact spent
    · split at outcome
      · rename_i chunk
        have other : pass.src.entityState1 ≠ 3 := by omega
        split at outcome
        · cases outcome
          exact .of_ne other
        · split at outcome
          · cases outcome
            exact .of_ne (by simp)
          · cases outcome
            exact spent
      · split at outcome
        · split at outcome
          · split at outcome
            · rcases bind_eq_ok.mp outcome with ⟨msg, -, outcome⟩
              cases outcome
              exact spent
            · rcases bind_eq_ok.mp outcome with ⟨msg, -, outcome⟩
              cases outcome
              exact spent
          · cases outcome
            exact spent
        · cases outcome
          exact spent

theorem Spent.fixedChar (spent : Spent pass.src) (outcome : pass.fixedChar i ch = .ok pass') :
    Spent pass'.src := by
  rw [Pass.fixedChar] at outcome
  split at outcome
  · rcases bind_eq_ok.mp outcome with ⟨msg, -, outcome⟩
    rcases bind_eq_ok.mp outcome with ⟨msg', -, outcome⟩
    rcases bind_eq_ok.mp outcome with ⟨msg'', -, outcome⟩
    cases outcome
    exact spent
  · cases outcome
    exact spent

theorem Spent.readChar (spent : Spent pass.src) (outcome : pass.readChar i ch = .ok pass') :
    Spent pass'.src := by
  cases state : pass.src.state with
  | firstLine =>
      simp only [Pass.readChar, state] at outcome
      split at outcome
      · split at outcome
        · cases outcome
          exact spent
        · cases outcome
          exact spent
      · cases outcome
        exact spent
  | headers =>
      simp only [Pass.readChar, state] at outcome
      split at outcome
      · split at outcome
        · rcases bind_eq_ok.mp outcome with ⟨⟨mode, msg⟩, -, outcome⟩
          cases outcome
          exact spent
        · rcases bind_eq_ok.mp outcome with ⟨msg, -, outcome⟩
          split at outcome
          · rcases bind_eq_ok.mp outcome with ⟨msg', -, outcome⟩
            rcases bind_eq_ok.mp outcome with ⟨msg'', -, outcome⟩
            cases outcome
            exact spent
          · cases outcome
            exact .of_ne (by simp)
      · cases outcome
        exact spent
  | entity =>
      simp only [Pass.readChar, state] at outcome
      split at outcome
      · exact spent.fixedChar outcome
      · exact spent.chunkedChar outcome
  | done =>
      simp only [Pass.readChar, state] at outcome
      cases outcome
      exact spent

theorem Spent.readLoop {word : Str} {j : Nat} (spent : Spent pass.src)
    (outcome : MessageSource11.readLoop pass i word = .ok (j, pass')) : Spent pass'.src := by
  induction word generalizing pass i with
  | nil =>
      cases outcome
      exact spent
  | cons ch word ih =>
      rw [MessageSource11.readLoop] at outcome
      split at outcome
      · cases outcome
        exact spent
      · split at outcome
        · cases outcome
        · rename_i next step
          have spent' : Spent next.src := spent.readChar step
          exact @ih { next with src := { next.src with last := ch } } (i + 1) spent' outcome

theorem Spent.read {reader next : MessageSource11 × HttpMessage} {rbuf : Str} {count : Nat}
    (spent : Spent reader.1) (outcome : MessageSource11.read reader rbuf = .ok (next, count)) :
    Spent next.1 := by
  rw [MessageSource11.read] at outcome
  split at outcome
  · cases outcome
    exact spent
  · rcases bind_eq_ok.mp outcome with ⟨⟨j, pass⟩, loop_eq, outcome⟩
    rcases bind_eq_ok.mp outcome with ⟨msg, -, outcome⟩
    cases outcome
    have spent' : Spent pass.src := by
      apply Spent.readLoop ?_ loop_eq
      exact spent
    rw [Spent, Pass.rebase]
    split
    · exact spent'
    · exact spent'

theorem Spent.feed {cut : List Str} {reader next : MessageSource11 × HttpMessage} {count : Nat}
    (spent : Spent reader.1)
    (outcome : Incremental.feed MessageSource11.read reader cut = .ok (next, count)) :
    Spent next.1 := by
  induction cut generalizing reader count with
  | nil =>
      cases outcome
      exact spent
  | cons piece cut ih =>
      rcases feed_cons_eq_ok.mp outcome with ⟨middle, before, after, here, more, -⟩
      exact ih (spent.read here) more

end MessageSource11

/-! ## Sizes below `2 ^ 63` -/

/-- Before a chunk the decoder is before a chunk. -/
theorem AwaitsSize.matches {isRequest : Bool} {reader : MessageSource11 × HttpMessage}
    (awaits : AwaitsSize isRequest reader) :
    ∃ msg, Matches reader ⟨.chunkSize 0, msg⟩ ∧ msg.state = .entity := by
  rcases awaits.reached with ⟨cut, count, feed_eq⟩
  rcases Decoder11.run_ok (Decoder11.consistent_fresh isRequest) cut.flatten with
    ⟨dec, count', outcome⟩
  rcases Decoder11.simulates.feed ({}, .fresh isRequest) (Decoder11.matches_fresh isRequest)
    outcome with ⟨reader', feed_eq', same⟩
  obtain rfl : reader = reader' := by
    rw [feed_eq] at feed_eq'
    simp only [Except.ok.injEq, Prod.mk.injEq] at feed_eq'
    exact feed_eq'.1
  rcases dec with ⟨phase, msg⟩
  rcases same with ⟨⟨lower, upper, sim⟩, rfl⟩
  have before := awaits.before
  have nothing := awaits.nothing
  rcases awaits.chunks with ⟨state, mode⟩
  cases phase with
  | chunkSize size =>
      obtain rfl : size = 0 := sim.2.2.1.symm.trans nothing
      exact ⟨reader.2, ⟨⟨lower, upper, sim⟩, rfl⟩, sim.2.2.2.2.2.2⟩
  | firstLine line => cases state.symm.trans sim.1
  | header entityMode line => cases state.symm.trans sim.1
  | fixed left =>
      rw [← sim.1] at sim
      exact absurd sim.2.1 mode
  | chunkExtension size => cases before.symm.trans sim.2.1
  | chunkData left => cases before.symm.trans sim.2.1
  | trailer line => cases before.symm.trans sim.2.2.1
  | done => cases state.symm.trans sim.1

namespace Decoder11

theorem endSize_zero {msg : HttpMessage} (entity : msg.state = .entity) :
    endSize 0 msg = .ok ⟨.trailer [], { msg with state := .footer }⟩ := by
  simp [endSize, HttpMessage.endEntity, entity]

theorem endSize_of_ne_zero {size : BitVec 64} (nonzero : size ≠ 0) (msg : HttpMessage) :
    endSize size msg = .ok ⟨.chunkData size, msg⟩ := by
  rw [endSize, if_pos nonzero]

/-- The whole line of a chunk. -/
theorem reads_sizeLine (line : SizeLine) {msg : HttpMessage} {next : Decoder11}
    (ends : endSize (BitVec.ofNat 64 line.value) msg = .ok next) :
    automaton.Reads ⟨.chunkSize 0, msg⟩ line.bytes next :=
  (reads_digits line.hex msg).append (reads_suffix line ends).1

/-- The line and bytes of the chunk, for a size that fits. -/
theorem reads_taken {line : SizeLine} (small : line.value < 2 ^ 63) {msg : HttpMessage}
    (entity : msg.state = .entity) {data : Str} (fits : data.length ≤ line.value) :
    ∃ last, automaton.Reads ⟨.chunkSize 0, msg⟩ (line.bytes ++ data) last ∧
      automaton.Along Counting ⟨.chunkSize 0, msg⟩ (line.bytes ++ data) ∧
        last.msg.entity = msg.entity ++ data ∧
          (line.value = 0 ∧ last.phase = .trailer [] ∨
            line.value ≠ 0 ∧
              last.phase = .chunkData (BitVec.ofNat 64 (line.value - data.length))) := by
  have along {next : Decoder11}
      (ends : endSize (BitVec.ofNat 64 line.value) msg = .ok next) (counting : Counting next) :
      automaton.Along Counting ⟨.chunkSize 0, msg⟩ line.bytes :=
    .append (reads_digits line.hex msg) (along_digits line.hex small msg)
      ((reads_suffix line ends).2 (toInt_nonneg small) counting)
  by_cases zero : line.value = 0
  · obtain rfl : data = [] := by
      rw [zero] at fits
      exact List.length_eq_zero_iff.mp (Nat.le_zero.mp fits)
    have ends := endSize_zero entity
    have size_eq : BitVec.ofNat 64 line.value = 0 := by
      rw [zero]
      rfl
    rw [← size_eq] at ends
    rw [List.append_nil]
    exact ⟨_, reads_sizeLine line ends, along ends trivial, (List.append_nil _).symm,
      Or.inl ⟨zero, rfl⟩⟩
  · have ends := endSize_of_ne_zero (ofNat_ne_zero zero (by omega)) msg
    have whole := reads_sizeLine line ends
    have data_along := along_data entity small fits
    exact ⟨_, whole.append (reads_data entity (by omega) fits),
      .append whole (along ends (toInt_nonneg small)) data_along, rfl, Or.inr ⟨zero, rfl⟩⟩

/-- What the reader holds where the decoder counts. -/
theorem Matches.counting {reader : MessageSource11 × HttpMessage} {dec : Decoder11}
    (same : Matches reader dec) (counting : Counting dec) (spent : MessageSource11.Spent reader.1) :
    0 ≤ reader.1.entityState2.toInt := by
  rcases dec with ⟨phase, msg⟩
  rcases same with ⟨⟨-, -, sim⟩, -⟩
  cases phase with
  | chunkSize size =>
      rw [sim.2.2.1]
      exact counting
  | chunkExtension size =>
      rw [sim.2.2.1]
      exact counting
  | chunkData left =>
      rw [sim.2.2.1]
      exact counting
  | trailer line =>
      rw [spent sim.2.2.1]
      decide
  | firstLine line => cases counting
  | header entityMode line => cases counting
  | fixed left => cases counting
  | done => cases counting

theorem Matches.takesData {reader : MessageSource11 × HttpMessage} {left : BitVec 64}
    {msg : HttpMessage} (same : Matches reader ⟨.chunkData left, msg⟩) :
    TakesData reader.1 ↔ left ≠ 0 := by
  rcases same with ⟨⟨-, -, sim⟩, -⟩
  rw [TakesData, sim.2.1, sim.2.2.1]
  simp

theorem Matches.trailer {reader : MessageSource11 × HttpMessage} {line : Str} {msg : HttpMessage}
    (same : Matches reader ⟨.trailer line, msg⟩) : reader.1.entityState1 = 3 :=
  same.1.2.2.2.2.1

end Decoder11

/-- A size below `2 ^ 63` is the number that the digits denote. -/
theorem decodesSize_of_lt {isRequest : Bool} {reader : MessageSource11 × HttpMessage}
    (awaits : AwaitsSize isRequest reader) {line : SizeLine} (small : line.value < 2 ^ 63) :
    DecodesSize reader line := by
  rcases awaits.matches with ⟨msg, same, entity⟩
  have msg_eq : reader.2 = msg := same.2
  have spent : MessageSource11.Spent reader.1 := .of_ne (by rw [awaits.before]; decide)
  constructor
  · intro _ data fits cut isCut
    rcases reads_taken small entity fits with ⟨⟨phase, msg'⟩, reads, -, entity_eq, last⟩
    rcases same.feed reads isCut with ⟨next, feed_eq, same'⟩
    refine ⟨next, feed_eq, ?_, ?_⟩
    · rw [same'.2, msg_eq]
      exact entity_eq
    · rcases last with ⟨zero, trailer⟩ | ⟨nonzero, chunk⟩
      · obtain rfl : phase = .trailer [] := trailer
        refine iff_of_false ?_ (by omega)
        intro takes
        cases same'.trailer.symm.trans takes.1
      · obtain rfl : phase = .chunkData _ := chunk
        rw [same'.takesData]
        constructor
        · intro some
          by_contra none
          have gone : line.value - data.length = 0 := by omega
          rw [gone] at some
          exact some rfl
        · intro more
          exact ofNat_ne_zero (by omega) (by omega)
  · intro nonzero cut isCut
    rcases @reads_taken line small msg entity [] (Nat.zero_le line.value) with
      ⟨⟨phase, msg'⟩, reads, -, -, last⟩
    rw [List.append_nil] at reads
    rcases same.feed reads isCut with ⟨next, feed_eq, same'⟩
    obtain rfl : phase = .chunkData _ := (last.resolve_left fun zero => nonzero zero.1).2
    rcases same'.1 with ⟨-, -, sim⟩
    refine ⟨next, feed_eq, sim.2.2.2.1, ?_⟩
    rw [sim.2.1]
    decide
  · intro data fits part begins cut isCut
    rcases reads_taken small entity fits with ⟨last, reads, along, -, -⟩
    rcases begins with ⟨rest, whole⟩
    rw [← whole] at reads along
    rcases reads.split with ⟨middle, front, -⟩
    rcases same.feed front isCut with ⟨next, feed_eq, same'⟩
    exact ⟨next, feed_eq, same'.counting (along part middle ⟨rest, rfl⟩ front)
      (spent.feed feed_eq)⟩

/-! ## Larger sizes -/

section Larger

variable {reader : MessageSource11 × HttpMessage} {msg : HttpMessage} {line : SizeLine}

theorem SizeLine.bytes_ne_nil (line : SizeLine) : line.bytes ≠ [] := by
  simp [SizeLine.bytes, line.nonempty]

/-- The number that is gathered is the remainder of the one that the digits denote. -/
theorem ofNat_mod (value : Nat) :
    BitVec.ofNat 64 value = BitVec.ofNat 64 (value % 2 ^ 64) := by
  apply BitVec.eq_of_toNat_eq
  simp

/-- A number that wraps around to zero ends the entity. -/
theorem not_decodesSize_of_zero (same : Matches reader ⟨.chunkSize 0, msg⟩)
    (entity : msg.state = .entity) (nonzero : line.value ≠ 0) (zero : line.value % 2 ^ 64 = 0) :
    ¬DecodesSize reader line := by
  intro decodes
  have ends := endSize_zero entity
  have size_eq : BitVec.ofNat 64 line.value = 0 := by
    rw [ofNat_mod, zero]
    rfl
  rw [← size_eq] at ends
  have isCut := IsCut.single line.bytes_ne_nil
  rcases same.feed (reads_sizeLine line ends) isCut with ⟨next, feed_eq, same'⟩
  rcases decodes.goes_on nonzero _ isCut with ⟨next', feed_eq', -, open_⟩
  obtain rfl : next = next' := by simpa using feed_eq.symm.trans feed_eq'
  exact open_ same'.trailer

/-- A number whose remainder has the sign bit leaves a negative count. -/
theorem not_decodesSize_of_negative (same : Matches reader ⟨.chunkSize 0, msg⟩)
    (negative : 2 ^ 63 ≤ line.value % 2 ^ 64) : ¬DecodesSize reader line := by
  intro decodes
  have size_ne : BitVec.ofNat 64 line.value ≠ 0 := by
    rw [ofNat_mod]
    exact ofNat_ne_zero (by omega) (Nat.mod_lt _ (by decide))
  have isCut := IsCut.single line.bytes_ne_nil
  rcases same.feed (reads_sizeLine line (endSize_of_ne_zero size_ne msg)) isCut with
    ⟨next, feed_eq, same'⟩
  rcases decodes.nonnegative [] (Nat.zero_le _) line.bytes (by simp) _ isCut with
    ⟨next', feed_eq', nonneg⟩
  obtain rfl : next = next' := by simpa using feed_eq.symm.trans feed_eq'
  rcases same'.1 with ⟨-, -, sim⟩
  rw [sim.2.2.1, ofNat_mod, BitVec.toInt_eq_toNat_cond, BitVec.toNat_ofNat] at nonneg
  omega

/-- A number that wraps around takes fewer bytes than it denotes. -/
theorem not_decodesSize_of_less (same : Matches reader ⟨.chunkSize 0, msg⟩)
    (entity : msg.state = .entity) (nonzero : line.value % 2 ^ 64 ≠ 0)
    (less : line.value % 2 ^ 64 < line.value) : ¬DecodesSize reader line := by
  intro decodes
  have size_ne : BitVec.ofNat 64 line.value ≠ 0 := by
    rw [ofNat_mod]
    exact ofNat_ne_zero nonzero (Nat.mod_lt _ (by decide))
  have reads := reads_sizeLine line (endSize_of_ne_zero size_ne msg)
  have accepts : Accepts reader line := by
    intro cut next count isCut feed_eq
    rcases same.feed reads isCut with ⟨next', feed_eq', same'⟩
    obtain rfl : next = next' := by
      rw [feed_eq] at feed_eq'
      simp only [Except.ok.injEq, Prod.mk.injEq] at feed_eq'
      exact feed_eq'.1
    rcases same'.1 with ⟨-, -, sim⟩
    rw [sim.2.1]
  have data_length : (List.replicate (line.value % 2 ^ 64) (0 : UInt8)).length =
      line.value % 2 ^ 64 := List.length_replicate
  have data_reads := @reads_data (List.replicate (line.value % 2 ^ 64) 0) msg _ entity
    (Nat.mod_lt _ (by decide)) data_length.le
  rw [← ofNat_mod] at data_reads
  have isCut : IsCut (line.bytes ++ List.replicate (line.value % 2 ^ 64) 0) [_] :=
    .single (by simp [line.bytes_ne_nil])
  rcases same.feed (reads.append data_reads) isCut with ⟨next, feed_eq, same'⟩
  rcases decodes.takes accepts _ (data_length.le.trans less.le) _ isCut with
    ⟨next', feed_eq', -, takes⟩
  obtain rfl : next = next' := by simpa using feed_eq.symm.trans feed_eq'
  rw [same'.takesData, data_length, Nat.sub_self] at takes
  exact takes.mpr less rfl

end Larger

/-- Beyond the size of the type the number wraps around, or is negative. -/
theorem lt_of_decodesSize {isRequest : Bool} {reader : MessageSource11 × HttpMessage}
    (awaits : AwaitsSize isRequest reader) {line : SizeLine} (decodes : DecodesSize reader line) :
    line.value < 2 ^ 63 := by
  rcases awaits.matches with ⟨msg, same, entity⟩
  by_contra large
  by_cases zero : line.value % 2 ^ 64 = 0
  · exact not_decodesSize_of_zero same entity (by omega) zero decodes
  · by_cases negative : 2 ^ 63 ≤ line.value % 2 ^ 64
    · exact not_decodesSize_of_negative same negative decodes
    · exact not_decodesSize_of_less same entity zero (by omega) decodes

/-- Sizes of chunks are decoded exactly for the numerals below `2 ^ 63`. -/
theorem decodesSize_iff {isRequest : Bool} {reader : MessageSource11 × HttpMessage}
    (awaits : AwaitsSize isRequest reader) (line : SizeLine) :
    DecodesSize reader line ↔ line.value < 2 ^ 63 := by
  constructor
  · exact lt_of_decodesSize awaits
  · exact decodesSize_of_lt awaits

/-- A request that announces chunks. -/
def chunkedHead : Str := ascii "GET / HTTP/1.1\r\nTransfer-Encoding: chunked\r\n\r\n"

/-- The reader behind it. -/
def chunkedRequest : MessageSource11 × HttpMessage :=
  ({ state := .entity, last := 10, entityMode := entityChunked },
    { isRequest := true, url := ascii "/", verb := 2, state := .entity })

theorem awaitsSize_chunkedRequest : AwaitsSize true chunkedRequest where
  reached := by
    refine ⟨[chunkedHead], chunkedHead.length, ?_⟩
    decide +kernel
  chunks := by
    constructor
    · rfl
    · decide
  before := rfl
  nothing := rfl

/-- The size `2 ^ 64`. -/
def longSize : SizeLine where
  digits := ascii "10000000000000000"
  nonempty := by decide
  hex := List.all_eq_true.mp (by decide)
  clean := by simp

/-- The size of a chunk of ten bytes, with an extension. -/
def shortSize : SizeLine where
  digits := ascii "0A"
  extension := some (ascii "name=value")
  nonempty := by decide
  hex := List.all_eq_true.mp (by decide)
  clean := by decide

theorem decodesSize_shortSize : shortSize.value = 10 ∧ DecodesSize chunkedRequest shortSize := by
  have value : shortSize.value = 10 := by decide +kernel
  have small : shortSize.value < 2 ^ 63 := by
    rw [value]
    decide
  exact ⟨value, (decodesSize_iff awaitsSize_chunkedRequest shortSize).mpr small⟩

/-- The digits of `2 ^ 64` are read as zero. -/
theorem not_decodesSize_longSize :
    AwaitsSize true chunkedRequest ∧ ¬DecodesSize chunkedRequest longSize := by
  have value : longSize.value = 2 ^ 64 := by decide +kernel
  refine ⟨awaitsSize_chunkedRequest, fun decodes => ?_⟩
  have small := lt_of_decodesSize awaitsSize_chunkedRequest decodes
  rw [value] at small
  omega

end GnyProxy
