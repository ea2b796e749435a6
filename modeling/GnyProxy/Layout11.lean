import GnyProxy.Decoder11
import GnyProxy.Numerals
import GnyProxy.Transfer

/-!
# Reading the HTTP/1.1 layout

The decoder reads back the lines, the chunks and the fixed-length entity that the writer puts out,
and finds the framing again that the writer chose.
-/

namespace GnyProxy

open Incremental

/-! ## Fields as lines -/

/-- A field that a line can hold: no line feed, no colon in the key, and no blanks around. -/
structure WellFormed (field : Str × Str) : Prop where
  keyFeed : 10 ∉ field.1
  valueFeed : 10 ∉ field.2
  colon : 58 ∉ field.1
  keyTrim : trim field.1 = field.1
  valueTrim : trim field.2 = field.2

/-- The text of a field line, without its end. -/
def fieldText (field : Str × Str) : Str := field.1 ++ 58 :: 32 :: field.2

theorem fieldLine_eq (field : Str × Str) :
    MessageSink11.fieldLine field = fieldText field ++ crlf := by
  have separator : ascii ": " = [58, 32] := by decide
  simp [MessageSink11.fieldLine, fieldText, separator]

theorem WellFormed.splitField {field : Str × Str} (wellFormed : WellFormed field) :
    splitField (fieldText field) = some field := by
  have plain : ∀ char ∈ field.1, (decide (char ≠ 58)) = true := by
    intro char member
    simpa using ne_of_mem_of_not_mem member wellFormed.colon
  have key : (fieldText field).takeWhile (· ≠ 58) = field.1 := by
    rw [fieldText, List.takeWhile_append_of_pos plain]
    simp
  have value : (fieldText field).dropWhile (· ≠ 58) = 58 :: 32 :: field.2 := by
    rw [fieldText, List.dropWhile_append_of_pos plain]
    simp
  have colon : 58 ∈ fieldText field := by simp [fieldText]
  rw [GnyProxy.splitField, if_pos colon, key, value]
  simp only [List.drop_succ_cons, List.drop_zero, wellFormed.keyTrim,
    trim_cons_blank wellFormed.valueTrim]

theorem WellFormed.feed {field : Str × Str} (wellFormed : WellFormed field) :
    10 ∉ fieldText field := by
  simp [fieldText, wellFormed.keyFeed, wellFormed.valueFeed]

namespace Decoder11

/-! ## Reading the parts of the layout -/

theorem chomp_append (text : Str) : chomp (text ++ [13]) = text := by
  simp [chomp]

/-- A line up to its line feed, once the phase stays the same but for the bytes that it
gathers. -/
theorem reads_upTo (phase : Str → Phase) (line : Str) {msg : HttpMessage} {next : Decoder11}
    (open_ : ∀ line, phase line ≠ .done)
    (gathers : ∀ line ch, ch ≠ 10 → step ⟨phase line, msg⟩ ch = .ok ⟨phase (line ++ [ch]), msg⟩)
    (ends : step ⟨phase line, msg⟩ 10 = .ok next) (clean : 10 ∉ line) :
    automaton.Reads ⟨phase [], msg⟩ (line ++ [10]) next := by
  have reads {left right : Str} (whole : left ++ right = line) (clean : 10 ∉ right) :
      automaton.Reads ⟨phase left, msg⟩ (right ++ [10]) next := by
    induction right generalizing left with
    | nil =>
        rw [List.append_nil] at whole
        subst whole
        exact .single (by simp [automaton, open_]) ends
    | cons ch right ih =>
        simp only [List.mem_cons, not_or] at clean
        refine .into ⟨phase (left ++ [ch]), msg⟩ (by simp [automaton, open_]) ?_ ?_
        · exact gathers left ch fun equality => clean.1 equality.symm
        · exact ih (by simpa using whole) clean.2
  exact reads (List.nil_append line) clean

/-- A line up to its end, with the carriage return that is not part of it. -/
theorem reads_line (phase : Str → Phase) (text : Str) {msg : HttpMessage} {next : Decoder11}
    (open_ : ∀ line, phase line ≠ .done)
    (gathers : ∀ line ch, ch ≠ 10 → step ⟨phase line, msg⟩ ch = .ok ⟨phase (line ++ [ch]), msg⟩)
    (ends : step ⟨phase (text ++ [13]), msg⟩ 10 = .ok next) (clean : 10 ∉ text) :
    automaton.Reads ⟨phase [], msg⟩ (text ++ crlf) next := by
  have reads := reads_upTo phase (text ++ [13]) open_ gathers ends (by simp [clean])
  simpa [crlf] using reads

theorem reads_firstLine {isRequest : Bool} {text : Str} (nonempty : text ≠ [])
    (clean : 10 ∉ text) :
    automaton.Reads (fresh isRequest) (text ++ crlf)
      ⟨.header entityUnknown [], parseFirstLine (.fresh isRequest) text⟩ :=
  reads_line .firstLine text (by simp) (by simp +contextual [step])
    (by simp [step, chomp_append, nonempty]) clean

/-- A header line is read back: it changes the mode, and is kept if it survives. -/
theorem reads_header (entityMode : Int) {msg : HttpMessage} {field : Str × Str}
    (header : msg.state = .header) (wellFormed : WellFormed field) :
    automaton.Reads ⟨.header entityMode [], msg⟩ (MessageSink11.fieldLine field)
      ⟨.header (modeAfter entityMode field) [],
        { msg with headers := msg.headers ++ if survives field.1 then [field] else [] }⟩ := by
  have nonempty : fieldText field ≠ [] := by simp [fieldText]
  rw [fieldLine_eq]
  refine reads_line (.header entityMode) (fieldText field) (by simp)
    (by simp +contextual [step]) ?_ wellFormed.feed
  simp [step, chomp_append, nonempty, parseHeader_eq header wellFormed.splitField]

/-- The header lines of a message are read back in order. -/
theorem reads_headers {fields : Fields} (entityMode : Int) {msg : HttpMessage}
    (header : msg.state = .header) (wellFormed : ∀ field ∈ fields, WellFormed field) :
    automaton.Reads ⟨.header entityMode [], msg⟩ (MessageSink11.fieldLines fields)
      ⟨.header (fields.foldl modeAfter entityMode) [],
        { msg with headers := msg.headers ++ fields.filter (survives ·.1) }⟩ := by
  induction fields generalizing entityMode msg with
  | nil => simpa [MessageSink11.fieldLines] using Automaton.Reads.nil (A := automaton) _
  | cons field fields ih =>
      obtain ⟨here, later⟩ := List.forall_mem_cons.mp wellFormed
      have rest := @ih (modeAfter entityMode field)
        { msg with headers := msg.headers ++ if survives field.1 then [field] else [] } header later
      have whole := (reads_header entityMode header here).append rest
      by_cases kept : survives field.1 = true <;>
        simpa [MessageSink11.fieldLines, kept] using whole

/-- A trailer line is read back. -/
theorem reads_footer {msg : HttpMessage} {field : Str × Str} (footer : msg.state = .footer)
    (wellFormed : WellFormed field) :
    automaton.Reads ⟨.trailer [], msg⟩ (MessageSink11.fieldLine field)
      ⟨.trailer [], { msg with footers := msg.footers ++ [field] }⟩ := by
  have nonempty : fieldText field ≠ [] := by simp [fieldText]
  rw [fieldLine_eq]
  refine reads_line .trailer (fieldText field) (by simp) (by simp +contextual [step]) ?_
    wellFormed.feed
  simp [step, chomp_append, nonempty, parseFooter, wellFormed.splitField, HttpMessage.addFooter,
    footer]

theorem reads_footers {fields : Fields} {msg : HttpMessage} (footer : msg.state = .footer)
    (wellFormed : ∀ field ∈ fields, WellFormed field) :
    automaton.Reads ⟨.trailer [], msg⟩ (MessageSink11.fieldLines fields)
      ⟨.trailer [], { msg with footers := msg.footers ++ fields }⟩ := by
  induction fields generalizing msg with
  | nil => simpa [MessageSink11.fieldLines] using Automaton.Reads.nil (A := automaton) _
  | cons field fields ih =>
      obtain ⟨here, later⟩ := List.forall_mem_cons.mp wellFormed
      have rest := @ih { msg with footers := msg.footers ++ [field] } footer later
      simpa [MessageSink11.fieldLines] using (reads_footer footer here).append rest

/-- The blank line behind the trailer ends the message. -/
theorem reads_endFooter {msg : HttpMessage} (footer : msg.state = .footer) :
    automaton.Reads ⟨.trailer [], msg⟩ crlf ⟨.done, { msg with state := .done }⟩ := by
  refine reads_line .trailer [] (by simp) (by simp +contextual [step]) ?_ (by simp)
  simp [step, chomp, HttpMessage.endFooter, footer]

/-- The blank line behind the header lines. -/
theorem reads_endHeader {entityMode : Int} {msg : HttpMessage} {next : Decoder11}
    (ends : endHeader entityMode msg = .ok next) :
    automaton.Reads ⟨.header entityMode [], msg⟩ crlf next := by
  refine reads_line (.header entityMode) [] (by simp) (by simp +contextual [step]) ?_ (by simp)
  simp [step, chomp, ends]

/-- The digits of a size. -/
theorem reads_size {msg : HttpMessage} {size : Nat} :
    automaton.Reads ⟨.chunkSize 0, msg⟩ (printNat 16 size)
      ⟨.chunkSize (BitVec.ofNat 64 size), msg⟩ := by
  have digit (number : Nat) {value : Nat} (small : value < 16) :
      automaton.Reads ⟨.chunkSize (BitVec.ofNat 64 number), msg⟩ [printDigit value]
        ⟨.chunkSize (BitVec.ofNat 64 (number * 16 + value)), msg⟩ := by
    obtain ⟨hex, decoded⟩ := printDigit_hexadecimal value small
    exact .single rfl (by simp only [automaton, step, hex, if_true, decoded, size_digit small])
  refine printNat_induction (P := fun size text =>
    automaton.Reads ⟨.chunkSize 0, msg⟩ text ⟨.chunkSize (BitVec.ofNat 64 size), msg⟩)
    (by decide) ?_ ?_ size
  · intro number small
    simpa using digit 0 small
  · intro number _ front
    have last := digit (number / 16) (Nat.mod_lt number (by decide : 0 < 16))
    rw [Nat.div_add_mod' number 16] at last
    exact front.append last

/-- The line end behind a size. -/
theorem reads_endSize {size : BitVec 64} {msg : HttpMessage} {next : Decoder11}
    (ends : endSize size msg = .ok next) : automaton.Reads ⟨.chunkSize size, msg⟩ crlf next := by
  refine .into ⟨.chunkSize size, msg⟩ rfl ?_ (.single rfl ?_)
  · simp [automaton, step, isHex]
  · simp [automaton, step, isHex, ends]

theorem ofNat_ne_zero {number : Nat} (nonzero : number ≠ 0) (small : number < 2 ^ 64) :
    BitVec.ofNat 64 number ≠ 0 := by
  intro equality
  have value := congrArg BitVec.toNat equality
  rw [BitVec.toNat_ofNat, Nat.mod_eq_of_lt small] at value
  exact nonzero value

/-- Bytes of a chunk of which `left` are to come. -/
theorem reads_data {data : Str} {msg : HttpMessage} {left : Nat} (entity : msg.state = .entity)
    (small : left < 2 ^ 64) (fits : data.length ≤ left) :
    automaton.Reads ⟨.chunkData (BitVec.ofNat 64 left), msg⟩ data
      ⟨.chunkData (BitVec.ofNat 64 (left - data.length)),
        { msg with entity := msg.entity ++ data }⟩ := by
  induction data generalizing msg left with
  | nil => simpa using Automaton.Reads.nil (A := automaton) _
  | cons ch data ih =>
      rw [List.length_cons] at fits ⊢
      obtain ⟨left, rfl⟩ : ∃ rest, left = rest + 1 := ⟨left - 1, by omega⟩
      have nonzero := ofNat_ne_zero (Nat.succ_ne_zero left) small
      have next : BitVec.ofNat 64 (left + 1) - 1 = BitVec.ofNat 64 left := by
        rw [BitVec.ofNat_add]
        exact BitVec.add_sub_cancel _ _
      have rest := @ih { msg with entity := msg.entity ++ [ch] } left entity (by omega) (by omega)
      rw [Nat.add_sub_add_right]
      refine .into ⟨.chunkData (BitVec.ofNat 64 left),
        { msg with entity := msg.entity ++ [ch] }⟩ rfl ?_ (by simpa using rest)
      simp only [automaton, step, ne_eq, nonzero, not_false_iff, if_true, HttpMessage.appendEntity,
        entity, ok_bind, next]

/-- The bytes of a chunk. -/
theorem reads_chunkData {piece : Str} {msg : HttpMessage} (entity : msg.state = .entity)
    (small : piece.length < 2 ^ 64) :
    automaton.Reads ⟨.chunkData (BitVec.ofNat 64 piece.length), msg⟩ piece
      ⟨.chunkData 0, { msg with entity := msg.entity ++ piece }⟩ := by
  simpa using reads_data entity small (le_refl piece.length)

/-- The line end behind a chunk. -/
theorem reads_endChunk (msg : HttpMessage) :
    automaton.Reads ⟨.chunkData 0, msg⟩ crlf ⟨.chunkSize 0, msg⟩ :=
  .into ⟨.chunkData 0, msg⟩ rfl rfl (.single rfl rfl)

/-- A chunk below four gigabytes is read back. -/
theorem reads_chunk {piece : Str} {msg : HttpMessage} (entity : msg.state = .entity)
    (nonempty : piece ≠ []) (small : piece.length < 2 ^ 32) :
    automaton.Reads ⟨.chunkSize 0, msg⟩ (MessageSink11.chunk piece)
      ⟨.chunkSize 0, { msg with entity := msg.entity ++ piece }⟩ := by
  have nonzero := @ofNat_ne_zero piece.length (by simpa using nonempty) (by omega)
  have layout : MessageSink11.chunk piece =
      printNat 16 piece.length ++ (crlf ++ (piece ++ crlf)) := by
    rw [MessageSink11.chunk, printHex, Nat.mod_eq_of_lt small]
    simp
  rw [layout]
  refine reads_size.append ((reads_endSize ?_).append
    ((reads_chunkData entity (by omega)).append (reads_endChunk _)))
  simp only [endSize, ne_eq, nonzero, not_false_iff, if_true]

theorem reads_chunks {pieces : List Str} {msg : HttpMessage} (entity : msg.state = .entity)
    (small : ∀ piece ∈ pieces, piece ≠ [] ∧ piece.length < 2 ^ 32) :
    automaton.Reads ⟨.chunkSize 0, msg⟩ (MessageSink11.chunks pieces)
      ⟨.chunkSize 0, { msg with entity := msg.entity ++ pieces.flatten }⟩ := by
  induction pieces generalizing msg with
  | nil => simpa [MessageSink11.chunks] using Automaton.Reads.nil (A := automaton) _
  | cons piece pieces ih =>
      obtain ⟨⟨nonempty, short⟩, later⟩ := List.forall_mem_cons.mp small
      have rest := @ih { msg with entity := msg.entity ++ piece } entity later
      simpa [MessageSink11.chunks] using (reads_chunk entity nonempty short).append rest

/-- The closing chunk. -/
theorem reads_lastChunk {msg : HttpMessage} (entity : msg.state = .entity) :
    automaton.Reads ⟨.chunkSize 0, msg⟩ (ascii "0" ++ crlf)
      ⟨.trailer [], { msg with state := .footer }⟩ := by
  refine .into ⟨.chunkSize 0, msg⟩ rfl rfl (reads_endSize ?_)
  simp [endSize, HttpMessage.endEntity, entity]

/-- Chunks, the closing chunk and the trailer of a message. -/
theorem reads_chunkedBody {progress : Progress} {msg : HttpMessage} (entity : msg.state = .entity)
    (done : progress.writeState = .done)
    (small : ∀ piece ∈ progress.pieces, piece ≠ [] ∧ piece.length < 2 ^ 32)
    (wellFormed : ∀ field ∈ progress.footers, WellFormed field) :
    automaton.Reads ⟨.chunkSize 0, msg⟩ (MessageSink11.chunkedBody progress)
      ⟨.done, { msg with
        entity := msg.entity ++ progress.pieces.flatten
        footers := msg.footers ++ progress.footers
        state := .done }⟩ := by
  have layout : MessageSink11.chunkedBody progress =
      MessageSink11.chunks progress.pieces ++ ((ascii "0" ++ crlf) ++
        (MessageSink11.fieldLines progress.footers ++ crlf)) := by
    simp [MessageSink11.chunkedBody, done]
  rw [layout]
  refine (reads_chunks entity small).append (Automaton.Reads.append (reads_lastChunk ?_)
    ((reads_footers rfl wellFormed).append (reads_endFooter rfl)))
  exact entity

/-- An entity of the announced length. -/
theorem reads_fixed {entity : Str} {msg : HttpMessage} (state : msg.state = .entity)
    (nonempty : entity ≠ []) :
    automaton.Reads ⟨.fixed entity.length, msg⟩ entity
      ⟨.done, { msg with entity := msg.entity ++ entity, state := .done }⟩ := by
  induction entity generalizing msg with
  | nil => exact absurd rfl nonempty
  | cons ch entity ih =>
      have appended : msg.appendEntity [ch] = .ok { msg with entity := msg.entity ++ [ch] } := by
        simp [HttpMessage.appendEntity, state]
      have left : (((ch :: entity).length : Nat) : Int) - 1 = entity.length := by
        rw [List.length_cons]
        omega
      by_cases last : entity = []
      · subst last
        refine .single rfl ?_
        simp [automaton, step, appended, HttpMessage.endEntity, HttpMessage.endFooter, state]
      · have more : ¬((entity.length : Int) = 0) := by simpa using last
        refine .into ⟨.fixed entity.length, { msg with entity := msg.entity ++ [ch] }⟩ rfl ?_ ?_
        · simp only [automaton, step, appended, ok_bind, left, more, if_false]
        · simpa using @ih { msg with entity := msg.entity ++ [ch] } state last

/-! ## Reading whole layouts -/

/-- The mode in which the reader leaves header lines. -/
def modeOf (headers : Fields) : Int := headers.foldl modeAfter entityUnknown

/-- The message behind its header section. -/
def headed (isRequest : Bool) (text : Str) (headers : Fields) : HttpMessage :=
  { parseFirstLine (.fresh isRequest) text with headers := headers.filter (survives ·.1) }

/-- A first line and the header lines. -/
theorem reads_front {isRequest : Bool} {text : Str} {headers : Fields} (nonempty : text ≠ [])
    (clean : 10 ∉ text) (wellFormed : ∀ field ∈ headers, WellFormed field) :
    automaton.Reads (fresh isRequest) (text ++ crlf ++ MessageSink11.fieldLines headers)
      ⟨.header (modeOf headers) [], headed isRequest text headers⟩ := by
  have none : (parseFirstLine (.fresh isRequest) text).headers = [] := by
    cases isRequest <;> rfl
  have header : (parseFirstLine (.fresh isRequest) text).state = .header :=
    state_parseFirstLine _ _
  have lines := reads_headers entityUnknown header wellFormed
  rw [none, List.nil_append] at lines
  exact (reads_firstLine nonempty clean).append lines

theorem state_headed (isRequest : Bool) (text : Str) (headers : Fields) :
    (headed isRequest text headers).state = .header :=
  state_parseFirstLine _ _

/-- What is decoded of a message whose parts are all read back. -/
def complete (isRequest : Bool) (text : Str) (headers : Fields) (entity : Str)
    (footers : Fields) : HttpMessage :=
  { headed isRequest text headers with entity, footers, state := .done }

variable {isRequest : Bool} {text : Str} {progress : Progress}

/-- The phase behind the header section. -/
theorem endHeader_eq {msg : HttpMessage} (header : msg.state = .header) (entityMode : Int) :
    endHeader entityMode msg = .ok
      (if entityMode = 0 ∨ entityMode = entityUnknown then ⟨.done, { msg with state := .done }⟩
      else if 0 < entityMode then ⟨.fixed entityMode, { msg with state := .entity }⟩
      else ⟨.chunkSize 0, { msg with state := .entity }⟩) := by
  simp only [endHeader, HttpMessage.endHeader, header, le_rfl, if_true, ok_bind]
  split
  · simp [HttpMessage.endEntity, HttpMessage.endFooter]
  · split <;> rfl

/-- Nothing of a body is in a message behind its header section. -/
theorem bodyless_headed (isRequest : Bool) (text : Str) (headers : Fields) :
    (headed isRequest text headers).entity = [] ∧ (headed isRequest text headers).footers = [] := by
  cases isRequest <;> exact ⟨rfl, rfl⟩

/-- A layout without body. -/
theorem reads_bodyless (nonempty : text ≠ []) (clean : 10 ∉ text)
    (wellFormed : ∀ field ∈ progress.headers, WellFormed field)
    (mode : modeOf progress.headers = 0 ∨ modeOf progress.headers = entityUnknown) :
    automaton.Reads (fresh isRequest)
      (text ++ crlf ++ MessageSink11.fieldLines progress.headers ++ crlf)
      ⟨.done, complete isRequest text progress.headers [] []⟩ := by
  refine (reads_front nonempty clean wellFormed).append (reads_endHeader ?_)
  obtain ⟨entity, footers⟩ := bodyless_headed isRequest text progress.headers
  rw [endHeader_eq (state_headed _ _ _), if_pos mode]
  simp only [complete, ← entity, ← footers]

/-- A header section that opens a chunked body: in a negative mode other than the unknown one. -/
theorem reads_chunkedFront (nonempty : text ≠ []) (clean : 10 ∉ text) {headers : Fields}
    (wellFormed : ∀ field ∈ headers, WellFormed field) (mode : modeOf headers < entityUnknown) :
    automaton.Reads (fresh isRequest) (text ++ crlf ++ MessageSink11.fieldLines headers ++ crlf)
      ⟨.chunkSize 0, { headed isRequest text headers with state := .entity }⟩ := by
  refine (reads_front nonempty clean wellFormed).append (reads_endHeader ?_)
  have negative : modeOf headers < 0 := mode.trans (by decide)
  have other : ¬(modeOf headers = 0 ∨ modeOf headers = entityUnknown) := by
    rintro (zero | unknown)
    · exact negative.ne zero
    · exact mode.ne unknown
  rw [endHeader_eq (state_headed _ _ _), if_neg other, if_neg (not_lt.mpr negative.le)]

/-- A layout with a chunked body. -/
theorem reads_chunked (nonempty : text ≠ []) (clean : 10 ∉ text) {headers : Fields}
    (wellFormed : ∀ field ∈ headers, WellFormed field) (mode : modeOf headers < entityUnknown)
    (done : progress.writeState = .done)
    (small : ∀ piece ∈ progress.pieces, piece ≠ [] ∧ piece.length < 2 ^ 32)
    (wellFormed' : ∀ field ∈ progress.footers, WellFormed field) :
    automaton.Reads (fresh isRequest)
      (text ++ crlf ++ MessageSink11.fieldLines headers ++
        (crlf ++ MessageSink11.chunkedBody progress))
      ⟨.done, complete isRequest text headers progress.pieces.flatten progress.footers⟩ := by
  obtain ⟨entity, footers⟩ := bodyless_headed isRequest text headers
  have body := @reads_chunkedBody progress
    { headed isRequest text headers with state := .entity } rfl done small wellFormed'
  have whole := (@reads_chunkedFront isRequest text nonempty clean headers wellFormed mode).append
    body
  simpa only [complete, entity, footers, List.nil_append, List.append_assoc] using whole

/-- A layout with an entity of the announced length. -/
theorem reads_sized (nonempty : text ≠ []) (clean : 10 ∉ text)
    (wellFormed : ∀ field ∈ progress.headers, WellFormed field) {entity : Str}
    (some : entity ≠ []) (mode : modeOf progress.headers = entity.length) :
    automaton.Reads (fresh isRequest)
      (text ++ crlf ++ MessageSink11.fieldLines progress.headers ++ (crlf ++ entity))
      ⟨.done, complete isRequest text progress.headers entity []⟩ := by
  obtain ⟨entity_eq, footers⟩ := bodyless_headed isRequest text progress.headers
  have positive := List.length_pos_iff.mpr some
  have opens : endHeader (modeOf progress.headers) (headed isRequest text progress.headers) =
      .ok ⟨.fixed entity.length,
        { headed isRequest text progress.headers with state := .entity }⟩ := by
    rw [endHeader_eq (state_headed _ _ _), mode,
      if_neg (by rw [entityUnknown]; omega), if_pos (by omega)]
  have body := @reads_fixed entity
    { headed isRequest text progress.headers with state := .entity } rfl some
  refine (reads_front nonempty clean wellFormed).append ((reads_endHeader opens).append ?_)
  simpa only [complete, entity_eq, footers, List.nil_append] using body

end Decoder11
/-! ## First lines -/

/-- A text without blanks is the token in front of a blank. -/
theorem getToken_append {token : Str} (rest : Str) (nonempty : token ≠ [])
    (plain : ∀ char ∈ token, isspace char = false) :
    getToken (token ++ 32 :: rest) = (token, 32 :: rest) := by
  obtain ⟨char, text, rfl⟩ := List.exists_cons_of_ne_nil nonempty
  have blank : isspace char = false := plain char (by simp)
  have dropped : (char :: text ++ 32 :: rest).dropWhile isspace = char :: text ++ 32 :: rest := by
    simp [blank]
  have passes : ∀ other ∈ char :: text, (!isspace other) = true := by
    intro other member
    simp [plain other member]
  have stops : isspace 32 = true := by decide
  simp only [getToken, dropped, List.takeWhile_append_of_pos passes,
    List.dropWhile_append_of_pos passes]
  simp [stops]

theorem secondToken_eq {front token : Str} (rest : Str) (nonempty : front ≠ [])
    (plain : ∀ char ∈ front, isspace char = false) (nonempty' : token ≠ [])
    (plain' : ∀ char ∈ token, isspace char = false) :
    secondToken (front ++ 32 :: (token ++ 32 :: rest)) = token := by
  have blank (text : Str) : getToken (32 :: text) = getToken text := by
    rw [getToken, getToken, List.dropWhile_cons_of_pos (by decide)]
  rw [secondToken, getToken_append _ nonempty plain, blank, getToken_append _ nonempty' plain']

/-- The first line of a message can be written, and its second token says what is read back. -/
structure Readable (first : Str) (msg : HttpMessage) (text : Str) : Prop where
  line : first = text ++ crlf
  nonempty : text ≠ []
  feed : 10 ∉ text
  token : secondToken text = if msg.isRequest then urlEncode msg.url else printInt msg.status

theorem feed_notMem_of_plain {text : Str} (plain : ∀ char ∈ text, isspace char = false) :
    10 ∉ text := fun member => absurd (plain 10 member) (by decide)

/-- The names of the verbs are tokens. -/
theorem unspaced_verbs {name : Str} (member : name ∈ httpRequestVerbStrings) :
    name ≠ [] ∧ ∀ char ∈ name, isspace char = false := by
  have unspaced : httpRequestVerbStrings.all
      (fun name => !name.isEmpty && name.all fun char => !isspace char) = true := by decide
  simpa using List.all_eq_true.mp unspaced name member

/-- So is the version of the protocol. -/
theorem unspaced_protocol : ∀ char ∈ ascii "HTTP/1.1", isspace char = false := by
  have unspaced : (ascii "HTTP/1.1").all (fun char => !isspace char) = true := by decide
  simpa using unspaced

theorem readable_firstLine {msg : HttpMessage}
    (known : if msg.isRequest then msg.verb < verbUnknown ∧ msg.url ≠ [] else msg.status ≠ -1) :
    ∃ first text, MessageSink11.firstLine msg = .ok (some first) ∧ Readable first msg text := by
  have protocol : ascii " HTTP/1.1" = 32 :: ascii "HTTP/1.1" := by decide
  have start : ascii "HTTP/1.1 " = ascii "HTTP/1.1" ++ [32] := by decide
  have phrase : ascii " FIXME" = 32 :: ascii "FIXME" := by decide
  by_cases request : msg.isRequest = true
  · rw [if_pos request] at known
    obtain ⟨valid, url⟩ := known
    have inside : msg.verb.toNat < httpRequestVerbStrings.length := by
      simpa [verbUnknown, UInt8.lt_iff_toNat_lt] using valid
    obtain ⟨named, plain⟩ := unspaced_verbs (List.getElem_mem inside)
    have other : msg.verb ≠ verbUnknown := by
      intro equality
      rw [equality] at valid
      exact absurd valid (by decide)
    refine ⟨_, httpRequestVerbStrings[msg.verb.toNat] ++ [32] ++ urlEncode msg.url ++
      ascii " HTTP/1.1", ?_, rfl, by simp [named], ?_, ?_⟩
    · simp only [MessageSink11.firstLine, request, if_true, url, other, or_self, if_false, verbtoa,
        List.getElem?_eq_getElem inside]
    · have encoded := feed_notMem_of_plain fun char (member : char ∈ urlEncode msg.url) =>
        isspace_urlEncode member
      have rest : 10 ∉ ascii " HTTP/1.1" := by decide
      simp only [List.mem_append, List.mem_singleton, not_or]
      exact ⟨⟨⟨feed_notMem_of_plain plain, by decide⟩, encoded⟩, rest⟩
    · rw [if_pos request, protocol]
      simpa using secondToken_eq (ascii "HTTP/1.1") named plain (urlEncode_ne_nil url)
        fun char member => isspace_urlEncode member
  · rw [if_neg request] at known
    refine ⟨_, ascii "HTTP/1.1 " ++ printInt msg.status ++ ascii " FIXME", ?_, rfl,
      by simp [start], ?_, ?_⟩
    · simp only [MessageSink11.firstLine, request, if_false, ne_eq, known, not_false_iff,
        if_true, Bool.false_eq_true]
    · have digits := feed_notMem_of_plain (@isspace_of_mem_printInt msg.status)
      have front : 10 ∉ ascii "HTTP/1.1 " := by decide
      have rest : 10 ∉ ascii " FIXME" := by decide
      simp only [List.mem_append, not_or]
      exact ⟨⟨front, digits⟩, rest⟩
    · rw [if_neg request, start, phrase]
      simpa using secondToken_eq (ascii "FIXME") (by decide : ascii "HTTP/1.1" ≠ [])
        unspaced_protocol (printInt_ne_nil msg.status) isspace_of_mem_printInt

/-- A complete first line with a verb of the enumeration can be written. -/
theorem readable_of_firstLineSet {msg : HttpMessage} (available : msg.FirstLineSet)
    (verb : msg.verb ≤ verbUnknown) :
    ∃ first text, MessageSink11.firstLine msg = .ok (some first) ∧ Readable first msg text := by
  refine readable_firstLine ?_
  unfold HttpMessage.FirstLineSet at available
  by_cases request : msg.isRequest = true
  · rw [if_pos request] at available ⊢
    exact ⟨UInt8.lt_of_le_of_ne verb available.2, available.1⟩
  · rwa [if_neg request] at available ⊢

/-- A first line that is written can be read. -/
theorem readable_of_known {msg : HttpMessage} {first : Str}
    (known : MessageSink11.firstLine msg = .ok (some first)) :
    ∃ text, Readable first msg text := by
  have available : msg.FirstLineSet :=
    @MessageSink.firstLineSet_of_firstLine (.v11 {}) msg first known
  rw [HttpMessage.FirstLineSet] at available
  have line : if msg.isRequest then msg.verb < verbUnknown ∧ msg.url ≠ [] else msg.status ≠ -1 := by
    by_cases request : msg.isRequest = true
    · rw [if_pos request] at available ⊢
      cases named : verbtoa msg.verb with
      | none => simp [MessageSink11.firstLine, request, available, named] at known
      | some name =>
          have inside := (List.getElem?_eq_some_iff.mp named).1
          exact ⟨UInt8.lt_iff_toNat_lt.mpr inside, available.1⟩
    · rwa [if_neg request] at available ⊢
  rcases readable_firstLine line with ⟨first', text, known', readable⟩
  obtain rfl : first = first' := Option.some.inj (Except.ok.inj (known.symm.trans known'))
  exact ⟨text, readable⟩

/-- Nothing can be written before the first line is complete. -/
theorem firstLine_eq_none {msg : HttpMessage} (incomplete : ¬msg.FirstLineSet) :
    MessageSink11.firstLine msg = .ok none := by
  by_cases request : msg.isRequest = true
  · simp only [HttpMessage.FirstLineSet, request, if_true, not_and_or, not_not] at incomplete
    simp [MessageSink11.firstLine, request, incomplete]
  · simp only [HttpMessage.FirstLineSet, request, if_false, not_not, Bool.false_eq_true]
      at incomplete
    simp [MessageSink11.firstLine, request, incomplete]

/-! ## Framing -/

/-- The key of a content length, up to case. -/
def IsContentLength (field : Str × Str) : Prop := SameFolded field.1 (ascii "Content-Length")

instance (field : Str × Str) : Decidable (IsContentLength field) :=
  inferInstanceAs (Decidable (SameFolded _ _))

/-- The keys of header lines that are not handed on. -/
def droppedHeaders : List Str := ascii "Transfer-Encoding" :: ignoredHeaders

/-- For keys without NUL the comparisons of the program are comparisons up to case. -/
theorem strcasecmp_eq_zero_of_nulFree {key name : Str} (keyFree : 0 ∉ key) (nameFree : 0 ∉ name) :
    strcasecmp key name = 0 ↔ SameFolded key name := by
  rw [strcasecmp_eq_zero, cStr_eq_self keyFree, cStr_eq_self nameFree]

theorem survives_of_nulFree {key : Str} (keyFree : 0 ∉ key)
    (other : ∀ name ∈ droppedHeaders, ¬SameFolded key name) : survives key = true := by
  have clean : ∀ name ∈ droppedHeaders, 0 ∉ name := by decide
  have differ : ∀ name ∈ droppedHeaders, strcasecmp key name ≠ 0 := fun name member =>
    mt (strcasecmp_eq_zero_of_nulFree keyFree (clean name member)).mp (other name member)
  simp only [droppedHeaders, List.mem_cons, forall_eq_or_imp] at differ
  simpa [survives] using differ

/-- What `strtoll` makes of the content lengths of a message, and whether they overflow. -/
def contentLengths (headers : Fields) : List (Int × Bool) :=
  (headers.filter (strcasecmp ·.1 (ascii "Content-Length") = 0)).map (strtoll ·.2)

/-- The first length that is not taken for the unknown one. -/
def announced (lengths : List Int) : Int :=
  (lengths.find? (· ≠ entityUnknown)).getD entityUnknown

/-- The length that a reader finds: the first one, also where it overflows. -/
def readerLength (headers : Fields) : Int := announced ((contentLengths headers).map (·.1))

/-- The length that a writer finds: the first one that does not overflow. -/
def writerLength (headers : Fields) : Int :=
  announced (((contentLengths headers).filter (!·.2)).map (·.1))

/-- No header says how the message is transferred. -/
def Untransferred (headers : Fields) : Prop :=
  ∀ field ∈ headers, strcasecmp field.1 (ascii "Transfer-Encoding") ≠ 0

section Lengths

variable {headers : Fields}

/-- A step by a length that is taken when no length is known yet. -/
theorem announced_cons (length : Int) (lengths : List Int) :
    announced (length :: lengths) =
      if length = entityUnknown then announced lengths else length := by
  by_cases unknown : length = entityUnknown <;> simp [announced, unknown]

/-- A header line that announces chunks. -/
def announcesChunks (field : Str × Str) : Bool :=
  strcasecmp field.1 (ascii "Transfer-Encoding") = 0 && strcasecmp field.2 (ascii "chunked") = 0

/-- The mode in which the header lines leave the reader: chunks if any line announces them, and
otherwise the first length. -/
theorem modeOf_eq (headers : Fields) :
    Decoder11.modeOf headers =
      if headers.any announcesChunks then entityChunked else readerLength headers := by
  have fold (entityMode : Int) : headers.foldl modeAfter entityMode =
      if headers.any announcesChunks then entityChunked
      else if entityMode = entityUnknown then readerLength headers else entityMode := by
    induction headers generalizing entityMode with
    | nil => simp [readerLength, contentLengths, announced]
    | cons field headers ih =>
        rw [List.foldl_cons, ih, modeAfter, List.any_cons]
        by_cases transfer : strcasecmp field.1 (ascii "Transfer-Encoding") = 0
        · have other : strcasecmp field.1 (ascii "Content-Length") ≠ 0 :=
            strcasecmp_ne_zero transfer (by decide)
          by_cases chunks : strcasecmp field.2 (ascii "chunked") = 0
          · have announces : announcesChunks field = true := by
              simp [announcesChunks, transfer, chunks]
            have chunkedMode : entityChunked ≠ entityUnknown := by decide
            simp [announces, transfer, chunks, chunkedMode]
          · have silent : announcesChunks field = false := by simp [announcesChunks, chunks]
            rw [silent, Bool.false_or]
            simp [transfer, chunks, other, readerLength, contentLengths]
        · have silent : announcesChunks field = false := by simp [announcesChunks, transfer]
          rw [silent, Bool.false_or]
          by_cases length : strcasecmp field.1 (ascii "Content-Length") = 0
          · by_cases unknown : entityMode = entityUnknown <;>
              simp [readerLength, contentLengths, transfer, length, unknown, announced_cons]
          · simp [readerLength, contentLengths, transfer, length]
  rw [Decoder11.modeOf, fold, if_pos rfl]

/-- The mode in which the headers leave the writer: chunks if any header announces them, and
otherwise the first length in range. -/
theorem framing_eq (headers : Fields) :
    MessageSink11.framing headers =
      if headers.any announcesChunks then entityChunked else writerLength headers := by
  have fold (entityMode : Int) : headers.foldl MessageSink11.modeAfter entityMode =
      if headers.any announcesChunks then entityChunked
      else if entityMode = entityUnknown then writerLength headers else entityMode := by
    induction headers generalizing entityMode with
    | nil => simp [writerLength, contentLengths, announced]
    | cons field headers ih =>
        rw [List.foldl_cons, ih, MessageSink11.modeAfter, List.any_cons]
        by_cases transfer : strcasecmp field.1 (ascii "Transfer-Encoding") = 0
        · have other : strcasecmp field.1 (ascii "Content-Length") ≠ 0 :=
            strcasecmp_ne_zero transfer (by decide)
          by_cases chunks : strcasecmp field.2 (ascii "chunked") = 0
          · have announces : announcesChunks field = true := by
              simp [announcesChunks, transfer, chunks]
            have chunkedMode : entityChunked ≠ entityUnknown := by decide
            simp [announces, transfer, chunks, chunkedMode]
          · have silent : announcesChunks field = false := by simp [announcesChunks, chunks]
            rw [silent, Bool.false_or]
            simp [transfer, chunks, other, writerLength, contentLengths]
        · have silent : announcesChunks field = false := by simp [announcesChunks, transfer]
          rw [silent, Bool.false_or, if_neg transfer]
          by_cases length : strcasecmp field.1 (ascii "Content-Length") = 0
          · by_cases unknown : entityMode = entityUnknown
            · by_cases overflow : (strtoll field.2).2 = true <;>
                simp [writerLength, contentLengths, length, unknown, overflow, announced_cons]
            · simp [length, unknown]
          · simp [writerLength, contentLengths, length]
  rw [MessageSink11.framing, fold, if_pos rfl]

theorem Untransferred.silent (untransferred : Untransferred headers) :
    headers.any announcesChunks = false := by
  rw [List.any_eq_false]
  intro field member
  simp [announcesChunks, untransferred field member]

theorem modeOf_eq_readerLength (untransferred : Untransferred headers) :
    Decoder11.modeOf headers = readerLength headers := by
  rw [modeOf_eq, untransferred.silent, if_neg Bool.false_ne_true]

theorem framing_eq_writerLength (untransferred : Untransferred headers) :
    MessageSink11.framing headers = writerLength headers := by
  rw [framing_eq, untransferred.silent, if_neg Bool.false_ne_true]

/-- For keys without NUL the content lengths are found up to case. -/
theorem contentLengths_eq (nulFree : ∀ field ∈ headers, 0 ∉ field.1) :
    contentLengths headers = (headers.filter (IsContentLength ·)).map (strtoll ·.2) := by
  have lengthFree : (0 : UInt8) ∉ ascii "Content-Length" := by decide
  rw [contentLengths]
  congr 1
  refine List.filter_congr fun field member => decide_eq_decide.mpr ?_
  exact strcasecmp_eq_zero_of_nulFree (nulFree field member) lengthFree

end Lengths

/-- The writer sends the entity in chunks: a length of -2 is taken for the chunked mode, and one of
-1 for none. -/
def Chunked (headers : Fields) (entity : Str) : Prop :=
  writerLength headers = entityChunked ∨ writerLength headers = entityUnknown ∧ entity ≠ []

instance (headers : Fields) (entity : Str) : Decidable (Chunked headers entity) :=
  inferInstanceAs (Decidable (_ ∨ _))

/-- The reader finds the framing that the writer chose for the entity. -/
def Agrees (headers : Fields) (entity : Str) : Prop :=
  if Chunked headers entity then
    writerLength headers = entityUnknown ∨ readerLength headers < entityUnknown
  else if entity = [] then
    readerLength headers = 0 ∨ readerLength headers = entityUnknown
  else
    0 ≤ writerLength headers ∧ readerLength headers = entity.length

namespace Decoder11

/-- The field of the line that the writer adds. -/
def chunkedField : Str × Str := (ascii "Transfer-Encoding", ascii "chunked")

theorem wellFormed_chunkedField : WellFormed chunkedField := by
  constructor <;> decide

theorem modeOf_chunkedField (headers : Fields) :
    modeOf (headers ++ [chunkedField]) = entityChunked := by
  have decides : strcasecmp chunkedField.1 (ascii "Transfer-Encoding") = 0 ∧
      strcasecmp chunkedField.2 (ascii "chunked") = 0 := by decide
  simp [modeOf, modeAfter, decides]

theorem chunkedLine_eq : MessageSink11.chunkedLine = MessageSink11.fieldLine chunkedField := by
  decide

/-- The added line is not handed on. -/
theorem complete_chunkedField (isRequest : Bool) (text : Str) (headers : Fields) (entity : Str)
    (footers : Fields) :
    complete isRequest text (headers ++ [chunkedField]) entity footers =
      complete isRequest text headers entity footers := by
  have dropped : survives chunkedField.1 = false := by decide
  simp [complete, headed, dropped]

/-- The pieces of an entity are not longer than it. -/
theorem length_lt_of_mem {pieces : List Str} {entity piece : Str} {bound : Nat}
    (whole : pieces.flatten = entity) (small : entity.length < bound) (member : piece ∈ pieces) :
    piece.length < bound := by
  have part := (List.sublist_flatten_of_mem member).length_le
  rw [whole] at part
  exact part.trans_lt small

/-- Where the reader finds the framing of the writer, it reads the whole layout. -/
theorem reads_stream {isRequest : Bool} {text entity : Str} {progress : Progress}
    (nonempty : text ≠ []) (clean : 10 ∉ text)
    (headers : ∀ field ∈ progress.headers, WellFormed field)
    (untransferred : Untransferred progress.headers)
    (footers : ∀ field ∈ progress.footers, WellFormed field)
    (done : progress.writeState = .done) (splits : MessageSink11.Splits progress.pieces)
    (entity_eq : progress.pieces.flatten = entity)
    (small : Chunked progress.headers entity → ∀ piece ∈ progress.pieces, piece.length < 2 ^ 32)
    (agrees : Agrees progress.headers entity) :
    automaton.Reads (fresh isRequest) (MessageSink11.stream (text ++ crlf) progress)
      ⟨.done, complete isRequest text progress.headers entity
        (if Chunked progress.headers entity then progress.footers else [])⟩ := by
  have empty_iff : progress.pieces = [] ↔ entity = [] := by
    rw [← entity_eq, splits.flatten_eq_nil]
  have behind : MessageSink11.stream (text ++ crlf) progress =
      text ++ crlf ++ MessageSink11.fieldLines progress.headers ++
        MessageSink11.body (writerLength progress.headers) progress := by
    simp [MessageSink11.stream, done, framing_eq_writerLength untransferred]
  have mode_eq := modeOf_eq_readerLength untransferred
  rw [behind]
  by_cases chunked : Chunked progress.headers entity
  · have pieces : ∀ piece ∈ progress.pieces, piece ≠ [] ∧ piece.length < 2 ^ 32 := by
      intro piece member
      exact ⟨splits piece member, small chunked piece member⟩
    simp only [Agrees, chunked, if_true] at agrees
    rw [if_pos chunked]
    obtain framing | ⟨framing, some⟩ := chunked
    · have body : MessageSink11.body (writerLength progress.headers) progress =
          crlf ++ MessageSink11.chunkedBody progress := by
        simp [MessageSink11.body, framing, entityChunked, entityUnknown]
      have mode : modeOf progress.headers < entityUnknown :=
        mode_eq ▸ agrees.resolve_left (by rw [framing]; decide)
      rw [body, ← entity_eq]
      exact reads_chunked nonempty clean headers mode done pieces footers
    · have body : MessageSink11.body (writerLength progress.headers) progress =
          MessageSink11.chunkedLine ++ crlf ++ MessageSink11.chunkedBody progress := by
        simp [MessageSink11.body, framing, empty_iff, some]
      have lines : ∀ field ∈ progress.headers ++ [chunkedField], WellFormed field := by
        simp only [List.forall_mem_append, List.forall_mem_singleton]
        exact ⟨headers, wellFormed_chunkedField⟩
      have reads := @reads_chunked isRequest text progress nonempty clean _ lines
        (by rw [modeOf_chunkedField]; decide) done pieces footers
      rw [complete_chunkedField, entity_eq] at reads
      simpa [body, chunkedLine_eq, MessageSink11.fieldLines] using reads
  · simp only [Agrees, chunked, if_false] at agrees
    rw [if_neg chunked]
    obtain ⟨other, unannounced⟩ := not_or.mp chunked
    by_cases empty : entity = []
    · rw [if_pos empty] at agrees
      have body : MessageSink11.body (writerLength progress.headers) progress = crlf := by
        have none := empty_iff.mpr empty
        simp [MessageSink11.body, other, none, done]
      rw [body, empty]
      exact reads_bodyless nonempty clean headers (by rwa [mode_eq])
    · rw [if_neg empty] at agrees
      obtain ⟨positive, mode⟩ := agrees
      have body : MessageSink11.body (writerLength progress.headers) progress =
          crlf ++ entity := by
        have known : writerLength progress.headers ≠ entityUnknown :=
          fun unknown => unannounced ⟨unknown, empty⟩
        simp [MessageSink11.body, other, known, positive, entity_eq]
      rw [body]
      exact reads_sized nonempty clean headers empty (by rw [mode_eq, mode])

end Decoder11
end GnyProxy
