import GnyProxy.Layout11

/-!
# The framing that the HTTP/1.1 reader chooses

One signed number carries the sentinels of `message_source_11` and the lengths that it takes from
the header lines.  Whether the entity is decoded as chunked is therefore not decided by
`Transfer-Encoding` alone: a length below `-1` is taken for the chunked mode.
-/

namespace GnyProxy

open Incremental Decoder11

/-- The bytes up to the blank line behind the header lines, as lines without their line feeds. -/
structure HeaderSection where
  /-- Blank lines before the first line, which are skipped. -/
  skipped : List Str
  first : Str
  lines : List Str
  last : Str
  blank : ∀ line ∈ last :: skipped, 10 ∉ line ∧ chomp line = []
  text : ∀ line ∈ first :: lines, 10 ∉ line ∧ chomp line ≠ []

namespace HeaderSection

/-- The lines as they stand in the stream. -/
def feeds (lines : List Str) : Str := lines.flatMap (· ++ [10])

def bytes (head : HeaderSection) : Str :=
  feeds head.skipped ++ (head.first ++ [10] ++ feeds head.lines ++ (head.last ++ [10]))

/-- The fields on the header lines.  A line without a colon has none. -/
def fields (head : HeaderSection) : Fields :=
  head.lines.filterMap fun line => splitField (chomp line)

end HeaderSection

namespace Decoder11

/-- Blank lines before the first line change nothing. -/
theorem reads_skipped {lines : List Str} {msg : HttpMessage}
    (blank : ∀ line ∈ lines, 10 ∉ line ∧ chomp line = []) :
    automaton.Reads ⟨.firstLine [], msg⟩ (HeaderSection.feeds lines) ⟨.firstLine [], msg⟩ := by
  induction lines with
  | nil => exact .nil _
  | cons line lines ih =>
      rcases List.forall_mem_cons.mp blank with ⟨⟨clean, empty⟩, later⟩
      have here : automaton.Reads ⟨.firstLine [], msg⟩ (line ++ [10]) ⟨.firstLine [], msg⟩ := by
        apply reads_upTo .firstLine line
        · simp
        · simp +contextual [step]
        · simp [step, empty]
        · exact clean
      simpa [HeaderSection.feeds] using here.append (ih later)

/-- Header lines change the mode by the fields on them, and add those that survive. -/
theorem reads_headerLines {lines : List Str} (entityMode : Int) {msg : HttpMessage}
    (header : msg.state = .header) (text : ∀ line ∈ lines, 10 ∉ line ∧ chomp line ≠ []) :
    automaton.Reads ⟨.header entityMode [], msg⟩ (HeaderSection.feeds lines)
      ⟨.header
        ((lines.filterMap fun line => splitField (chomp line)).foldl modeAfter entityMode) [],
        { msg with
          headers := msg.headers ++
            (lines.filterMap fun line => splitField (chomp line)).filter (survives ·.1) }⟩ := by
  induction lines generalizing entityMode msg with
  | nil => simpa [HeaderSection.feeds] using Automaton.Reads.nil (A := automaton) _
  | cons line lines ih =>
      rcases List.forall_mem_cons.mp text with ⟨⟨clean, nonempty⟩, later⟩
      have here {mode : Int} {next : HttpMessage}
          (parsed : parseHeader entityMode msg (chomp line) = .ok (mode, next)) :
          automaton.Reads ⟨.header entityMode [], msg⟩ (line ++ [10]) ⟨.header mode [], next⟩ := by
        apply reads_upTo (.header entityMode) line
        · simp
        · simp +contextual [step]
        · simp [step, nonempty, parsed]
        · exact clean
      cases split : splitField (chomp line) with
      | none =>
          have whole := (here (parseHeader_no_colon split entityMode msg)).append
            (ih entityMode header later)
          simpa [HeaderSection.feeds, split] using whole
      | some field =>
          have rest := @ih (modeAfter entityMode field)
            { msg with headers := msg.headers ++ if survives field.1 then [field] else [] } header
            later
          have whole := (here (parseHeader_eq header split)).append rest
          by_cases kept : survives field.1 = true <;>
            simpa [HeaderSection.feeds, split, kept] using whole

/-- The decoder behind the blank line, in the mode that the header lines left. -/
def entered (entityMode : Int) (msg : HttpMessage) : Decoder11 :=
  if entityMode = 0 ∨ entityMode = entityUnknown then ⟨.done, { msg with state := .done }⟩
  else if 0 < entityMode then ⟨.fixed entityMode, { msg with state := .entity }⟩
  else ⟨.chunkSize 0, { msg with state := .entity }⟩

/-- A header section leaves the decoder in the mode of its fields. -/
theorem reads_section (isRequest : Bool) (head : HeaderSection) :
    ∃ msg, msg.entity = [] ∧
      automaton.Reads (fresh isRequest) head.bytes (entered (modeOf head.fields) msg) := by
  rcases List.forall_mem_cons.mp head.blank with ⟨⟨lastClean, lastEmpty⟩, blank⟩
  rcases List.forall_mem_cons.mp head.text with ⟨⟨firstClean, firstNonempty⟩, text⟩
  have start : (parseFirstLine (.fresh isRequest) (chomp head.first)).state = .header :=
    state_parseFirstLine _ _
  have nothing : (parseFirstLine (.fresh isRequest) (chomp head.first)).entity = [] := by
    cases isRequest <;> rfl
  have first : automaton.Reads (fresh isRequest) (head.first ++ [10])
      ⟨.header entityUnknown [], parseFirstLine (.fresh isRequest) (chomp head.first)⟩ := by
    apply reads_upTo .firstLine head.first
    · simp
    · simp +contextual [step]
    · simp [step, firstNonempty]
    · exact firstClean
  have lines := reads_headerLines entityUnknown start text
  have last {msg : HttpMessage} (header : msg.state = .header) :
      automaton.Reads ⟨.header (modeOf head.fields) [], msg⟩ (head.last ++ [10])
        (entered (modeOf head.fields) msg) := by
    apply reads_upTo (.header (modeOf head.fields)) head.last
    · simp
    · simp +contextual [step]
    · rw [entered]
      simpa only [step, lastEmpty, ne_eq, not_true_eq_false, if_true, if_false] using
        endHeader_eq header (modeOf head.fields)
    · exact lastClean
  refine ⟨_, ?_, (reads_skipped blank).append ((first.append lines).append (last ?_))⟩
  · exact nothing
  · exact start

end Decoder11

/-! ## Chunks -/

/-- In the entity the reader decodes chunks. -/
def ReadsChunks (src : MessageSource11) : Prop := src.state = .entity ∧ ¬0 < src.entityMode

/-- Behind the header section the reader decodes chunks exactly for a mode below `-1`. -/
theorem readsChunks_iff (isRequest : Bool) (head : HeaderSection) {cut : List Str}
    (isCut : IsCut head.bytes cut) :
    ∃ reader, feed MessageSource11.read ({}, .fresh isRequest) cut =
        .ok (reader, head.bytes.length) ∧
      (ReadsChunks reader.1 ↔ modeOf head.fields < entityUnknown) := by
  rcases reads_section isRequest head with ⟨msg, -, reads⟩
  rcases (Decoder11.matches_fresh isRequest).feed reads isCut with
    ⟨reader, feed_eq, ⟨-, -, sim⟩, -⟩
  refine ⟨reader, feed_eq, ?_⟩
  have unknown : entityUnknown = -1 := rfl
  by_cases empty : modeOf head.fields = 0 ∨ modeOf head.fields = entityUnknown
  · rw [entered, if_pos empty] at sim
    have closed : ¬ReadsChunks reader.1 := fun chunks => by cases sim.1.symm.trans chunks.1
    have none : ¬modeOf head.fields < entityUnknown := by omega
    exact iff_of_false closed none
  · by_cases fixed : 0 < modeOf head.fields
    · rw [entered, if_neg empty, if_pos fixed] at sim
      have closed : ¬ReadsChunks reader.1 := fun chunks => chunks.2 (by rw [sim.1]; exact fixed)
      have none : ¬modeOf head.fields < entityUnknown := by omega
      exact iff_of_false closed none
    · rw [entered, if_neg empty, if_neg fixed] at sim
      have below : modeOf head.fields < entityUnknown := by omega
      exact iff_of_true ⟨sim.2.2.2.1, sim.1⟩ below

/-! ## Lengths -/

/-- The header line gives a content length. -/
def givesLength (field : Str × Str) : Bool := strcasecmp field.1 (ascii "Content-Length") = 0

/-- A decimal numeral. -/
def IsNumeral (text : Str) : Prop := text ≠ [] ∧ ∀ char ∈ text, isdigit char = true

/-- A positive numeral below `2 ^ 63` on the first line that gives a length is the mode. -/
theorem modeOf_numeral {fields : Fields} {field : Str × Str}
    (silent : fields.any announcesChunks = false) (first : fields.find? givesLength = some field)
    (numeral : IsNumeral field.2) (positive : 0 < decimalValue field.2)
    (small : decimalValue field.2 < 2 ^ 63) : modeOf fields = decimalValue field.2 := by
  have value : strtoll field.2 = ((decimalValue field.2 : Int), false) := by
    rw [strtoll_digits numeral.1 numeral.2, if_neg]
    rw [llongMax]
    omega
  have unknown : entityUnknown = -1 := rfl
  have lengths : ∃ rest, (contentLengths fields).map (·.1) =
      (decimalValue field.2 : Int) :: rest := by
    rcases List.find?_eq_some_iff_append.mp first with ⟨gives, front, back, rfl, before⟩
    have none : front.filter (strcasecmp ·.1 (ascii "Content-Length") = 0) = [] := by
      rw [List.filter_eq_nil_iff]
      intro other member
      simpa [givesLength] using before other member
    have here : strcasecmp field.1 (ascii "Content-Length") = 0 := by
      simpa [givesLength] using gives
    refine ⟨(contentLengths back).map (·.1), ?_⟩
    rw [contentLengths, contentLengths, List.filter_append, none, List.nil_append,
      List.filter_cons_of_pos (by
      simpa using here), List.map_cons, List.map_cons, value]
  rcases lengths with ⟨rest, lengths_eq⟩
  rw [modeOf_eq, silent, if_neg Bool.false_ne_true, readerLength, lengths_eq, announced_cons,
    if_neg (by omega)]

/-- The bytes of that length are the entity, and end the message. -/
theorem outcome11_fixed (isRequest : Bool) (head : HeaderSection) {field : Str × Str}
    (silent : head.fields.any announcesChunks = false)
    (first : head.fields.find? givesLength = some field) (numeral : IsNumeral field.2)
    (positive : 0 < decimalValue field.2) (small : decimalValue field.2 < 2 ^ 63)
    {entity rest : Str} (length : entity.length = decimalValue field.2) {cut : List Str}
    (isCut : IsCut (head.bytes ++ entity ++ rest) cut) :
    ∃ msg, outcome11 isRequest cut = .ok (msg, true, head.bytes.length + entity.length) ∧
      msg.entity = entity ∧ msg.state = .done := by
  rcases reads_section isRequest head with ⟨msg, nothing, reads⟩
  have mode := modeOf_numeral silent first numeral positive small
  have unknown : entityUnknown = -1 := rfl
  have nonempty : entity ≠ [] := by
    rintro rfl
    rw [List.length_nil] at length
    omega
  rw [mode, entered, if_neg (by omega), if_pos (by omega), ← length] at reads
  have whole := reads.append (@reads_fixed entity { msg with state := .entity } rfl nonempty)
  have outcome := whole.run_final (by rfl) rest
  rw [← isCut.whole] at outcome
  refine ⟨_, by simpa using outcome11_of_run outcome, ?_, rfl⟩
  simp [nothing]

/-! ## The decision -/

/-- Chunks are decoded exactly where a line announces them; and where none does, the bytes of the
first length are the entity. -/
structure Decides (isRequest : Bool) (head : HeaderSection) : Prop where
  chunks : ∀ cut, IsCut head.bytes cut →
    ∃ reader, feed MessageSource11.read ({}, .fresh isRequest) cut =
        .ok (reader, head.bytes.length) ∧
      (ReadsChunks reader.1 ↔ head.fields.any announcesChunks = true)
  fixed : ∀ field, head.fields.any announcesChunks = false →
    head.fields.find? givesLength = some field → IsNumeral field.2 →
    0 < decimalValue field.2 → decimalValue field.2 < 2 ^ 63 →
    ∀ entity rest, entity.length = decimalValue field.2 →
    ∀ cut, IsCut (head.bytes ++ entity ++ rest) cut →
      ∃ msg, outcome11 isRequest cut = .ok (msg, true, head.bytes.length + entity.length) ∧
        msg.entity = entity ∧ msg.state = .done

/-- Every stream can be read in one piece. -/
theorem isCut_bytes (head : HeaderSection) : IsCut head.bytes [head.bytes] :=
  .single (by simp [HeaderSection.bytes])

/-- Where the decision is right, a mode below `-1` comes from a line that announces chunks. -/
theorem Decides.announced {isRequest : Bool} {head : HeaderSection}
    (decides : Decides isRequest head) (below : modeOf head.fields < entityUnknown) :
    head.fields.any announcesChunks = true := by
  rcases decides.chunks _ (isCut_bytes head) with ⟨reader, feed_eq, announced⟩
  rcases readsChunks_iff isRequest head (isCut_bytes head) with ⟨reader', feed_eq', chunks⟩
  obtain rfl : reader = reader' := by
    simpa using feed_eq.symm.trans feed_eq'
  exact announced.mp (chunks.mpr below)

/-- A request with a negative length. -/
def negativeLength : HeaderSection where
  skipped := []
  first := ascii "GET / HTTP/1.1\r"
  lines := [ascii "Content-Length: -5\r"]
  last := ascii "\r"
  blank := by decide
  text := by decide

end GnyProxy
