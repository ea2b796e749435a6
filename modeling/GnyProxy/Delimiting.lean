import GnyProxy.Framing
import GnyProxy.RoundTrip11

/-!
# How an entity is delimited

`message_sink_11` takes the framing of the entity from the headers as they are, and
`message_source_11` from the trimmed fields of the lines that were written.  Both decisions are
compared here for any list of headers.
-/

namespace GnyProxy

open Incremental Decoder11

/-- What tells the end of an entity. -/
inductive Delimiting where
  | none
  | length (value : Int)
  | chunks
  deriving DecidableEq

/-- A field that may stand among the headers of a message: values may have blanks around. -/
structure Plain (field : Str × Str) : Prop where
  key : 58 ∉ field.1 ∧ 13 ∉ field.1 ∧ 10 ∉ field.1 ∧ 0 ∉ field.1
  value : 13 ∉ field.2 ∧ 10 ∉ field.2 ∧ 0 ∉ field.2

/-! ## The writer -/

namespace MessageSink11

/-- Without any framing among the headers the writer adds a line for an entity. -/
def added (headers : Fields) (entity : Str) : Fields :=
  if framing headers = entityUnknown ∧ entity ≠ [] then [chunkedField] else []

/-- How the writer delimits an entity.  Under a negative length other than the two sentinels it
writes none. -/
def delimiting (headers : Fields) (entity : Str) : Delimiting :=
  if framing headers = entityUnknown then if entity = [] then .none else .chunks
  else if framing headers = entityChunked then .chunks
  else if 0 ≤ framing headers then .length (framing headers)
  else .none

/-- What is written behind the header section. -/
def delimited (progress : Progress) : Delimiting → Str
  | .none => []
  | .length _ => progress.pieces.flatten
  | .chunks => chunkedBody progress

/-- The first line and the header lines that are written. -/
def headLines (first : Str) (headers : Fields) (entity : Str) : Str :=
  first ++ fieldLines (headers ++ added headers entity)

/-- The layout of a message is its header section and the entity so delimited. -/
theorem stream_delimited {first : Str} {progress : Progress} (done : progress.writeState = .done)
    (splits : Splits progress.pieces) :
    stream first progress = headLines first progress.headers progress.pieces.flatten ++ crlf ++
      delimited progress (delimiting progress.headers progress.pieces.flatten) := by
  have empty_iff := splits.flatten_eq_nil
  by_cases unknown : framing progress.headers = entityUnknown
  · by_cases empty : progress.pieces = []
    · simp [stream, done, body, unknown, empty, headLines, added, delimiting, delimited]
    · have some : progress.pieces.flatten ≠ [] := mt empty_iff.mp empty
      simp [stream, done, body, unknown, empty, headLines, added, delimiting, delimited, some,
        chunkedLine_eq, fieldLines]
  · by_cases chunked : framing progress.headers = entityChunked
    · have other : entityChunked ≠ entityUnknown := by decide
      simp [stream, done, body, chunked, other, headLines, added, delimiting, delimited]
    · by_cases natural : 0 ≤ framing progress.headers
      · simp [stream, done, body, unknown, chunked, natural, headLines, added, delimiting,
          delimited]
      · simp [stream, done, body, unknown, chunked, natural, headLines, added, delimiting,
          delimited]

end MessageSink11

/-! ## The reader -/

/-- The field that is read back: key and value without the blanks around them. -/
def trimmed (field : Str × Str) : Str × Str := (trim field.1, trim field.2)

namespace MessageSource11

/-- How the reader finds the end of the entity, in the mode that the header lines left. -/
def delimiting (entityMode : Int) : Delimiting :=
  if entityMode = entityUnknown then .none
  else if 0 ≤ entityMode then .length entityMode
  else .chunks

/-- What the reader does behind the blank line. -/
def Expects (src : MessageSource11) : Delimiting → Prop
  | .none => src.state = .done
  | .length value =>
      if value = 0 then src.state = .done else src.state = .entity ∧ src.entityMode = value
  | .chunks => ReadsChunks src

end MessageSource11

theorem trim_cons_space (text : Str) : trim (32 :: text) = trim text := by
  rw [trim, trim, List.dropWhile_cons_of_pos (by decide)]

/-- The line of a plain field is read back, but for the blanks. -/
theorem Plain.splitField {field : Str × Str} (plain : Plain field) :
    splitField (fieldText field) = some (trimmed field) := by
  have clean : ∀ char ∈ field.1, (decide (char ≠ 58)) = true := by
    intro char member
    simpa using ne_of_mem_of_not_mem member plain.key.1
  have key : (fieldText field).takeWhile (· ≠ 58) = field.1 := by
    rw [fieldText, List.takeWhile_append_of_pos clean]
    simp
  have value : (fieldText field).dropWhile (· ≠ 58) = 58 :: 32 :: field.2 := by
    rw [fieldText, List.dropWhile_append_of_pos clean]
    simp
  have colon : 58 ∈ fieldText field := by simp [fieldText]
  rw [GnyProxy.splitField, if_pos colon, key, value]
  simp only [List.drop_succ_cons, List.drop_zero, trim_cons_space, trimmed]

theorem plain_chunkedField : Plain chunkedField := by
  constructor <;> decide

namespace Decoder11

/-- The lines of plain fields leave the reader in the mode of the trimmed fields. -/
theorem reads_fieldLines {isRequest : Bool} {text : Str} {fields : Fields} (nonempty : text ≠ [])
    (clean : 10 ∉ text) (plain : ∀ field ∈ fields, Plain field) :
    ∃ msg, automaton.Reads (fresh isRequest) (text ++ crlf ++ MessageSink11.fieldLines fields)
      ⟨.header (modeOf (fields.map trimmed)) [], msg⟩ ∧ msg.state = .header := by
  have start : (parseFirstLine (.fresh isRequest) text).state = .header :=
    state_parseFirstLine _ _
  have lines_eq : MessageSink11.fieldLines fields =
      HeaderSection.feeds (fields.map fun field => fieldText field ++ [13]) := by
    have one : MessageSink11.fieldLine = fun field => fieldText field ++ crlf := funext fieldLine_eq
    simp [MessageSink11.fieldLines, HeaderSection.feeds, List.flatMap_map, one, crlf]
  have fields_eq : (fields.map fun field => fieldText field ++ [13]).filterMap
      (fun line => splitField (chomp line)) = fields.map trimmed := by
    rw [List.filterMap_map, ← List.filterMap_eq_map]
    apply List.filterMap_congr
    intro field member
    simp [chomp_append, (plain field member).splitField]
  have clean_lines : ∀ line ∈ fields.map fun field => fieldText field ++ [13],
      10 ∉ line ∧ chomp line ≠ [] := by
    intro line member
    rcases List.mem_map.mp member with ⟨field, inside, rfl⟩
    have key := (plain field inside).key
    have value := (plain field inside).value
    rw [chomp_append]
    simp [fieldText, key, value]
  have lines := reads_headerLines entityUnknown start clean_lines
  rw [← lines_eq, fields_eq] at lines
  exact ⟨_, (reads_firstLine nonempty clean).append lines, start⟩

end Decoder11

/-- The mode that the reader takes from the lines of a message. -/
def readMode (headers : Fields) (entity : Str) : Int :=
  modeOf ((headers ++ MessageSink11.added headers entity).map trimmed)

/-- Behind the blank line the reader expects what the mode says. -/
theorem Decoder11.Matches.expects {reader : MessageSource11 × HttpMessage} {entityMode : Int}
    {msg : HttpMessage} (same : Matches reader (entered entityMode msg)) :
    reader.1.Expects (MessageSource11.delimiting entityMode) := by
  rcases same with ⟨⟨-, -, sim⟩, -⟩
  have unknown : entityUnknown = -1 := rfl
  by_cases empty : entityMode = 0 ∨ entityMode = entityUnknown
  · rw [entered, if_pos empty] at sim
    rcases empty with rfl | rfl
    · simpa [MessageSource11.delimiting, MessageSource11.Expects, unknown] using sim.1
    · simpa [MessageSource11.delimiting, MessageSource11.Expects] using sim.1
  · by_cases fixed : 0 < entityMode
    · rw [entered, if_neg empty, if_pos fixed] at sim
      rw [MessageSource11.delimiting, if_neg (not_or.mp empty).2, if_pos fixed.le,
        MessageSource11.Expects, if_neg (not_or.mp empty).1]
      exact ⟨sim.2.2.1, sim.1⟩
    · rw [entered, if_neg empty, if_neg fixed] at sim
      rw [MessageSource11.delimiting, if_neg (not_or.mp empty).2, if_neg (by omega)]
      exact ⟨sim.2.2.2.1, sim.1⟩

/-! ## What is written, and read -/

section Written

variable {msg : HttpMessage} {first : Str}

theorem reads_headLines (known : MessageSink11.firstLine msg = .ok (some first))
    (plain : ∀ field ∈ msg.headers, Plain field) :
    ∃ next, automaton.Reads (fresh msg.isRequest)
        (MessageSink11.headLines first msg.headers msg.entity)
        ⟨.header (readMode msg.headers msg.entity) [], next⟩ ∧ next.state = .header := by
  rcases readable_of_known known with ⟨text, readable⟩
  have lines : ∀ field ∈ msg.headers ++ MessageSink11.added msg.headers msg.entity,
      Plain field := by
    intro field member
    rcases List.mem_append.mp member with member | member
    · exact plain field member
    · rw [MessageSink11.added] at member
      split at member
      · rw [List.mem_singleton.mp member]
        exact plain_chunkedField
      · simp at member
  rw [MessageSink11.headLines, readable.line]
  exact reads_fieldLines readable.nonempty readable.feed lines

/-- In any cut, the reader behind the lines that were written. -/
theorem feed_headLines (known : MessageSink11.firstLine msg = .ok (some first))
    (plain : ∀ field ∈ msg.headers, Plain field) {cut : List Str}
    (isCut : IsCut (MessageSink11.headLines first msg.headers msg.entity) cut) :
    ∃ reader, feed MessageSource11.read ({}, .fresh msg.isRequest) cut =
        .ok (reader, (MessageSink11.headLines first msg.headers msg.entity).length) ∧
      reader.1.entityMode = readMode msg.headers msg.entity := by
  rcases reads_headLines known plain with ⟨next, reads, -⟩
  rcases (matches_fresh msg.isRequest).feed reads isCut with ⟨reader, feed_eq, ⟨-, -, sim⟩, -⟩
  exact ⟨reader, feed_eq, sim.2.1⟩

/-- In any cut, the reader behind the header section that was written. -/
theorem feed_head (known : MessageSink11.firstLine msg = .ok (some first))
    (plain : ∀ field ∈ msg.headers, Plain field) {cut : List Str}
    (isCut : IsCut (MessageSink11.headLines first msg.headers msg.entity ++ crlf) cut) :
    ∃ reader, feed MessageSource11.read ({}, .fresh msg.isRequest) cut =
        .ok (reader, (MessageSink11.headLines first msg.headers msg.entity ++ crlf).length) ∧
      reader.1.Expects (MessageSource11.delimiting (readMode msg.headers msg.entity)) := by
  rcases reads_headLines known plain with ⟨next, reads, header⟩
  have whole := reads.append
    (reads_endHeader (endHeader_eq header (readMode msg.headers msg.entity)))
  rcases (matches_fresh msg.isRequest).feed whole isCut with ⟨reader, feed_eq, same⟩
  exact ⟨reader, feed_eq, Decoder11.Matches.expects same⟩

end Written

/-! ## Trimming what is compared -/

theorem isspace_tolower (char : UInt8) : isspace (tolower char) = isspace char :=
  forall_char (P := fun char => isspace (tolower char) = isspace char) (by decide +kernel) char

/-- Text that is equal to a name without blanks has none to trim. -/
theorem trim_of_sameFolded {text name : Str} (same : SameFolded text name)
    (plain : ∀ char ∈ name, isspace char = false) : trim text = text := by
  have clean : ∀ char ∈ text, isspace char = false := by
    intro char member
    have folded : tolower char ∈ name.map tolower := by
      rw [← same]
      exact List.mem_map_of_mem member
    rcases List.mem_map.mp folded with ⟨other, inside, equal⟩
    rw [← isspace_tolower, ← equal, isspace_tolower]
    exact plain other inside
  rw [trim_eq_self_iff]
  constructor
  · exact fun char member => clean char (List.mem_of_mem_head? member)
  · exact fun char member => clean char (List.mem_of_mem_getLast? member)

theorem strcasecmp_trim {text name : Str} (textFree : 0 ∉ text) (nameFree : 0 ∉ name)
    (plain : name.any isspace = false) (same : strcasecmp text name = 0) :
    strcasecmp (trim text) name = 0 := by
  rw [strcasecmp_eq_zero_of_nulFree textFree nameFree] at same
  rw [trim_of_sameFolded same (by simpa using plain)]
  exact (strcasecmp_eq_zero_of_nulFree textFree nameFree).mpr same

/-- Chunks that the writer finds announced the reader finds announced. -/
theorem announcesChunks_trimmed {field : Str × Str} (plain : Plain field)
    (announces : announcesChunks field = true) : announcesChunks (trimmed field) = true := by
  simp only [announcesChunks, Bool.and_eq_true, decide_eq_true_eq] at announces ⊢
  constructor
  · exact strcasecmp_trim plain.key.2.2.2 (by decide) (by decide) announces.1
  · exact strcasecmp_trim plain.value.2.2 (by decide) (by decide) announces.2

/-! ## The two decisions -/

theorem announced_eq_unknown_iff (lengths : List Int) :
    announced lengths = entityUnknown ↔ ∀ length ∈ lengths, length = entityUnknown := by
  induction lengths with
  | nil => simp [announced]
  | cons length lengths ih =>
      rw [announced_cons, List.forall_mem_cons]
      by_cases unknown : length = entityUnknown
      · rw [if_pos unknown, ih]
        simp [unknown]
      · simp [unknown]

/-- A length that the writer takes is one for the reader too. -/
theorem readerLength_ne_unknown {headers : Fields} (plain : ∀ field ∈ headers, Plain field)
    (known : writerLength headers ≠ entityUnknown) :
    readerLength (headers.map trimmed) ≠ entityUnknown := by
  intro unknown
  apply known
  rw [readerLength, announced_eq_unknown_iff] at unknown
  rw [writerLength, announced_eq_unknown_iff]
  intro length member
  rcases List.mem_map.mp member with ⟨value, inside, rfl⟩
  rw [contentLengths, List.mem_filter, List.mem_map] at inside
  rcases inside with ⟨⟨field, inside, rfl⟩, -⟩
  rw [List.mem_filter, decide_eq_true_eq] at inside
  rcases inside with ⟨inside, key⟩
  have key' := strcasecmp_trim (plain field inside).key.2.2.2 (by decide) (by decide) key
  rw [← strtoll_trim]
  apply unknown
  rw [contentLengths, List.map_map]
  apply List.mem_map.mpr
  refine ⟨trimmed field, ?_, rfl⟩
  rw [List.mem_filter, decide_eq_true_eq]
  exact ⟨List.mem_map_of_mem inside, key'⟩

/-- When the two sides decide alike.  Either a header announces chunks as it stands; or no length
in range is announced and there is an entity, so that the writer adds the line; or no trimmed field
announces chunks and the first length among the trimmed fields, clamped, is the first one in range
among the headers, which is natural or missing; or that one is `-2`, which the writer takes for
chunks, and the trimmed fields announce chunks or a length below `-1` first. -/
def DecidesAlike (headers : Fields) (entity : Str) : Prop :=
  headers.any announcesChunks = true ∨
    (writerLength headers = entityUnknown ∧ entity ≠ []) ∨
    ((headers.map trimmed).any announcesChunks = false ∧
      readerLength (headers.map trimmed) = writerLength headers ∧
        entityUnknown ≤ writerLength headers) ∨
    (writerLength headers = entityChunked ∧
      ((headers.map trimmed).any announcesChunks = true ∨
        readerLength (headers.map trimmed) < entityUnknown))

instance (headers : Fields) (entity : Str) : Decidable (DecidesAlike headers entity) :=
  inferInstanceAs (Decidable (_ ∨ _))

/-- The mode of the reader, from the headers. -/
theorem readMode_eq (headers : Fields) (entity : Str) :
    readMode headers entity =
      if MessageSink11.added headers entity ≠ [] ∨ (headers.map trimmed).any announcesChunks = true
      then entityChunked else readerLength (headers.map trimmed) := by
  rw [readMode, modeOf_eq, List.map_append, List.any_append]
  by_cases added : MessageSink11.framing headers = entityUnknown ∧ entity ≠ []
  · have line : ([chunkedField].map trimmed).any announcesChunks = true := by decide
    have shape : MessageSink11.added headers entity = [chunkedField] := if_pos added
    rw [shape, line, Bool.or_true, if_pos rfl, if_pos (Or.inl (List.cons_ne_nil _ _))]
  · have shape : MessageSink11.added headers entity = [] := if_neg added
    rw [shape]
    simp only [List.map_nil, List.any_nil, Bool.or_false, ne_eq, not_true_eq_false, false_or,
      List.append_nil]

section Alike

variable {headers : Fields} {entity : Str}

/-- What the writer decides by a length alone, where it adds no line. -/
def byLength (writer : Int) : Delimiting :=
  if writer = entityUnknown then .none
  else if writer = entityChunked then .chunks
  else if 0 ≤ writer then .length writer
  else .none

theorem delimiting_eq_byLength (silent : ¬headers.any announcesChunks = true)
    (nothing : ¬(writerLength headers = entityUnknown ∧ entity ≠ [])) :
    MessageSink11.delimiting headers entity = byLength (writerLength headers) := by
  have empty : writerLength headers = entityUnknown → entity = [] := by
    intro unknown
    by_contra some
    exact nothing ⟨unknown, some⟩
  rw [MessageSink11.delimiting, framing_eq, if_neg silent, byLength]
  by_cases unknown : writerLength headers = entityUnknown
  · rw [if_pos unknown, if_pos unknown, if_pos (empty unknown)]
  · rw [if_neg unknown, if_neg unknown]

theorem chunks_eq_byLength_iff (writer : Int) :
    .chunks = byLength writer ↔ writer = entityChunked := by
  have other : entityChunked ≠ entityUnknown := by decide
  unfold byLength
  split
  · rename_i unknown
    rw [unknown]
    simp [other.symm]
  · split
    · rename_i chunked
      simp [chunked]
    · rename_i chunked
      split
      · simp [chunked]
      · simp [chunked]

/-- The two decide alike by lengths that are natural and the same, or missing, or that both mean
chunks. -/
theorem delimiting_eq_byLength_iff {reader writer : Int}
    (known : writer ≠ entityUnknown → reader ≠ entityUnknown) :
    MessageSource11.delimiting reader = byLength writer ↔
      (reader = writer ∧ entityUnknown ≤ writer) ∨
        (writer = entityChunked ∧ reader < entityUnknown) := by
  have unknown_eq : entityUnknown = -1 := rfl
  have chunked_eq : entityChunked = -2 := rfl
  rw [MessageSource11.delimiting, byLength]
  by_cases missing : reader = entityUnknown
  · have unknown : writer = entityUnknown := by
      by_contra some
      exact known some missing
    simp [missing, unknown]
  · by_cases natural : 0 ≤ reader
    · have above : ¬reader < entityUnknown := by omega
      rw [if_neg missing, if_pos natural]
      split
      · simp
        omega
      · split
        · simp
          omega
        · split
          · simp
            omega
          · simp
            omega
    · have below : reader < entityUnknown := by omega
      rw [if_neg missing, if_neg natural]
      refine (chunks_eq_byLength_iff writer).trans ?_
      omega

/-- The cases in which no header announces chunks as it is and no line is added. -/
theorem delimiting_eq_iff_of_silent (plain : ∀ field ∈ headers, Plain field)
    (silent : ¬headers.any announcesChunks = true)
    (nothing : ¬(writerLength headers = entityUnknown ∧ entity ≠ [])) :
    MessageSource11.delimiting (readMode headers entity) =
        MessageSink11.delimiting headers entity ↔
      ((headers.map trimmed).any announcesChunks = false ∧
        readerLength (headers.map trimmed) = writerLength headers ∧
          entityUnknown ≤ writerLength headers) ∨
      (writerLength headers = entityChunked ∧
        ((headers.map trimmed).any announcesChunks = true ∨
          readerLength (headers.map trimmed) < entityUnknown)) := by
  have none : MessageSink11.added headers entity = [] := by
    rw [MessageSink11.added, framing_eq, if_neg silent, if_neg nothing]
  rw [readMode_eq, none, delimiting_eq_byLength silent nothing]
  by_cases announced : (headers.map trimmed).any announcesChunks = true
  · have source : MessageSource11.delimiting entityChunked = .chunks := by decide
    rw [if_pos (Or.inr announced), source, chunks_eq_byLength_iff]
    simp [announced]
  · rw [if_neg (by simpa using announced),
      delimiting_eq_byLength_iff (readerLength_ne_unknown plain)]
    rw [Bool.not_eq_true] at announced
    simp [announced]

/-- The two sides decide alike under this condition, and under no other. -/
theorem delimiting_eq_iff (plain : ∀ field ∈ headers, Plain field) :
    MessageSource11.delimiting (readMode headers entity) =
        MessageSink11.delimiting headers entity ↔ DecidesAlike headers entity := by
  have chunks : MessageSource11.delimiting entityChunked = .chunks := by decide
  rw [DecidesAlike]
  by_cases announced : headers.any announcesChunks = true
  · have read : (headers.map trimmed).any announcesChunks = true := by
      rcases List.any_eq_true.mp announced with ⟨field, member, announces⟩
      exact List.any_eq_true.mpr ⟨trimmed field, List.mem_map_of_mem member,
        announcesChunks_trimmed (plain field member) announces⟩
    refine iff_of_true ?_ (Or.inl announced)
    rw [readMode_eq, if_pos (Or.inr read), chunks, MessageSink11.delimiting, framing_eq,
      if_pos announced, if_neg (by decide), if_pos rfl]
  · by_cases added : writerLength headers = entityUnknown ∧ entity ≠ []
    · have framing_unknown : MessageSink11.framing headers = entityUnknown := by
        rw [framing_eq, if_neg announced, added.1]
      have line : MessageSink11.added headers entity ≠ [] := by
        rw [MessageSink11.added, if_pos ⟨framing_unknown, added.2⟩]
        exact List.cons_ne_nil _ _
      refine iff_of_true ?_ (Or.inr (Or.inl added))
      rw [readMode_eq, if_pos (Or.inl line), chunks, MessageSink11.delimiting,
        if_pos framing_unknown, if_neg added.2]
    · rw [delimiting_eq_iff_of_silent plain announced added, or_iff_right announced,
        or_iff_right added]

end Alike

/-! ## Runs -/

/-- Whatever the schedule on which a message is written and the cut in which it is read, the reader
finds the entity delimited as the writer delimits it. -/
def AgreesOnFraming (msg : HttpMessage) (first : Str) : Prop :=
  ∀ {transfer : Transfer} {events : List Event}, transfer.Sound →
    (MessageSink.v11 {}).SameKind transfer.sink → Delivers transfer.whole events msg →
      ∃ final progress, transfer.run (events ++ [.getWriteSize]) = .ok final ∧
        progress.pieces.flatten = msg.entity ∧ progress.footers = msg.footers ∧
        final.encoding = MessageSink11.headLines first msg.headers msg.entity ++ crlf ++
          MessageSink11.delimited progress (MessageSink11.delimiting msg.headers msg.entity) ∧
        (∀ cut, IsCut (MessageSink11.headLines first msg.headers msg.entity) cut →
          ∃ reader count, feed MessageSource11.read ({}, .fresh msg.isRequest) cut =
              .ok (reader, count) ∧
            MessageSource11.delimiting reader.1.entityMode =
              MessageSink11.delimiting msg.headers msg.entity) ∧
        ∀ cut, IsCut (MessageSink11.headLines first msg.headers msg.entity ++ crlf) cut →
          ∃ reader count, feed MessageSource11.read ({}, .fresh msg.isRequest) cut =
              .ok (reader, count) ∧
            reader.1.Expects (MessageSink11.delimiting msg.headers msg.entity)

section Runs

variable {msg : HttpMessage} {first : Str}

theorem agreesOnFraming_of_alike (known : MessageSink11.firstLine msg = .ok (some first))
    (done : msg.state = .done) (plain : ∀ field ∈ msg.headers, Plain field)
    (alike : DecidesAlike msg.headers msg.entity) : AgreesOnFraming msg first := by
  intro transfer events sound kind delivers
  have decision := (delimiting_eq_iff plain).mpr alike
  rcases sound.encoding11 kind delivers done known with
    ⟨final, run_eq, progress, writeState, encoding_eq, splits, headers, entity, footers⟩
  refine ⟨final, progress, run_eq, entity, footers, ?_, ?_, ?_⟩
  · rw [encoding_eq, MessageSink11.stream_delimited writeState splits, headers, entity]
  · intro cut isCut
    rcases feed_headLines known plain isCut with ⟨reader, feed_eq, mode⟩
    exact ⟨reader, _, feed_eq, by rw [mode, decision]⟩
  · intro cut isCut
    rcases feed_head known plain isCut with ⟨reader, feed_eq, expects⟩
    rw [decision] at expects
    exact ⟨reader, _, feed_eq, expects⟩

theorem alike_of_agreesOnFraming (known : MessageSink11.firstLine msg = .ok (some first))
    (plain : ∀ field ∈ msg.headers, Plain field) (agrees : AgreesOnFraming msg first) :
    DecidesAlike msg.headers msg.entity := by
  have nonempty : MessageSink11.headLines first msg.headers msg.entity ≠ [] := by
    rcases readable_of_known known with ⟨text, readable⟩
    rw [MessageSink11.headLines, readable.line]
    simp [crlf]
  have isCut : IsCut (MessageSink11.headLines first msg.headers msg.entity)
      [MessageSink11.headLines first msg.headers msg.entity] := .single nonempty
  rcases @agrees (Transfer.handed (.v11 {}) msg) [] (Transfer.sound_handed (Or.inr rfl) msg)
    trivial (.nil msg) with ⟨final, progress, -, -, -, -, found, -⟩
  rcases found _ isCut with ⟨reader, count, feed_eq, decision⟩
  rcases feed_headLines known plain isCut with ⟨reader', feed_eq', mode⟩
  rw [feed_eq] at feed_eq'
  simp only [Except.ok.injEq, Prod.mk.injEq] at feed_eq'
  rw [feed_eq'.1, mode] at decision
  exact (delimiting_eq_iff plain).mp decision

end Runs

/-- A response with a length and a chunked encoding that has a blank in front. -/
def blankEncoding : HttpMessage where
  isRequest := false
  status := 7
  headers := [(ascii "Content-Length", ascii "5"), (ascii "Transfer-Encoding", ascii " chunked")]
  entity := ascii "hello"
  state := .done

/-- A response with a length that has blanks around. -/
def blankLength : HttpMessage where
  isRequest := false
  status := 7
  headers := [(ascii "Content-Length", ascii " 5 ")]
  entity := ascii "hello"
  state := .done

theorem firstLine_seven {msg : HttpMessage} (response : msg.isRequest = false)
    (status : msg.status = 7) :
    MessageSink11.firstLine msg = .ok (some (ascii "HTTP/1.1 7 FIXME" ++ crlf)) := by
  have digits : printInt 7 = ascii "7" := by
    norm_num [printInt, printNat_of_lt]
    decide
  have text : ascii "HTTP/1.1 " ++ ascii "7" ++ ascii " FIXME" = ascii "HTTP/1.1 7 FIXME" := by
    decide
  simp [MessageSink11.firstLine, response, status, digits, ← text]

end GnyProxy
