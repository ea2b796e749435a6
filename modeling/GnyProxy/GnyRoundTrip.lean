import GnyProxy.GnyChunking
import GnyProxy.Transfer

/-!
# GNY decoding undoes encoding

The decoder reads the layout of a message back, field by field and piece by piece.  With the
account of a transfer this covers every schedule in which the writer never finds two gigabytes of
entity at once.
-/

namespace GnyProxy

open Incremental

/-- The key that a header is decoded with: the name of its code, or the key itself. -/
def wireKey (key : Str) : Str :=
  if atoheader key = headerUnknown then key else (headertoa (atoheader key)).getD []

/-- A field with the key that it is decoded with. -/
def wireField (field : Str × Str) : Str × Str := (wireKey field.1, field.2)

theorem sameFolded_wireKey {key : Str} (nulFree : 0 ∉ key) : SameFolded (wireKey key) key := by
  obtain unknown | ⟨known, name, named, same⟩ := atoheader_cases key
  · simp [wireKey, unknown, SameFolded]
  · have other : atoheader key ≠ headerUnknown := fun equality => by
      rw [equality] at known
      exact absurd known (by decide)
    have folded := (strcasecmp_eq_zero key name).mp same
    rw [cStr_eq_self nulFree, cStr_eq_self (nul_notMem_headertoa named)] at folded
    rw [wireKey, if_neg other, named]
    exact folded.symm

namespace GnyDecoder

/-! ## Reading the parts of the layout -/

theorem reads_url {msg : HttpMessage} {field url : Str} (nulFree : 0 ∉ url) :
    automaton.Reads ⟨.url field, msg⟩ (url ++ [0]) ⟨.flag, msg.setUrl (field ++ url)⟩ := by
  induction url generalizing field with
  | nil => exact .single rfl (by simp [automaton, step])
  | cons ch url ih =>
      simp only [List.mem_cons, not_or] at nulFree
      have plain : ch ≠ 0 := fun equality => nulFree.1 equality.symm
      refine .into ⟨.url (field ++ [ch]), msg⟩ rfl (by simp [automaton, step, plain]) ?_
      simpa using @ih (field ++ [ch]) nulFree.2

theorem reads_status (msg : HttpMessage) (status : Int) :
    automaton.Reads ⟨.status [], msg⟩ (shortBytes status)
      ⟨.flag, msg.setStatus (readShort (shortBytes status) 0)⟩ := by
  refine .into ⟨.status _, msg⟩ rfl rfl (.single rfl ?_)
  simp [automaton, step, shortBytes]

/-- A value, once the phase stays the same but for the bytes that it gathers. -/
theorem reads_value (phase : Str → Phase) {msg next : HttpMessage} {value : Str}
    (open_ : ∀ field, phase field ≠ .done)
    (gathers : ∀ field ch, ch ≠ 0 → step ⟨phase field, msg⟩ ch = .ok ⟨phase (field ++ [ch]), msg⟩)
    (ends : step ⟨phase value, msg⟩ 0 = .ok ⟨.flag, next⟩) (nulFree : 0 ∉ value) :
    automaton.Reads ⟨phase [], msg⟩ (value ++ [0]) ⟨.flag, next⟩ := by
  have reads {left right : Str} (whole : left ++ right = value) (clean : 0 ∉ right) :
      automaton.Reads ⟨phase left, msg⟩ (right ++ [0]) ⟨.flag, next⟩ := by
    induction right generalizing left with
    | nil =>
        rw [List.append_nil] at whole
        subst whole
        exact .single (by simp [automaton, open_]) ends
    | cons ch right ih =>
        simp only [List.mem_cons, not_or] at clean
        refine .into ⟨phase (left ++ [ch]), msg⟩ (by simp [automaton, open_]) ?_ ?_
        · exact gathers left ch fun equality => clean.1 equality.symm
        · exact ih (by simpa using whole) clean.2
  exact reads (List.nil_append value) nulFree

/-- A field on the wire is read back with the key of its code. -/
theorem reads_field {msg next : HttpMessage} {field : Str × Str} (keyFree : 0 ∉ field.1)
    (nulFree : 0 ∉ field.2) (added : msg.addField (wireKey field.1) field.2 = .ok next) :
    automaton.Reads ⟨.flag, msg⟩ (MessageSinkGny.fieldBytes field) ⟨.flag, next⟩ := by
  obtain ⟨key, value⟩ := field
  obtain unknown | ⟨known, name, named, -⟩ := atoheader_cases key
  · have layout : MessageSinkGny.fieldBytes (key, value) =
        (headerUnknown :: key ++ [0]) ++ (value ++ [0]) := by
      simp [MessageSinkGny.fieldBytes, MessageSinkGny.addKeyValuePair, unknown, writeString]
    rw [wireKey, if_pos unknown] at added
    rw [layout]
    refine (reads_unknown_key keyFree).append ?_
    exact reads_value (.literalValue key) (by simp) (by simp +contextual [step])
      (by simp [step, added]) nulFree
  · have other : atoheader key ≠ headerUnknown := fun equality => by
      rw [equality] at known
      exact absurd known (by decide)
    have inner : atoheader key ≠ headerEnd := fun equality => by
      rw [equality] at known
      exact absurd known (by decide)
    have layout : MessageSinkGny.fieldBytes (key, value) =
        atoheader key :: (value ++ [0]) := by
      simp [MessageSinkGny.fieldBytes, MessageSinkGny.addKeyValuePair, other, writeString]
    rw [wireKey, if_neg other, named, Option.getD_some] at added
    rw [layout]
    refine .into ⟨.tableValue (atoheader key) [], msg⟩ rfl
      (by simp [automaton, step, inner, other, known]) ?_
    exact reads_value (.tableValue (atoheader key)) (by simp) (by simp +contextual [step])
      (by simp [step, headerName, named, added]) nulFree

/-- The header lines of a message are read back in order. -/
theorem reads_headers {fields : Fields} {msg : HttpMessage} (header : msg.state = .header)
    (nulFree : ∀ field ∈ fields, 0 ∉ field.1 ∧ 0 ∉ field.2) :
    automaton.Reads ⟨.flag, msg⟩ (MessageSinkGny.fieldsBytes fields)
      ⟨.flag, { msg with headers := msg.headers ++ fields.map wireField }⟩ := by
  induction fields generalizing msg with
  | nil => simpa [MessageSinkGny.fieldsBytes] using Automaton.Reads.nil (A := automaton) _
  | cons field fields ih =>
      obtain ⟨here, later⟩ := List.forall_mem_cons.mp nulFree
      have added : msg.addField (wireKey field.1) field.2 =
          .ok { msg with headers := msg.headers ++ [wireField field] } := by
        simp [HttpMessage.addField, HttpMessage.addHeader, header, wireField]
      have rest := @ih { msg with headers := msg.headers ++ [wireField field] } header later
      have whole := (reads_field here.1 here.2 added).append rest
      simpa [MessageSinkGny.fieldsBytes] using whole

/-- The footer lines of a message are read back in order. -/
theorem reads_footers {fields : Fields} {msg : HttpMessage} (footer : msg.state = .footer)
    (nulFree : ∀ field ∈ fields, 0 ∉ field.1 ∧ 0 ∉ field.2) :
    automaton.Reads ⟨.flag, msg⟩ (MessageSinkGny.fieldsBytes fields)
      ⟨.flag, { msg with footers := msg.footers ++ fields.map wireField }⟩ := by
  induction fields generalizing msg with
  | nil => simpa [MessageSinkGny.fieldsBytes] using Automaton.Reads.nil (A := automaton) _
  | cons field fields ih =>
      obtain ⟨here, later⟩ := List.forall_mem_cons.mp nulFree
      have added : msg.addField (wireKey field.1) field.2 =
          .ok { msg with footers := msg.footers ++ [wireField field] } := by
        simp [HttpMessage.addField, HttpMessage.addFooter, footer, wireField]
      have rest := @ih { msg with footers := msg.footers ++ [wireField field] } footer later
      have whole := (reads_field here.1 here.2 added).append rest
      simpa [MessageSinkGny.fieldsBytes] using whole

/-- The bytes of a piece, behind its size. -/
theorem reads_pieceBytes {piece : Str} {msg : HttpMessage} (entity : msg.state = .entity)
    (nonempty : piece ≠ []) :
    automaton.Reads ⟨.piece piece.length, msg⟩ piece
      ⟨.size [], { msg with entity := msg.entity ++ piece }⟩ := by
  induction piece generalizing msg with
  | nil => exact absurd rfl nonempty
  | cons ch piece ih =>
      have appended : msg.appendEntity [ch] = .ok { msg with entity := msg.entity ++ [ch] } := by
        simp [HttpMessage.appendEntity, entity]
      by_cases last : piece = []
      · subst last
        exact .single rfl (by simp [automaton, step, appended])
      · have more : piece.length ≠ 0 := by simpa using last
        refine .into ⟨.piece piece.length, { msg with entity := msg.entity ++ [ch] }⟩ rfl
          (by simp [automaton, step, appended, last]) ?_
        simpa using @ih { msg with entity := msg.entity ++ [ch] } entity last

/-- A piece of entity behind its size is read back. -/
theorem reads_piece {piece : Str} {msg : HttpMessage} (entity : msg.state = .entity)
    (nonempty : piece ≠ []) (short : piece.length ≤ 65535) :
    automaton.Reads ⟨.size [], msg⟩ (MessageSinkGny.pieceBytes piece)
      ⟨.size [], { msg with entity := msg.entity ++ piece }⟩ := by
  have size : readShort (shortBytes piece.length) 0 = piece.length := by
    have value := readShort_shortBytes piece.length
    omega
  have positive : piece.length ≠ 0 := by simpa using nonempty
  have sized : automaton.Reads ⟨.size [], msg⟩ (shortBytes piece.length)
      ⟨.piece piece.length, msg⟩ := by
    obtain ⟨high, low, bytes⟩ : ∃ high low, shortBytes piece.length = [high, low] :=
      ⟨_, _, rfl⟩
    rw [bytes] at size ⊢
    refine .into ⟨.size [high], msg⟩ rfl rfl (.single rfl ?_)
    simp [automaton, step, size, positive]
  exact sized.append (reads_pieceBytes entity nonempty)

theorem reads_endHeader {msg : HttpMessage} (header : msg.state = .header) :
    automaton.Reads ⟨.flag, msg⟩ [headerEnd] ⟨.size [], { msg with state := .entity }⟩ :=
  .single rfl (by simp [automaton, step, header, HttpMessage.endHeader])

theorem reads_endEntity {msg : HttpMessage} (entity : msg.state = .entity) :
    automaton.Reads ⟨.size [], msg⟩ [0, 0] ⟨.flag, { msg with state := .footer }⟩ := by
  refine .into ⟨.size [0], msg⟩ rfl rfl (.single rfl ?_)
  simp [automaton, step, readShort, entity, HttpMessage.endEntity]

theorem reads_endFooter {msg : HttpMessage} (footer : msg.state = .footer) :
    automaton.Reads ⟨.flag, msg⟩ [headerEnd] ⟨.done, { msg with state := .done }⟩ :=
  .single rfl (by simp [automaton, step, footer, HttpMessage.endFooter])

/-- A split entity is read back whole. -/
theorem reads_pieces {pieces : List Str} {msg : HttpMessage} (entity : msg.state = .entity)
    (splits : MessageSinkGny.Splits pieces) :
    automaton.Reads ⟨.size [], msg⟩ (MessageSinkGny.piecesBytes pieces)
      ⟨.size [], { msg with entity := msg.entity ++ pieces.flatten }⟩ := by
  induction pieces generalizing msg with
  | nil => simpa [MessageSinkGny.piecesBytes] using Automaton.Reads.nil (A := automaton) _
  | cons piece pieces ih =>
      obtain ⟨⟨nonempty, short⟩, later⟩ := List.forall_mem_cons.mp splits
      have rest := @ih { msg with entity := msg.entity ++ piece } entity later
      have whole := (reads_piece entity nonempty short).append rest
      simpa [MessageSinkGny.piecesBytes] using whole

end GnyDecoder

/-! ## Whole messages -/

/-- The format can express the message: a non-empty url without NUL and a verb, or a status that
is not the sentinel, and fields without NUL. -/
structure GnyRepresentable (msg : HttpMessage) : Prop where
  firstLine : if msg.isRequest then msg.verb ≠ verbUnknown ∧ msg.url ≠ [] ∧ 0 ∉ msg.url
    else 0 ≤ msg.status ∧ msg.status ≤ 65534
  headers : ∀ field ∈ msg.headers, 0 ∉ field.1 ∧ 0 ∉ field.2
  footers : ∀ field ∈ msg.footers, 0 ∉ field.1 ∧ 0 ∉ field.2

/-- Equal values under keys that are equal up to case. -/
def SameField (decoded field : Str × Str) : Prop :=
  SameFolded decoded.1 field.1 ∧ decoded.2 = field.2

/-- The decoded message is the message, up to the case of its keys. -/
structure SameMessage (decoded msg : HttpMessage) : Prop where
  firstLine : if msg.isRequest then decoded.verb = msg.verb ∧ decoded.url = msg.url
    else decoded.status = msg.status
  headers : List.Forall₂ SameField decoded.headers msg.headers
  footers : List.Forall₂ SameField decoded.footers msg.footers
  entity : decoded.entity = msg.entity

/-- What the reader makes of a message. -/
def gnyDecoded (msg : HttpMessage) : HttpMessage where
  isRequest := msg.isRequest
  url := if msg.isRequest then msg.url else []
  verb := if msg.isRequest then msg.verb else verbUnknown
  status := if msg.isRequest then -1 else msg.status
  headers := msg.headers.map wireField
  footers := msg.footers.map wireField
  entity := msg.entity
  state := .done

theorem forall₂_wireField {fields : Fields}
    (nulFree : ∀ field ∈ fields, 0 ∉ field.1 ∧ 0 ∉ field.2) :
    List.Forall₂ SameField (fields.map wireField) fields := by
  induction fields with
  | nil => exact .nil
  | cons field fields ih =>
      obtain ⟨here, later⟩ := List.forall_mem_cons.mp nulFree
      exact .cons ⟨sameFolded_wireKey here.1, rfl⟩ (ih later)

theorem sameMessage_gnyDecoded {msg : HttpMessage} (representable : GnyRepresentable msg) :
    SameMessage (gnyDecoded msg) msg where
  firstLine := by
    by_cases request : msg.isRequest = true <;> simp [gnyDecoded, request]
  headers := forall₂_wireField representable.headers
  footers := forall₂_wireField representable.footers
  entity := rfl

/-- A representable message has a first line, and the decoder reads it. -/
theorem GnyRepresentable.reads_firstLine {msg : HttpMessage}
    (representable : GnyRepresentable msg) :
    ∃ first, MessageSinkGny.firstLine msg = some first ∧
      GnyDecoder.automaton.Reads (.fresh msg.isRequest) first
        ⟨.flag, { gnyDecoded msg with
          headers := [], footers := [], entity := [], state := .header }⟩ := by
  have line := representable.firstLine
  by_cases request : msg.isRequest = true
  · rw [if_pos request] at line
    obtain ⟨verb, url, nulFree⟩ := line
    refine ⟨msg.verb :: (msg.url ++ [0]), by
      simp [MessageSinkGny.firstLine, request, url, verb, writeString], ?_⟩
    rw [request]
    refine .into ⟨.url [], (HttpMessage.fresh true).setVerb msg.verb⟩ rfl rfl ?_
    simpa [gnyDecoded, request, HttpMessage.setVerb, HttpMessage.setUrl, HttpMessage.fresh] using
      @GnyDecoder.reads_url ((HttpMessage.fresh true).setVerb msg.verb) [] _ nulFree
  · rw [if_neg request] at line
    rw [Bool.not_eq_true] at request
    have wraps : toInt16 msg.status % 65536 = msg.status := by
      rw [toInt16_emod]
      omega
    have known : toInt16 msg.status ≠ -1 := by
      intro equality
      rw [equality] at wraps
      omega
    refine ⟨shortBytes (toInt16 msg.status), by
      simp [MessageSinkGny.firstLine, request, known, writeShort], ?_⟩
    have value : (readShort (shortBytes (toInt16 msg.status)) 0 : Int) = msg.status := by
      rw [readShort_shortBytes, wraps]
    rw [request]
    simpa [gnyDecoded, request, HttpMessage.setStatus, HttpMessage.fresh, GnyDecoder.fresh,
      value] using GnyDecoder.reads_status (.fresh false) (toInt16 msg.status)

/-- The decoder reads the layout of a representable message back. -/
theorem GnyRepresentable.reads_stream {msg : HttpMessage} (representable : GnyRepresentable msg)
    {first : Str} {progress : Progress} (known : MessageSinkGny.firstLine msg = some first)
    (done : progress.writeState = .done) (splits : MessageSinkGny.Splits progress.pieces)
    (headers : progress.headers = msg.headers) (entity : progress.pieces.flatten = msg.entity)
    (footers : progress.footers = msg.footers) :
    GnyDecoder.automaton.Reads (.fresh msg.isRequest) (MessageSinkGny.stream first progress)
      ⟨.done, gnyDecoded msg⟩ := by
  obtain ⟨first', known', begun⟩ := representable.reads_firstLine
  rw [known] at known'
  obtain rfl := Option.some.inj known'
  have layout : MessageSinkGny.stream first progress =
      first ++ (MessageSinkGny.fieldsBytes msg.headers ++ ([headerEnd] ++
        (MessageSinkGny.piecesBytes progress.pieces ++ ([0, 0] ++
          (MessageSinkGny.fieldsBytes msg.footers ++ [headerEnd]))))) := by
    simp [MessageSinkGny.stream, done, headers, footers]
  rw [layout]
  refine begun.append ((GnyDecoder.reads_headers rfl representable.headers).append ?_)
  refine (GnyDecoder.reads_endHeader rfl).append ((GnyDecoder.reads_pieces rfl splits).append ?_)
  refine (GnyDecoder.reads_endEntity rfl).append ?_
  refine (GnyDecoder.reads_footers rfl representable.footers).append ?_
  simpa [gnyDecoded, entity] using
    @GnyDecoder.reads_endFooter { gnyDecoded msg with state := .footer } rfl

/-- What was read as a whole message is what a fresh reader makes of one buffer. -/
theorem gnyOutcome_of_reads {isRequest : Bool} {stream : Str} {msg : HttpMessage}
    (reads : GnyDecoder.automaton.Reads (.fresh isRequest) stream ⟨.done, msg⟩) (rest : Str) :
    gnyOutcome isRequest [stream ++ rest] = .ok (msg, true, stream.length) := by
  have nonempty : stream ++ rest ≠ [] := by
    intro empty
    obtain ⟨rfl, -⟩ := List.append_eq_nil_iff.mp empty
    cases isRequest <;> cases reads
  simpa using gnyOutcome_singleton nonempty (reads.run_final rfl rest)

namespace Transfer

/-- Fewer than two gigabytes of entity wait in the message. -/
def Small (transfer : Transfer) : Prop := transfer.msg.entity.length < 2 ^ 31

/-- For a GNY writer small messages are all that is needed. -/
theorem callable_of_small {transfer : Transfer} (kind : (MessageSink.gny {}).SameKind transfer.sink)
    (small : transfer.Small) : transfer.Callable := by
  obtain ⟨msg, sink, whole, sent⟩ := transfer
  cases sink with
  | gny sink => exact ⟨small, _, rfl⟩
  | v11 sink => exact absurd kind (by simp [MessageSink.SameKind])

/-- An entity below two gigabytes is small at every call of every schedule. -/
theorem everyCall_small {transfer : Transfer} {events : List Event} {last : HttpMessage}
    (kind : (MessageSink.gny {}).SameKind transfer.sink) (sound : transfer.Sound)
    (delivers : Delivers transfer.whole events last) (bound : last.entity.length < 2 ^ 31) :
    EveryCall Small transfer events := by
  refine sound.everyCall (fun _ => callable_of_small) (fun reached events _ sound delivers => ?_)
    kind delivers
  obtain ⟨progress, -, accounts⟩ := sound
  have part := congrArg List.length accounts.entity
  have growth := delivers.entity_le
  rw [List.length_append] at part
  rw [Small]
  omega

/-- On a schedule whose calls find small messages, what a GNY writer puts out of a representable
message is read back as the message. -/
theorem Sound.decodesGny {transfer : Transfer} {events : List Event} {last : HttpMessage}
    (sound : transfer.Sound) (kind : (MessageSink.gny {}).SameKind transfer.sink)
    (delivers : Delivers transfer.whole events last) (done : last.state = .done)
    (representable : GnyRepresentable last)
    (small : EveryCall Small transfer (events ++ [.getWriteSize])) :
    ∃ final, transfer.run (events ++ [.getWriteSize]) = .ok final ∧
      ∀ rest, ∃ decoded, gnyOutcome last.isRequest [final.encoding ++ rest] =
        .ok (decoded, true, final.encoding.length) ∧ SameMessage decoded last := by
  have kept {events : List Event} {reached : Transfer}
      (outcome : transfer.run events = .ok reached) :
      (MessageSink.gny {}).SameKind reached.sink := kind.trans (sameKind_of_run outcome)
  have callable : EveryCall Callable transfer events :=
    fun front event back reached shape call outcome =>
      callable_of_small (kept outcome) (small.left front event back reached shape call outcome)
  obtain ⟨caught, run_eq, sound', rfl, same⟩ := sound.run delivers callable
  obtain ⟨takes, -⟩ := callable_of_small (kept run_eq)
    (small events .getWriteSize [] caught rfl (by simp) run_eq)
  have kind' := kept run_eq
  obtain ⟨first, known, -⟩ := representable.reads_firstLine
  obtain ⟨final, step_eq, progress, writeState, encoding_eq, splits, headers, entity, footers⟩ :=
    sound'.encoding takes (by rw [← kind'.firstLine]; exact congrArg _ known) done
  refine ⟨final, by rw [run_append, run_eq]; simp [Transfer.run, step_eq], fun rest => ?_⟩
  have reads := representable.reads_stream known writeState
    (by rwa [← kind'.splits] at splits) headers entity footers
  rw [encoding_eq, ← kind'.stream]
  exact ⟨gnyDecoded caught.whole, gnyOutcome_of_reads reads rest,
    sameMessage_gnyDecoded representable⟩

end Transfer

namespace MessageSinkGny

/-- A length that is negative as an `int` is written as one size, and all bytes behind it. -/
theorem splitEntity_negative {moreEntity : Str} (nonempty : moreEntity ≠ [])
    (negative : toInt32 moreEntity.length < 0) (dataStream : Str) :
    splitEntity dataStream moreEntity =
      .ok (writeShort dataStream (toInt32 moreEntity.length) ++ moreEntity) := by
  have positive := List.length_pos_iff.mpr nonempty
  obtain ⟨size, size_def⟩ : ∃ size, toInt32 moreEntity.length = size := ⟨_, rfl⟩
  obtain ⟨fuel, length_eq⟩ : ∃ fuel, moreEntity.length = fuel + 1 :=
    Nat.exists_eq_add_of_lt positive |>.imp fun fuel equality => by omega
  rw [size_def] at negative ⊢
  have size_eq : min (size - 0) 65535 = size := by omega
  rw [splitEntity, splitEntityLoop, if_pos (by omega)]
  simp only [size_def, size_eq, if_neg (by omega : ¬0 ≤ size), Int.toNat_zero, List.drop_zero,
    zero_add]
  rw [length_eq, splitEntityLoop, if_neg (by omega)]

end MessageSinkGny

/-- A response whose entity of two gigabytes is drained at once: its size is written as zero. -/
theorem encoding_negative {entity : Str} (length : entity.length = 2 ^ 31) :
    ∃ final, (Transfer.start (.gny {}) false).run
        [.update (.setStatus 200), .update .endHeader, .update (.appendEntity entity),
          .update .endEntity, .update .endFooter, .getWriteSize] = .ok final ∧
      final.encoding = [0, 200, 54, 0, 0] ++ entity ++ [0, 0, 54] := by
  have nonempty : entity ≠ [] := by
    rintro rfl
    simp at length
  have narrow : toInt32 entity.length = -2147483648 := by
    rw [length]
    decide
  have split := MessageSinkGny.splitEntity_negative nonempty (by rw [narrow]; decide) [0, 200, 54]
  have status : shortBytes 200 = [0, 200] := by decide
  have size : shortBytes (-2147483648) = [0, 0] := by decide
  have zero : shortBytes 0 = [0, 0] := by decide
  have check : MessageSinkGny.checkForUpdate {}
      { isRequest := false, status := 200, entity, state := .done } =
      .ok ({ writeState := .done, init := true
             dataStream := [0, 200, 54, 0, 0] ++ entity ++ [0, 0, 54] },
        { isRequest := false, status := 200, state := .done }) := by
    have known : MessageSinkGny.firstLine
        { isRequest := false, status := 200, entity, state := .done } = some [0, 200] := by
      have same : toInt16 200 = 200 := by decide
      simp [MessageSinkGny.firstLine, same, writeShort, status]
    simp [MessageSinkGny.checkForUpdate, MessageSinkGny.begin, known,
      MessageSinkGny.sendAvailable, MessageSinkGny.sendHeaders, MessageSinkGny.sendEntity,
      MessageSinkGny.sendFooters, HttpMessage.clearHeaders, HttpMessage.clearEntity,
      HttpMessage.clearFooters, headerEnd, split, narrow, writeShort, size, zero]
  refine ⟨{ msg := { isRequest := false, status := 200, state := .done },
            sink := .gny { writeState := .done, init := true
                           dataStream := [0, 200, 54, 0, 0] ++ entity ++ [0, 0, 54] }
            whole := { isRequest := false, status := 200, entity, state := .done } }, ?_, rfl⟩
  simp [Transfer.run, Transfer.step, Transfer.start, HttpMessage.update, HttpMessage.fresh,
    HttpMessage.setStatus, HttpMessage.endHeader, HttpMessage.appendEntity, HttpMessage.endEntity,
    HttpMessage.endFooter, MessageSink.getWriteSize, MessageSinkGny.getWriteSize, check]

end GnyProxy
