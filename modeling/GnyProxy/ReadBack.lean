import GnyProxy.GnyRoundTrip
import GnyProxy.RoundTrip11
import GnyProxy.Handing
import GnyProxy.Requester
import GnyProxy.Lookup

/-!
# Encodings are read back

A complete encoding of a message that its protocol can carry is read back as the message, in any
cut and whatever follows it.
-/

namespace GnyProxy

open Incremental

/-! ## Layouts -/

/-- The account of a writer is about the first line and the contents. -/
theorem MessageSink.Represents.congr {sent : Str} {sink : MessageSink} {progress : Progress}
    {whole whole' : HttpMessage} (represents : sink.Represents sent progress whole)
    (line : sink.firstLine whole' = sink.firstLine whole) :
    sink.Represents sent progress whole' := by
  cases sink with
  | gny sink =>
      have same : MessageSinkGny.firstLine whole' = MessageSinkGny.firstLine whole :=
        Except.ok.inj line
      rw [MessageSink.Represents, MessageSinkGny.Represents, same]
      exact represents
  | v11 sink =>
      have same : MessageSink11.firstLine whole' = MessageSink11.firstLine whole := line
      rw [MessageSink.Represents, MessageSink11.Represents, same]
      exact represents

/-- An entity that is small in the end was small before. -/
theorem MessageSink.takes_of_le {sink sink' : MessageSink} {msg whole : HttpMessage}
    (takes : sink.Takes whole) (kind : sink.SameKind sink')
    (shorter : msg.entity.length ≤ whole.entity.length) : sink'.Takes msg := by
  cases sink <;> cases sink' <;> simp_all [MessageSink.Takes, MessageSink.SameKind]
  omega

namespace Transfer

variable {sink : MessageSink} {first : Str} {transfer : Transfer}

/-- What is left of an entity is no longer than the whole. -/
theorem Accounted.entity_le (accounted : transfer.Accounted) :
    transfer.msg.entity.length ≤ transfer.whole.entity.length := by
  obtain ⟨progress, accounts, -⟩ := accounted.account
  rw [← accounts.entity, List.length_append]
  exact Nat.le_add_left _ _

/-- The writer accounts for a request whose entity is small in the end. -/
theorem Requesting.sound (fresh : sink.IsFresh) (requesting : Requesting sink first transfer)
    (takes : sink.Takes transfer.whole) : transfer.Sound := by
  induction requesting with
  | handed begins => exact sound_handed fresh _
  | @update transfer next update before step_eq begins ih =>
      have before : Requesting sink first transfer := before
      obtain ⟨-, known, kind⟩ := before.kept fresh
      obtain ⟨msg, whole, msg_eq, whole_eq, rfl⟩ := Transfer.step_update step_eq
      have shorter : transfer.whole.entity.length ≤ whole.entity.length := by
        by_cases append : ∃ entity, update = .appendEntity entity
        · obtain ⟨entity, rfl⟩ := append
          obtain ⟨-, rfl⟩ := HttpMessage.appendEntity_eq_ok.mp whole_eq
          simp
        · rw [entity_update (fun entity same => append ⟨entity, same⟩) whole_eq]
      obtain ⟨progress, represents, accounts⟩ := ih (sink.takes_of_le takes (.refl sink) shorter)
      obtain ⟨msg', msg_eq', accounts'⟩ := accounts.update whole_eq
      obtain rfl := Except.ok.inj (msg_eq.symm.trans msg_eq')
      refine ⟨progress, represents.congr ?_, accounts'⟩
      rw [← kind.firstLine, ← kind.firstLine]
      exact begins.trans known.symm
  | @call transfer next event before call step_eq ih =>
      have before : Requesting sink first transfer := before
      obtain ⟨accounted, known, kind⟩ := before.kept fresh
      have whole_eq := (accounted.call call step_eq).1
      rw [whole_eq] at takes
      have callable : transfer.Callable :=
        ⟨sink.takes_of_le takes kind accounted.entity_le, some first, kind.firstLine _ ▸ known⟩
      obtain ⟨next', step_eq', sound, -⟩ := (ih takes).call callable call
      obtain rfl := Except.ok.inj (step_eq.symm.trans step_eq')
      exact sound

/-- A complete encoding is the layout of its message. -/
theorem EncodesMessage.layout {msg : HttpMessage} {encoding : Str} (fresh : sink.IsFresh)
    (encodes : EncodesMessage sink msg encoding) (takes : sink.Takes msg) :
    ∃ first progress, sink.firstLine msg = .ok (some first) ∧
      encoding = sink.stream first progress ∧ progress.writeState = .done ∧
      sink.Splits progress.pieces ∧ progress.headers = msg.headers ∧
      progress.pieces.flatten = msg.entity ∧ progress.footers = msg.footers := by
  obtain ⟨first, final, requesting, finished, rfl, rfl⟩ := encodes
  obtain ⟨-, -, kind⟩ := requesting.kept fresh
  rw [kind.stream, kind.splits, kind.firstLine]
  exact (requesting.sound fresh takes).layout finished

end Transfer

/-! ## GNY without keys of its own -/

namespace GnyDecoder

/-- The decoder is in no field under `HEADER_UNKNOWN`. -/
def OutsideKey (dec : GnyDecoder) : Prop :=
  match dec.phase with
  | .literalKey _ | .literalValue _ _ => False
  | _ => True

/-- A value, once the phase stays the same but for the bytes that it gathers. -/
theorem along_value (phase : Str → Phase) {msg next : HttpMessage} {value : Str}
    (outside : ∀ field, OutsideKey ⟨phase field, msg⟩) (open_ : ∀ field, phase field ≠ .done)
    (gathers : ∀ field ch, ch ≠ 0 → step ⟨phase field, msg⟩ ch = .ok ⟨phase (field ++ [ch]), msg⟩)
    (ends : step ⟨phase value, msg⟩ 0 = .ok ⟨.flag, next⟩) (nulFree : 0 ∉ value) :
    automaton.Along OutsideKey ⟨phase [], msg⟩ (value ++ [0]) := by
  have along {left right : Str} (whole : left ++ right = value) (clean : 0 ∉ right) :
      automaton.Along OutsideKey ⟨phase left, msg⟩ (right ++ [0]) := by
    induction right generalizing left with
    | nil =>
        rw [List.append_nil] at whole
        subst whole
        exact .cons (by simp [automaton, open_]) ends (outside left) (.nil (by simp [OutsideKey]))
    | cons ch right ih =>
        simp only [List.mem_cons, not_or] at clean
        refine .cons (by simp [automaton, open_]) ?_ (outside left)
          (@ih (left ++ [ch]) (by simpa using whole) clean.2)
        exact gathers left ch fun equality => clean.1 equality.symm
  exact along (List.nil_append value) nulFree

/-- A field whose key has a code. -/
theorem along_field {msg next : HttpMessage} {field : Str × Str}
    (coded : atoheader field.1 ≠ headerUnknown) (nulFree : 0 ∉ field.2)
    (added : msg.addField (wireKey field.1) field.2 = .ok next) :
    automaton.Along OutsideKey ⟨.flag, msg⟩ (MessageSinkGny.fieldBytes field) := by
  obtain ⟨key, value⟩ := field
  obtain unknown | ⟨known, name, named, -⟩ := atoheader_cases key
  · exact absurd unknown coded
  · have inner : atoheader key ≠ headerEnd := fun equality => by
      rw [equality] at known
      exact absurd known (by decide)
    have layout : MessageSinkGny.fieldBytes (key, value) =
        atoheader key :: (value ++ [0]) := by
      simp [MessageSinkGny.fieldBytes, MessageSinkGny.addKeyValuePair, coded, writeString]
    rw [wireKey, if_neg coded, named, Option.getD_some] at added
    have begins : automaton.step ⟨.flag, msg⟩ (atoheader key) =
        .ok ⟨.tableValue (atoheader key) [], msg⟩ := by
      simp [automaton, step, inner, coded, known]
    have ends : step ⟨.tableValue (atoheader key) value, msg⟩ 0 = .ok ⟨.flag, next⟩ := by
      simp [step, headerName, named, added]
    rw [layout]
    refine .cons rfl begins (by simp [OutsideKey]) ?_
    exact along_value (.tableValue (atoheader key)) (by simp [OutsideKey]) (by simp)
      (by simp +contextual [step]) ends nulFree

/-- The header or footer lines of a message. -/
theorem along_fields {fields : Fields} {msg : HttpMessage}
    (section_ : msg.state = .header ∨ msg.state = .footer)
    (coded : ∀ field ∈ fields, atoheader field.1 ≠ headerUnknown)
    (nulFree : ∀ field ∈ fields, 0 ∉ field.1 ∧ 0 ∉ field.2) :
    automaton.Along OutsideKey ⟨.flag, msg⟩ (MessageSinkGny.fieldsBytes fields) := by
  induction fields generalizing msg with
  | nil => exact .nil (by simp [OutsideKey])
  | cons field fields ih =>
      obtain ⟨here, later⟩ := List.forall_mem_cons.mp nulFree
      obtain ⟨code, codes⟩ := List.forall_mem_cons.mp coded
      obtain ⟨next, added, state⟩ := addField_ok section_ (wireKey field.1) field.2
      have rest := ih (state ▸ section_) codes later
      have whole := (along_field code here.2 added).append (reads_field here.1 here.2 added) rest
      simpa [MessageSinkGny.fieldsBytes] using whole

/-- The bytes of a piece, behind its size. -/
theorem along_pieceBytes {piece : Str} {msg : HttpMessage} (entity : msg.state = .entity) :
    automaton.Along OutsideKey ⟨.piece piece.length, msg⟩ piece := by
  induction piece generalizing msg with
  | nil => exact .nil (by simp [OutsideKey])
  | cons ch piece ih =>
      have appended : msg.appendEntity [ch] = .ok { msg with entity := msg.entity ++ [ch] } := by
        simp [HttpMessage.appendEntity, entity]
      by_cases last : piece = []
      · subst last
        have ends : automaton.step ⟨.piece [ch].length, msg⟩ ch =
            .ok ⟨.size [], { msg with entity := msg.entity ++ [ch] }⟩ := by
          simp [automaton, step, appended]
        exact .cons rfl ends (by simp [OutsideKey]) (.nil (by simp [OutsideKey]))
      · have next : automaton.step ⟨.piece (ch :: piece).length, msg⟩ ch =
            .ok ⟨.piece piece.length, { msg with entity := msg.entity ++ [ch] }⟩ := by
          simp [automaton, step, appended, last]
        exact .cons rfl next (by simp [OutsideKey]) (ih entity)

/-- A split entity. -/
theorem along_pieces {pieces : List Str} {msg : HttpMessage} (entity : msg.state = .entity)
    (splits : MessageSinkGny.Splits pieces) :
    automaton.Along OutsideKey ⟨.size [], msg⟩ (MessageSinkGny.piecesBytes pieces) := by
  induction pieces generalizing msg with
  | nil => exact .nil (by simp [OutsideKey])
  | cons piece pieces ih =>
      obtain ⟨⟨nonempty, short⟩, later⟩ := List.forall_mem_cons.mp splits
      have value := readShort_shortBytes piece.length
      have positive : piece.length ≠ 0 := by simpa using nonempty
      obtain ⟨high, low, bytes⟩ : ∃ high low, shortBytes piece.length = [high, low] :=
        ⟨_, _, rfl⟩
      have size : readShort [high, low] 0 = piece.length := by
        rw [bytes] at value
        omega
      have sized : automaton.step ⟨.size [high], msg⟩ low = .ok ⟨.piece piece.length, msg⟩ := by
        simp [automaton, step, size, positive]
      have one : automaton.Along OutsideKey ⟨.size [], msg⟩ (MessageSinkGny.pieceBytes piece) := by
        rw [MessageSinkGny.pieceBytes, bytes]
        exact .cons rfl rfl (by simp [OutsideKey])
          (.cons rfl sized (by simp [OutsideKey]) (along_pieceBytes entity))
      have rest := @ih { msg with entity := msg.entity ++ piece } entity later
      have whole := one.append (reads_piece entity nonempty short) rest
      simpa [MessageSinkGny.piecesBytes] using whole

end GnyDecoder

/-- The keys of all fields have codes. -/
def HttpMessage.Coded (msg : HttpMessage) : Prop :=
  ∀ field ∈ msg.headers ++ msg.footers, atoheader field.1 ≠ headerUnknown

instance (msg : HttpMessage) : Decidable msg.Coded :=
  inferInstanceAs (Decidable (∀ field ∈ msg.headers ++ msg.footers, _))

namespace GnyRepresentable

open GnyDecoder

variable {msg : HttpMessage} {first : Str}

theorem along_firstLine (representable : GnyRepresentable msg)
    (known : MessageSinkGny.firstLine msg = some first) :
    automaton.Along OutsideKey (.fresh msg.isRequest) first := by
  have line := representable.firstLine
  by_cases request : msg.isRequest = true
  · rw [if_pos request] at line
    obtain ⟨verb, url, nulFree⟩ := line
    obtain rfl : msg.verb :: (msg.url ++ [0]) = first := by
      simpa [MessageSinkGny.firstLine, request, url, verb, writeString] using known
    rw [request]
    refine .cons rfl rfl (by simp [OutsideKey, fresh]) ?_
    exact along_value .url (by simp [OutsideKey]) (by simp) (by simp +contextual [step]) rfl nulFree
  · rw [if_neg request] at line
    rw [Bool.not_eq_true] at request
    obtain ⟨high, low, rfl⟩ : ∃ high low, first = [high, low] := by
      simp only [MessageSinkGny.firstLine, request, writeShort, Bool.false_eq_true,
        if_false] at known
      split at known
      · cases known
      · cases known
        exact ⟨_, _, rfl⟩
    rw [request]
    exact .cons rfl rfl (by simp [OutsideKey, fresh])
      (.cons rfl rfl (by simp [OutsideKey]) (.nil (by simp [OutsideKey])))

/-- The decoder of a message without keys of its own is never in a key. -/
theorem along_stream (representable : GnyRepresentable msg) (coded : msg.Coded)
    {progress : Progress} (known : MessageSinkGny.firstLine msg = some first)
    (done : progress.writeState = .done) (splits : MessageSinkGny.Splits progress.pieces)
    (headers : progress.headers = msg.headers) (footers : progress.footers = msg.footers) :
    automaton.Along OutsideKey (.fresh msg.isRequest) (MessageSinkGny.stream first progress) := by
  obtain ⟨codedHeaders, codedFooters⟩ := List.forall_mem_append.mp coded
  obtain ⟨first', known', begun⟩ := representable.reads_firstLine
  rw [known] at known'
  obtain rfl := Option.some.inj known'
  have layout : MessageSinkGny.stream first progress =
      first ++ (MessageSinkGny.fieldsBytes msg.headers ++ ([headerEnd] ++
        (MessageSinkGny.piecesBytes progress.pieces ++ ([0, 0] ++
          (MessageSinkGny.fieldsBytes msg.footers ++ [headerEnd]))))) := by
    simp [MessageSinkGny.stream, done, headers, footers]
  have outside (msg : HttpMessage) : OutsideKey ⟨.flag, msg⟩ := by simp [OutsideKey]
  rw [layout]
  refine (representable.along_firstLine known).append begun ?_
  refine (along_fields (Or.inl rfl) codedHeaders representable.headers).append
    (reads_headers rfl representable.headers) ?_
  refine .append (reads_endHeader rfl) ?_ ?_
  · exact .cons rfl (by simp [automaton, step, HttpMessage.endHeader]; rfl) (outside _)
      (.nil (by simp [OutsideKey]))
  refine (along_pieces rfl splits).append (reads_pieces rfl splits) ?_
  refine .append (reads_endEntity rfl) ?_ ?_
  · exact .cons rfl rfl (by simp [OutsideKey])
      (.cons rfl (by simp [automaton, step, readShort, HttpMessage.endEntity]; rfl)
        (by simp [OutsideKey]) (.nil (outside _)))
  refine (along_fields (Or.inr rfl) codedFooters representable.footers).append
    (reads_footers rfl representable.footers) ?_
  exact .cons rfl (by simp [automaton, step, HttpMessage.endFooter]; rfl) (outside _)
    (.nil (by simp [OutsideKey]))

/-- Such a message is read without regard to what is kept of values under `HEADER_UNKNOWN`. -/
theorem reads_plain {stream : Str} {last : GnyDecoder} {dec : GnyDecoder}
    (reads : automaton.Reads dec stream last) (along : automaton.Along OutsideKey dec stream) :
    plain.Reads dec stream last := by
  refine reads.restrict fun front middle begins reaches ch => ?_
  obtain ⟨phase, msg⟩ := middle
  have outside := along front _ begins reaches
  cases phase with
  | literalValue key field => exact outside.elim
  | _ => rfl

end GnyRepresentable

/-! ## Both protocols -/

/-- The message as it is behind a writer and a reader: the case of its keys may have changed, and in
HTTP/1.1 its verb may not be found. -/
structure HttpMessage.Conveyed (msg decoded : HttpMessage) : Prop where
  isRequest : decoded.isRequest = msg.isRequest
  verb : msg.isRequest = true → decoded.verb = msg.verb ∨ decoded.verb = verbUnknown
  url : msg.isRequest = true → decoded.url = msg.url
  status : msg.isRequest = false → decoded.status = msg.status
  headers : List.Forall₂ SameField decoded.headers msg.headers
  footers : List.Forall₂ SameField decoded.footers msg.footers
  entity : decoded.entity = msg.entity

theorem forall₂_sameField_refl (fields : Fields) : List.Forall₂ SameField fields fields :=
  List.forall₂_same.mpr fun _ _ => ⟨.refl _, rfl⟩

theorem forall₂_sameField_trans {first second third : Fields}
    (left : List.Forall₂ SameField first second) (right : List.Forall₂ SameField second third) :
    List.Forall₂ SameField first third := by
  induction left generalizing third with
  | nil =>
      cases right
      exact .nil
  | cons here _ ih =>
      cases right with
      | cons here' later => exact .cons ⟨here.1.trans here'.1, here.2.trans here'.2⟩ (ih later)

theorem HttpMessage.Conveyed.trans {msg decoded again : HttpMessage} (first : Conveyed msg decoded)
    (second : Conveyed decoded again) : Conveyed msg again where
  isRequest := second.isRequest.trans first.isRequest
  verb request := by
    rcases second.verb (first.isRequest.trans request) with same | unknown
    · exact (first.verb request).imp same.trans same.trans
    · exact Or.inr unknown
  url request := (second.url (first.isRequest.trans request)).trans (first.url request)
  status response := (second.status (first.isRequest.trans response)).trans (first.status response)
  headers := forall₂_sameField_trans second.headers first.headers
  footers := forall₂_sameField_trans second.footers first.footers
  entity := second.entity.trans first.entity

theorem conveyed_gny {msg : HttpMessage} (representable : GnyRepresentable msg) :
    msg.Conveyed (gnyDecoded msg) where
  isRequest := rfl
  verb request := Or.inl (if_pos request)
  url request := if_pos request
  status response := by simp [gnyDecoded, response]
  headers := forall₂_wireField representable.headers
  footers := forall₂_wireField representable.footers
  entity := rfl

/-- The first token of a request line is the name of its verb. -/
theorem verb_complete {msg : HttpMessage} {first text : Str} (readable : Readable first msg text)
    (known : MessageSink11.firstLine msg = .ok (some first)) (request : msg.isRequest = true)
    (headers footers : Fields) (entity : Str) :
    (Decoder11.complete msg.isRequest text headers entity footers).verb = msg.verb ∨
      (Decoder11.complete msg.isRequest text headers entity footers).verb = verbUnknown := by
  have line := known
  simp only [MessageSink11.firstLine, request, if_true] at line
  split at line
  · cases line
  · cases named : verbtoa msg.verb with
    | none =>
        rw [named] at line
        cases line
    | some name =>
        rw [named] at line
        have layout : name ++ [32] ++ urlEncode msg.url ++ ascii " HTTP/1.1" ++ crlf = first :=
          Option.some.inj (Except.ok.inj line)
        have whole : text = name ++ 32 :: (urlEncode msg.url ++ ascii " HTTP/1.1") := by
          have same := layout.trans readable.line
          simpa using (List.append_cancel_right same).symm
        obtain ⟨nonempty, plain⟩ :=
          unspaced_verbs (List.mem_of_getElem? (show httpRequestVerbStrings[_]? = _ from named))
        have verb : (Decoder11.complete msg.isRequest text headers entity footers).verb =
            atoverb name := by
          rw [request]
          change atoverb (getToken text).1 = atoverb name
          rw [whole, getToken_append _ nonempty plain]
        rw [verb, (atoverb_name named).2]
        split
        · exact Or.inr rfl
        · exact Or.inl rfl

theorem conveyed_v11 {msg : HttpMessage} (representable : Representable11 msg) {first text : Str}
    (known : MessageSink11.firstLine msg = .ok (some first))
    (readable : Readable first msg text) :
    msg.Conveyed (Decoder11.complete msg.isRequest text msg.headers msg.entity msg.footers) := by
  obtain ⟨line, headers, footers, entity⟩ := representable.sameMessage_complete readable
  refine ⟨?_, fun request => verb_complete readable known request _ _ _, fun request => ?_,
    fun response => ?_, ?_, ?_, entity⟩
  · change (parseFirstLine (.fresh msg.isRequest) text).isRequest = msg.isRequest
    unfold parseFirstLine
    split <;> rfl
  · rwa [if_pos request] at line
  · rwa [if_neg (by simp [response])] at line
  · rw [headers]
    exact forall₂_sameField_refl _
  · rw [footers]
    exact forall₂_sameField_refl _

namespace Protocol

/-- The reader of a request or a response. -/
def reader (protocol : Protocol) (isRequest : Bool) : MessageSource :=
  if isRequest then protocol.readerCreator else protocol.responseReader

/-- The message can be carried: its first line and its fields can be written, the length of its
entity is within bounds, and in GNY the keys of its fields have codes. -/
def Carries : Protocol → HttpMessage → Prop
  | .gny, msg => GnyRepresentable msg ∧ msg.Coded ∧ msg.entity.length < 2 ^ 31
  | .v11, msg => Representable11 msg ∧ msg.Framed ∧ msg.entity.length < 2 ^ 63

end Protocol

theorem GnyDecoder.Consistent.done_iff {dec : GnyDecoder} (consistent : dec.Consistent) :
    dec.msg.state = .done ↔ dec.phase = .done := by
  obtain ⟨phase, msg⟩ := dec
  cases phase with
  | flag | literalKey | literalValue =>
      rcases consistent with same | same <;> simp [show msg.state = _ from same]
  | tableValue => rcases consistent.1 with same | same <;> simp [show msg.state = _ from same]
  | _ => simp [show msg.state = _ from consistent]

theorem Decoder11.Consistent.done_iff {dec : Decoder11} (consistent : dec.Consistent) :
    dec.msg.state = .done ↔ dec.phase = .done := by
  obtain ⟨phase, msg⟩ := dec
  cases phase <;> simp [show msg.state = _ from consistent]

/-- A reader in the middle of a message: with what is left of the encoding it has the whole. -/
def MessageSource.Awaits (source : MessageSource) (msg : HttpMessage) (left : Str)
    (whole : HttpMessage) : Prop :=
  match source with
  | .gny source => ∃ dec, GnyDecoder.MatchesPlain (source, msg) dec ∧ dec.Consistent ∧
      GnyDecoder.plain.Reads dec left ⟨.done, whole⟩
  | .v11 source => ∃ dec, Decoder11.Matches (source, msg) dec ∧ dec.Consistent ∧
      Decoder11.automaton.Reads dec left ⟨.done, whole⟩

namespace MessageSource

variable {source : MessageSource} {msg whole : HttpMessage} {left rest rbuf : Str}
  {given : List Str}

/-- Of what arrives, however much it is, the reader takes what belongs to the message. -/
theorem Awaits.read (awaits : source.Awaits msg left whole) (begins : rbuf <+: left ++ rest) :
    ∃ source' msg', source.read msg rbuf = .ok ((source', msg'), min rbuf.length left.length) ∧
      source'.Awaits msg' (left.drop rbuf.length) whole := by
  cases source with
  | gny source =>
      obtain ⟨dec, same, consistent, reads⟩ := awaits
      obtain ⟨⟨source', msg'⟩, dec', read_eq, same', before, after⟩ :=
        GnyDecoder.simulates_plain.next same reads rfl begins
      refine ⟨.gny source', msg', ?_, dec', same', ?_, after⟩
      · simp only [MessageSource.read, read_eq, ok_bind]
      · refine before.invariant (P := GnyDecoder.Consistent) (fun step_eq => ?_) consistent
        exact GnyDecoder.consistent_of_step (Automaton.step_of_restrict step_eq)
  | v11 source =>
      obtain ⟨dec, same, consistent, reads⟩ := awaits
      obtain ⟨⟨source', msg'⟩, dec', read_eq, same', before, after⟩ :=
        Decoder11.simulates.next same reads rfl begins
      refine ⟨.v11 source', msg', ?_, dec', same', ?_, after⟩
      · simp only [MessageSource.read, read_eq, ok_bind]
      · exact before.invariant (P := Decoder11.Consistent)
          (fun step_eq consistent => Decoder11.consistent_step consistent step_eq) consistent

/-- When nothing is left the message is the whole. -/
theorem Awaits.eq_of_nil (awaits : source.Awaits msg [] whole) : msg = whole := by
  cases source with
  | gny source | v11 source =>
      obtain ⟨dec, same, -, reads⟩ := awaits
      cases reads
      exact same.2

/-- The message is done when nothing is left of its encoding, and not before. -/
theorem Awaits.done_iff (awaits : source.Awaits msg left whole) :
    msg.state = .done ↔ left = [] := by
  cases source with
  | gny source =>
      obtain ⟨dec, same, consistent, reads⟩ := awaits
      rw [show msg = dec.msg from same.2, consistent.done_iff]
      refine ⟨fun ended => (reads.nil_of_final (decide_eq_true ended)).1, ?_⟩
      rintro rfl
      cases reads
      rfl
  | v11 source =>
      obtain ⟨dec, same, consistent, reads⟩ := awaits
      rw [show msg = dec.msg from same.2, consistent.done_iff]
      refine ⟨fun ended => (reads.nil_of_final (decide_eq_true ended)).1, ?_⟩
      rintro rfl
      cases reads
      rfl

/-- In any cut and with anything behind it the message is read. -/
theorem Awaits.readAll (awaits : source.Awaits msg left whole)
    (cut : given.flatten = left ++ rest) :
    ∃ source', source.readAll msg given = .ok (source', whole) := by
  induction given generalizing source msg left rest with
  | nil =>
      obtain ⟨rfl, -⟩ := List.append_eq_nil_iff.mp cut.symm
      obtain rfl := awaits.eq_of_nil
      exact ⟨source, rfl⟩
  | cons rbuf given ih =>
      rw [List.flatten_cons] at cut
      obtain ⟨source', msg', read_eq, awaits'⟩ := awaits.read (cut ▸ List.prefix_append _ _)
      have behind : given.flatten =
          left.drop rbuf.length ++ rest.drop (rbuf.length - left.length) := by
        rw [← List.drop_append, ← cut, List.drop_left]
      obtain ⟨last, read_all⟩ := ih awaits' behind
      refine ⟨last, ?_⟩
      rw [MessageSource.readAll, read_eq, ok_bind]
      exact read_all

end MessageSource

/-- A complete encoding of a message that its protocol can carry is awaited by a fresh reader. -/
theorem Transfer.EncodesMessage.awaits {protocol : Protocol} {msg : HttpMessage} {encoding : Str}
    (encodes : EncodesMessage protocol.writerCreator msg encoding)
    (carries : protocol.Carries msg) :
    ∃ decoded, msg.Conveyed decoded ∧
      (protocol.reader msg.isRequest).Awaits (.fresh msg.isRequest) encoding decoded := by
  cases protocol with
  | gny =>
      obtain ⟨representable, coded, small⟩ := carries
      obtain ⟨first, progress, known, rfl, done, splits, headers, entity, footers⟩ :=
        encodes.layout (Or.inl rfl) small
      have known : MessageSinkGny.firstLine msg = some first := Except.ok.inj known
      have reads := representable.reads_stream known done splits headers entity footers
      have along := representable.along_stream coded known done splits headers footers
      have reader : Protocol.gny.reader msg.isRequest = .gny (.create msg.isRequest) := by
        cases msg.isRequest <;> rfl
      rw [reader]
      exact ⟨_, conveyed_gny representable, _, GnyDecoder.matchesPlain_fresh _,
        GnyDecoder.consistent_fresh _, GnyRepresentable.reads_plain reads along⟩
  | v11 =>
      obtain ⟨representable, framed, bounded⟩ := carries
      obtain ⟨first, progress, known, rfl, done, splits, headers, entity, footers⟩ :=
        encodes.layout (Or.inr rfl) trivial
      obtain ⟨text, readable, reads⟩ :=
        representable.reads_complete framed bounded known done splits headers entity footers
      have reader : Protocol.v11.reader msg.isRequest = .v11 {} := by
        cases msg.isRequest <;> rfl
      rw [reader]
      exact ⟨_, conveyed_v11 representable known readable, _, Decoder11.matches_fresh _,
        Decoder11.consistent_fresh _, reads⟩

end GnyProxy
