import GnyProxy.Parsed11
import GnyProxy.RoundTrip11

/-!
# Relaying HTTP/1.1

A message that was read is copied and written again.  A second reader finds the boundary of what
was written exactly when the lengths among the headers agree with the entity.
-/

namespace GnyProxy

open Incremental

/-! ## The copy -/

/-- The first line of `MessageCopier::dump_message`. -/
def dumpFirstLine (src dst : HttpMessage) : HttpMessage :=
  if dst.isRequest then
    let dst := dst.setVerb src.verb
    if dst.url = [] then dst.setUrl src.url else dst
  else
    dst.setStatus src.status

/-- The headers are moved; the answer is the source and the destination. -/
def dumpHeaders (src dst : HttpMessage) : Except Fault (HttpMessage × HttpMessage) :=
  if dst.state = .header then do
    let dst ← src.headers.foldlM (fun dst field => dst.addHeader field.1 field.2) dst
    let dst ← if MessageState.rank .header < src.state.rank then dst.endHeader else .ok dst
    .ok (src.clearHeaders, dst)
  else
    .ok (src, dst)

def dumpEntity (src dst : HttpMessage) : Except Fault (HttpMessage × HttpMessage) :=
  if dst.state = .entity then do
    let dst ← dst.appendEntity src.entity
    let dst ← if MessageState.rank .entity < src.state.rank then dst.endEntity else .ok dst
    .ok (src.clearEntity, dst)
  else
    .ok (src, dst)

def dumpFooters (src dst : HttpMessage) : Except Fault (HttpMessage × HttpMessage) :=
  if dst.state = .footer then do
    let dst ← src.footers.foldlM (fun dst field => dst.addFooter field.1 field.2) dst
    let dst ← if MessageState.rank .footer < src.state.rank then dst.endFooter else .ok dst
    .ok (src.clearFooters, dst)
  else
    .ok (src, dst)

/-- `MessageCopier::dump_message`: what the source has is moved to the destination. -/
def dumpMessage (src dst : HttpMessage) : Except Fault (HttpMessage × HttpMessage) := do
  let (src, dst) ← dumpHeaders src (dumpFirstLine src dst)
  let (src, dst) ← dumpEntity src dst
  dumpFooters src dst

theorem foldlM_addHeader {msg : HttpMessage} (header : msg.state = .header) (fields : Fields) :
    fields.foldlM (fun msg field => msg.addHeader field.1 field.2) msg =
      .ok { msg with headers := msg.headers ++ fields } := by
  induction fields generalizing msg with
  | nil => simp [pure, Except.pure]
  | cons field fields ih =>
      have added : msg.addHeader field.1 field.2 =
          .ok { msg with headers := msg.headers ++ [field] } := by
        simp [HttpMessage.addHeader, header]
      have rest := @ih { msg with headers := msg.headers ++ [field] } header
      rw [List.foldlM_cons, added, ok_bind, rest]
      simp

theorem foldlM_addFooter {msg : HttpMessage} (footer : msg.state = .footer) (fields : Fields) :
    fields.foldlM (fun msg field => msg.addFooter field.1 field.2) msg =
      .ok { msg with footers := msg.footers ++ fields } := by
  induction fields generalizing msg with
  | nil => simp [pure, Except.pure]
  | cons field fields ih =>
      have added : msg.addFooter field.1 field.2 =
          .ok { msg with footers := msg.footers ++ [field] } := by
        simp [HttpMessage.addFooter, footer]
      have rest := @ih { msg with footers := msg.footers ++ [field] } footer
      rw [List.foldlM_cons, added, ok_bind, rest]
      simp

/-- The copy of a finished message that was read is that message. -/
theorem dumpMessage_of_parsed {isRequest : Bool} {msg : HttpMessage}
    (parsed : Parsed isRequest msg) (done : msg.state = .done) :
    ∃ drained, dumpMessage msg (.fresh isRequest) = .ok (drained, msg) := by
  have firstLine : dumpFirstLine msg (.fresh isRequest) =
      { msg with headers := [], footers := [], entity := [], state := .header } := by
    have line := parsed.firstLine
    have direction := parsed.direction
    cases isRequest
    · simp only [Bool.false_eq_true, if_false] at line
      obtain ⟨verb, url⟩ := line
      simp [dumpFirstLine, HttpMessage.fresh, HttpMessage.setStatus, direction, verb, url]
    · simp only [if_true] at line
      obtain ⟨-, status⟩ := line
      simp [dumpFirstLine, HttpMessage.fresh, HttpMessage.setVerb, HttpMessage.setUrl, direction,
        status]
  have headers : dumpHeaders msg { msg with
      headers := [], footers := [], entity := [], state := .header } =
      .ok (msg.clearHeaders, { msg with footers := [], entity := [], state := .entity }) := by
    simp [dumpHeaders, foldlM_addHeader, done, HttpMessage.endHeader]
  have entity : dumpEntity msg.clearHeaders
      { msg with footers := [], entity := [], state := .entity } =
      .ok (msg.clearHeaders.clearEntity, { msg with footers := [], state := .footer }) := by
    simp [dumpEntity, done, HttpMessage.appendEntity, HttpMessage.endEntity,
      HttpMessage.clearHeaders]
  have footers : dumpFooters msg.clearHeaders.clearEntity
      { msg with footers := [], state := .footer } =
      .ok (msg.clearHeaders.clearEntity.clearFooters, { msg with state := .done }) := by
    simp [dumpFooters, foldlM_addFooter, done, HttpMessage.endFooter, HttpMessage.clearHeaders,
      HttpMessage.clearEntity]
  refine ⟨msg.clearHeaders.clearEntity.clearFooters, ?_⟩
  simp only [dumpMessage, firstLine, headers, entity, footers, ok_bind]
  rw [← done]

/-! ## What the second reader makes of a layout -/

namespace Decoder11

/-- The phases of a chunked body. -/
def InChunks : Phase → Prop
  | .chunkSize _ | .chunkExtension _ | .chunkData _ | .trailer _ | .done => True
  | .firstLine _ | .header _ _ | .fixed _ => False

variable {msg decoded : HttpMessage} {word : Str}

/-- The end of a size takes nothing. -/
theorem inChunks_endSize {size : BitVec 64} {next : Decoder11}
    (outcome : endSize size msg = .ok next) :
    InChunks next.phase ∧ next.msg.entity = msg.entity := by
  unfold endSize at outcome
  split at outcome
  · cases outcome
    exact ⟨trivial, rfl⟩
  · obtain ⟨ended, end_eq, outcome⟩ := bind_eq_ok.mp outcome
    obtain ⟨-, rfl⟩ := HttpMessage.endEntity_eq_ok.mp end_eq
    cases outcome
    exact ⟨trivial, rfl⟩

/-- A byte of a size is none of the entity. -/
theorem inChunks_size {size : BitVec 64} {next : Decoder11} {ch : UInt8}
    (outcome : step ⟨.chunkSize size, msg⟩ ch = .ok next) :
    InChunks next.phase ∧ next.msg.entity = msg.entity := by
  simp only [step] at outcome
  split at outcome
  · cases outcome
    exact ⟨trivial, rfl⟩
  · split at outcome
    · cases outcome
      exact ⟨trivial, rfl⟩
    · split at outcome
      · exact inChunks_endSize outcome
      · cases outcome
        exact ⟨trivial, rfl⟩

/-- A byte of a chunked body adds at most itself to the entity. -/
theorem inChunks_step {dec next : Decoder11} {ch : UInt8} (inside : InChunks dec.phase)
    (outcome : dec.step ch = .ok next) :
    InChunks next.phase ∧ next.msg.entity.length ≤ dec.msg.entity.length + 1 := by
  obtain ⟨phase, msg⟩ := dec
  have stays {next : Decoder11} (same : InChunks next.phase ∧ next.msg.entity = msg.entity) :
      InChunks next.phase ∧ next.msg.entity.length ≤ msg.entity.length + 1 :=
    ⟨same.1, by rw [same.2]; omega⟩
  cases phase with
  | firstLine line | header entityMode line | fixed left => exact absurd inside id
  | chunkSize size => exact stays (inChunks_size outcome)
  | chunkExtension size =>
      simp only [step] at outcome
      split at outcome
      · exact stays (inChunks_endSize outcome)
      · cases outcome
        exact stays ⟨trivial, rfl⟩
  | chunkData left =>
      simp only [step] at outcome
      split at outcome
      · obtain ⟨appended, append_eq, outcome⟩ := bind_eq_ok.mp outcome
        obtain ⟨-, rfl⟩ := HttpMessage.appendEntity_eq_ok.mp append_eq
        cases outcome
        exact ⟨trivial, by simp⟩
      · split at outcome <;> cases outcome <;> exact stays ⟨trivial, rfl⟩
  | trailer line =>
      simp only [step] at outcome
      split at outcome
      · split at outcome
        · obtain ⟨ended, end_eq, outcome⟩ := bind_eq_ok.mp outcome
          obtain ⟨-, rfl⟩ := HttpMessage.endFooter_eq_ok.mp end_eq
          cases outcome
          exact stays ⟨trivial, rfl⟩
        · obtain ⟨read, footer_eq, outcome⟩ := bind_eq_ok.mp outcome
          cases outcome
          refine stays ⟨trivial, ?_⟩
          unfold parseFooter at footer_eq
          split at footer_eq
          · cases footer_eq
            rfl
          · obtain ⟨-, rfl⟩ := HttpMessage.addFooter_eq_ok.mp footer_eq
            rfl
      · cases outcome
        exact stays ⟨trivial, rfl⟩
  | done =>
      cases outcome
      exact stays ⟨trivial, rfl⟩

theorem entity_le_of_reads {first last : Decoder11} (inside : InChunks first.phase)
    (reads : automaton.Reads first word last) :
    last.msg.entity.length ≤ first.msg.entity.length + word.length := by
  induction reads with
  | nil => exact Nat.le_add_right _ _
  | cons _ step_eq _ ih =>
      obtain ⟨inside', grows⟩ := inChunks_step inside step_eq
      have rest := ih inside'
      rw [List.length_cons]
      omega

/-- A chunked body is longer than the entity in it. -/
theorem entity_lt_of_reads {size : BitVec 64}
    (reads : automaton.Reads ⟨.chunkSize size, msg⟩ word ⟨.done, decoded⟩) :
    decoded.entity.length < msg.entity.length + word.length := by
  cases reads with
  | cons _ step_eq rest =>
      obtain ⟨inside, same⟩ := inChunks_size step_eq
      have bound := entity_le_of_reads inside rest
      rw [same] at bound
      rw [List.length_cons]
      exact lt_of_le_of_lt bound (by omega)

/-- An entity of announced length ends where that many bytes were read. -/
theorem length_of_reads_fixed {left : Int} (entity : msg.state = .entity)
    (reads : automaton.Reads ⟨.fixed left, msg⟩ word ⟨.done, decoded⟩) :
    (word.length : Int) = left ∧
      decoded.entity.length = msg.entity.length + word.length := by
  induction word generalizing left msg with
  | nil => cases reads
  | cons ch word ih =>
      cases reads with
      | cons _ step_eq rest =>
          simp only [automaton, step, HttpMessage.appendEntity, entity, if_true, ok_bind,
            HttpMessage.endEntity, HttpMessage.endFooter, MessageState.rank_entity, le_rfl,
            MessageState.rank_footer] at step_eq
          split at step_eq <;> cases step_eq
          · obtain ⟨rfl, same⟩ := rest.nil_of_final rfl
            cases same
            exact ⟨by simp; omega, by simp⟩
          · obtain ⟨length, grows⟩ := ih rfl rest
            simp only [List.length_append, List.length_cons, List.length_nil] at grows ⊢
            exact ⟨by push_cast; omega, by omega⟩

theorem length_flatten_le_chunks (pieces : List Str) :
    pieces.flatten.length ≤ (MessageSink11.chunks pieces).length := by
  induction pieces with
  | nil => exact le_rfl
  | cons piece pieces ih =>
      simp only [MessageSink11.chunks, MessageSink11.chunk, List.flatMap_cons, List.flatten_cons,
        List.length_append] at ih ⊢
      omega

theorem length_flatten_lt_chunkedBody {progress : Progress} (done : progress.writeState = .done) :
    progress.pieces.flatten.length < (MessageSink11.chunkedBody progress).length := by
  have bound := length_flatten_le_chunks progress.pieces
  simp only [MessageSink11.chunkedBody, done, MessageState.rank_done, le_refl, if_true,
    List.length_append, crlf, List.length_cons, List.length_nil]
  omega

/-- What follows the header section, but for the line that the writer may add. -/
theorem body_eq {progress : Progress} (done : progress.writeState = .done)
    (splits : MessageSink11.Splits progress.pieces) {framing : Int}
    (other : ¬(framing = entityUnknown ∧ progress.pieces.flatten ≠ [])) :
    MessageSink11.body framing progress = crlf ++
      (if framing = entityChunked then MessageSink11.chunkedBody progress
      else if 0 ≤ framing then progress.pieces.flatten else []) := by
  by_cases unknown : framing = entityUnknown
  · have none : progress.pieces = [] := by
      rw [← splits.flatten_eq_nil]
      simpa [unknown] using other
    simp [MessageSink11.body, unknown, none, done, entityUnknown, entityChunked]
  · simp only [MessageSink11.body, unknown, if_false]
    split
    · rfl
    · split <;> simp

/-- A reader that finds the end and the entity of a layout agrees with its writer. -/
theorem agrees_of_reads {isRequest : Bool} {text entity : Str} {progress : Progress}
    (nonempty : text ≠ []) (clean : 10 ∉ text)
    (headers : ∀ field ∈ progress.headers, WellFormed field)
    (untransferred : Untransferred progress.headers)
    (done : progress.writeState = .done) (splits : MessageSink11.Splits progress.pieces)
    (entity_eq : progress.pieces.flatten = entity)
    (reads : automaton.Reads (fresh isRequest) (MessageSink11.stream (text ++ crlf) progress)
      ⟨.done, decoded⟩)
    (same : decoded.entity = entity) : Agrees progress.headers entity := by
  by_cases added : writerLength progress.headers = entityUnknown ∧ entity ≠ []
  · have chunked : Chunked progress.headers entity := Or.inr added
    rw [Agrees, if_pos chunked]
    exact Or.inl added.1
  obtain ⟨tail, tail_eq⟩ : ∃ tail, (if writerLength progress.headers = entityChunked then
      MessageSink11.chunkedBody progress
    else if 0 ≤ writerLength progress.headers then entity else []) = tail := ⟨_, rfl⟩
  have layout : MessageSink11.stream (text ++ crlf) progress =
      text ++ crlf ++ MessageSink11.fieldLines progress.headers ++ (crlf ++ tail) := by
    rw [← tail_eq]
    rw [← entity_eq] at added ⊢
    simp [MessageSink11.stream, done, framing_eq_writerLength untransferred,
      body_eq done splits added]
  -- the second reader up to the end of the header section
  rw [layout] at reads
  obtain ⟨middle, before, reads⟩ := reads.split
  obtain rfl := before.deterministic (reads_front nonempty clean headers)
  obtain ⟨middle, before, reads⟩ := reads.split
  rw [modeOf_eq_readerLength untransferred] at before
  obtain rfl := before.deterministic
    (reads_endHeader (endHeader_eq (state_headed isRequest text progress.headers) _))
  obtain ⟨none, -⟩ := bodyless_headed isRequest text progress.headers
  have longer : writerLength progress.headers = entityChunked → entity.length < tail.length := by
    intro chunked
    rw [← tail_eq, if_pos chunked, ← entity_eq]
    exact length_flatten_lt_chunkedBody done
  have chunked_iff : Chunked progress.headers entity ↔
      writerLength progress.headers = entityChunked := or_iff_left added
  by_cases ended : readerLength progress.headers = 0 ∨
      readerLength progress.headers = entityUnknown
  · -- the reader takes the message for one without entity
    rw [if_pos ended] at reads
    obtain ⟨nothing, last⟩ := reads.nil_of_final rfl
    have empty : entity = [] := by
      rw [← same, ← none, (Decoder11.mk.inj last).2]
    have chunked : ¬Chunked progress.headers entity := by
      intro chunked
      have bound := longer (chunked_iff.mp chunked)
      simp [nothing] at bound
    rwa [Agrees, if_neg chunked, if_pos empty]
  · by_cases fixed : 0 < readerLength progress.headers
    · -- it takes as many bytes as are announced
      rw [if_neg ended, if_pos fixed] at reads
      obtain ⟨length, grows⟩ := length_of_reads_fixed rfl reads
      simp only [same, none, List.length_nil, Nat.zero_add] at grows
      have chunked : ¬writerLength progress.headers = entityChunked := by
        intro chunked
        exact absurd (longer chunked) (by omega)
      rw [if_neg chunked] at tail_eq
      have empty : entity ≠ [] := by
        rintro rfl
        rw [List.length_nil] at grows
        omega
      rw [Agrees, if_neg (mt chunked_iff.mp chunked), if_neg empty]
      refine ⟨?_, by omega⟩
      by_contra negative
      rw [if_neg negative] at tail_eq
      simp [← tail_eq] at grows
      exact empty grows
    · -- it looks for chunks
      rw [if_neg ended, if_neg fixed] at reads
      have shorter := entity_lt_of_reads reads
      simp only [same, none, List.length_nil, Nat.zero_add] at shorter
      have chunked : writerLength progress.headers = entityChunked := by
        by_contra other
        rw [if_neg other] at tail_eq
        split at tail_eq <;> subst tail_eq <;> simp at shorter
      rw [Agrees, if_pos (chunked_iff.mpr chunked)]
      rw [entityUnknown] at ended ⊢
      exact Or.inr (by omega)

end Decoder11
/-! ## The relay -/

/-- On any schedule of calls, whatever follows them and however they are cut, the bytes that are
written for the message are read to their end, and with this entity. -/
def KeepsBoundary (msg : HttpMessage) (entity : Str) : Prop :=
  ∀ calls, OnlyCalls calls →
    ∃ final, (Transfer.handed (.v11 {}) msg).run (calls ++ [.getWriteSize]) = .ok final ∧
      ∀ rest cut, IsCut (final.encoding ++ rest) cut → ∃ decoded,
        outcome11 msg.isRequest cut = .ok (decoded, true, final.encoding.length) ∧
          decoded.entity = entity

/-- The lengths among the headers agree with the entity, and chunks have sizes that are printed
whole. -/
def Relayable (headers : Fields) (entity : Str) : Prop :=
  Agrees headers entity ∧ (Chunked headers entity → entity.length < 2 ^ 32)

namespace Parsed

variable {isRequest : Bool} {msg : HttpMessage}

theorem untransferred (parsed : Parsed isRequest msg) : Untransferred msg.headers := by
  intro field member
  have kept := parsed.handedOn field member
  simp only [survives, Bool.and_eq_true, decide_eq_true_eq] at kept
  exact kept.1

theorem verb_le (parsed : Parsed isRequest msg) : msg.verb ≤ verbUnknown := by
  have line := parsed.firstLine
  cases isRequest
  · exact line.1 ▸ UInt8.le_refl _
  · exact line.1

/-- The layout that is written of a message that was read, on any schedule of calls. -/
theorem encoding (parsed : Parsed isRequest msg) (done : msg.state = .done)
    (available : msg.FirstLineSet) :
    ∃ text, text ≠ [] ∧ 10 ∉ text ∧ ∀ calls, OnlyCalls calls →
      ∃ final, (Transfer.handed (.v11 {}) msg).run (calls ++ [.getWriteSize]) = .ok final ∧
        ∃ progress, progress.writeState = .done ∧
          final.encoding = MessageSink11.stream (text ++ crlf) progress ∧
          MessageSink11.Splits progress.pieces ∧ progress.headers = msg.headers ∧
          progress.pieces.flatten = msg.entity ∧ progress.footers = msg.footers := by
  obtain ⟨first, text, known, readable⟩ := readable_of_firstLineSet available parsed.verb_le
  refine ⟨text, readable.nonempty, readable.feed, fun calls only => ?_⟩
  rw [readable.line] at known
  exact (Transfer.sound_handed (Or.inr rfl) msg).encoding11 trivial (only.delivers msg) done known

theorem keepsBoundary (parsed : Parsed isRequest msg) (done : msg.state = .done)
    (available : msg.FirstLineSet) (relayable : Relayable msg.headers msg.entity) :
    KeepsBoundary msg msg.entity := by
  obtain ⟨text, nonempty, clean, encodes⟩ := parsed.encoding done available
  intro calls only
  obtain ⟨final, run_eq, progress, writeState, encoding_eq, splits, headers, entity, footers⟩ :=
    encodes calls only
  refine ⟨final, run_eq, fun rest cut isCut => ?_⟩
  have reads := @Decoder11.reads_stream isRequest text msg.entity progress nonempty clean
    (by rw [headers]; exact parsed.headers) (by rw [headers]; exact parsed.untransferred)
    (by rw [footers]; exact parsed.footers) writeState splits entity
    (fun chunked _ =>
      Decoder11.length_lt_of_mem entity (relayable.2 (by rwa [headers] at chunked)))
    (by rw [headers]; exact relayable.1)
  rw [encoding_eq] at isCut ⊢
  rw [parsed.direction]
  exact ⟨_, outcome11_of_reads reads isCut, rfl⟩

theorem agrees (parsed : Parsed isRequest msg) (done : msg.state = .done)
    (available : msg.FirstLineSet) (keeps : KeepsBoundary msg msg.entity) :
    Agrees msg.headers msg.entity := by
  obtain ⟨text, nonempty, clean, encodes⟩ := parsed.encoding done available
  obtain ⟨final, run_eq, progress, writeState, encoding_eq, splits, headers, entity, -⟩ :=
    encodes [] (by simp [OnlyCalls])
  obtain ⟨final', run_eq', reads⟩ := keeps [] (by simp [OnlyCalls])
  obtain rfl := Except.ok.inj (run_eq.symm.trans run_eq')
  have some : final.encoding ≠ [] := by
    rw [encoding_eq]
    simp [MessageSink11.stream, crlf]
  obtain ⟨decoded, outcome, same⟩ := reads [] [final.encoding] ⟨by simp, by simpa using some⟩
  obtain ⟨last, count, run⟩ :=
    Decoder11.run_ok (Decoder11.consistent_fresh msg.isRequest) final.encoding
  rw [outcome11_of_run (by simpa using run)] at outcome
  simp only [Except.ok.injEq, Prod.mk.injEq, decide_eq_true_eq] at outcome
  obtain ⟨rfl, ended, rfl⟩ := outcome
  have whole := Decoder11.automaton.reads_of_run_length run
  rw [encoding_eq] at whole
  rw [← headers]
  obtain ⟨phase, decoded⟩ := last
  obtain rfl : phase = .done := ended
  exact Decoder11.agrees_of_reads nonempty clean (by rw [headers]; exact parsed.headers)
    (by rw [headers]; exact parsed.untransferred) writeState splits entity whole same

end Parsed

end GnyProxy
