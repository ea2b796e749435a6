import GnyProxy.Relay11

/-!
# Trailers on the way through the proxy

`message_source_11` drops the `Transfer-Encoding` line of a chunked message, and
`message_sink_11` chunks again only when it sees an entity.  The footers of a message that was
read are written, and read back, if there is an entity to be chunked.
-/

namespace GnyProxy

open Incremental

/-- No header gives the length of the entity. -/
def Unsized (headers : Fields) : Prop :=
  ∀ field ∈ headers, strcasecmp field.1 (ascii "Content-Length") ≠ 0

instance (headers : Fields) : Decidable (Unsized headers) :=
  inferInstanceAs (Decidable (∀ field ∈ headers, _))

section Unsized

variable {headers : Fields} {entity : Str}

theorem Unsized.contentLengths (unsized : Unsized headers) : contentLengths headers = [] := by
  rw [GnyProxy.contentLengths, List.map_eq_nil_iff, List.filter_eq_nil_iff]
  intro field member
  simpa using unsized field member

/-- Without a length an entity is chunked. -/
theorem Unsized.chunked_iff (unsized : Unsized headers) : Chunked headers entity ↔ entity ≠ [] := by
  have unknown : writerLength headers = entityUnknown := by
    rw [writerLength, unsized.contentLengths]
    rfl
  have other : entityUnknown ≠ entityChunked := by decide
  rw [Chunked, unknown, or_iff_right other, and_iff_right rfl]

theorem Unsized.agrees (unsized : Unsized headers) : Agrees headers entity := by
  have writer : writerLength headers = entityUnknown := by
    rw [writerLength, unsized.contentLengths]
    rfl
  have reader : readerLength headers = entityUnknown := by
    rw [readerLength, unsized.contentLengths]
    rfl
  rw [Agrees]
  by_cases empty : entity = []
  · rw [if_neg (mt unsized.chunked_iff.mp (not_not.mpr empty)), if_pos empty]
    exact Or.inr reader
  · rw [if_pos (unsized.chunked_iff.mpr empty)]
    exact Or.inl writer

end Unsized

/-- What the message holds can be announced as one chunk. -/
def FitsChunk (transfer : Transfer) : Prop := transfer.msg.entity.length < 2 ^ 32

/-- Calls that find no more than can be announced take pieces that can. -/
theorem serves_of_fitsChunk {transfer : Transfer} {events : List Event}
    (kind : (MessageSink.v11 {}).SameKind transfer.sink)
    (fits : transfer.EveryCall FitsChunk events) :
    transfer.EveryCall (Transfer.Serves (·.length < 2 ^ 32)) events := by
  intro front event back reached shape call run_eq piece member
  have short := fits front event back reached shape call run_eq
  have kind' := kind.trans (Transfer.sameKind_of_run run_eq)
  rw [← kind'.pieces] at member
  rcases MessageSink11.mem_pieces.mp member with ⟨-, rfl⟩
  exact short

/-- However the message comes to the writer and is drained, whatever follows what is written and
however that is cut, it is read to its end with the same footers. -/
def KeepsFooters (msg : HttpMessage) : Prop :=
  ∀ begun events, Delivers begun events msg →
    (Transfer.handed (.v11 {}) begun).EveryCall FitsChunk (events ++ [.getWriteSize]) →
      ∃ final, (Transfer.handed (.v11 {}) begun).run (events ++ [.getWriteSize]) = .ok final ∧
        ∀ rest cut, IsCut (final.encoding ++ rest) cut → ∃ decoded,
          outcome11 msg.isRequest cut = .ok (decoded, true, final.encoding.length) ∧
            decoded.footers = msg.footers

section Relay

variable {isRequest : Bool} {msg : HttpMessage}

/-- What is written of a message without a length is read back, with its footers if there is an
entity to be chunked. -/
theorem Parsed.reads_written (parsed : Parsed isRequest msg) (done : msg.state = .done)
    (unsized : Unsized msg.headers) (available : msg.FirstLineSet) {begun : HttpMessage}
    {events : List Event} (delivers : Delivers begun events msg)
    (fits : (Transfer.handed (.v11 {}) begun).EveryCall FitsChunk (events ++ [.getWriteSize])) :
    ∃ final, (Transfer.handed (.v11 {}) begun).run (events ++ [.getWriteSize]) = .ok final ∧
      final.encoding ≠ [] ∧ ∃ decoded,
        Decoder11.automaton.Reads (.fresh isRequest) final.encoding ⟨.done, decoded⟩ ∧
          decoded.footers = if msg.entity = [] then [] else msg.footers := by
  rcases readable_of_firstLineSet available parsed.verb_le with ⟨first, text, known, readable⟩
  have sound := Transfer.soundFor_handed (·.length < 2 ^ 32)
    (Or.inr rfl : (MessageSink.v11 {}).IsFresh) begun
  rcases sound.encoding11 trivial delivers done known (serves_of_fitsChunk trivial fits) with
    ⟨final, run_eq, progress, writeState, encoding_eq, splits, headers, entity, footers, small⟩
  have reads := @Decoder11.reads_stream isRequest text msg.entity progress readable.nonempty
    readable.feed (by rw [headers]; exact parsed.headers)
    (by rw [headers]; exact parsed.untransferred) (by rw [footers]; exact parsed.footers)
    writeState splits entity (fun _ => small) (by rw [headers]; exact unsized.agrees)
  rw [← readable.line, ← encoding_eq] at reads
  refine ⟨final, run_eq, ?_, _, reads, ?_⟩
  · rw [encoding_eq, MessageSink11.stream, readable.line]
    simp [crlf]
  · rw [headers, footers]
    by_cases empty : msg.entity = []
    · rw [if_neg (mt unsized.chunked_iff.mp (not_not.mpr empty)), if_pos empty]
      rfl
    · rw [if_pos (unsized.chunked_iff.mpr empty), if_neg empty]
      rfl

theorem Parsed.keepsFooters (parsed : Parsed isRequest msg) (done : msg.state = .done)
    (unsized : Unsized msg.headers) (available : msg.FirstLineSet)
    (carried : msg.footers ≠ [] → msg.entity ≠ []) : KeepsFooters msg := by
  intro begun events delivers fits
  rcases parsed.reads_written done unsized available delivers fits with
    ⟨final, run_eq, -, decoded, reads, footers⟩
  refine ⟨final, run_eq, fun rest cut isCut => ?_⟩
  rw [parsed.direction]
  refine ⟨decoded, outcome11_of_reads reads isCut, ?_⟩
  rw [footers]
  by_cases empty : msg.entity = []
  · rw [if_pos empty]
    by_contra other
    exact carried (Ne.symm other) empty
  · rw [if_neg empty]

/-- Without an entity the footers are not written. -/
theorem Parsed.carried (parsed : Parsed isRequest msg) (done : msg.state = .done)
    (unsized : Unsized msg.headers) (available : msg.FirstLineSet) (keeps : KeepsFooters msg)
    (some : msg.footers ≠ []) : msg.entity ≠ [] := by
  intro empty
  have fits : (Transfer.handed (.v11 {}) msg).EveryCall FitsChunk ([] ++ [.getWriteSize]) := by
    intro front event back reached shape call run_eq
    have none : front = [] := by
      cases front with
      | nil => rfl
      | cons other front => simp at shape
    subst none
    cases run_eq
    rw [FitsChunk, Transfer.handed, empty]
    decide
  rcases parsed.reads_written done unsized available (.nil msg) fits with
    ⟨final, run_eq, nonempty, decoded, reads, footers⟩
  rcases keeps msg [] (.nil msg) fits with ⟨final', run_eq', read⟩
  obtain rfl := Except.ok.inj (run_eq.symm.trans run_eq')
  have isCut : IsCut (final.encoding ++ []) [final.encoding] := by
    rw [List.append_nil]
    exact .single nonempty
  rcases read [] _ isCut with ⟨decoded', outcome, footers'⟩
  rw [parsed.direction, outcome11_of_reads reads isCut] at outcome
  simp only [Except.ok.injEq, Prod.mk.injEq] at outcome
  rw [← outcome.1, footers, if_pos empty] at footers'
  exact some footers'.symm

end Relay

/-- A chunked response with an entity of one byte and a footer. -/
def oneByte : HttpMessage where
  isRequest := false
  status := 200
  footers := [(ascii "A", ascii "b")]
  entity := ascii "x"
  state := .done

end GnyProxy
