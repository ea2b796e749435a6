import GnyProxy.GnyRoundTrip
import GnyProxy.Parsed11
import GnyProxy.RoundTrip11

/-!
# Translation between the formats

From HTTP/1.1 to GNY nothing is lost that the latter can express, and from GNY to HTTP/1.1 every
field stays on its line unless a line feed is in it.
-/

namespace GnyProxy

open Incremental

/-! ## HTTP/1.1 to GNY -/

/-- A message that was read and that GNY can express is translated as it is. -/
theorem translation_gny {isRequest : Bool} {cut : List Str} {msg : HttpMessage} {count : Nat}
    (read : outcome11 isRequest cut = .ok (msg, true, count)) (representable : GnyRepresentable msg)
    (small : msg.entity.length < 2 ^ 31) {calls : List Event} (only : OnlyCalls calls) :
    ∃ final, (Transfer.handed (.gny {}) msg).run (calls ++ [.getWriteSize]) = .ok final ∧
      ∃ decoded, gnyOutcome isRequest [final.encoding] =
        .ok (decoded, true, final.encoding.length) ∧ SameMessage decoded msg := by
  obtain ⟨parsed, done⟩ := parsed_of_outcome read
  have sound := Transfer.sound_handed (Or.inl rfl : (MessageSink.gny {}).IsFresh) msg
  have delivers := (only.delivers msg).append (.getWriteSize (.nil msg))
  obtain ⟨final, run_eq, decodes⟩ := sound.decodesGny trivial (only.delivers msg) done
    representable (Transfer.everyCall_small trivial sound delivers small)
  obtain ⟨decoded, outcome, same⟩ := decodes []
  rw [List.append_nil, parsed.direction] at outcome
  exact ⟨final, run_eq, decoded, outcome, same⟩

/-- A response with a header and an entity, written at once. -/
theorem translation_gny_response :
    ∃ final, (Transfer.handed (.gny {})
        { isRequest := false, status := 404, headers := [(ascii "Content-Length", ascii "2")],
          entity := ascii "ab", state := .done }).run ([.write 3 3] ++ [.getWriteSize]) =
        .ok final ∧
      ∃ decoded, gnyOutcome false [final.encoding] = .ok (decoded, true, final.encoding.length) ∧
        SameMessage decoded
          { isRequest := false, status := 404, headers := [(ascii "Content-Length", ascii "2")],
            entity := ascii "ab", state := .done } :=
  @translation_gny false [ascii "HTTP/1.1 404 No\r\nContent-", ascii "Length: 2\r\n\r\nab"]
    { isRequest := false, status := 404, headers := [(ascii "Content-Length", ascii "2")],
      entity := ascii "ab", state := .done } 40 (by decide) ⟨by decide, by decide, by decide⟩
    (by decide) [.write 3 3] (by simp [OnlyCalls])

/-- The status 65535 is the mark of a missing one: nothing is ever written. -/
theorem not_translation_gny :
    ¬∀ isRequest cut msg count, outcome11 isRequest cut = .ok (msg, true, count) →
      (isRequest = true → msg.verb ≠ verbUnknown ∧ msg.url ≠ []) → ∀ calls, OnlyCalls calls →
      ∃ final, (Transfer.handed (.gny {}) msg).run (calls ++ [.getWriteSize]) = .ok final ∧
        ∃ decoded, gnyOutcome isRequest [final.encoding] =
          .ok (decoded, true, final.encoding.length) ∧ SameMessage decoded msg := by
  intro always
  have read : outcome11 false [ascii "HTTP/1.1 65535 No\r\n\r\n"] =
      .ok ({ isRequest := false, status := 65535, state := .done }, true, 21) := by decide
  obtain ⟨final, run_eq, decoded, outcome, -⟩ :=
    always false _ _ _ read (by decide) [] (by simp [OnlyCalls])
  have nothing : (Transfer.handed (.gny {})
      { isRequest := false, status := 65535, state := .done }).run ([] ++ [.getWriteSize]) =
      .ok (Transfer.handed (.gny {}) { isRequest := false, status := 65535, state := .done }) := by
    decide
  obtain rfl := Except.ok.inj (nothing.symm.trans run_eq)
  have stuck : gnyOutcome false [[]] = .ok (.fresh false, false, 0) := by decide
  cases outcome.symm.trans stuck

/-! ## GNY to HTTP/1.1 -/

/-- The lines of a text, the bytes of the first one before it: each ends in a line feed, and a
carriage return before that is left out. -/
def linesFrom (line : Str) : Str → List Str
  | [] => []
  | ch :: text =>
      if ch = 10 then Decoder11.chomp line :: linesFrom [] text else linesFrom (line ++ [ch]) text

/-- The lines between the first one and the first blank one. -/
def headerLines (text : Str) : List Str := ((linesFrom [] text).drop 1).takeWhile (· ≠ [])

/-- Each header has its own line, and at most the line that the writer adds is beside them. -/
def Uninjected (headers : Fields) (text : Str) : Prop :=
  text = [] ∨ headerLines text = headers.map fieldText ∨
    headerLines text = headers.map fieldText ++ [ascii "Transfer-Encoding: chunked"]

theorem feed_notMem_linesFrom {text line : Str} (clean : 10 ∉ line) :
    ∀ other ∈ linesFrom line text, 10 ∉ other := by
  induction text generalizing line with
  | nil => simp [linesFrom]
  | cons ch text ih =>
      rw [linesFrom]
      split
      · exact List.forall_mem_cons.mpr ⟨feed_notMem_chomp clean, ih (by simp)⟩
      · rename_i other
        exact ih (by simpa [clean] using Ne.symm other)

/-- A text without line feeds is one line. -/
theorem linesFrom_append {line text : Str} (clean : 10 ∉ text) (rest : Str) :
    linesFrom line (text ++ crlf ++ rest) = (line ++ text) :: linesFrom [] rest := by
  induction text generalizing line with
  | nil => simp [crlf, linesFrom, Decoder11.chomp]
  | cons ch text ih =>
      simp only [List.mem_cons, not_or] at clean
      have other : ch ≠ 10 := fun equality => clean.1 equality.symm
      simp only [List.cons_append, linesFrom, other, if_false]
      rw [ih clean.2]
      simp

theorem linesFrom_fieldLines {fields : Fields}
    (clean : ∀ field ∈ fields, 10 ∉ field.1 ∧ 10 ∉ field.2) (rest : Str) :
    linesFrom [] (MessageSink11.fieldLines fields ++ rest) =
      fields.map fieldText ++ linesFrom [] rest := by
  induction fields with
  | nil => rfl
  | cons field fields ih =>
      obtain ⟨⟨key, value⟩, later⟩ := List.forall_mem_cons.mp clean
      have text : 10 ∉ fieldText field := by simp [fieldText, key, value]
      have layout : MessageSink11.fieldLines (field :: fields) ++ rest =
          fieldText field ++ crlf ++ (MessageSink11.fieldLines fields ++ rest) := by
        simp [MessageSink11.fieldLines, fieldLine_eq]
      rw [layout, linesFrom_append text, ih later]
      rfl

/-- What the writer puts behind the header lines. -/
theorem body_cases (framing : Int) {progress : Progress} (done : progress.writeState = .done) :
    ∃ rest, MessageSink11.body framing progress = crlf ++ rest ∨
      MessageSink11.body framing progress = MessageSink11.chunkedLine ++ crlf ++ rest := by
  unfold MessageSink11.body
  split
  · split
    · exact ⟨[], Or.inl (by simp [done])⟩
    · exact ⟨_, Or.inr rfl⟩
  · split
    · exact ⟨_, Or.inl rfl⟩
    · split
      · exact ⟨_, Or.inl rfl⟩
      · exact ⟨[], Or.inl (by simp)⟩

/-- Headers without line feeds have their own lines in the layout. -/
theorem uninjected_stream {text : Str} {progress : Progress} (firstClean : 10 ∉ text)
    (done : progress.writeState = .done)
    (clean : ∀ field ∈ progress.headers, 10 ∉ field.1 ∧ 10 ∉ field.2) :
    Uninjected progress.headers (MessageSink11.stream (text ++ crlf) progress) := by
  have filled : ∀ line ∈ progress.headers.map fieldText, (decide (line ≠ [])) = true := by
    intro line member
    obtain ⟨field, -, rfl⟩ := List.mem_map.mp member
    simp [fieldText]
  obtain ⟨rest, plain | added⟩ :=
    body_cases (MessageSink11.framing progress.headers) done
  · have layout : MessageSink11.stream (text ++ crlf) progress =
        text ++ crlf ++ (MessageSink11.fieldLines progress.headers ++ ([] ++ crlf ++ rest)) := by
      simp [MessageSink11.stream, done, plain]
    refine Or.inr (Or.inl ?_)
    rw [headerLines, layout, linesFrom_append firstClean, linesFrom_fieldLines clean,
      linesFrom_append (by simp)]
    simp only [List.nil_append, List.drop_succ_cons, List.drop_zero]
    rw [List.takeWhile_append_of_pos filled]
    simp
  · have layout : MessageSink11.stream (text ++ crlf) progress =
        text ++ crlf ++ (MessageSink11.fieldLines progress.headers ++
          (ascii "Transfer-Encoding: chunked" ++ crlf ++ ([] ++ crlf ++ rest))) := by
      simp [MessageSink11.stream, done, added, MessageSink11.chunkedLine]
    have line : 10 ∉ ascii "Transfer-Encoding: chunked" ∧
        ascii "Transfer-Encoding: chunked" ≠ [] := by decide
    refine Or.inr (Or.inr ?_)
    rw [headerLines, layout, linesFrom_append firstClean, linesFrom_fieldLines clean,
      linesFrom_append line.1, linesFrom_append (by simp)]
    simp only [List.nil_append, List.drop_succ_cons, List.drop_zero]
    rw [List.takeWhile_append_of_pos filled]
    simp [line.2]

/-- A line feed in a field is in no line of any text. -/
theorem clean_of_uninjected {headers : Fields} {text : Str} (nonempty : text ≠ [])
    (uninjected : Uninjected headers text) :
    ∀ field ∈ headers, 10 ∉ field.1 ∧ 10 ∉ field.2 := by
  intro field member
  have line : fieldText field ∈ headerLines text := by
    obtain empty | same | same := uninjected
    · exact absurd empty nonempty
    · rw [same]
      exact List.mem_map_of_mem member
    · rw [same]
      exact List.mem_append_left _ (List.mem_map_of_mem member)
  have inside := List.mem_of_mem_drop ((List.takeWhile_prefix _).subset line)
  have clean := feed_notMem_linesFrom (by simp) _ inside
  simpa [fieldText] using clean

/-- What the GNY reader has finished is done. -/
theorem done_of_gnyOutcome {isRequest : Bool} {stream : Str} {msg : HttpMessage} {count : Nat}
    (valid : GnyValidFlags isRequest stream)
    (read : gnyOutcome isRequest [stream] = .ok (msg, true, count)) : msg.state = .done := by
  have nonempty : stream ≠ [] := by
    rintro rfl
    have nothing : gnyOutcome isRequest [[]] = .ok (.fresh isRequest, false, 0) := by
      cases isRequest <;> decide
    cases nothing.symm.trans read
  obtain ⟨last, count', run_eq⟩ :=
    GnyDecoder.run_ok (GnyDecoder.consistent_fresh isRequest) valid
  rw [gnyOutcome_singleton nonempty run_eq] at read
  simp only [Except.ok.injEq, Prod.mk.injEq, decide_eq_true_eq] at read
  obtain ⟨rfl, ended, rfl⟩ := read
  obtain ⟨front, back, -, -, reads, -⟩ := GnyDecoder.automaton.reads_of_run run_eq
  have consistent : last.Consistent := reads.invariant (P := GnyDecoder.Consistent)
    (fun step_eq consistent => GnyDecoder.consistent_of_step step_eq consistent)
    (GnyDecoder.consistent_fresh isRequest)
  rwa [GnyDecoder.Consistent, ended] at consistent

/-- Without a first line nothing is written. -/
theorem Transfer.Sound.encoding_nil {transfer : Transfer} (sound : transfer.Sound)
    (unknown : transfer.sink.firstLine transfer.whole = .ok none) : transfer.encoding = [] := by
  obtain ⟨progress, represents, -⟩ := sound
  obtain ⟨sent, fresh, -⟩ | ⟨first, known, -⟩ := represents.cases
  · obtain fresh | fresh := fresh <;> simp [Transfer.encoding, sent, fresh, MessageSink.buffer]
  · rw [unknown] at known
    cases known

/-- On any schedule of calls the header lines of a finished message are its headers exactly when
none of them has a line feed. -/
theorem uninjected_iff {msg : HttpMessage} (done : msg.state = .done)
    (verb : msg.verb ≤ verbUnknown) {calls : List Event} (only : OnlyCalls calls) :
    ∃ final, (Transfer.handed (.v11 {}) msg).run (calls ++ [.getWriteSize]) = .ok final ∧
      (Uninjected msg.headers final.encoding ↔
        (msg.FirstLineSet → ∀ field ∈ msg.headers, 10 ∉ field.1 ∧ 10 ∉ field.2)) := by
  have sound := Transfer.sound_handed (Or.inr rfl : (MessageSink.v11 {}).IsFresh) msg
  by_cases available : msg.FirstLineSet
  · obtain ⟨first, text, known, readable⟩ := readable_of_firstLineSet available verb
    obtain ⟨final, run_eq, progress, writeState, encoding_eq, -, headers, -⟩ :=
      sound.encoding11 trivial (only.delivers msg) done known
    have nonempty : final.encoding ≠ [] := by
      rw [encoding_eq, readable.line]
      simp [MessageSink11.stream, crlf]
    refine ⟨final, run_eq, fun uninjected _ => clean_of_uninjected nonempty uninjected,
      fun clean => ?_⟩
    rw [encoding_eq, readable.line, ← headers]
    exact uninjected_stream readable.feed writeState (by rw [headers]; exact clean available)
  · have unknown := firstLine_eq_none available
    have delivers := (only.delivers msg).append (.getWriteSize (.nil msg))
    obtain ⟨final, run_eq, sound', whole_eq, same⟩ :=
      sound.run delivers (sound.everyCall11 trivial delivers unknown)
    have nothing : final.encoding = [] :=
      sound'.encoding_nil (by rw [whole_eq, ← same.firstLine]; exact unknown)
    exact ⟨final, run_eq, fun _ complete => absurd complete available, fun _ => Or.inl nothing⟩

/-- What the GNY reader has finished is written with one line for each header, and at most the one
that the writer adds, exactly when no key or value has a line feed. -/
theorem translation_uninjected {isRequest : Bool} {stream : Str} {msg : HttpMessage} {count : Nat}
    (valid : GnyValidFlags isRequest stream)
    (read : gnyOutcome isRequest [stream] = .ok (msg, true, count))
    (verb : msg.verb ≤ verbUnknown) {calls : List Event} (only : OnlyCalls calls) :
    ∃ final, (Transfer.handed (.v11 {}) msg).run (calls ++ [.getWriteSize]) = .ok final ∧
      (Uninjected msg.headers final.encoding ↔
        (msg.FirstLineSet → ∀ field ∈ msg.headers, 10 ∉ field.1 ∧ 10 ∉ field.2)) :=
  uninjected_iff (done_of_gnyOutcome valid read) verb only

/-- A response with a header, written at once. -/
theorem translation_uninjected_response :
    ∃ final, (Transfer.handed (.v11 {})
        { isRequest := false, status := 200, headers := [(ascii "a", ascii "b")],
          state := .done }).run ([.write 9 9] ++ [.getWriteSize]) = .ok final ∧
      (Uninjected [(ascii "a", ascii "b")] final.encoding ↔
        (HttpMessage.FirstLineSet
          { isRequest := false, status := 200, headers := [(ascii "a", ascii "b")],
            state := .done } →
          ∀ field ∈ [(ascii "a", ascii "b")], 10 ∉ field.1 ∧ 10 ∉ field.2)) :=
  @translation_uninjected false [0, 200, 53, 97, 0, 98, 0, 54, 0, 0, 54]
    { isRequest := false, status := 200, headers := [(ascii "a", ascii "b")], state := .done } 11
    (GnyDecoder.validFlags_of_run (by decide :
      GnyDecoder.automaton.run (.fresh false) [0, 200, 53, 97, 0, 98, 0, 54, 0, 0, 54] =
        .ok (⟨.done, { isRequest := false, status := 200, headers := [(ascii "a", ascii "b")],
                       state := .done }⟩, 11)))
    (by decide) (by decide) [.write 9 9] (by simp [OnlyCalls])

/-- The value `b`, a line feed and `c` makes two header lines. -/
theorem not_translation_uninjected :
    ¬∀ isRequest stream msg count, GnyValidFlags isRequest stream →
      gnyOutcome isRequest [stream] = .ok (msg, true, count) → msg.verb ≤ verbUnknown →
      ∀ calls, OnlyCalls calls →
      ∃ final, (Transfer.handed (.v11 {}) msg).run (calls ++ [.getWriteSize]) = .ok final ∧
        Uninjected msg.headers final.encoding := by
  intro always
  have run_eq : GnyDecoder.automaton.run (.fresh false)
      [0, 200, 53, 97, 0, 98, 10, 99, 0, 54, 0, 0, 54] =
      .ok (⟨.done, { isRequest := false, status := 200, headers := [(ascii "a", ascii "b\nc")],
                     state := .done }⟩, 13) := by decide
  have read := gnyOutcome_singleton (by simp) run_eq
  obtain ⟨final, outcome, uninjected⟩ := always false _ _ _ (GnyDecoder.validFlags_of_run run_eq)
    read (by decide) [] (by simp [OnlyCalls])
  obtain ⟨final', outcome', exactly⟩ :=
    @uninjected_iff { isRequest := false, status := 200, headers := [(ascii "a", ascii "b\nc")],
                      state := .done } rfl (by decide) [] (by simp [OnlyCalls])
  obtain rfl := Except.ok.inj (outcome.symm.trans outcome')
  have clean := exactly.mp uninjected (by decide)
  revert clean
  decide

end GnyProxy
