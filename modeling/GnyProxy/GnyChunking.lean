import GnyProxy.GnyDecoder

/-!
# Decoding GNY streams

The decoder gets through every stream whose flags are valid, and only ever adds to the fields of the
message, as does the reader.  In one piece, or without the end of a field under `HEADER_UNKNOWN`, a
stream is read as the decoder reads it.
-/

namespace GnyProxy

open Incremental

/-! ## The decoder never stops on valid flags -/

/-- Adding a field extends the list of the section that the message is in. -/
theorem HttpMessage.grows_of_addField {msg next : HttpMessage} {key value : Str}
    (added : msg.addField key value = .ok next) : msg.Grows next := by
  simp only [HttpMessage.addField] at added
  split at added
  · obtain ⟨-, rfl⟩ := HttpMessage.addHeader_eq_ok.mp added
    exact ⟨List.prefix_append _ _, List.prefix_refl _⟩
  · obtain ⟨-, rfl⟩ := HttpMessage.addFooter_eq_ok.mp added
    exact ⟨List.prefix_refl _, List.prefix_append _ _⟩

namespace GnyDecoder

/-- The phase of the decoder is one of the section that its message is in. -/
def Consistent (dec : GnyDecoder) : Prop :=
  match dec.phase with
  | .verb | .url _ | .status _ => dec.msg.state = .header
  | .flag | .literalKey _ | .literalValue _ _ => dec.msg.state = .header ∨ dec.msg.state = .footer
  | .tableValue header _ =>
      (dec.msg.state = .header ∨ dec.msg.state = .footer) ∧ header < headerUnknown
  | .size _ | .piece _ => dec.msg.state = .entity
  | .done => dec.msg.state = .done

theorem consistent_fresh (isRequest : Bool) : (fresh isRequest).Consistent := by
  cases isRequest <;> rfl

/-- In a header or footer section a field can be added. -/
theorem addField_ok {msg : HttpMessage} (section_ : msg.state = .header ∨ msg.state = .footer)
    (key value : Str) : ∃ next, msg.addField key value = .ok next ∧ next.state = msg.state := by
  obtain header | footer := section_
  · exact ⟨_, by simp [HttpMessage.addField, HttpMessage.addHeader, header]; rfl, header.symm⟩
  · exact ⟨_, by simp [HttpMessage.addField, HttpMessage.addFooter, footer]; rfl, footer.symm⟩

/-- A consistent decoder reads any byte but a flag that names nothing, and stays consistent. -/
theorem step_ok {dec : GnyDecoder} {ch : UInt8} (consistent : dec.Consistent)
    (valid : dec.phase = .flag → ch ≤ headerEnd) :
    ∃ next, dec.step ch = .ok next ∧ next.Consistent := by
  obtain ⟨phase, msg⟩ := dec
  cases phase with
  | verb => exact ⟨_, rfl, consistent⟩
  | url field =>
      by_cases nul : ch = 0
      · exact ⟨⟨.flag, msg.setUrl field⟩, by simp [step, nul], Or.inl consistent⟩
      · exact ⟨⟨.url (field ++ [ch]), msg⟩, by simp [step, nul], consistent⟩
  | status field =>
      by_cases second : field.length = 1
      · exact ⟨⟨.flag, msg.setStatus (readShort (field ++ [ch]) 0)⟩, by simp [step, second],
          Or.inl consistent⟩
      · exact ⟨⟨.status (field ++ [ch]), msg⟩, by simp [step, second], consistent⟩
  | flag =>
      by_cases ended : ch = headerEnd
      · by_cases header : msg.state = .header
        · exact ⟨⟨.size [], { msg with state := .entity }⟩, by
            simp [step, ended, header, HttpMessage.endHeader], rfl⟩
        · have footer : msg.state = .footer := consistent.resolve_left header
          exact ⟨⟨.done, { msg with state := .done }⟩, by
            simp [step, ended, footer, HttpMessage.endFooter], rfl⟩
      · by_cases unknown : ch = headerUnknown
        · exact ⟨⟨.literalKey [], msg⟩, by simp [step, unknown, headerUnknown, headerEnd],
            consistent⟩
        · have below : ch < headerUnknown := by
            have bound := valid rfl
            simp only [headerEnd, headerUnknown, UInt8.le_iff_toNat_le, UInt8.lt_iff_toNat_lt,
              ← UInt8.toNat_inj] at bound ended unknown ⊢
            simp at bound ended unknown ⊢
            omega
          exact ⟨⟨.tableValue ch [], msg⟩, by simp [step, ended, unknown, below],
            consistent, below⟩
  | literalKey field =>
      by_cases nul : ch = 0
      · exact ⟨⟨.literalValue field [], msg⟩, by simp [step, nul], consistent⟩
      · exact ⟨⟨.literalKey (field ++ [ch]), msg⟩, by simp [step, nul], consistent⟩
  | literalValue key field =>
      by_cases nul : ch = 0
      · obtain ⟨next, added, state⟩ := addField_ok consistent key field
        refine ⟨⟨.flag, next⟩, by simp [step, nul, added], ?_⟩
        simpa only [Consistent, state] using consistent
      · exact ⟨⟨.literalValue key (field ++ [ch]), msg⟩, by simp [step, nul], consistent⟩
  | tableValue header field =>
      by_cases nul : ch = 0
      · obtain ⟨name, named⟩ := headertoa_of_lt consistent.2
        obtain ⟨next, added, state⟩ := addField_ok consistent.1 name field
        refine ⟨⟨.flag, next⟩, by simp [step, nul, headerName, named, added], ?_⟩
        simpa only [Consistent, state] using consistent.1
      · exact ⟨⟨.tableValue header (field ++ [ch]), msg⟩, by simp [step, nul], consistent⟩
  | size field =>
      have inEntity : msg.state = .entity := consistent
      by_cases second : field.length = 1
      · by_cases zero : readShort (field ++ [ch]) 0 = 0
        · exact ⟨⟨.flag, { msg with state := .footer }⟩, by
            simp [step, second, zero, HttpMessage.endEntity, inEntity], Or.inr rfl⟩
        · exact ⟨⟨.piece (readShort (field ++ [ch]) 0), msg⟩, by simp [step, second, zero],
            inEntity⟩
      · exact ⟨⟨.size (field ++ [ch]), msg⟩, by simp [step, second], inEntity⟩
  | piece left =>
      have inEntity : msg.state = .entity := consistent
      refine ⟨⟨if left = 1 then .size [] else .piece (left - 1),
        { msg with entity := msg.entity ++ [ch] }⟩, by
          simp [step, HttpMessage.appendEntity, inEntity], ?_⟩
      by_cases last : left = 1
      · simpa [Consistent, last] using inEntity
      · simpa [Consistent, last] using inEntity
  | done => exact ⟨_, rfl, consistent⟩

/-- What a successful step needs of a flag. -/
theorem flag_le_of_step {msg : HttpMessage} {ch : UInt8} {next : GnyDecoder}
    (step_eq : step ⟨.flag, msg⟩ ch = .ok next) : ch ≤ headerEnd := by
  simp only [step] at step_eq
  split at step_eq
  · rename_i ended
    exact ended ▸ UInt8.le_refl ch
  · split at step_eq
    · rename_i unknown
      exact unknown ▸ by decide
    · split at step_eq
      · rename_i below
        exact UInt8.le_trans (UInt8.le_of_lt below) (by decide)
      · cases step_eq

/-- Decoding only adds to the header and footer lists. -/
theorem grows_of_step {dec next : GnyDecoder} {ch : UInt8} (step_eq : dec.step ch = .ok next) :
    dec.msg.Grows next.msg := by
  obtain ⟨phase, msg⟩ := dec
  cases phase with
  | verb | done =>
      cases step_eq
      exact .refl _
  | url field | status field | literalKey field =>
      simp only [step] at step_eq
      split at step_eq <;> cases step_eq <;> exact .refl _
  | flag =>
      simp only [step] at step_eq
      split at step_eq
      · split at step_eq
        · obtain ⟨msg', ended, next_eq⟩ := bind_eq_ok.mp step_eq
          obtain ⟨-, rfl⟩ := HttpMessage.endHeader_eq_ok.mp ended
          cases next_eq
          exact .refl _
        · obtain ⟨msg', ended, next_eq⟩ := bind_eq_ok.mp step_eq
          obtain ⟨-, rfl⟩ := HttpMessage.endFooter_eq_ok.mp ended
          cases next_eq
          exact .refl _
      · split at step_eq
        · cases step_eq
          exact .refl _
        · split at step_eq <;> cases step_eq
          exact .refl _
  | literalValue key field =>
      simp only [step] at step_eq
      split at step_eq
      · obtain ⟨msg', added, next_eq⟩ := bind_eq_ok.mp step_eq
        cases next_eq
        exact HttpMessage.grows_of_addField added
      · cases step_eq
        exact .refl _
  | tableValue header field =>
      simp only [step] at step_eq
      split at step_eq
      · obtain ⟨name, -, step_eq⟩ := bind_eq_ok.mp step_eq
        obtain ⟨msg', added, next_eq⟩ := bind_eq_ok.mp step_eq
        cases next_eq
        exact HttpMessage.grows_of_addField added
      · cases step_eq
        exact .refl _
  | size field =>
      simp only [step] at step_eq
      split at step_eq
      · split at step_eq
        · cases step_eq
          exact .refl _
        · obtain ⟨msg', ended, next_eq⟩ := bind_eq_ok.mp step_eq
          obtain ⟨-, rfl⟩ := HttpMessage.endEntity_eq_ok.mp ended
          cases next_eq
          exact .refl _
      · cases step_eq
        exact .refl _
  | piece left =>
      obtain ⟨msg', appended, next_eq⟩ := bind_eq_ok.mp step_eq
      obtain ⟨-, rfl⟩ := HttpMessage.appendEntity_eq_ok.mp appended
      cases next_eq
      exact .refl _

/-- A step that succeeds keeps the decoder consistent. -/
theorem consistent_of_step {dec next : GnyDecoder} {ch : UInt8} (step_eq : dec.step ch = .ok next)
    (consistent : dec.Consistent) : next.Consistent := by
  have valid : dec.phase = .flag → ch ≤ headerEnd := by
    obtain ⟨phase, msg⟩ := dec
    rintro rfl
    exact flag_le_of_step step_eq
  obtain ⟨next', step_eq', consistent'⟩ := step_ok consistent valid
  rwa [Except.ok.inj (step_eq.symm.trans step_eq')]

/-- Every byte of the word that is read as a flag names a header or ends a section. -/
def ValidFlagsFrom (dec : GnyDecoder) (word : Str) : Prop :=
  ∀ front flag back msg, word = front ++ flag :: back →
    automaton.Reads dec front ⟨.flag, msg⟩ → flag ≤ headerEnd

theorem run_ok {dec : GnyDecoder} {word : Str} (consistent : dec.Consistent)
    (valid : dec.ValidFlagsFrom word) :
    ∃ last count, automaton.run dec word = .ok (last, count) := by
  induction word generalizing dec with
  | nil => exact ⟨dec, 0, rfl⟩
  | cons ch word ih =>
      by_cases ended : automaton.final dec = true
      · exact ⟨dec, 0, automaton.run_append_of_final ended _⟩
      · have here : dec.phase = .flag → ch ≤ headerEnd := by
          intro flag
          refine valid [] ch word dec.msg rfl ?_
          rw [← flag]
          exact .nil dec
        obtain ⟨next, step_eq, next_consistent⟩ := step_ok consistent here
        have later : next.ValidFlagsFrom word := by
          intro front flag back msg shape reads
          exact valid (ch :: front) flag back msg (by rw [shape]; rfl)
            (.cons (by simpa using ended) step_eq reads)
        obtain ⟨last, count, outcome⟩ := ih next_consistent later
        have automaton_step : automaton.step dec ch = .ok next := step_eq
        exact ⟨last, count + 1, by simp [Automaton.run, ended, automaton_step, outcome]⟩

theorem validFlags_of_run {dec last : GnyDecoder} {word : Str} {count : Nat}
    (outcome : automaton.run dec word = .ok (last, count)) : dec.ValidFlagsFrom word := by
  intro front flag back msg shape reads
  subst shape
  have rest := reads.run_append (flag :: back)
  rw [outcome] at rest
  rw [Automaton.run, if_neg (by simp [automaton])] at rest
  cases step_eq : automaton.step ⟨.flag, msg⟩ flag with
  | error fault => simp [step_eq] at rest
  | ok next => exact flag_le_of_step step_eq

end GnyDecoder
end GnyProxy

namespace GnyProxy

open Incremental GnyDecoder

/-! ## Reading only adds fields -/

namespace MessageSourceGny

theorem grows_of_readChar {src src' : MessageSourceGny} {msg msg' : HttpMessage} {i : Nat}
    {ch : UInt8} (outcome : src.readChar msg i ch = .ok (src', msg')) : msg.Grows msg' := by
  unfold readChar at outcome
  cases state : src.state with
  | initVerb | done =>
      simp only [state] at outcome
      cases outcome
      exact .refl _
  | initUrl =>
      simp only [state] at outcome
      split at outcome
      · obtain ⟨url, -, next_eq⟩ := bind_eq_ok.mp outcome
        cases next_eq
        exact .refl _
      · cases outcome
        exact .refl _
  | initStatus | headerKey =>
      simp only [state] at outcome
      split at outcome <;> cases outcome <;> exact .refl _
  | headerStart =>
      simp only [state] at outcome
      split at outcome
      · split at outcome
        · obtain ⟨msg₁, ended, next_eq⟩ := bind_eq_ok.mp outcome
          obtain ⟨-, rfl⟩ := HttpMessage.endHeader_eq_ok.mp ended
          cases next_eq
          exact .refl _
        · obtain ⟨msg₁, ended, next_eq⟩ := bind_eq_ok.mp outcome
          obtain ⟨-, rfl⟩ := HttpMessage.endFooter_eq_ok.mp ended
          cases next_eq
          exact .refl _
      · split at outcome <;> cases outcome <;> exact .refl _
  | headerValue =>
      simp only [state] at outcome
      split at outcome
      · split at outcome
        all_goals
          obtain ⟨key, -, outcome⟩ := bind_eq_ok.mp outcome
          obtain ⟨value, -, outcome⟩ := bind_eq_ok.mp outcome
          obtain ⟨msg₁, added, next_eq⟩ := bind_eq_ok.mp outcome
          cases next_eq
          exact HttpMessage.grows_of_addField added
      · cases outcome
        exact .refl _
  | entityStart =>
      simp only [state] at outcome
      split at outcome
      · split at outcome
        · cases outcome
          exact .refl _
        · obtain ⟨msg₁, ended, next_eq⟩ := bind_eq_ok.mp outcome
          obtain ⟨-, rfl⟩ := HttpMessage.endEntity_eq_ok.mp ended
          cases next_eq
          exact .refl _
      · cases outcome
        exact .refl _
  | entity =>
      simp only [state] at outcome
      split at outcome
      · obtain ⟨msg₁, appended, next_eq⟩ := bind_eq_ok.mp outcome
        obtain ⟨-, rfl⟩ := HttpMessage.appendEntity_eq_ok.mp appended
        cases next_eq
        exact .refl _
      · cases outcome
        exact .refl _

theorem grows_of_readLoop {word : Str} {src src' : MessageSourceGny} {msg msg' : HttpMessage}
    {i j : Nat} (outcome : src.readLoop msg i word = .ok (j, src', msg')) : msg.Grows msg' := by
  induction word generalizing src msg i with
  | nil =>
      cases outcome
      exact .refl _
  | cons ch word ih =>
      rw [readLoop] at outcome
      split at outcome
      · cases outcome
        exact .refl _
      · split at outcome
        · cases outcome
        · rename_i src₁ msg₁ here
          exact (grows_of_readChar here).trans (ih outcome)

theorem grows_of_flushEntity {src src' : MessageSourceGny} {msg msg' : HttpMessage}
    (outcome : src.flushEntity msg = .ok (src', msg')) : msg.Grows msg' := by
  simp only [flushEntity] at outcome
  split at outcome
  · obtain ⟨msg₁, appended, next_eq⟩ := bind_eq_ok.mp outcome
    obtain ⟨-, rfl⟩ := HttpMessage.appendEntity_eq_ok.mp appended
    cases next_eq
    exact .refl _
  · cases outcome
    exact .refl _

theorem grows_of_read {reader next : MessageSourceGny × HttpMessage} {rbuf : Str} {count : Nat}
    (outcome : read reader rbuf = .ok (next, count)) : reader.2.Grows next.2 := by
  simp only [read] at outcome
  split at outcome
  · cases outcome
    exact .refl _
  · obtain ⟨⟨i, src, msg⟩, loop_eq, outcome⟩ := bind_eq_ok.mp outcome
    obtain ⟨⟨src₁, msg₁⟩, flush_eq, next_eq⟩ := bind_eq_ok.mp outcome
    cases next_eq
    exact (grows_of_readLoop loop_eq).trans (grows_of_flushEntity flush_eq)

theorem grows_of_feed {pieces : List Str} {reader next : MessageSourceGny × HttpMessage}
    {count : Nat} (outcome : feed read reader pieces = .ok (next, count)) :
    reader.2.Grows next.2 := by
  induction pieces generalizing reader count with
  | nil =>
      cases outcome
      exact .refl _
  | cons piece pieces ih =>
      obtain ⟨middle, before, after, here, later, -⟩ := feed_cons_eq_ok.mp outcome
      exact (grows_of_read here).trans (ih later)

end MessageSourceGny

theorem GnyDecoder.grows_of_run {dec last : GnyDecoder} {word : Str} {count : Nat}
    (outcome : automaton.run dec word = .ok (last, count)) : dec.msg.Grows last.msg := by
  obtain ⟨front, back, -, -, reads, -⟩ := automaton.reads_of_run outcome
  exact reads.invariant (P := fun state => dec.msg.Grows state.msg)
    (fun step_eq grown => grown.trans (grows_of_step step_eq)) (.refl _)

/-- Two fields with one key and different values cannot end up in the same place of a list. -/
theorem HttpMessage.value_unique {msg left right last : HttpMessage} {key value value' : Str}
    (added : msg.addField key value = .ok left) (added' : msg.addField key value' = .ok right)
    (grown : left.Grows last) (grown' : right.Grows last) : value = value' := by
  have unique {before list : Fields} (front : before ++ [(key, value)] <+: list)
      (front' : before ++ [(key, value')] <+: list) : value = value' := by
    have same := List.prefix_of_prefix_length_le front front' (by simp)
    have equal := same.eq_of_length (by simp)
    simpa using List.append_cancel_left equal
  simp only [HttpMessage.addField] at added added'
  split at added
  · rename_i header
    rw [if_pos header] at added'
    obtain ⟨-, rfl⟩ := HttpMessage.addHeader_eq_ok.mp added
    obtain ⟨-, rfl⟩ := HttpMessage.addHeader_eq_ok.mp added'
    exact unique grown.1 grown'.1
  · rename_i footer
    rw [if_neg footer] at added'
    obtain ⟨-, rfl⟩ := HttpMessage.addFooter_eq_ok.mp added
    obtain ⟨-, rfl⟩ := HttpMessage.addFooter_eq_ok.mp added'
    exact unique grown.2 grown'.2

/-! ## Cuts -/

/-- What a fresh reader makes of the pieces: the message, whether it is finished, and how many
bytes were consumed. -/
def gnyOutcome (isRequest : Bool) (pieces : List Str) :
    Except Fault (HttpMessage × Bool × Nat) :=
  match feed MessageSourceGny.read (MessageSourceGny.create isRequest, .fresh isRequest) pieces with
  | .error fault => .error fault
  | .ok ((src, msg), count) => .ok (msg, src.state = .done, count)

/-- Every header flag of the stream is at most `HEADER_END`. -/
def GnyValidFlags (isRequest : Bool) (stream : Str) : Prop :=
  (fresh isRequest).ValidFlagsFrom stream

/-- The decoder that refuses the ends of values under `HEADER_UNKNOWN`. -/
def GnyDecoder.plain : Automaton GnyDecoder UInt8 Fault :=
  automaton.restrict (fun dec ch => !dec.completesLiteral ch) .outOfBounds

/-- Between two reads, where the position kept for a value under `HEADER_UNKNOWN` does not matter,
what the reader keeps is what the decoder keeps. -/
def GnyDecoder.MatchesPlain (reader : MessageSourceGny × HttpMessage) (dec : GnyDecoder) : Prop :=
  GnySim False reader.1 reader.2 reader.1.dataStream.length dec ∧ reader.2 = dec.msg

theorem GnyDecoder.matchesPlain_fresh (isRequest : Bool) :
    MatchesPlain (.create isRequest, .fresh isRequest) (fresh isRequest) :=
  ⟨GnySim.start isRequest False [], by cases isRequest <;> rfl⟩

/-- One read of a piece is a run of the decoder over it. -/
theorem GnyDecoder.simulates_plain : Simulates MessageSourceGny.read plain MatchesPlain := by
  have steps : ∀ {dec ch next}, plain.step dec ch = .ok next →
      dec.step ch = .ok next ∧ (False ∨ dec.completesLiteral ch = false) := by
    intro dec ch next step_eq
    cases completes : dec.completesLiteral ch with
    | true => simp [plain, Automaton.restrict, completes] at step_eq
    | false =>
        refine ⟨?_, Or.inr rfl⟩
        simpa [plain, Automaton.restrict, completes, automaton] using step_eq
  rintro ⟨src, msg⟩ dec piece last count ⟨sim, same⟩ pieceRun
  by_cases empty : piece = []
  · subst empty
    simp only [Automaton.run, Except.ok.injEq, Prod.mk.injEq] at pieceRun
    obtain ⟨rfl, rfl⟩ := pieceRun
    exact ⟨(src, msg), by simp [MessageSourceGny.read], sim, same⟩
  · obtain ⟨src', read_eq, sim', -⟩ := sim.read (A := plain) rfl steps empty pieceRun
    refine ⟨(src'.rebase, last.msg), read_eq, ?_, rfl⟩
    simpa using sim'.rebase.1

/-- In one piece every stream is read as the decoder reads it. -/
theorem gnyOutcome_singleton {isRequest : Bool} {stream : Str} {last : GnyDecoder} {count : Nat}
    (nonempty : stream ≠ [])
    (outcome : automaton.run (fresh isRequest) stream = .ok (last, count)) :
    gnyOutcome isRequest [stream] = .ok (last.msg, last.phase = .done, count) := by
  have start : GnySim True (MessageSourceGny.create isRequest) (.fresh isRequest) 0
      (fresh isRequest) := GnySim.start isRequest True []
  obtain ⟨src, read_eq, sim, -⟩ := start.read (A := automaton) rfl
    (fun step_eq => ⟨step_eq, Or.inl trivial⟩) nonempty outcome
  simp only [gnyOutcome, feed, read_eq, sim.rebase.1.done_iff, Nat.add_zero]

end GnyProxy
