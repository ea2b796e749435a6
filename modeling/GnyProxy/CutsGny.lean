import GnyProxy.GnyChunking
import GnyProxy.Positions

/-!
# Cuts of a GNY stream

The reader keeps the position of the value of a field under `HEADER_UNKNOWN` in `substate`, which
the re-basing of the buffer does not move.  Whether that does harm depends on the length of the
key: the flag and the key have to be read in one call, which takes at most `MAX_READ_SIZE` bytes,
and the end of the value in a later one.
-/

namespace GnyProxy

open Incremental MessageSourceGny

/-! ## What is kept between two calls -/

namespace MessageSourceGny

/-- Where no field has begun, or the bytes are handed on at once, nothing is kept. -/
def Emptied (src : MessageSourceGny) : Prop :=
  src.state = .initVerb ∨ src.state = .headerStart ∨ src.state = .entity → src.dataStream = []

variable {reader next : MessageSourceGny × HttpMessage} {piece : Str} {count : Nat}

/-- A finished reader piles up what it is handed. -/
theorem read_done (ended : reader.1.state = .done) (based : reader.1.pos = 0) (piece : Str) :
    read reader piece =
      .ok (({ reader.1 with dataStream := reader.1.dataStream ++ piece }, reader.2), 0) := by
  obtain ⟨src, msg⟩ := reader
  cases piece with
  | nil => simp [read]
  | cons ch rest =>
      simp only at ended based
      simp [read, readLoop, ended, flushEntity, rebase, based]

/-- The flush of a piece of entity that has been handed on moves the start of the field to the end
of the buffer. -/
theorem flushEntity_moves {src src' : MessageSourceGny} {msg msg' : HttpMessage}
    (outcome : src.flushEntity msg = .ok (src', msg')) :
    src'.state = src.state ∧ src'.dataStream = src.dataStream ∧
      src'.substate = src.substate ∧
      src'.pos = if src.state = .entity then src.dataStream.length else src.pos := by
  rw [flushEntity] at outcome
  split at outcome
  · rename_i entity
    obtain ⟨msg₁, -, next_eq⟩ := bind_eq_ok.mp outcome
    cases next_eq
    exact ⟨rfl, rfl, rfl, by rw [if_pos entity]⟩
  · rename_i other
    cases outcome
    exact ⟨rfl, rfl, rfl, by rw [if_neg other]⟩

@[simp] theorem rebase_pos (src : MessageSourceGny) : src.rebase.pos = 0 := by
  by_cases zero : src.pos = 0 <;> simp [rebase, zero]

@[simp] theorem rebase_state (src : MessageSourceGny) : src.rebase.state = src.state := by
  by_cases zero : src.pos = 0 <;> simp [rebase, zero]

@[simp] theorem rebase_substate (src : MessageSourceGny) : src.rebase.substate = src.substate := by
  by_cases zero : src.pos = 0 <;> simp [rebase, zero]

@[simp] theorem rebase_key (src : MessageSourceGny) : src.rebase.key = src.key := by
  by_cases zero : src.pos = 0 <;> simp [rebase, zero]

theorem rebase_dataStream (src : MessageSourceGny) :
    src.rebase.dataStream = src.dataStream.drop src.pos := by
  by_cases zero : src.pos = 0 <;> simp [rebase, zero]

/-- Where a loop stops, a field that has not begun would begin, and a finished message ends. -/
theorem readLoop_moves {src src' : MessageSourceGny} {msg msg' : HttpMessage} {i j : Nat}
    {word : Str} (open_ : src.state ≠ .done)
    (unbegun : src.state = .initVerb ∨ src.state = .headerStart → src.pos = i)
    (outcome : readLoop src msg i word = .ok (j, src', msg')) :
    src'.state = .initVerb ∨ src'.state = .headerStart ∨ src'.state = .done → src'.pos = j := by
  refine readLoop_invariant (P := fun j src => src.state = .initVerb ∨ src.state = .headerStart ∨
    src.state = .done → src.pos = j) ?_ outcome ?_
  · intro src src' msg msg' i ch going char_eq _
    obtain ⟨-, here | ⟨-, verb, start, ended⟩, -⟩ := readChar_moves char_eq
    · exact fun _ => here
    · rintro (state | state | state)
      · exact absurd state verb
      · exact absurd state start
      · exact absurd (ended state) going
  · rintro (state | state | state)
    · exact unbegun (Or.inl state)
    · exact unbegun (Or.inr state)
    · exact absurd state open_

/-- A loop moves the start of the current field behind the place where it began, or leaves it. -/
theorem readLoop_pos {src src' : MessageSourceGny} {msg msg' : HttpMessage} {i j : Nat}
    {word : Str} (outcome : readLoop src msg i word = .ok (j, src', msg')) :
    src'.pos = src.pos ∨ i < src'.pos := by
  have bound : i ≤ j ∧ (src'.pos = src.pos ∨ i < src'.pos) := by
    refine readLoop_invariant (P := fun j next => i ≤ j ∧ (next.pos = src.pos ∨ i < next.pos)) ?_
      outcome ⟨le_rfl, Or.inl rfl⟩
    rintro src₁ src₂ msg msg' j ch - char_eq ⟨lower, place⟩
    refine ⟨by omega, ?_⟩
    obtain ⟨-, here | ⟨same, -⟩, -⟩ := readChar_moves char_eq
    · exact Or.inr (by omega)
    · rwa [same]
  exact bound.2

/-- A call leaves nothing behind where no field has begun; and if it finishes the message, exactly
the bytes that it does not take. -/
theorem kept_of_read (based : reader.1.pos = 0) (emptied : Emptied reader.1)
    (outcome : read reader piece = .ok (next, count)) :
    next.1.pos = 0 ∧ Emptied next.1 ∧
      (reader.1.state ≠ .done → next.1.state = .done →
        next.1.dataStream.length + count = piece.length) := by
  by_cases finished : reader.1.state = .done
  · rw [read_done finished based] at outcome
    cases outcome
    exact ⟨based, by simp [Emptied, finished], fun open_ => absurd finished open_⟩
  · by_cases empty : piece = []
    · simp only [read, empty, if_true, Except.ok.injEq, Prod.mk.injEq] at outcome
      obtain ⟨rfl, rfl⟩ := outcome
      exact ⟨based, emptied, fun open_ ended => absurd ended open_⟩
    · simp only [read, empty, if_false, place_eq] at outcome
      obtain ⟨⟨j, src, msg⟩, loop_eq, outcome⟩ := bind_eq_ok.mp outcome
      obtain ⟨⟨src', msg'⟩, flush_eq, next_eq⟩ := bind_eq_ok.mp outcome
      cases next_eq
      obtain ⟨lower, upper, stop⟩ := readLoop_bounds loop_eq
      have data := dataStream_of_readLoop loop_eq
      have going : (reader.1.opened piece).state ≠ .done := finished
      have unbegun : (reader.1.opened piece).state = .initVerb ∨
          (reader.1.opened piece).state = .headerStart →
            (reader.1.opened piece).pos = reader.1.dataStream.length := by
        intro state
        change reader.1.pos = _
        rw [based, emptied (state.imp_right Or.inl), List.length_nil]
      have loop_eq : readLoop (reader.1.opened piece) reader.2 reader.1.dataStream.length piece =
          .ok (j, src, msg) := loop_eq
      have moves := readLoop_moves going unbegun loop_eq
      obtain ⟨state', data', -, pos'⟩ : src'.state = src.state ∧
          src'.dataStream = src.dataStream ∧ src'.substate = src.substate ∧
            src'.pos = if src.state = .entity then src.dataStream.length else src.pos :=
        flushEntity_moves flush_eq
      have total : src.dataStream.length = reader.1.dataStream.length + piece.length := by
        rw [data, List.length_append]
      refine ⟨rebase_pos _, ?_, fun _ ended => ?_⟩
      · intro state
        rw [rebase_state, state'] at state
        rw [rebase_dataStream, data', pos']
        refine List.drop_eq_nil_of_le ?_
        by_cases entity : src.state = .entity
        · rw [if_pos entity]
        · have begins : src.state = .initVerb ∨ src.state = .headerStart :=
            (or_assoc.mpr state).resolve_right entity
          have all : j = reader.1.dataStream.length + piece.length := by
            refine stop.resolve_right fun ended => ?_
            rw [ended] at begins
            simp at begins
          rw [if_neg entity, moves (begins.imp_right Or.inl), total, all]
      · rw [rebase_state, state'] at ended
        have here := moves (Or.inr (Or.inr ended))
        have other : src.state ≠ .entity := by
          rw [ended]
          decide
        rw [rebase_dataStream, List.length_drop, data', pos', if_neg other, total, here]
        simp only
        omega

/-- A call keeps no more than there was and what it has been handed, and takes no more than it is
handed. -/
theorem bounds_of_read (outcome : read reader piece = .ok (next, count)) :
    buffered next ≤ buffered reader + piece.length ∧ count ≤ piece.length := by
  rw [read] at outcome
  split at outcome
  · cases outcome
    exact ⟨Nat.le_add_right _ _, Nat.zero_le _⟩
  · obtain ⟨⟨j, src, msg⟩, loop_eq, outcome⟩ := bind_eq_ok.mp outcome
    obtain ⟨⟨src', msg'⟩, flush_eq, next_eq⟩ := bind_eq_ok.mp outcome
    cases next_eq
    refine ⟨?_, Nat.sub_le _ _⟩
    rw [buffered, rebase_dataStream, dataStream_of_flushEntity flush_eq,
      dataStream_of_readLoop loop_eq, List.length_drop, List.length_append, buffered]
    exact Nat.sub_le _ _

end MessageSourceGny

/-! ## Where the position of a value is wrong -/

namespace GnyDecoder

/-- How many bytes are kept: those of the unfinished field, but not those of a piece of entity. -/
def held (dec : GnyDecoder) : Nat :=
  match dec.phase with
  | .url field | .status field | .literalKey field | .tableValue _ field | .size field =>
      field.length
  | .literalValue key field => key.length + 1 + field.length
  | .verb | .flag | .piece _ | .done => 0

/-- In calls of at most `bound` bytes the position of this value can be wrong where it ends, and
then also its text: the flag and the key fit into one call.  If they fill it, the position is one
too large, which an empty value does not show in front of a NUL or of nothing. -/
def Misplaces (bound : Nat) (key field back : Str) : Prop :=
  key.length + 2 < bound ∨
    key.length + 2 = bound ∧ (field ≠ [] ∨ ∃ ch rest, back = ch :: rest ∧ ch ≠ 0)

/-- No value ends in the word whose position can be wrong by then. -/
def KeepsPlaces (bound : Nat) (dec : GnyDecoder) (word : Str) : Prop :=
  ∀ front back key field msg, word = front ++ 0 :: back →
    automaton.Reads dec front ⟨.literalValue key field, msg⟩ → ¬Misplaces bound key field back

/-- The position kept for a value is right; or else a call ended just behind its key, which with
its flag filled it, and the position is one too large. -/
def Located (bound : Nat) (src : MessageSourceGny) (dec : GnyDecoder) : Prop :=
  ∀ key field, dec.phase = .literalValue key field → bound ≤ key.length + 2 →
    src.substate = src.pos + key.length + 1 ∨
      src.pos = 0 ∧ key.length + 2 = bound ∧ src.substate = key.length + 2

variable {bound : Nat}

/-- A call of one byte has no room for a flag and a key. -/
theorem keepsPlaces_one (dec : GnyDecoder) (word : Str) : KeepsPlaces 1 dec word := by
  rintro front back key field msg - - (short | ⟨fills, -⟩) <;> omega

theorem KeepsPlaces.behind {dec middle : GnyDecoder} {word rest : Str}
    (keeps : KeepsPlaces bound dec (word ++ rest)) (reads : automaton.Reads dec word middle) :
    KeepsPlaces bound middle rest := by
  rintro front back key field msg rfl reads'
  exact keeps (word ++ front) back key field msg (by simp) (reads.append reads')

theorem KeepsPlaces.front {dec : GnyDecoder} {word rest : Str}
    (keeps : KeepsPlaces bound dec (word ++ rest)) : KeepsPlaces bound dec word := by
  rintro front back key field msg rfl reads misplaces
  refine keeps front (back ++ rest) key field msg (by simp) reads (misplaces.imp_right ?_)
  rintro ⟨fills, shown⟩
  refine ⟨fills, shown.imp_right ?_⟩
  rintro ⟨ch, more, rfl, plain⟩
  exact ⟨ch, more ++ rest, rfl, plain⟩

end GnyDecoder

namespace GnySim

open GnyDecoder

variable {bound : Nat} {src : MessageSourceGny} {msg : HttpMessage} {i : Nat} {dec : GnyDecoder}

/-- Where the position of every value is right, it is located. -/
theorem located (sim : GnySim True src msg i dec) : Located bound src dec := by
  obtain ⟨phase, decoded⟩ := dec
  rintro key field rfl -
  exact Or.inl (sim.2.2.2.2.2.2.2.2 trivial)

/-- A value that is located, and not misplaced at its end, is found there. -/
theorem valueText_of_located {key field rest : Str} {decoded : HttpMessage}
    (sim : GnySim False src msg i ⟨.literalValue key field, decoded⟩)
    (place : Located bound src ⟨.literalValue key field, decoded⟩)
    (tail : src.dataStream.drop i = 0 :: rest) (keeps : ¬Misplaces bound key field rest) :
    cStringAt src.dataStream src.substate = .ok field := by
  simp only [Misplaces, not_or, not_lt, not_and, not_exists, not_not] at keeps
  obtain ⟨long, shown⟩ := keeps
  obtain right | ⟨based, fills, next⟩ := place key field rfl long
  · exact sim.valueText tail right
  · -- The position is that of the byte behind the value.
    obtain ⟨rfl, nul⟩ := shown fills
    have below := lt_length_of_drop_eq_cons tail
    have length : (src.field i).length = i - src.pos := length_segment sim.2.1
    obtain ⟨-, -, -, -, -, field_eq, -⟩ := sim
    rw [field_eq, based] at length
    simp only [List.length_append, List.length_cons, List.length_nil] at length
    have here : src.substate = i + 1 := by omega
    have behind : src.dataStream.drop (i + 1) = rest := by
      rw [← List.drop_drop, tail]
      rfl
    rw [cStringAt, if_pos (by omega), here, behind]
    cases rest with
    | nil => rfl
    | cons ch more =>
        rw [nul ch more rfl]
        rfl

/-- One byte takes the reader where it takes the decoder, and the position of a value stays
located. -/
theorem readChar_located {ch : UInt8} {rest : Str} {next : GnyDecoder}
    (sim : GnySim False src msg i dec) (place : Located bound src dec)
    (tail : src.dataStream.drop i = ch :: rest) (step : dec.step ch = .ok next)
    (keeps : ∀ key field, ch = 0 → dec.phase = .literalValue key field →
      ¬Misplaces bound key field rest) :
    ∃ src' msg', src.readChar msg i ch = .ok (src', msg') ∧ GnySim False src' msg' (i + 1) next ∧
      Located bound src' next ∧ src'.dataStream = src.dataStream := by
  by_cases value : ∃ key field, dec.phase = .literalValue key field
  · obtain ⟨phase, decoded⟩ := dec
    obtain ⟨key, field, rfl⟩ := value
    by_cases nul : ch = 0
    · subst nul
      obtain ⟨src', msg', char_eq, sim', same⟩ := sim.readChar_value tail
        (sim.valueText_of_located place tail (keeps key field rfl rfl)) step
      refine ⟨src', msg', char_eq, sim', ?_, same⟩
      obtain ⟨next_msg, -, next_eq⟩ := bind_eq_ok.mp step
      cases next_eq
      rintro other text ⟨⟩
    · obtain ⟨src', msg', char_eq, sim', same⟩ := sim.readChar_literalValue tail step
        (Or.inr (by simp [completesLiteral, nul]))
      have stays : src.readChar msg i ch = .ok (src, msg) := by
        simp only [MessageSourceGny.readChar, sim.2.2.1, nul, if_false]
      obtain ⟨rfl, rfl⟩ : src = src' ∧ msg = msg' := by simpa using stays.symm.trans char_eq
      refine ⟨src, msg, char_eq, sim', ?_, same⟩
      simp only [GnyDecoder.step, nul, if_false, Except.ok.injEq] at step
      subst step
      rintro other text ⟨⟩ long
      exact place key field rfl long
  · have sim' : GnySim True src msg i dec :=
      sim.revalue fun _ key field phase => absurd ⟨key, field, phase⟩ value
    obtain ⟨src', msg', char_eq, sim', same⟩ := sim'.readChar tail step (Or.inl trivial)
    exact ⟨src', msg', char_eq, sim'.revalue False.elim, sim'.located, same⟩

/-- A loop over a word in which no value is misplaced is a run of the decoder. -/
theorem readLoop_located {word : Str} {last : GnyDecoder} {count : Nat}
    (sim : GnySim False src msg i dec) (place : Located bound src dec)
    (tail : src.dataStream.drop i = word) (keeps : KeepsPlaces bound dec word)
    (outcome : automaton.run dec word = .ok (last, count)) :
    ∃ src' msg', src.readLoop msg i word = .ok (i + count, src', msg') ∧
      GnySim False src' msg' (i + count) last ∧ Located bound src' last ∧
      src'.dataStream = src.dataStream ∧ (count = word.length ∨ last.phase = .done) := by
  induction word generalizing src msg i dec count with
  | nil =>
      simp only [Automaton.run, Except.ok.injEq, Prod.mk.injEq] at outcome
      obtain ⟨rfl, rfl⟩ := outcome
      exact ⟨src, msg, rfl, sim, place, rfl, Or.inl rfl⟩
  | cons ch word ih =>
      rw [Automaton.run] at outcome
      have final_iff : automaton.final dec = true ↔ dec.phase = .done := by
        rw [automaton, decide_eq_true_eq]
      split at outcome
      · rename_i stopped
        simp only [Except.ok.injEq, Prod.mk.injEq] at outcome
        obtain ⟨rfl, rfl⟩ := outcome
        have ended := sim.done_iff.mpr (final_iff.mp stopped)
        exact ⟨src, msg, by simp [MessageSourceGny.readLoop, ended], sim, place, rfl,
          Or.inr (final_iff.mp stopped)⟩
      · rename_i open_
        have going : ¬src.state = .done := fun ended =>
          open_ (final_iff.mpr (sim.done_iff.mp ended))
        split at outcome
        · cases outcome
        · rename_i next step
          split at outcome
          · cases outcome
          · rename_i end_ count' rest
            simp only [Except.ok.injEq, Prod.mk.injEq] at outcome
            obtain ⟨rfl, rfl⟩ := outcome
            have here : ∀ key field, ch = 0 → dec.phase = .literalValue key field →
                ¬Misplaces bound key field word := by
              obtain ⟨phase, decoded⟩ := dec
              rintro key field rfl rfl
              exact keeps [] word key field decoded rfl (.nil _)
            obtain ⟨src₁, msg₁, read_eq, sim₁, place₁, data₁⟩ :=
              sim.readChar_located place tail step here
            have tail₁ : src₁.dataStream.drop (i + 1) = word := by
              rw [data₁, ← List.drop_drop, tail]
              rfl
            have one : automaton.Reads dec [ch] next := .single (by simpa using open_) step
            obtain ⟨src₂, msg₂, loop_eq, sim₂, place₂, data₂, stop⟩ :=
              ih sim₁ place₁ tail₁ (@KeepsPlaces.behind bound dec next [ch] word keeps one) rest
            refine ⟨src₂, msg₂, ?_, ?_, place₂, data₂.trans data₁, ?_⟩
            · simp only [MessageSourceGny.readLoop, going, if_false, read_eq, loop_eq]
              rw [show i + 1 + count' = i + (count' + 1) by omega]
            · rwa [show i + (count' + 1) = i + 1 + count' by omega]
            · simpa using stop

/-- One read of a piece in which no value is misplaced, up to the final re-basing. -/
theorem read_located {piece : Str} {last : GnyDecoder} {count : Nat} (nonempty : piece ≠ [])
    (sim : GnySim False src msg src.dataStream.length dec) (place : Located bound src dec)
    (based : src.pos = 0) (keeps : KeepsPlaces bound dec piece)
    (outcome : automaton.run dec piece = .ok (last, count)) :
    ∃ src', MessageSourceGny.read (src, msg) piece = .ok ((src'.rebase, last.msg), count) ∧
      GnySim False src' last.msg src'.dataStream.length last ∧ Located bound src' last ∧
      (src'.pos = 0 ∨ src.dataStream.length < src'.pos) ∧
      src'.dataStream = src.dataStream ++ piece := by
  have count_le := automaton.count_le_of_run outcome
  obtain ⟨src₁, msg₁, loop_eq, sim₁, place₁, data₁, stop⟩ :=
    @readLoop_located bound _ _ _ _ _ _ _ (sim.append piece) place (by simp) keeps outcome
  have sim₂ := sim₁.at_end (stop.imp_left fun all => by simp [data₁, all])
  obtain ⟨src₂, flush_eq, sim₃, data₂⟩ := sim₂.flushEntity
  have data : src₂.dataStream = src.dataStream ++ piece := data₂.trans data₁
  obtain ⟨state, -, substate, pos⟩ := flushEntity_moves flush_eq
  have began : src₁.pos = 0 ∨ src.dataStream.length < src₁.pos := by
    have moved := readLoop_pos loop_eq
    simpa only [based] using moved
  have place₂ : Located bound src₂ last := by
    obtain ⟨phase, decoded⟩ := last
    rintro key field rfl long
    have value : src₁.state ≠ .entity := by
      rw [sim₂.2.2.1]
      decide
    rw [substate, pos, if_neg value]
    exact place₁ key field rfl long
  refine ⟨src₂, ?_, sim₃, place₂, ?_, data⟩
  · have stops : piece.length -
        ((src.dataStream ++ piece).length - (src.dataStream.length + count)) = count := by
      rw [List.length_append]
      omega
    have place_eq : (src.dataStream ++ piece).length - piece.length = src.dataStream.length := by
      simp
    simp only [MessageSourceGny.read, nonempty, if_false, place_eq, loop_eq, ok_bind, flush_eq,
      data, stops]
  · rw [pos]
    split
    · right
      have positive := List.length_pos_iff.mpr nonempty
      rw [data₁, List.length_append]
      omega
    · exact began

end GnySim

/-! ## What has been handed over -/

namespace GnyDecoder

/-- Between two calls: what the reader keeps is what the decoder keeps, and the position of a value
is right but for the case in which it does no harm. -/
structure MatchesPlaced (bound : Nat) (reader : MessageSourceGny × HttpMessage)
    (dec : GnyDecoder) : Prop where
  sim : GnySim False reader.1 reader.2 reader.1.dataStream.length dec
  same : reader.2 = dec.msg
  place : Located bound reader.1 dec
  based : reader.1.pos = 0
  emptied : Emptied reader.1

variable {bound : Nat} {isRequest : Bool} {reader : MessageSourceGny × HttpMessage}
  {dec last : GnyDecoder}

theorem MatchesPlaced.start (bound : Nat) (isRequest : Bool) :
    MatchesPlaced bound (.create isRequest, .fresh isRequest) (fresh isRequest) where
  sim := GnySim.start isRequest False []
  same := by cases isRequest <;> rfl
  place := by
    rintro key field phase
    cases isRequest <;> cases phase
  based := rfl
  emptied := fun _ => rfl

theorem MatchesPlaced.done_iff (here : MatchesPlaced bound reader dec) :
    reader.1.state = .done ↔ automaton.final dec = true := by
  rw [here.sim.done_iff, automaton, decide_eq_true_eq]

/-- The buffer between two calls holds the unfinished field. -/
theorem MatchesPlaced.kept (here : MatchesPlaced bound reader dec)
    (open_ : automaton.final dec = false) : reader.1.dataStream.length = dec.held := by
  obtain ⟨⟨-, -, sim⟩, -, -, based, emptied⟩ := here
  obtain ⟨phase, msg⟩ := dec
  have within {text : Str} (field_eq : reader.1.field reader.1.dataStream.length = text) :
      reader.1.dataStream.length = text.length := by
    rw [← field_eq, MessageSourceGny.field, based, length_segment le_rfl, Nat.sub_zero]
  cases phase with
  | url field | status field => exact within sim.2.2.1
  | literalKey field => exact within sim.2.2.2.1
  | tableValue header field => exact within sim.2.2.2.2.1
  | size field => exact within sim.2.2.2.1
  | literalValue key field =>
      rw [within sim.2.2.2.1]
      simp only [held, List.length_append, List.length_cons]
      omega
  | verb =>
      rw [emptied (Or.inl sim.1)]
      rfl
  | flag =>
      rw [emptied (Or.inr (Or.inl sim.1))]
      rfl
  | piece left =>
      rw [emptied (Or.inr (Or.inr sim.1))]
      rfl
  | done => simp [automaton] at open_

/-- One call of at most `bound` bytes is a run of the decoder over them. -/
theorem MatchesPlaced.read {handed piece : Str} {count : Nat}
    (here : MatchesPlaced bound reader dec)
    (reads : automaton.Reads (fresh isRequest) handed dec) (nonempty : piece ≠ [])
    (short : piece.length ≤ bound) (keeps : KeepsPlaces bound dec piece)
    (outcome : automaton.run dec piece = .ok (last, count)) :
    ∃ next, MessageSourceGny.read reader piece = .ok (next, count) ∧
      MatchesPlaced bound next last := by
  obtain ⟨src', read_eq, sim, place, began, data⟩ :=
    here.sim.read_located nonempty here.place here.based keeps outcome
  obtain ⟨based, emptied, -⟩ := kept_of_read here.based here.emptied read_eq
  refine ⟨_, read_eq, ?_, rfl, ?_, based, emptied⟩
  · exact sim.rebase.1.revalue False.elim
  · -- A position that was set in this call is moved by too little only if the key fills the call.
    intro key field phase long
    by_cases unmoved : src'.pos = 0
    · have same : src'.rebase = src' := by simp [rebase, unmoved]
      rw [same]
      exact place key field phase long
    · have right : src'.substate = src'.pos + key.length + 1 :=
        (place key field phase long).resolve_right fun misplaced => unmoved misplaced.1
      have behind := began.resolve_left unmoved
      obtain ⟨phase, msg⟩ := last
      simp only at phase
      subst phase
      have length : (src'.field src'.dataStream.length).length =
          src'.dataStream.length - src'.pos := length_segment le_rfl
      rw [sim.2.2.2.2.2.1, data] at length
      simp only [List.length_append, List.length_cons] at length
      have filled : field.length = 0 ∧ piece.length = key.length + 2 ∧
          src'.pos = reader.1.dataStream.length + 1 ∧ key.length + 2 = bound := by omega
      obtain ⟨none, size, pos, fills⟩ := filled
      obtain rfl := List.length_eq_zero_iff.mp none
      -- So the call began with the flag, where nothing was kept.
      obtain ⟨front, back, rfl, -, reads', stop⟩ := automaton.reads_of_run outcome
      obtain rfl : back = [] := stop.resolve_right (by simp [automaton])
      rw [List.append_nil] at size
      obtain ⟨start, whole, -, flagged, -, -⟩ := literalValue_history (reads.append reads')
      rw [List.append_nil] at whole
      obtain ⟨rfl, -⟩ := List.append_inj' whole (by simp [size])
      have flag := reads.deterministic flagged
      have state : reader.1.state = .headerStart := by
        have sim := here.sim
        rw [flag] at sim
        exact sim.2.2.1
      have nothing := here.emptied (Or.inr (Or.inl state))
      rw [nothing, List.length_nil] at pos
      refine Or.inr ⟨based, fills, ?_⟩
      rw [rebase_substate, right, pos]
      omega

theorem handed_fresh (bound : Nat) (isRequest : Bool) :
    Handed automaton (MatchesPlaced bound) buffered held (fresh isRequest) []
      (.create isRequest, .fresh isRequest) 0 :=
  ⟨fresh isRequest, rfl, .start bound isRequest, by cases isRequest <;> rfl⟩

/-- The next piece is read as the decoder reads it, if no value is misplaced in the stream. -/
theorem handsOn {stream : Str} {end_ : GnyDecoder} {all : Nat}
    (outcome : automaton.run (fresh isRequest) stream = .ok (end_, all))
    (keeps : KeepsPlaces bound (fresh isRequest) stream) :
    HandsOn automaton (MatchesPlaced bound) buffered held MessageSourceGny.read bound
      (fresh isRequest) stream := by
  rintro handed piece rest reader total rfl some short ⟨dec, run_eq, here, kept⟩
  obtain ⟨last, before, -, whole, -, -⟩ := automaton.run_split outcome
  obtain ⟨dec', before, count, run_eq', piece_eq, rfl⟩ := automaton.run_split whole
  obtain ⟨rfl, rfl⟩ : dec = dec' ∧ total = before := by simpa using run_eq.symm.trans run_eq'
  have taken := automaton.count_le_of_run run_eq
  rw [buffered] at kept
  by_cases ended : automaton.final dec = true
  · have nothing := automaton.run_append_of_final ended piece
    obtain ⟨rfl, rfl⟩ : last = dec ∧ count = 0 := by simpa using piece_eq.symm.trans nothing
    have finished := here.done_iff.mpr ended
    refine ⟨_, 0, read_done finished here.based piece, last, whole, ⟨?_, here.same, ?_, here.based,
      by simp [Emptied, finished]⟩, ?_⟩
    · exact (here.sim.append piece).at_end (Or.inr (by simpa [automaton] using ended))
    · rintro key field phase
      simp [automaton, phase] at ended
    · rw [if_pos ended] at kept ⊢
      rw [buffered, List.length_append, List.length_append, kept]
      omega
  · obtain ⟨front, back, rfl, rfl, reads, stop⟩ := automaton.reads_of_run run_eq
    obtain rfl := stop.resolve_right ended
    rw [List.append_nil] at keeps whole ⊢
    obtain ⟨next, read_eq, there⟩ :=
      here.read reads some short (keeps.front.behind reads) piece_eq
    refine ⟨next, count, read_eq, last, whole, there, ?_⟩
    by_cases ended' : automaton.final last = true
    · have left := (kept_of_read here.based here.emptied read_eq).2.2
        (fun finished => ended (here.done_iff.mp finished)) (there.done_iff.mpr ended')
      rw [if_pos ended', buffered, List.length_append]
      omega
    · rw [if_neg ended']
      exact there.kept (by simpa using ended')

end GnyDecoder

/-! ## Cuts -/

/-- What a fresh reader, with its positions in `int`, makes of the pieces. -/
def gnyOutcomeInt (isRequest : Bool) (pieces : List Str) :
    Except Fault (HttpMessage × Bool × Nat) :=
  match feed readInt (.create isRequest, .fresh isRequest) pieces with
  | .error fault => .error fault
  | .ok ((src, msg), count) => .ok (msg, src.state = .done, count)

/-- All ways to cut the stream into pieces that a `recv` can return have the same outcome. -/
def GnyChunkingIndependent (isRequest : Bool) (stream : Str) : Prop :=
  ∃ result, ∀ cut, IsBoundedCut maxReadSize stream cut → gnyOutcomeInt isRequest cut = .ok result

/-- The positions suffice for all cuts into pieces of a bounded length: an unfinished field together
with a piece of the message behind it, and what lies behind the message up to its last byte, have at
most `intMax` bytes. -/
def FitsGny (bound : Nat) (isRequest : Bool) (stream : Str) : Prop :=
  Fits GnyDecoder.automaton GnyDecoder.held intMax bound (.fresh isRequest) stream

/-- No value is completed whose position can be wrong by then, in calls of at most `bound`
bytes. -/
def GnyKeepsPlaces (bound : Nat) (isRequest : Bool) (stream : Str) : Prop :=
  GnyDecoder.KeepsPlaces bound (.fresh isRequest) stream

/-- Where the positions suffice and no value is misplaced, every cut is read as the decoder reads
the whole. -/
theorem gnyOutcomeInt_of_fits {bound : Nat} {isRequest : Bool} {stream : Str} {last : GnyDecoder}
    {count : Nat} (fits : FitsGny bound isRequest stream)
    (keeps : GnyKeepsPlaces bound isRequest stream)
    (outcome : GnyDecoder.automaton.run (.fresh isRequest) stream = .ok (last, count))
    {cut : List Str} (isCut : IsBoundedCut bound stream cut) :
    gnyOutcomeInt isRequest cut = .ok (last.msg, last.phase = .done, count) := by
  obtain ⟨⟨src, msg⟩, total, feed_eq, dec, run_eq, here, -⟩ :=
    fits.feed narrows (GnyDecoder.handsOn outcome keeps)
      (GnyDecoder.handed_fresh bound isRequest) isCut
  obtain ⟨rfl, rfl⟩ : last = dec ∧ count = total := by simpa using outcome.symm.trans run_eq
  simp only [gnyOutcomeInt, feed_eq, here.sim.done_iff, ← here.same]

/-- A reader that returns from every call of a cut, and the message that it has read. -/
theorem feed_of_gnyOutcomeInt {isRequest : Bool} {pieces : List Str}
    {result : HttpMessage × Bool × Nat} (outcome : gnyOutcomeInt isRequest pieces = .ok result) :
    ∃ reader total, feed readInt (.create isRequest, .fresh isRequest) pieces =
      .ok (reader, total) ∧ reader.2 = result.1 := by
  rw [gnyOutcomeInt] at outcome
  split at outcome
  · cases outcome
  · rename_i src msg total feed_eq
    cases outcome
    exact ⟨(src, msg), total, feed_eq, rfl⟩

/-! ## A value whose position is wrong -/

namespace MessageSourceGny

variable {src : MessageSourceGny} {msg : HttpMessage}

/-- The bytes of a value, one by one, are kept behind those that are there. -/
theorem feed_text (state : src.state = .headerValue) (based : src.pos = 0) {text : Str}
    (nulFree : 0 ∉ text) :
    feed read (src, msg) (singles text) =
      .ok (({ src with dataStream := src.dataStream ++ text }, msg), text.length) := by
  induction text generalizing src with
  | nil => simp [singles, feed]
  | cons ch text ih =>
      simp only [List.mem_cons, not_or] at nulFree
      have plain : ch ≠ 0 := fun equality => nulFree.1 equality.symm
      have one : read (src, msg) [ch] =
          .ok (({ src with dataStream := src.dataStream ++ [ch] }, msg), 1) := by
        simp [read, readLoop, readChar, state, plain, flushEntity, rebase, based]
      refine feed_cons_eq_ok.mpr ⟨_, 1, text.length, one, ?_, by simp [Nat.add_comm]⟩
      have rest := @ih { src with dataStream := src.dataStream ++ [ch] } state based nulFree.2
      simp only [List.append_assoc, List.singleton_append] at rest
      exact rest

/-- What a call makes of the end of a value is found at the position that was kept for it. -/
theorem read_value {key field after : Str} {count : Nat} {next : MessageSourceGny × HttpMessage}
    (keyFree : 0 ∉ key) (state : src.state = .headerValue) (unknown : src.key = headerUnknown)
    (based : src.pos = 0) (data : src.dataStream = key ++ 0 :: field)
    (outcome : read (src, msg) (0 :: after) = .ok (next, count)) :
    ∃ value added, cStringAt (src.dataStream ++ 0 :: after) src.substate = .ok value ∧
      msg.addField key value = .ok added ∧ added.Grows next.2 := by
  simp only [read, reduceCtorEq, if_false] at outcome
  obtain ⟨⟨i, src₁, msg₁⟩, loop_eq, outcome⟩ := bind_eq_ok.mp outcome
  obtain ⟨⟨src₂, msg₂⟩, flush_eq, next_eq⟩ := bind_eq_ok.mp outcome
  cases next_eq
  rw [readLoop, if_neg (by simp [state])] at loop_eq
  split at loop_eq
  · cases loop_eq
  · rename_i src₃ msg₃ char_eq
    simp only [readChar, state, if_true, unknown, based] at char_eq
    obtain ⟨key', key_eq, char_eq⟩ := bind_eq_ok.mp char_eq
    obtain ⟨value, value_eq, char_eq⟩ := bind_eq_ok.mp char_eq
    obtain ⟨added, added_eq, char_eq⟩ := bind_eq_ok.mp char_eq
    cases char_eq
    have text : key' = key := by
      simp only [data, cStringAt, Nat.zero_le, if_true, List.drop_zero, List.append_assoc,
        List.cons_append, Except.ok.injEq] at key_eq
      rw [← key_eq, cStr_append_nul keyFree]
    subst text
    exact ⟨value, msg₃, value_eq, added_eq,
      (grows_of_readLoop loop_eq).trans (grows_of_flushEntity flush_eq)⟩

end MessageSourceGny

namespace GnyDecoder

variable {isRequest : Bool} {front piece key field after back : Str} {dec : GnyDecoder}
  {msg : HttpMessage}

/-- The value of a completed field is part of the message. -/
theorem addField_of_run {last : GnyDecoder} {count : Nat}
    (outcome : automaton.run ⟨.literalValue key field, msg⟩ (0 :: back) = .ok (last, count)) :
    ∃ right, msg.addField key field = .ok right ∧ right.Grows last.msg := by
  rw [Automaton.run, if_neg (by simp [automaton])] at outcome
  split at outcome
  · cases outcome
  · rename_i next step_eq
    obtain ⟨right, added, next_eq⟩ := bind_eq_ok.mp step_eq
    cases next_eq
    split at outcome
    · cases outcome
    · rename_i last' count' rest
      cases outcome
      exact ⟨right, added, grows_of_run rest⟩

/-- Handed over byte by byte a stream is read as the decoder reads it, and the position of every
value is right. -/
theorem feed_singles {word : Str} {last : GnyDecoder} {count : Nat}
    (outcome : automaton.run (fresh isRequest) word = .ok (last, count)) :
    ∃ reader, feed MessageSourceGny.read (.create isRequest, .fresh isRequest) (singles word) =
        .ok (reader, count) ∧
      MatchesPlaced 1 reader last ∧
      GnySim True reader.1 reader.2 reader.1.dataStream.length last := by
  have handed : ∃ reader total, feed MessageSourceGny.read
      (.create isRequest, .fresh isRequest) (singles word) = .ok (reader, total) ∧
        Handed automaton (MatchesPlaced 1) buffered held (fresh isRequest) word reader total :=
    (isBoundedCut_singles word).feed (handed_fresh 1 isRequest)
      fun whole some short here =>
        handsOn outcome (keepsPlaces_one _ _) _ _ _ _ _ whole some short here
  obtain ⟨reader, total, feed_eq, dec, run_eq, here, -⟩ := handed
  obtain ⟨rfl, rfl⟩ : last = dec ∧ count = total := by simpa using outcome.symm.trans run_eq
  refine ⟨reader, feed_eq, here, here.sim.revalue fun _ key field phase => ?_⟩
  exact (here.place key field phase (by omega)).resolve_right (by omega)

/-- The text that is found at a position ends within the buffer. -/
theorem length_of_cStringAt {data value : Str} {pos : Nat}
    (found : cStringAt data pos = .ok value) :
    pos + value.length ≤ data.length := by
  rw [cStringAt] at found
  split at found
  · cases found
    have bound : (cStr (data.drop pos)).length ≤ (data.drop pos).length :=
      (List.takeWhile_prefix _).length_le
    rw [List.length_drop] at bound
    omega
  · cases found

/-- If all cuts have the same outcome, the text of a completed value is found where a call leaves
its position that begins in front of the flag and ends behind the key: as many bytes behind the
start of the key as were in the buffer then. -/
theorem value_agrees
    (independent : GnyChunkingIndependent isRequest (front ++ piece ++ field ++ 0 :: after ++ back))
    (valid : GnyValidFlags isRequest (front ++ piece ++ field ++ 0 :: after ++ back))
    (before : automaton.Reads (fresh isRequest) front dec)
    (flagged : automaton.Reads dec piece ⟨.literalValue key [], msg⟩)
    (valued : automaton.Reads ⟨.literalValue key [], msg⟩ field ⟨.literalValue key field, msg⟩)
    (keyFree : 0 ∉ key) (nulFree : 0 ∉ field) (some : piece ≠ [])
    (short : piece.length ≤ maxReadSize) (short' : after.length + 1 ≤ maxReadSize) :
    cStringAt (key ++ 0 :: field ++ 0 :: after) (dec.held + piece.length) = .ok field := by
  obtain ⟨result, independent⟩ := independent
  have one : 1 ≤ maxReadSize := by decide
  -- Byte by byte the stream gives the decoder's message.
  obtain ⟨last, count, outcome⟩ := run_ok (consistent_fresh isRequest) valid
  have message : last.msg = result.1 := by
    obtain ⟨reader, single_eq, here, -⟩ := feed_singles outcome
    obtain ⟨reader', total, feed_eq, msg_eq⟩ := feed_of_gnyOutcomeInt
      (independent _ ((isBoundedCut_singles _).weaken one))
    cases single_eq.symm.trans (narrows.feed feed_eq)
    rw [← here.same, msg_eq]
  obtain ⟨right, right_eq, right_grown⟩ :
      ∃ right, msg.addField key field = .ok right ∧ right.Grows last.msg := by
    have whole := ((before.append flagged).append valued).run_append (0 :: (after ++ back))
    rw [← List.cons_append, ← List.append_assoc, outcome] at whole
    split at whole
    · cases whole
    · rename_i last' more rest
      cases whole
      exact addField_of_run rest
  -- The same stream in the cut with the piece.
  have isCut : IsBoundedCut maxReadSize (front ++ piece ++ field ++ 0 :: after ++ back)
      (singles front ++ piece :: (singles field ++ (0 :: after) :: singles back)) := by
    have cut := ((isBoundedCut_singles front).weaken one).append
      ((((isBoundedCut_singles field).weaken one).append
        (((isBoundedCut_singles back).weaken one).cons (List.cons_ne_nil 0 after) short')).cons
          some short)
    simpa only [List.append_assoc] using cut
  obtain ⟨reader, total, feed_eq, msg_eq⟩ := feed_of_gnyOutcomeInt (independent _ isCut)
  obtain ⟨reader₁, _, _, front_eq, feed_eq, -⟩ := feed_append_eq_ok.mp (narrows.feed feed_eq)
  obtain ⟨reader₂, _, _, piece_eq, feed_eq, -⟩ := feed_cons_eq_ok.mp feed_eq
  obtain ⟨reader₃, _, _, field_eq, feed_eq, -⟩ := feed_append_eq_ok.mp feed_eq
  obtain ⟨reader₄, _, _, end_eq, rest_eq, -⟩ := feed_cons_eq_ok.mp feed_eq
  -- The call for the piece leaves the position where it was before the re-basing.
  obtain ⟨reader₁', front_eq', here, sim⟩ := feed_singles before.run_all
  cases front_eq.symm.trans front_eq'
  have open_ : automaton.final dec = false := by
    cases flagged with
    | nil => exact absurd rfl some
    | cons open_ _ _ => exact open_
  have kept := here.kept open_
  obtain ⟨src, read_eq, sim, data⟩ := sim.read (A := automaton) rfl
    (fun step_eq => ⟨step_eq, Or.inl trivial⟩) some flagged.run_all
  cases piece_eq.symm.trans read_eq
  obtain ⟨started, -, state, -, unknown, text, -, -, position⟩ := sim
  have drop : src.dataStream.drop src.pos = key ++ [0] := by
    rw [← segment_length]
    exact text
  have substate : src.substate = dec.held + piece.length := by
    have length := congrArg List.length drop
    rw [List.length_drop, data, List.length_append, kept] at length
    simp only [List.length_append, List.length_singleton] at length
    rw [position trivial]
    rw [data, List.length_append, kept] at started
    omega
  have data' : src.rebase.dataStream = key ++ [0] := by rw [rebase_dataStream, drop]
  -- The value is kept byte by byte, and its end is read.
  have field_eq' := @feed_text src.rebase msg (by rw [rebase_state, state]) (rebase_pos src)
    field nulFree
  cases field_eq.symm.trans field_eq'
  obtain ⟨value, added, value_eq, added_eq, grown⟩ :=
    @read_value { src.rebase with dataStream := src.rebase.dataStream ++ field } msg key field after
      _ _ keyFree (by rw [rebase_state, state]) (by rw [rebase_key, unknown]) (rebase_pos src)
      (by simp [data']) end_eq
  have equal : field = value := by
    refine HttpMessage.value_unique right_eq added_eq right_grown ?_
    rw [message, ← msg_eq]
    exact grown.trans (grows_of_feed rest_eq)
  rw [data', rebase_substate, substate, ← equal] at value_eq
  simpa using value_eq

end GnyDecoder

open GnyDecoder

/-- If all cuts have the same outcome, no value is misplaced: the call that leaves its position
behind begins in front of the byte before the flag, or, if the key leaves no room for that, with the
flag. -/
theorem keepsPlaces_of_gnyChunkingIndependent {isRequest : Bool} {stream : Str}
    (valid : GnyValidFlags isRequest stream)
    (independent : GnyChunkingIndependent isRequest stream) :
    GnyKeepsPlaces maxReadSize isRequest stream := by
  rintro front back key field msg rfl reads misplaces
  obtain ⟨start, rfl, started, flagged, keyFree, nulFree⟩ := literalValue_history reads
  have keyed := @reads_unknown_key msg key keyFree
  have valued :
      automaton.Reads ⟨.literalValue key [], msg⟩ field ⟨.literalValue key field, msg⟩ := by
    obtain ⟨middle, before, valued⟩ := reads.split
    rwa [before.deterministic (flagged.append keyed)] at valued
  obtain short | ⟨fills, shown⟩ := misplaces
  · -- With the byte before the flag, the position is at least two too large.
    obtain ⟨init, ch, rfl⟩ := (List.eq_nil_or_concat' start).resolve_left started
    obtain ⟨dec, before, last⟩ := flagged.split
    have shape : init ++ [ch] ++ (headerUnknown :: key ++ [0]) ++ field ++ 0 :: back =
        init ++ ([ch] ++ (headerUnknown :: key ++ [0])) ++ field ++ 0 :: [] ++ back := by simp
    rw [shape] at independent valid
    have size : ([ch] ++ (headerUnknown :: key ++ [0])).length = key.length + 3 := by simp
    have found := value_agrees independent valid before (last.append keyed) valued keyFree nulFree
      (by simp) (by omega) (by decide)
    have bound := length_of_cStringAt found
    rw [size] at bound
    simp only [List.length_append, List.length_cons, List.length_nil] at bound
    omega
  · -- With the flag, the position is that behind the first byte of the value or its end.
    have size : (headerUnknown :: key ++ [0]).length = key.length + 2 := by simp
    have next (ch : UInt8) (text : Str) :
        cStringAt (key ++ 0 :: ch :: text) (key.length + 2) = .ok (cStr text) := by
      rw [cStringAt, if_pos (by simp only [List.length_append, List.length_cons]; omega),
        ← List.drop_drop, List.drop_left]
      rfl
    cases field with
    | cons first text =>
        have shape : start ++ (headerUnknown :: key ++ [0]) ++ first :: text ++ 0 :: back =
            start ++ (headerUnknown :: key ++ [0]) ++ first :: text ++ 0 :: [] ++ back := by simp
        rw [shape] at independent valid
        have found := value_agrees independent valid flagged keyed valued keyFree nulFree
          (by simp) (by omega) (by decide)
        simp only [List.mem_cons, not_or] at nulFree
        rw [held, size, Nat.zero_add, List.append_assoc, List.cons_append, List.cons_append, next,
          cStr_append_nul nulFree.2] at found
        exact absurd (congrArg List.length (Except.ok.inj found)) (by simp)
    | nil =>
        obtain ⟨ch, rest, rfl, plain⟩ := shown.resolve_left fun some => some rfl
        have shape : start ++ (headerUnknown :: key ++ [0]) ++ [] ++ 0 :: ch :: rest =
            start ++ (headerUnknown :: key ++ [0]) ++ [] ++ 0 :: [ch] ++ rest := by simp
        rw [shape] at independent valid
        have found := value_agrees independent valid flagged keyed valued keyFree nulFree
          (by simp) (by omega) (by simp [maxReadSize])
        rw [held, size, Nat.zero_add, List.append_assoc, List.singleton_append, next] at found
        simp [cStr, plain] at found

/-- All cuts of a stream with valid flags have the same outcome exactly when the positions suffice
for them and no value is completed whose position can be wrong by then. -/
theorem gnyChunkingIndependent_iff {isRequest : Bool} {stream : Str}
    (valid : GnyValidFlags isRequest stream) :
    GnyChunkingIndependent isRequest stream ↔
      FitsGny maxReadSize isRequest stream ∧ GnyKeepsPlaces maxReadSize isRequest stream := by
  obtain ⟨last, count, outcome⟩ := run_ok (consistent_fresh isRequest) valid
  constructor
  · intro independent
    have keeps := keepsPlaces_of_gnyChunkingIndependent valid independent
    obtain ⟨result, independent⟩ := independent
    refine ⟨fits_of_feed narrows (by decide) (handsOn outcome keeps)
      (handed_fresh maxReadSize isRequest) fun cut isCut => ?_, keeps⟩
    obtain ⟨reader, total, feed_eq, -⟩ := feed_of_gnyOutcomeInt (independent cut isCut)
    exact ⟨(reader, total), feed_eq⟩
  · rintro ⟨fits, keeps⟩
    exact ⟨_, fun cut isCut => gnyOutcomeInt_of_fits fits keeps outcome isCut⟩

/-- No more is kept than has been read. -/
theorem GnyDecoder.held_le_of_reads {isRequest : Bool} {word : Str} {dec : GnyDecoder}
    (reads : automaton.Reads (fresh isRequest) word dec) : dec.held ≤ word.length := by
  by_cases empty : word = []
  · subst empty
    cases reads
    cases isRequest <;> exact le_rfl
  · obtain ⟨src, -, sim, data⟩ := (GnySim.start isRequest True []).read (A := automaton) rfl
      (fun step_eq => ⟨step_eq, Or.inl trivial⟩) empty reads.run_all
    have field_le : (src.field src.dataStream.length).length ≤ word.length := by
      rw [MessageSourceGny.field, length_segment le_rfl, data, List.nil_append]
      exact Nat.sub_le _ _
    obtain ⟨phase, msg⟩ := dec
    obtain ⟨-, -, sim⟩ := sim
    cases phase with
    | url text | status text =>
        rw [sim.2.2.1] at field_le
        exact field_le
    | literalKey text =>
        rw [sim.2.2.2.1] at field_le
        exact field_le
    | tableValue header text =>
        rw [sim.2.2.2.2.1] at field_le
        exact field_le
    | size text =>
        rw [sim.2.2.2.1] at field_le
        exact field_le
    | literalValue key text =>
        rw [sim.2.2.2.1, List.length_append, List.length_cons] at field_le
        simp only [held]
        omega
    | verb | flag | piece | done => exact Nat.zero_le _

/-- The positions suffice for every stream of fewer than `2 ^ 31` bytes. -/
theorem fitsGny_of_length {bound : Nat} {isRequest : Bool} {stream : Str}
    (short : stream.length ≤ intMax) : FitsGny bound isRequest stream :=
  .of_length GnyDecoder.held_le_of_reads short

/-- Pieces of together fewer than `2 ^ 31` bytes, of any lengths, are read as by positions without
width. -/
theorem gnyOutcomeInt_of_length {isRequest : Bool} {pieces : List Str}
    {result : HttpMessage × Bool × Nat} (short : pieces.flatten.length ≤ intMax)
    (outcome : gnyOutcome isRequest pieces = .ok result) :
    gnyOutcomeInt isRequest pieces = .ok result := by
  rw [gnyOutcome] at outcome
  split at outcome
  · cases outcome
  · rename_i src msg total feed_eq
    have empty : buffered (MessageSourceGny.create isRequest, .fresh isRequest) = 0 := rfl
    rw [gnyOutcomeInt, narrows.feed_of_length bounds_of_read feed_eq
      (by rw [empty, Nat.zero_add]; exact short)]
    exact outcome

/-- Without a flag `HEADER_UNKNOWN` there is no value to misplace. -/
theorem gnyKeepsPlaces_of_not_mem {bound : Nat} {isRequest : Bool} {stream : Str}
    (absent : headerUnknown ∉ stream) : GnyKeepsPlaces bound isRequest stream := by
  rintro front back key field msg rfl reads -
  obtain ⟨start, rfl, -⟩ := literalValue_history reads
  simp at absent

/-- A response without header fields can be cut anywhere. -/
theorem gnyChunkingIndependent_empty_response :
    GnyChunkingIndependent false [0, 200, 54, 0, 0, 54] := by
  have outcome : automaton.run (fresh false) [0, 200, 54, 0, 0, 54] =
      .ok (⟨.done, { isRequest := false, status := 200, state := .done }⟩, 6) := by decide
  exact (gnyChunkingIndependent_iff (validFlags_of_run outcome)).mpr
    ⟨fitsGny_of_length (by decide), gnyKeepsPlaces_of_not_mem (by decide)⟩

/-- A field `a: bc` under `HEADER_UNKNOWN`, cut inside its value. -/
theorem not_gnyChunkingIndependent :
    ¬∀ isRequest stream, GnyValidFlags isRequest stream →
      ∃ result, ∀ cut, IsBoundedCut maxReadSize stream cut →
        gnyOutcomeInt isRequest cut = .ok result := by
  intro always
  have outcome : automaton.run (fresh false) [0, 200, 53, 97, 0, 98, 99, 0, 54, 0, 0, 54] =
      .ok (⟨.done,
        { isRequest := false, status := 200, headers := [([97], [98, 99])], state := .done }⟩,
        12) := by decide
  obtain ⟨result, same⟩ := always false [0, 200, 53, 97, 0, 98, 99, 0, 54, 0, 0, 54]
    (validFlags_of_run outcome)
  have whole := same [[0, 200, 53, 97, 0, 98, 99, 0, 54, 0, 0, 54]] ⟨⟨rfl, by simp⟩, by decide⟩
  have parts := same [[0, 200, 53, 97, 0, 98], [99, 0, 54, 0, 0, 54]] ⟨⟨rfl, by simp⟩, by decide⟩
  have differ : gnyOutcomeInt false [[0, 200, 53, 97, 0, 98, 99, 0, 54, 0, 0, 54]] ≠
      gnyOutcomeInt false [[0, 200, 53, 97, 0, 98], [99, 0, 54, 0, 0, 54]] := by decide
  exact differ (whole.trans parts.symm)

end GnyProxy
