import GnyProxy.Incremental
import GnyProxy.MessageSource11

/-!
# HTTP/1.1 framing as an automaton

What the HTTP/1.1 reader does to a stream, without buffer, positions or cuts: the decoder keeps
the bytes of the unfinished line themselves.  One read of the reader is a run of the decoder over
the piece that was read, and the decoder fails on no stream whatsoever.
-/

namespace GnyProxy

open Incremental

namespace Decoder11

/-- How far a message has been decoded, with the bytes of the unfinished line. -/
inductive Phase where
  | firstLine (line : Str)
  | header (entityMode : Int) (line : Str)
  | fixed (left : Int)
  | chunkSize (size : BitVec 64)
  | chunkExtension (size : BitVec 64)
  | chunkData (left : BitVec 64)
  | trailer (line : Str)
  | done
  deriving DecidableEq

end Decoder11

/-- A phase of the message format together with the message decoded so far. -/
structure Decoder11 where
  phase : Decoder11.Phase
  msg : HttpMessage
  deriving DecidableEq

namespace Decoder11

/-- The decoder of a message of which nothing has been read. -/
def fresh (isRequest : Bool) : Decoder11 := { phase := .firstLine [], msg := .fresh isRequest }

/-- A line without the carriage return before its line feed. -/
def chomp (line : Str) : Str := if line.getLast? = some 13 then line.dropLast else line

/-- The end of the header section. -/
def endHeader (entityMode : Int) (msg : HttpMessage) : Except Fault Decoder11 := do
  let msg ← msg.endHeader
  if entityMode = 0 ∨ entityMode = entityUnknown then do
    let msg ← msg.endEntity
    let msg ← msg.endFooter
    .ok ⟨.done, msg⟩
  else if 0 < entityMode then
    .ok ⟨.fixed entityMode, msg⟩
  else
    .ok ⟨.chunkSize 0, msg⟩

/-- The end of a line that holds the size of a chunk. -/
def endSize (size : BitVec 64) (msg : HttpMessage) : Except Fault Decoder11 :=
  if size ≠ 0 then
    .ok ⟨.chunkData size, msg⟩
  else do
    let msg ← msg.endEntity
    .ok ⟨.trailer [], msg⟩

/-- Decode one byte. -/
def step (dec : Decoder11) (ch : UInt8) : Except Fault Decoder11 :=
  match dec.phase with
  | .firstLine line =>
      if ch = 10 then
        if chomp line = [] then .ok ⟨.firstLine [], dec.msg⟩
        else .ok ⟨.header entityUnknown [], parseFirstLine dec.msg (chomp line)⟩
      else
        .ok ⟨.firstLine (line ++ [ch]), dec.msg⟩
  | .header entityMode line =>
      if ch = 10 then
        if chomp line ≠ [] then do
          let (entityMode, msg) ← parseHeader entityMode dec.msg (chomp line)
          .ok ⟨.header entityMode [], msg⟩
        else
          endHeader entityMode dec.msg
      else
        .ok ⟨.header entityMode (line ++ [ch]), dec.msg⟩
  | .fixed left => do
      let msg ← dec.msg.appendEntity [ch]
      if left - 1 = 0 then do
        let msg ← msg.endEntity
        let msg ← msg.endFooter
        .ok ⟨.done, msg⟩
      else
        .ok ⟨.fixed (left - 1), msg⟩
  | .chunkSize size =>
      if isHex ch then .ok ⟨.chunkSize ((size <<< 4) ||| BitVec.ofNat 64 (hextoi ch)), dec.msg⟩
      else if ch = 59 then .ok ⟨.chunkExtension size, dec.msg⟩
      else if ch = 10 then endSize size dec.msg
      else .ok ⟨.chunkSize size, dec.msg⟩
  | .chunkExtension size =>
      if ch = 10 then endSize size dec.msg else .ok ⟨.chunkExtension size, dec.msg⟩
  | .chunkData left =>
      if left ≠ 0 then do
        let msg ← dec.msg.appendEntity [ch]
        .ok ⟨.chunkData (left - 1), msg⟩
      else if ch = 10 then
        .ok ⟨.chunkSize left, dec.msg⟩
      else
        .ok ⟨.chunkData left, dec.msg⟩
  | .trailer line =>
      if ch = 10 then
        if chomp line = [] then do
          let msg ← dec.msg.endFooter
          .ok ⟨.done, msg⟩
        else do
          let msg ← parseFooter dec.msg (chomp line)
          .ok ⟨.trailer [], msg⟩
      else
        .ok ⟨.trailer (line ++ [ch]), dec.msg⟩
  | .done => .ok dec

/-- The decoder as an automaton that stops at the end of its message. -/
def automaton : Automaton Decoder11 UInt8 Fault where
  step := step
  final dec := dec.phase = .done

/-! ### The decoder never fails -/

/-- The section in which the message is, as the phase needs it. -/
def Consistent (dec : Decoder11) : Prop :=
  match dec.phase with
  | .firstLine _ | .header _ _ => dec.msg.state = .header
  | .fixed _ | .chunkSize _ | .chunkExtension _ | .chunkData _ => dec.msg.state = .entity
  | .trailer _ => dec.msg.state = .footer
  | .done => dec.msg.state = .done

theorem consistent_fresh (isRequest : Bool) : (fresh isRequest).Consistent := rfl

theorem endHeader_ok {msg : HttpMessage} (header : msg.state = .header) (entityMode : Int) :
    ∃ next, endHeader entityMode msg = .ok next ∧ next.Consistent := by
  simp only [endHeader, HttpMessage.endHeader, header, le_rfl, if_true, ok_bind]
  by_cases empty : entityMode = 0 ∨ entityMode = entityUnknown
  · exact ⟨⟨.done, { msg with state := .done }⟩, by
      simp [empty, HttpMessage.endEntity, HttpMessage.endFooter], rfl⟩
  · by_cases fixed : 0 < entityMode
    · exact ⟨⟨.fixed entityMode, { msg with state := .entity }⟩, by simp [empty, fixed], rfl⟩
    · exact ⟨⟨.chunkSize 0, { msg with state := .entity }⟩, by simp [empty, fixed], rfl⟩

theorem endSize_ok {msg : HttpMessage} (entity : msg.state = .entity) (size : BitVec 64) :
    ∃ next, endSize size msg = .ok next ∧ next.Consistent := by
  by_cases zero : size = 0
  · exact ⟨⟨.trailer [], { msg with state := .footer }⟩, by
      simp [endSize, zero, HttpMessage.endEntity, entity], rfl⟩
  · exact ⟨⟨.chunkData size, msg⟩, by simp only [endSize, ne_eq, zero, not_false_iff, if_true],
      entity⟩

/-- Every byte can be decoded. -/
theorem step_ok {dec : Decoder11} (consistent : dec.Consistent) (ch : UInt8) :
    ∃ next, dec.step ch = .ok next ∧ next.Consistent := by
  obtain ⟨phase, msg⟩ := dec
  cases phase with
  | firstLine line =>
      by_cases feed : ch = 10
      · by_cases empty : chomp line = []
        · exact ⟨⟨.firstLine [], msg⟩, by simp [step, feed, empty], consistent⟩
        · exact ⟨⟨.header entityUnknown [], parseFirstLine msg (chomp line)⟩, by
            simp [step, feed, empty], (state_parseFirstLine _ _).trans consistent⟩
      · exact ⟨⟨.firstLine (line ++ [ch]), msg⟩, by simp [step, feed], consistent⟩
  | header entityMode line =>
      by_cases feed : ch = 10
      · by_cases empty : chomp line = []
        · obtain ⟨next, next_eq, next_consistent⟩ := endHeader_ok consistent entityMode
          exact ⟨next, by simp [step, feed, empty, next_eq], next_consistent⟩
        · obtain ⟨mode, next, next_eq, state⟩ := parseHeader_ok consistent entityMode (chomp line)
          exact ⟨⟨.header mode [], next⟩, by simp [step, feed, empty, next_eq], state⟩
      · exact ⟨⟨.header entityMode (line ++ [ch]), msg⟩, by simp [step, feed], consistent⟩
  | fixed left =>
      have entity : msg.state = .entity := consistent
      by_cases last : left - 1 = 0
      · exact ⟨⟨.done, { msg with entity := msg.entity ++ [ch], state := .done }⟩, by
          simp [step, last, HttpMessage.appendEntity, HttpMessage.endEntity,
            HttpMessage.endFooter, entity], rfl⟩
      · exact ⟨⟨.fixed (left - 1), { msg with entity := msg.entity ++ [ch] }⟩, by
          simp [step, last, HttpMessage.appendEntity, entity], entity⟩
  | chunkSize size =>
      by_cases digit : isHex ch = true
      · exact ⟨⟨.chunkSize ((size <<< 4) ||| BitVec.ofNat 64 (hextoi ch)), msg⟩, by
          simp only [step, digit, if_true], consistent⟩
      · by_cases semicolon : ch = 59
        · exact ⟨⟨.chunkExtension size, msg⟩, by simp [step, semicolon, isHex], consistent⟩
        · by_cases feed : ch = 10
          · obtain ⟨next, next_eq, next_consistent⟩ := endSize_ok consistent size
            exact ⟨next, by simp [step, feed, isHex, next_eq], next_consistent⟩
          · exact ⟨⟨.chunkSize size, msg⟩, by simp [step, digit, semicolon, feed], consistent⟩
  | chunkExtension size =>
      by_cases feed : ch = 10
      · obtain ⟨next, next_eq, next_consistent⟩ := endSize_ok consistent size
        exact ⟨next, by simp [step, feed, next_eq], next_consistent⟩
      · exact ⟨⟨.chunkExtension size, msg⟩, by simp [step, feed], consistent⟩
  | chunkData left =>
      have entity : msg.state = .entity := consistent
      by_cases emptied : left = 0
      · by_cases feed : ch = 10
        · exact ⟨⟨.chunkSize left, msg⟩, by simp [step, emptied, feed], consistent⟩
        · exact ⟨⟨.chunkData left, msg⟩, by simp [step, emptied, feed], consistent⟩
      · exact ⟨⟨.chunkData (left - 1), { msg with entity := msg.entity ++ [ch] }⟩, by
          simp only [step, ne_eq, emptied, not_false_iff, if_true, HttpMessage.appendEntity, entity,
            ok_bind], entity⟩
  | trailer line =>
      have footer : msg.state = .footer := consistent
      by_cases feed : ch = 10
      · by_cases empty : chomp line = []
        · exact ⟨⟨.done, { msg with state := .done }⟩, by
            simp [step, feed, empty, HttpMessage.endFooter, footer], rfl⟩
        · obtain ⟨next, next_eq, state⟩ := parseFooter_ok consistent (chomp line)
          exact ⟨⟨.trailer [], next⟩, by simp [step, feed, empty, next_eq], state⟩
      · exact ⟨⟨.trailer (line ++ [ch]), msg⟩, by simp [step, feed], consistent⟩
  | done => exact ⟨_, rfl, consistent⟩

theorem consistent_step {dec next : Decoder11} {ch : UInt8} (consistent : dec.Consistent)
    (outcome : dec.step ch = .ok next) : next.Consistent := by
  rcases step_ok consistent ch with ⟨next', step_eq, consistent'⟩
  rwa [Except.ok.inj (outcome.symm.trans step_eq)]

/-- The decoder is done when its message is. -/
theorem final_of_reads {isRequest : Bool} {word : Str} {dec : Decoder11}
    (reads : automaton.Reads (fresh isRequest) word dec) (done : dec.msg.state = .done) :
    automaton.final dec = true := by
  have consistent : dec.Consistent := reads.invariant (P := Consistent)
    (fun step consistent => consistent_step consistent step) (consistent_fresh isRequest)
  rw [Consistent] at consistent
  cases phase : dec.phase <;> simp [phase, done] at consistent
  simp [automaton, phase]

/-- Every stream can be decoded. -/
theorem run_ok {dec : Decoder11} (consistent : dec.Consistent) (word : Str) :
    ∃ last count, automaton.run dec word = .ok (last, count) := by
  induction word generalizing dec with
  | nil => exact ⟨dec, 0, rfl⟩
  | cons ch word ih =>
      by_cases ended : automaton.final dec = true
      · exact ⟨dec, 0, automaton.run_append_of_final ended _⟩
      · obtain ⟨next, step_eq, next_consistent⟩ := step_ok consistent ch
        obtain ⟨last, count, outcome⟩ := ih next_consistent
        have automaton_step : automaton.step dec ch = .ok next := step_eq
        exact ⟨last, count + 1, by simp [Automaton.run, ended, automaton_step, outcome]⟩

end Decoder11

/-! ## The simulation -/

namespace MessageSource11

/-- Where the next character is put on record. -/
def Pass.passed (pass : Pass) (ch : UInt8) : Pass :=
  { pass with src := { pass.src with last := ch } }

/-- At position `i` of the buffer the pass is within a line of which `line` has been read.  The
previous character is a carriage return exactly when that part of the line ends in one. -/
def Pass.InLine (pass : Pass) (i : Nat) (line : Str) (msg : HttpMessage) : Prop :=
  segment pass.src.buf pass.pos i = line ∧ (pass.src.last = 13 ↔ line.getLast? = some 13) ∧
    pass.entity = [] ∧ msg = pass.msg

/-- At position `i` of the buffer the pass is within an entity; `msg` has all of it that was
read. -/
def Pass.InEntity (pass : Pass) (i : Nat) (msg : HttpMessage) : Prop :=
  pass.src.state = .entity ∧ pass.pos = i ∧
    msg = { pass.msg with entity := pass.msg.entity ++ pass.entity } ∧ pass.msg.state = .entity

namespace Pass

/-- The text that the reader takes for a line is the line without its carriage return. -/
theorem InLine.line_eq {pass : Pass} {i : Nat} {line : Str} {msg : HttpMessage}
    (inLine : pass.InLine i line msg) (below : i < pass.src.buf.length) :
    pass.line i = Decoder11.chomp line := by
  obtain ⟨text, last, -, -⟩ := inLine
  have window : (pass.src.buf.drop pass.pos).take (i - pass.pos) = line := by
    rw [← text, Incremental.segment, List.drop_take]
  by_cases carriage : pass.src.last = 13
  · have ends := last.mp carriage
    have nonempty : pass.pos < i := by
      by_contra empty
      rw [show i - pass.pos = 0 by omega, List.take_zero] at window
      simp [← window] at ends
    rw [Pass.line, if_pos carriage, if_pos nonempty, Decoder11.chomp, if_pos ends, ← window,
      List.dropLast_take (by rw [List.length_drop]; omega)]
  · have other : ¬line.getLast? = some 13 := fun ends => carriage (last.mpr ends)
    rw [Pass.line, if_neg carriage, window, Decoder11.chomp, if_neg other]

/-- A character other than a line feed makes the line longer. -/
theorem InLine.snoc {pass : Pass} {i : Nat} {line rest : Str} {msg : HttpMessage} {ch : UInt8}
    (inLine : pass.InLine i line msg) (started : pass.pos ≤ i)
    (tail : pass.src.buf.drop i = ch :: rest) :
    (pass.passed ch).InLine (i + 1) (line ++ [ch]) msg := by
  obtain ⟨text, -, entity, same⟩ := inLine
  refine ⟨?_, by simp [Pass.passed], entity, same⟩
  rw [← text]
  exact segment_succ started tail

/-- Behind a line feed a new line begins. -/
theorem InLine.restart {pass : Pass} {i : Nat} (pos : pass.pos = i) (entity : pass.entity = []) :
    (pass.passed 10).InLine i [] pass.msg :=
  ⟨by rw [← pos]; exact segment_self _ _, by simp [Pass.passed], entity, rfl⟩

end Pass
end MessageSource11

open MessageSource11

/-- The reader at position `i` of its buffer, within one pass, has decoded what the decoder
has. -/
def Sim11 (pass : Pass) (i : Nat) (dec : Decoder11) : Prop :=
  pass.pos ≤ i ∧ i ≤ pass.src.buf.length ∧
    match dec.phase with
    | .firstLine line =>
        pass.src.state = .firstLine ∧ pass.src.entityMode = entityUnknown ∧
          pass.InLine i line dec.msg
    | .header entityMode line =>
        pass.src.state = .headers ∧ pass.src.entityMode = entityMode ∧ pass.InLine i line dec.msg
    | .fixed left => pass.src.entityMode = left ∧ 0 < left ∧ pass.InEntity i dec.msg
    | .chunkSize size =>
        ¬0 < pass.src.entityMode ∧ pass.src.entityState1 = 0 ∧ pass.src.entityState2 = size ∧
          pass.InEntity i dec.msg
    | .chunkExtension size =>
        ¬0 < pass.src.entityMode ∧ pass.src.entityState1 = 1 ∧ pass.src.entityState2 = size ∧
          pass.InEntity i dec.msg
    | .chunkData left =>
        ¬0 < pass.src.entityMode ∧ pass.src.entityState1 = 2 ∧ pass.src.entityState2 = left ∧
          pass.InEntity i dec.msg
    | .trailer line =>
        pass.src.state = .entity ∧ ¬0 < pass.src.entityMode ∧ pass.src.entityState1 = 3 ∧
          pass.InLine i line dec.msg
    | .done => pass.src.state = .done ∧ pass.entity = [] ∧ dec.msg = pass.msg

namespace Sim11

variable {pass : Pass} {i : Nat}

theorem start (isRequest : Bool) :
    Sim11 { src := {}, msg := .fresh isRequest } 0 (Decoder11.fresh isRequest) := by
  simp [Sim11, Decoder11.fresh, Pass.InLine]

/-- Only the final phase of the decoder is the final state of the reader. -/
theorem done_iff {dec : Decoder11} (sim : Sim11 pass i dec) :
    pass.src.state = .done ↔ dec.phase = .done := by
  obtain ⟨phase, decoded⟩ := dec
  obtain ⟨-, -, sim⟩ := sim
  cases phase with
  | fixed left => simp [sim.2.2.1]
  | chunkSize size | chunkExtension size | chunkData left => simp [sim.2.2.2.1]
  | _ => simp [sim.1]

/-- The end of a line that holds the size of a chunk. -/
theorem endSize {dec : Decoder11} {size : BitVec 64} {msg : HttpMessage}
    (below : i < pass.src.buf.length) (mode : ¬0 < pass.src.entityMode)
    (value : pass.src.entityState2 = size) (inEntity : pass.InEntity i msg)
    (step : Decoder11.endSize size msg = .ok dec) :
    ∃ pass', pass.endSize i = .ok pass' ∧ Sim11 (pass'.passed 10) (i + 1) dec ∧
      pass'.src.buf = pass.src.buf := by
  obtain ⟨state, -, rfl, entity⟩ := inEntity
  by_cases zero : size = 0
  · simp only [Decoder11.endSize, ne_eq, zero, not_true_eq_false, if_false,
      HttpMessage.endEntity, entity, MessageState.rank_entity, le_rfl, if_true, ok_bind,
      Except.ok.injEq] at step
    subst step
    simp only [Pass.endSize, ne_eq, value, zero, not_true_eq_false, if_false,
      HttpMessage.appendEntity, entity, if_true, ok_bind, HttpMessage.endEntity,
      MessageState.rank_entity, le_rfl]
    exact ⟨_, rfl, ⟨le_rfl, below, state, mode, rfl, .restart rfl rfl⟩, rfl⟩
  · simp only [Decoder11.endSize, ne_eq, zero, not_false_iff, if_true, Except.ok.injEq] at step
    subst step
    simp only [Pass.endSize, ne_eq, value, zero, not_false_iff, if_true]
    exact ⟨_, rfl, ⟨le_rfl, below, mode, rfl, rfl, state, rfl, rfl, entity⟩, rfl⟩

/-! ### One byte -/

variable {decoded : HttpMessage} {next : Decoder11} {ch : UInt8} {rest : Str}

theorem readChar_firstLine {line : Str}
    (sim : Sim11 pass i ⟨.firstLine line, decoded⟩) (tail : pass.src.buf.drop i = ch :: rest)
    (step : Decoder11.step ⟨.firstLine line, decoded⟩ ch = .ok next) :
    ∃ pass', pass.readChar i ch = .ok pass' ∧ Sim11 (pass'.passed ch) (i + 1) next ∧
      pass'.src.buf = pass.src.buf := by
  obtain ⟨started, inside, sim⟩ := sim
  have below : i < pass.src.buf.length := lt_length_of_drop_eq_cons tail
  obtain ⟨state, mode, inLine⟩ := sim
  have line_eq := inLine.line_eq below
  by_cases feed : ch = 10
  · subst feed
    obtain ⟨-, -, entity, rfl⟩ := inLine
    by_cases empty : Decoder11.chomp line = []
    · simp only [Decoder11.step, empty, if_true, Except.ok.injEq] at step
      subst step
      simp only [Pass.readChar, state, line_eq, empty, if_true]
      exact ⟨_, rfl, ⟨le_rfl, below, state, mode, .restart rfl entity⟩, rfl⟩
    · simp only [Decoder11.step, empty, if_true, if_false, Except.ok.injEq] at step
      subst step
      simp only [Pass.readChar, state, line_eq, empty, if_true, if_false]
      exact ⟨_, rfl, ⟨le_rfl, below, rfl, mode, .restart rfl entity⟩, rfl⟩
  · simp only [Decoder11.step, feed, if_false, Except.ok.injEq] at step
    subst step
    simp only [Pass.readChar, state, feed, if_false]
    exact ⟨_, rfl, ⟨by simp only [Pass.passed]; omega, below, state, mode,
      inLine.snoc started tail⟩, rfl⟩

theorem readChar_header {entityMode : Int} {line : Str}
    (sim : Sim11 pass i ⟨.header entityMode line, decoded⟩)
    (tail : pass.src.buf.drop i = ch :: rest)
    (step : Decoder11.step ⟨.header entityMode line, decoded⟩ ch = .ok next) :
    ∃ pass', pass.readChar i ch = .ok pass' ∧ Sim11 (pass'.passed ch) (i + 1) next ∧
      pass'.src.buf = pass.src.buf := by
  obtain ⟨started, inside, sim⟩ := sim
  have below : i < pass.src.buf.length := lt_length_of_drop_eq_cons tail
  obtain ⟨state, mode, inLine⟩ := sim
  have line_eq := inLine.line_eq below
  by_cases feed : ch = 10
  · subst feed
    obtain ⟨-, -, entity, rfl⟩ := inLine
    by_cases empty : Decoder11.chomp line = []
    · simp only [Decoder11.step, empty, ne_eq, not_true_eq_false, if_true, if_false] at step
      obtain ⟨ended, ended_eq, step⟩ := bind_eq_ok.mp step
      obtain ⟨-, rfl⟩ := HttpMessage.endHeader_eq_ok.mp ended_eq
      simp only [Pass.readChar, state, line_eq, empty, ne_eq, not_true_eq_false, if_true,
        if_false, ended_eq, ok_bind, mode]
      by_cases none : entityMode = 0 ∨ entityMode = entityUnknown
      · simp only [none, if_true] at step ⊢
        obtain ⟨body, body_eq, step⟩ := bind_eq_ok.mp step
        obtain ⟨foot, foot_eq, step⟩ := bind_eq_ok.mp step
        cases step
        simp only [body_eq, foot_eq, ok_bind]
        exact ⟨_, rfl, ⟨le_rfl, below, rfl, entity, rfl⟩, rfl⟩
      · simp only [none, if_false] at step ⊢
        by_cases fixed : 0 < entityMode
        · simp only [fixed, if_true, Except.ok.injEq] at step
          subst step
          exact ⟨_, rfl, ⟨le_rfl, below, rfl, fixed, rfl, rfl, by
            simp [Pass.passed, entity], rfl⟩, rfl⟩
        · simp only [fixed, if_false, Except.ok.injEq] at step
          subst step
          exact ⟨_, rfl, ⟨le_rfl, below, fixed, rfl, rfl, rfl, rfl, by
            simp [Pass.passed, entity], rfl⟩, rfl⟩
    · simp only [Decoder11.step, empty, ne_eq, not_false_iff, if_true] at step
      obtain ⟨⟨mode', msg'⟩, parse_eq, step⟩ := bind_eq_ok.mp step
      cases step
      simp only [Pass.readChar, state, line_eq, empty, ne_eq, not_false_iff, if_true, mode,
        parse_eq, ok_bind]
      exact ⟨_, rfl, ⟨le_rfl, below, rfl, rfl, .restart rfl entity⟩, rfl⟩
  · simp only [Decoder11.step, feed, if_false, Except.ok.injEq] at step
    subst step
    simp only [Pass.readChar, state, feed, if_false]
    exact ⟨_, rfl, ⟨by simp only [Pass.passed]; omega, below, state, mode,
      inLine.snoc started tail⟩, rfl⟩

theorem readChar_fixed {left : Int}
    (sim : Sim11 pass i ⟨.fixed left, decoded⟩) (tail : pass.src.buf.drop i = ch :: rest)
    (step : Decoder11.step ⟨.fixed left, decoded⟩ ch = .ok next) :
    ∃ pass', pass.readChar i ch = .ok pass' ∧ Sim11 (pass'.passed ch) (i + 1) next ∧
      pass'.src.buf = pass.src.buf := by
  obtain ⟨started, inside, sim⟩ := sim
  have below : i < pass.src.buf.length := lt_length_of_drop_eq_cons tail
  obtain ⟨mode, positive, state, pos, rfl, inEntity⟩ := sim
  obtain ⟨body, body_eq, step⟩ := bind_eq_ok.mp step
  obtain ⟨-, rfl⟩ := HttpMessage.appendEntity_eq_ok.mp body_eq
  simp only [Pass.readChar, state, mode, positive, if_true, Pass.fixedChar]
  by_cases last : left - 1 = 0
  · simp only [last, if_true, HttpMessage.endEntity, inEntity, MessageState.rank_entity,
      le_rfl, HttpMessage.endFooter, MessageState.rank_footer, ok_bind,
      Except.ok.injEq] at step
    subst step
    simp only [last, if_true, HttpMessage.appendEntity, HttpMessage.endEntity, inEntity,
      MessageState.rank_entity, le_rfl, HttpMessage.endFooter, MessageState.rank_footer,
      ok_bind, List.append_assoc]
    exact ⟨_, rfl, ⟨le_rfl, below, rfl, rfl, rfl⟩, rfl⟩
  · simp only [last, if_false, Except.ok.injEq] at step
    subst step
    simp only [last, if_false]
    exact ⟨_, rfl, ⟨le_rfl, below, rfl, by omega, rfl, rfl, by
      simp [Pass.passed], inEntity⟩, rfl⟩

theorem readChar_chunkSize {size : BitVec 64}
    (sim : Sim11 pass i ⟨.chunkSize size, decoded⟩) (tail : pass.src.buf.drop i = ch :: rest)
    (step : Decoder11.step ⟨.chunkSize size, decoded⟩ ch = .ok next) :
    ∃ pass', pass.readChar i ch = .ok pass' ∧ Sim11 (pass'.passed ch) (i + 1) next ∧
      pass'.src.buf = pass.src.buf := by
  obtain ⟨started, inside, sim⟩ := sim
  have below : i < pass.src.buf.length := lt_length_of_drop_eq_cons tail
  obtain ⟨mode, sub, value, inEntity⟩ := sim
  have state := inEntity.1
  simp only [Pass.readChar, state, mode, if_false, Pass.chunkedChar, sub, if_true]
  by_cases digit : isHex ch = true
  · simp only [Decoder11.step, digit, if_true, Except.ok.injEq] at step
    subst step
    simp only [digit, if_true]
    exact ⟨_, rfl, ⟨le_rfl, below, mode, rfl, by simp [Pass.passed, value], rfl, rfl,
      inEntity.2.2⟩, rfl⟩
  · simp only [Decoder11.step, digit, Bool.false_eq_true, if_false] at step
    simp only [digit, Bool.false_eq_true, if_false]
    by_cases semicolon : ch = 59
    · simp only [semicolon, if_true, Except.ok.injEq] at step
      subst step
      simp only [semicolon, if_true]
      exact ⟨_, rfl, ⟨le_rfl, below, mode, rfl, value, rfl, rfl, inEntity.2.2⟩, rfl⟩
    · simp only [semicolon, if_false] at step
      simp only [semicolon, if_false]
      by_cases feed : ch = 10
      · subst feed
        exact endSize below mode value inEntity step
      · simp only [feed, if_false, Except.ok.injEq] at step
        subst step
        simp only [feed, if_false]
        exact ⟨_, rfl, ⟨le_rfl, below, mode, sub, value, state, rfl, inEntity.2.2⟩, rfl⟩

theorem readChar_chunkExtension {size : BitVec 64}
    (sim : Sim11 pass i ⟨.chunkExtension size, decoded⟩) (tail : pass.src.buf.drop i = ch :: rest)
    (step : Decoder11.step ⟨.chunkExtension size, decoded⟩ ch = .ok next) :
    ∃ pass', pass.readChar i ch = .ok pass' ∧ Sim11 (pass'.passed ch) (i + 1) next ∧
      pass'.src.buf = pass.src.buf := by
  obtain ⟨started, inside, sim⟩ := sim
  have below : i < pass.src.buf.length := lt_length_of_drop_eq_cons tail
  obtain ⟨mode, sub, value, inEntity⟩ := sim
  have state := inEntity.1
  simp only [Pass.readChar, state, mode, if_false, Pass.chunkedChar, sub, one_ne_zero, if_true]
  by_cases feed : ch = 10
  · subst feed
    exact endSize below mode value inEntity step
  · simp only [Decoder11.step, feed, if_false, Except.ok.injEq] at step
    subst step
    simp only [feed, if_false]
    exact ⟨_, rfl, ⟨le_rfl, below, mode, sub, value, state, rfl, inEntity.2.2⟩, rfl⟩

theorem readChar_chunkData {left : BitVec 64}
    (sim : Sim11 pass i ⟨.chunkData left, decoded⟩) (tail : pass.src.buf.drop i = ch :: rest)
    (step : Decoder11.step ⟨.chunkData left, decoded⟩ ch = .ok next) :
    ∃ pass', pass.readChar i ch = .ok pass' ∧ Sim11 (pass'.passed ch) (i + 1) next ∧
      pass'.src.buf = pass.src.buf := by
  obtain ⟨started, inside, sim⟩ := sim
  have below : i < pass.src.buf.length := lt_length_of_drop_eq_cons tail
  obtain ⟨mode, sub, value, inEntity⟩ := sim
  have state := inEntity.1
  simp only [Pass.readChar, state, mode, if_false, Pass.chunkedChar, sub, if_true, value,
    OfNat.ofNat_ne_zero, OfNat.ofNat_ne_one]
  by_cases emptied : left = 0
  · simp only [Decoder11.step, emptied, ne_eq, not_true_eq_false, if_false] at step
    simp only [emptied, ne_eq, not_true_eq_false, if_false]
    by_cases feed : ch = 10
    · simp only [feed, if_true, Except.ok.injEq] at step
      subst step
      simp only [feed, if_true]
      exact ⟨_, rfl, ⟨le_rfl, below, mode, rfl, rfl, rfl, rfl, inEntity.2.2⟩, rfl⟩
    · simp only [feed, if_false, Except.ok.injEq] at step
      subst step
      simp only [feed, if_false]
      exact ⟨_, rfl, ⟨le_rfl, below, mode, sub, value.trans emptied, state, rfl,
        inEntity.2.2⟩, rfl⟩
  · obtain ⟨-, -, rfl, inEntity⟩ := inEntity
    simp only [Decoder11.step, ne_eq, emptied, not_false_iff, if_true,
      HttpMessage.appendEntity, inEntity, ok_bind, Except.ok.injEq] at step
    subst step
    simp only [ne_eq, emptied, not_false_iff, if_true]
    exact ⟨_, rfl, ⟨le_rfl, below, mode, rfl, rfl, rfl, rfl, by
      simp [Pass.passed, inEntity], inEntity⟩, rfl⟩

theorem readChar_trailer {line : Str}
    (sim : Sim11 pass i ⟨.trailer line, decoded⟩) (tail : pass.src.buf.drop i = ch :: rest)
    (step : Decoder11.step ⟨.trailer line, decoded⟩ ch = .ok next) :
    ∃ pass', pass.readChar i ch = .ok pass' ∧ Sim11 (pass'.passed ch) (i + 1) next ∧
      pass'.src.buf = pass.src.buf := by
  obtain ⟨started, inside, sim⟩ := sim
  have below : i < pass.src.buf.length := lt_length_of_drop_eq_cons tail
  obtain ⟨state, mode, sub, inLine⟩ := sim
  have line_eq := inLine.line_eq below
  simp only [Pass.readChar, state, mode, if_false, Pass.chunkedChar, sub, if_true,
    OfNat.ofNat_ne_zero, OfNat.ofNat_ne_one, Nat.reduceEqDiff]
  by_cases feed : ch = 10
  · subst feed
    obtain ⟨-, -, entity, rfl⟩ := inLine
    by_cases empty : Decoder11.chomp line = []
    · simp only [Decoder11.step, empty, if_true] at step
      obtain ⟨foot, foot_eq, step⟩ := bind_eq_ok.mp step
      cases step
      simp only [line_eq, empty, if_true, foot_eq, ok_bind]
      exact ⟨_, rfl, ⟨le_rfl, below, rfl, entity, rfl⟩, rfl⟩
    · simp only [Decoder11.step, empty, if_true, if_false] at step
      obtain ⟨foot, foot_eq, step⟩ := bind_eq_ok.mp step
      cases step
      simp only [line_eq, empty, if_true, if_false, foot_eq, ok_bind]
      exact ⟨_, rfl, ⟨le_rfl, below, state, mode, sub, .restart rfl entity⟩, rfl⟩
  · simp only [Decoder11.step, feed, if_false, Except.ok.injEq] at step
    subst step
    simp only [feed, if_false]
    exact ⟨_, rfl, ⟨by simp only [Pass.passed]; omega, below, state, mode, sub,
      inLine.snoc started tail⟩, rfl⟩

/-- One byte takes the reader where it takes the decoder. -/
theorem readChar {dec : Decoder11} (sim : Sim11 pass i dec)
    (tail : pass.src.buf.drop i = ch :: rest) (step : dec.step ch = .ok next) :
    ∃ pass', pass.readChar i ch = .ok pass' ∧ Sim11 (pass'.passed ch) (i + 1) next ∧
      pass'.src.buf = pass.src.buf := by
  obtain ⟨phase, decoded⟩ := dec
  cases phase with
  | firstLine line => exact sim.readChar_firstLine tail step
  | header entityMode line => exact sim.readChar_header tail step
  | fixed left => exact sim.readChar_fixed tail step
  | chunkSize size => exact sim.readChar_chunkSize tail step
  | chunkExtension size => exact sim.readChar_chunkExtension tail step
  | chunkData left => exact sim.readChar_chunkData tail step
  | trailer line => exact sim.readChar_trailer tail step
  | done =>
      obtain ⟨started, inside, sim⟩ := sim
      have below : i < pass.src.buf.length := lt_length_of_drop_eq_cons tail
      obtain ⟨state, entity, rfl⟩ := sim
      cases step
      simp only [Pass.readChar, state]
      exact ⟨_, rfl, ⟨by simp only [Pass.passed]; omega, below, state, entity, rfl⟩, rfl⟩

/-- A loop over a word is a run of the decoder. -/
theorem readLoop {dec last : Decoder11} {word : Str} {count : Nat} (sim : Sim11 pass i dec)
    (tail : pass.src.buf.drop i = word)
    (outcome : Decoder11.automaton.run dec word = .ok (last, count)) :
    ∃ pass', MessageSource11.readLoop pass i word = .ok (i + count, pass') ∧
      Sim11 pass' (i + count) last ∧ pass'.src.buf = pass.src.buf ∧
      (count = word.length ∨ last.phase = .done) := by
  induction word generalizing pass i dec count with
  | nil =>
      simp only [Automaton.run, Except.ok.injEq, Prod.mk.injEq] at outcome
      obtain ⟨rfl, rfl⟩ := outcome
      exact ⟨pass, rfl, sim, rfl, Or.inl rfl⟩
  | cons ch word ih =>
      rw [Automaton.run] at outcome
      have final_iff : Decoder11.automaton.final dec = true ↔ dec.phase = .done := by
        rw [Decoder11.automaton, decide_eq_true_eq]
      split at outcome
      · rename_i stopped
        simp only [Except.ok.injEq, Prod.mk.injEq] at outcome
        obtain ⟨rfl, rfl⟩ := outcome
        have ended := sim.done_iff.mpr (final_iff.mp stopped)
        exact ⟨pass, by simp [MessageSource11.readLoop, ended], sim, rfl,
          Or.inr (final_iff.mp stopped)⟩
      · rename_i open_
        have going : ¬pass.src.state = .done := fun ended =>
          open_ (final_iff.mpr (sim.done_iff.mp ended))
        split at outcome
        · cases outcome
        · rename_i next step
          split at outcome
          · cases outcome
          · rename_i end_ count' rest
            simp only [Except.ok.injEq, Prod.mk.injEq] at outcome
            obtain ⟨rfl, rfl⟩ := outcome
            obtain ⟨pass₁, read_eq, sim₁, buf₁⟩ := sim.readChar tail step
            have tail₁ : (pass₁.passed ch).src.buf.drop (i + 1) = word := by
              rw [show (pass₁.passed ch).src.buf = pass.src.buf from buf₁, ← List.drop_drop, tail]
              rfl
            obtain ⟨pass₂, loop_eq, sim₂, buf₂, stop⟩ := ih sim₁ tail₁ rest
            refine ⟨pass₂, ?_, ?_, buf₂.trans buf₁, by simpa using stop⟩
            · rw [MessageSource11.readLoop, if_neg going, read_eq]
              rw [show i + (count' + 1) = i + 1 + count' by omega]
              exact loop_eq
            · rwa [show i + (count' + 1) = i + 1 + count' by omega]

/-- A finished reader no longer cares for its position. -/
theorem at_end {dec : Decoder11} (sim : Sim11 pass i dec)
    (stop : i = pass.src.buf.length ∨ dec.phase = .done) :
    Sim11 pass pass.src.buf.length dec := by
  obtain rfl | ended := stop
  · exact sim
  · obtain ⟨started, inside, sim⟩ := sim
    rw [Sim11, ended]
    rw [ended] at sim
    exact ⟨by omega, le_rfl, sim⟩

/-- After the flush the message is the decoder's message. -/
theorem flushEntity {dec : Decoder11} (sim : Sim11 pass i dec) :
    pass.flushEntity = .ok dec.msg := by
  have within {msg : HttpMessage} (inEntity : pass.InEntity i msg) :
      pass.flushEntity = .ok msg := by
    obtain ⟨-, -, rfl, state⟩ := inEntity
    by_cases empty : pass.entity = []
    · simp [Pass.flushEntity, empty]
    · simp only [Pass.flushEntity, ne_eq, empty, not_false_iff, if_true,
        HttpMessage.appendEntity, state]
  have outside {msg : HttpMessage} (empty : pass.entity = []) (same : msg = pass.msg) :
      pass.flushEntity = .ok msg := by
    simp [Pass.flushEntity, empty, same]
  obtain ⟨phase, decoded⟩ := dec
  obtain ⟨-, -, sim⟩ := sim
  cases phase with
  | firstLine line | header entityMode line => exact outside sim.2.2.2.2.1 sim.2.2.2.2.2
  | fixed left => exact within sim.2.2
  | chunkSize size | chunkExtension size | chunkData left => exact within sim.2.2.2
  | trailer line => exact outside sim.2.2.2.2.2.1 sim.2.2.2.2.2.2
  | done => exact outside sim.2.1 sim.2.2

/-- Dropping what lies before the current line prepares the next pass. -/
theorem rebase {dec : Decoder11} (sim : Sim11 pass pass.src.buf.length dec) :
    Sim11 { src := pass.rebase, msg := dec.msg } pass.rebase.buf.length dec := by
  have shape : pass.rebase = { pass.src with buf := pass.src.buf.drop pass.pos } := by
    by_cases zero : pass.pos = 0 <;> simp [Pass.rebase, zero]
  have within {msg : HttpMessage} (inEntity : pass.InEntity pass.src.buf.length msg) :
      Pass.InEntity { src := pass.rebase, msg } pass.rebase.buf.length msg := by
    obtain ⟨state, pos, rfl, entity⟩ := inEntity
    exact ⟨by rwa [shape], by simp [shape, pos], by simp, entity⟩
  have inside {line : Str} {msg : HttpMessage}
      (inLine : pass.InLine pass.src.buf.length line msg) :
      Pass.InLine { src := pass.rebase, msg } pass.rebase.buf.length line msg := by
    obtain ⟨text, last, -, -⟩ := inLine
    refine ⟨?_, by rwa [shape], rfl, rfl⟩
    rw [segment_length, shape, List.drop_zero, ← text, segment_length]
  obtain ⟨phase, decoded⟩ := dec
  obtain ⟨-, -, sim⟩ := sim
  refine ⟨Nat.zero_le _, le_rfl, ?_⟩
  cases phase with
  | firstLine line | header entityMode line =>
      exact ⟨by rw [shape]; exact sim.1, by rw [shape]; exact sim.2.1, inside sim.2.2⟩
  | fixed left => exact ⟨by rw [shape]; exact sim.1, sim.2.1, within sim.2.2⟩
  | chunkSize size | chunkExtension size | chunkData left =>
      exact ⟨by rw [shape]; exact sim.1, by rw [shape]; exact sim.2.1,
        by rw [shape]; exact sim.2.2.1, within sim.2.2.2⟩
  | trailer line =>
      exact ⟨by rw [shape]; exact sim.1, by rw [shape]; exact sim.2.1,
        by rw [shape]; exact sim.2.2.1, inside sim.2.2.2⟩
  | done => exact ⟨by rw [shape]; exact sim.1, rfl, rfl⟩

/-- Bytes that arrive behind the current position change nothing yet. -/
theorem append {dec : Decoder11} (sim : Sim11 pass pass.src.buf.length dec) (piece : Str) :
    Sim11 { pass with src := { pass.src with buf := pass.src.buf ++ piece } }
      pass.src.buf.length dec := by
  have same : segment (pass.src.buf ++ piece) pass.pos pass.src.buf.length =
      segment pass.src.buf pass.pos pass.src.buf.length := segment_append le_rfl piece
  obtain ⟨phase, decoded⟩ := dec
  obtain ⟨started, -, sim⟩ := sim
  refine ⟨started, by simp, ?_⟩
  cases phase <;> simpa only [Pass.InLine, Pass.InEntity, same] using sim

end Sim11

namespace Decoder11

/-- Between two reads: what the reader keeps is what the decoder keeps. -/
def Matches (reader : MessageSource11 × HttpMessage) (dec : Decoder11) : Prop :=
  Sim11 { src := reader.1, msg := reader.2 } reader.1.buf.length dec ∧ reader.2 = dec.msg

theorem matches_fresh (isRequest : Bool) :
    Matches ({}, .fresh isRequest) (fresh isRequest) := ⟨Sim11.start isRequest, rfl⟩

/-- One read of a piece is a run of the decoder over it. -/
theorem simulates : Simulates MessageSource11.read automaton Matches := by
  rintro ⟨src, msg⟩ dec piece last count ⟨sim, same⟩ outcome
  by_cases empty : piece = []
  · subst empty
    simp only [Automaton.run, Except.ok.injEq, Prod.mk.injEq] at outcome
    obtain ⟨rfl, rfl⟩ := outcome
    exact ⟨(src, msg), by simp [MessageSource11.read], sim, same⟩
  · have bound := automaton.count_le_of_run outcome
    obtain ⟨pass, loop_eq, sim₁, buf_eq, stop⟩ :=
      (sim.append piece).readLoop (by simp) outcome
    have buf_eq : pass.src.buf = src.buf ++ piece := buf_eq
    have sim₂ := sim₁.at_end (stop.imp_left fun all => by simp [buf_eq, all])
    refine ⟨(pass.rebase, last.msg), ?_, sim₂.rebase, rfl⟩
    have place : (src.buf ++ piece).length - piece.length = src.buf.length := by simp
    have amount : piece.length -
        ((src.buf ++ piece).length - (src.buf.length + count)) = count := by
      rw [List.length_append]
      omega
    simp only [MessageSource11.read, empty, if_false, place, loop_eq, ok_bind, sim₁.flushEntity,
      amount]

/-- The reader reads what the decoder reads, in any cut. -/
theorem Matches.feed {reader : MessageSource11 × HttpMessage} {dec last : Decoder11} {word : Str}
    (same : Matches reader dec) (reads : automaton.Reads dec word last) {cut : List Str}
    (isCut : IsCut word cut) :
    ∃ next, Incremental.feed MessageSource11.read reader cut = .ok (next, word.length) ∧
      Matches next last := by
  have outcome := reads.run_all
  rw [← isCut.whole] at outcome ⊢
  exact simulates.feed reader same outcome

end Decoder11

/-! ## Cuts -/

/-- What a fresh reader makes of the pieces: the message, whether it is finished, and how many
bytes were consumed. -/
def outcome11 (isRequest : Bool) (pieces : List Str) :
    Except Fault (HttpMessage × Bool × Nat) :=
  match feed MessageSource11.read ({}, .fresh isRequest) pieces with
  | .error fault => .error fault
  | .ok ((src, msg), count) => .ok (msg, src.state = .done, count)

/-- Every cut of a stream is read as the decoder reads the whole. -/
theorem outcome11_of_run {isRequest : Bool} {pieces : List Str} {last : Decoder11} {count : Nat}
    (outcome : Decoder11.automaton.run (.fresh isRequest) pieces.flatten = .ok (last, count)) :
    outcome11 isRequest pieces = .ok (last.msg, last.phase = .done, count) := by
  obtain ⟨⟨src, msg⟩, feed_eq, sim, rfl⟩ :=
    Decoder11.simulates.feed ({}, .fresh isRequest) (Decoder11.matches_fresh isRequest) outcome
  simp only [outcome11, feed_eq, sim.done_iff]

/-- Bytes at whose end, and not before, the reader is done are read by the decoder to its end. -/
theorem reads_of_outcome11 {isRequest : Bool} {bytes : Str} {msg : HttpMessage}
    (outcome : outcome11 isRequest [bytes] = .ok (msg, true, bytes.length)) :
    ∃ last, Decoder11.automaton.Reads (.fresh isRequest) bytes last ∧
      Decoder11.automaton.final last = true ∧ last.msg = msg := by
  rcases Decoder11.run_ok (Decoder11.consistent_fresh isRequest) bytes with ⟨last, count, run_eq⟩
  have whole : Decoder11.automaton.run (.fresh isRequest) [bytes].flatten = .ok (last, count) := by
    rw [List.flatten_singleton]
    exact run_eq
  have same := (outcome11_of_run whole).symm.trans outcome
  simp only [Except.ok.injEq, Prod.mk.injEq] at same
  rcases same with ⟨same_msg, done, count_eq⟩
  rw [count_eq] at run_eq
  exact ⟨last, Decoder11.automaton.reads_of_run_length run_eq, done, same_msg⟩

end GnyProxy
