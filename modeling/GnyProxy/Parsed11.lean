import GnyProxy.Layout11

/-!
# What the HTTP/1.1 reader makes of any stream

Whatever the bytes, the fields that are read fit on lines again, and the framing headers among
them are content lengths.
-/

namespace GnyProxy

open Incremental

/-- What holds of every message that was read: its fields were lines, and none of its headers is
dropped when they are read again. -/
structure Parsed (isRequest : Bool) (msg : HttpMessage) : Prop where
  direction : msg.isRequest = isRequest
  headers : ∀ field ∈ msg.headers, WellFormed field
  handedOn : ∀ field ∈ msg.headers, survives field.1 = true
  footers : ∀ field ∈ msg.footers, WellFormed field
  firstLine : if isRequest then msg.verb ≤ verbUnknown ∧ msg.status = -1
    else msg.verb = verbUnknown ∧ msg.url = []

theorem atoverb_le (key : Str) : atoverb key ≤ verbUnknown := by
  unfold atoverb
  split
  · rename_i index found
    obtain ⟨below, -⟩ := stringBinSearchLoop_sound found
    have bound : index < 9 := by simpa [verbUnknown] using below
    have code : index.toUInt8.toNat = index := by
      rw [Nat.toUInt8, UInt8.toNat_ofNat']
      omega
    refine UInt8.le_iff_toNat_le.mpr ?_
    rw [code]
    exact bound.le
  · exact UInt8.le_refl _

theorem feed_notMem_trim {text : Str} (clean : 10 ∉ text) : 10 ∉ trim text :=
  fun member => clean (mem_of_mem_trim member)

/-- The field of a line fits on a line. -/
theorem wellFormed_of_splitField {line : Str} {field : Str × Str} (clean : 10 ∉ line)
    (split : splitField line = some field) : WellFormed field := by
  unfold splitField at split
  split at split
  · obtain rfl := Option.some.inj split
    have key_clean : 10 ∉ line.takeWhile (· ≠ 58) :=
      fun member => clean ((List.takeWhile_prefix _).subset member)
    have value_clean : 10 ∉ (line.dropWhile (· ≠ 58)).drop 1 :=
      fun member => clean ((List.dropWhile_suffix _).subset (List.mem_of_mem_drop member))
    have colon : 58 ∉ line.takeWhile (· ≠ 58) :=
      fun member => absurd (List.mem_takeWhile_imp member) (by decide)
    exact ⟨feed_notMem_trim key_clean, feed_notMem_trim value_clean,
      fun member => colon (mem_of_mem_trim member), trim_trim _, trim_trim _⟩
  · cases split

theorem feed_notMem_chomp {line : Str} (clean : 10 ∉ line) : 10 ∉ Decoder11.chomp line := by
  unfold Decoder11.chomp
  split
  · exact fun member => clean (List.mem_of_mem_dropLast member)
  · exact clean

namespace Parsed

variable {isRequest : Bool} {msg next : HttpMessage}

theorem fresh (isRequest : Bool) : Parsed isRequest (.fresh isRequest) := by
  refine ⟨rfl, by simp [HttpMessage.fresh], by simp [HttpMessage.fresh],
    by simp [HttpMessage.fresh], ?_⟩
  cases isRequest
  · exact ⟨rfl, rfl⟩
  · exact ⟨by decide, rfl⟩

theorem parseFirstLine (parsed : Parsed isRequest msg) (line : Str) :
    Parsed isRequest (parseFirstLine msg line) := by
  obtain ⟨rfl, headers, handedOn, footers, firstLine⟩ := parsed
  by_cases request : msg.isRequest = true
  · rw [if_pos request] at firstLine
    rw [GnyProxy.parseFirstLine, if_pos request]
    refine ⟨rfl, headers, handedOn, footers, ?_⟩
    simp [parseRequestLine, HttpMessage.setVerb, HttpMessage.setUrl, request, firstLine.2,
      atoverb_le]
  · rw [if_neg request] at firstLine
    rw [GnyProxy.parseFirstLine, if_neg request]
    refine ⟨rfl, headers, handedOn, footers, ?_⟩
    simpa [parseResponseLine, HttpMessage.setStatus, request] using firstLine

theorem parseHeader (parsed : Parsed isRequest msg) (header : msg.state = .header) {line : Str}
    (clean : 10 ∉ line) {mode mode' : Int}
    (outcome : parseHeader mode msg line = .ok (mode', next)) : Parsed isRequest next := by
  cases split : splitField line with
  | none =>
      rw [parseHeader_no_colon split] at outcome
      cases outcome
      exact parsed
  | some field =>
      rw [parseHeader_eq header split] at outcome
      cases outcome
      by_cases kept : survives field.1 = true
      · have wellFormed := wellFormed_of_splitField clean split
        refine ⟨parsed.direction, ?_, ?_, parsed.footers, parsed.firstLine⟩
        · simpa [kept, List.forall_mem_append, or_imp, forall_and, wellFormed] using
            parsed.headers
        · simpa [kept, List.forall_mem_append, or_imp, forall_and] using parsed.handedOn
      · simpa [kept] using parsed

theorem parseFooter (parsed : Parsed isRequest msg) {line : Str} (clean : 10 ∉ line)
    (outcome : parseFooter msg line = .ok next) : Parsed isRequest next := by
  unfold GnyProxy.parseFooter at outcome
  split at outcome
  · cases outcome
    exact parsed
  · rename_i key value split
    obtain ⟨-, rfl⟩ := HttpMessage.addFooter_eq_ok.mp outcome
    refine ⟨parsed.direction, parsed.headers, parsed.handedOn, ?_, parsed.firstLine⟩
    have wellFormed := wellFormed_of_splitField clean split
    simpa [or_imp, forall_and, wellFormed] using parsed.footers

/-- Only the entity and the state change within a body. -/
theorem update (parsed : Parsed isRequest msg) (entity : Str) (state : MessageState) :
    Parsed isRequest { msg with entity, state } :=
  ⟨parsed.direction, parsed.headers, parsed.handedOn, parsed.footers, parsed.firstLine⟩

end Parsed

namespace Decoder11

/-- No line feed is among the bytes of the unfinished line. -/
def CleanLine : Phase → Prop
  | .firstLine line | .header _ line | .trailer line => 10 ∉ line
  | _ => True

/-- What every step of the decoder keeps. -/
structure Tidy (isRequest : Bool) (dec : Decoder11) : Prop where
  consistent : dec.Consistent
  line : CleanLine dec.phase
  parsed : Parsed isRequest dec.msg

theorem tidy_fresh (isRequest : Bool) : Tidy isRequest (fresh isRequest) :=
  ⟨rfl, by simp [fresh, CleanLine], .fresh isRequest⟩

variable {isRequest : Bool} {msg : HttpMessage} {next : Decoder11}

theorem parsed_of_endHeader {mode : Int} (parsed : Parsed isRequest msg)
    (header : msg.state = .header) (outcome : endHeader mode msg = .ok next) :
    CleanLine next.phase ∧ Parsed isRequest next.msg := by
  simp only [endHeader, HttpMessage.endHeader, header, le_rfl, if_true, ok_bind,
    HttpMessage.endEntity, HttpMessage.endFooter, MessageState.rank_entity,
    MessageState.rank_footer] at outcome
  split at outcome
  · cases outcome
    exact ⟨trivial, parsed.update msg.entity .done⟩
  · split at outcome <;>
    · cases outcome
      exact ⟨trivial, parsed.update msg.entity .entity⟩

theorem parsed_of_endSize (parsed : Parsed isRequest msg) {size : BitVec 64}
    (outcome : endSize size msg = .ok next) : CleanLine next.phase ∧ Parsed isRequest next.msg := by
  unfold endSize at outcome
  split at outcome
  · cases outcome
    exact ⟨trivial, parsed⟩
  · obtain ⟨ended, end_eq, outcome⟩ := bind_eq_ok.mp outcome
    obtain ⟨-, rfl⟩ := HttpMessage.endEntity_eq_ok.mp end_eq
    cases outcome
    exact ⟨by simp [CleanLine], parsed.update msg.entity .footer⟩

theorem Tidy.step {dec : Decoder11} {ch : UInt8} (outcome : dec.step ch = .ok next)
    (tidy : Tidy isRequest dec) : Tidy isRequest next := by
  obtain ⟨consistent, clean, parsed⟩ := tidy
  have consistent' : next.Consistent := consistent_step consistent outcome
  suffices CleanLine next.phase ∧ Parsed isRequest next.msg from ⟨consistent', this.1, this.2⟩
  obtain ⟨phase, msg⟩ := dec
  have snoc {line : Str} (clean : 10 ∉ line) (other : ch ≠ 10) : 10 ∉ line ++ [ch] := by
    simpa [clean] using Ne.symm other
  cases phase with
  | firstLine line =>
      simp only [Decoder11.step] at outcome
      split at outcome
      · split at outcome <;> cases outcome
        · exact ⟨by simp [CleanLine], parsed⟩
        · exact ⟨by simp [CleanLine], parsed.parseFirstLine _⟩
      · rename_i other
        cases outcome
        exact ⟨snoc clean other, parsed⟩
  | header entityMode line =>
      simp only [Decoder11.step] at outcome
      split at outcome
      · split at outcome
        · obtain ⟨⟨mode, next⟩, header_eq, outcome⟩ := bind_eq_ok.mp outcome
          cases outcome
          exact ⟨by simp [CleanLine],
            parsed.parseHeader consistent (feed_notMem_chomp clean) header_eq⟩
        · exact parsed_of_endHeader parsed consistent outcome
      · rename_i other
        cases outcome
        exact ⟨snoc clean other, parsed⟩
  | fixed left =>
      have entity : msg.state = .entity := consistent
      simp only [Decoder11.step, HttpMessage.appendEntity, entity, if_true, ok_bind,
        HttpMessage.endEntity, HttpMessage.endFooter, MessageState.rank_entity, le_rfl,
        MessageState.rank_footer] at outcome
      split at outcome <;> cases outcome
      · exact ⟨trivial, parsed.update (msg.entity ++ [ch]) .done⟩
      · exact ⟨trivial, parsed.update (msg.entity ++ [ch]) .entity⟩
  | chunkSize size =>
      simp only [Decoder11.step] at outcome
      split at outcome
      · cases outcome
        exact ⟨trivial, parsed⟩
      · split at outcome
        · cases outcome
          exact ⟨trivial, parsed⟩
        · split at outcome
          · exact parsed_of_endSize parsed outcome
          · cases outcome
            exact ⟨trivial, parsed⟩
  | chunkExtension size =>
      simp only [Decoder11.step] at outcome
      split at outcome
      · exact parsed_of_endSize parsed outcome
      · cases outcome
        exact ⟨trivial, parsed⟩
  | chunkData left =>
      have entity : msg.state = .entity := consistent
      simp only [Decoder11.step, HttpMessage.appendEntity, entity, if_true, ok_bind] at outcome
      split at outcome
      · cases outcome
        exact ⟨trivial, parsed.update (msg.entity ++ [ch]) .entity⟩
      · split at outcome <;> cases outcome <;> exact ⟨trivial, parsed⟩
  | trailer line =>
      simp only [Decoder11.step] at outcome
      split at outcome
      · split at outcome
        · obtain ⟨ended, end_eq, outcome⟩ := bind_eq_ok.mp outcome
          obtain ⟨-, rfl⟩ := HttpMessage.endFooter_eq_ok.mp end_eq
          cases outcome
          exact ⟨trivial, parsed.update msg.entity .done⟩
        · obtain ⟨read, footer_eq, outcome⟩ := bind_eq_ok.mp outcome
          cases outcome
          exact ⟨by simp [CleanLine], parsed.parseFooter (feed_notMem_chomp clean) footer_eq⟩
      · rename_i other
        cases outcome
        exact ⟨snoc clean other, parsed⟩
  | done =>
      cases outcome
      exact ⟨trivial, parsed⟩

end Decoder11

/-- What a reader has finished is a message of this kind, read by the decoder. -/
theorem parsed_of_outcome {isRequest : Bool} {cut : List Str} {msg : HttpMessage} {count : Nat}
    (outcome : outcome11 isRequest cut = .ok (msg, true, count)) :
    Parsed isRequest msg ∧ msg.state = .done := by
  obtain ⟨last, count', run_eq⟩ :=
    Decoder11.run_ok (Decoder11.consistent_fresh isRequest) cut.flatten
  rw [outcome11_of_run run_eq] at outcome
  simp only [Except.ok.injEq, Prod.mk.injEq, decide_eq_true_eq] at outcome
  obtain ⟨rfl, done, rfl⟩ := outcome
  obtain ⟨front, back, -, -, reads, -⟩ := Decoder11.automaton.reads_of_run run_eq
  have tidy : Decoder11.Tidy isRequest last := reads.invariant (P := Decoder11.Tidy isRequest)
    (fun step tidy => Decoder11.Tidy.step step tidy) (Decoder11.tidy_fresh isRequest)
  have consistent := tidy.consistent
  rw [Decoder11.Consistent, done] at consistent
  exact ⟨tidy.parsed, consistent⟩

end GnyProxy
