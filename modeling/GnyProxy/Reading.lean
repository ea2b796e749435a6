import GnyProxy.HttpProxy

/-!
# What a read does to its message

A reader fills its message through the source interface alone, and of the message it looks at the
section only: with a message in the same section, from which parts were taken meanwhile, it does
the same.
-/

namespace GnyProxy

namespace HttpMessage

/-- The message behind the updates. -/
def fill (msg : HttpMessage) (updates : List Update) : Except Fault HttpMessage :=
  updates.foldlM HttpMessage.update msg

@[simp] theorem fill_nil (msg : HttpMessage) : msg.fill [] = .ok msg := rfl

theorem fill_cons (msg : HttpMessage) (update : Update) (updates : List Update) :
    msg.fill (update :: updates) = msg.update update >>= fun next => next.fill updates :=
  List.foldlM_cons

theorem fill_append (msg : HttpMessage) (front back : List Update) :
    msg.fill (front ++ back) = msg.fill front >>= fun next => next.fill back := by
  induction front generalizing msg with
  | nil => rfl
  | cons update front ih =>
      rw [List.cons_append, fill_cons, fill_cons]
      cases msg.update update with
      | error fault => rfl
      | ok next => exact ih next

/-- The messages are filled in the same section. -/
def SameStage (msg other : HttpMessage) : Prop :=
  other.isRequest = msg.isRequest ∧ other.state = msg.state

@[simp] theorem SameStage.refl (msg : HttpMessage) : SameStage msg msg := ⟨rfl, rfl⟩

/-- An update depends on the section alone. -/
theorem SameStage.update {msg msg' other : HttpMessage} {update : Update}
    (same : SameStage msg other) (updated : msg.update update = .ok msg') :
    ∃ other', other.update update = .ok other' ∧ SameStage msg' other' := by
  obtain ⟨isRequest, state⟩ := same
  cases update with
  | setUrl url | setVerb verb | setStatus status =>
      cases updated
      exact ⟨_, rfl, isRequest, state⟩
  | addHeader key value =>
      obtain ⟨here, rfl⟩ := addHeader_eq_ok.mp updated
      exact ⟨_, addHeader_eq_ok.mpr ⟨state.trans here, rfl⟩, isRequest, state⟩
  | appendEntity entity =>
      obtain ⟨here, rfl⟩ := appendEntity_eq_ok.mp updated
      exact ⟨_, appendEntity_eq_ok.mpr ⟨state.trans here, rfl⟩, isRequest, state⟩
  | addFooter key value =>
      obtain ⟨here, rfl⟩ := addFooter_eq_ok.mp updated
      exact ⟨_, addFooter_eq_ok.mpr ⟨state.trans here, rfl⟩, isRequest, state⟩
  | endHeader =>
      obtain ⟨here, rfl⟩ := endHeader_eq_ok.mp updated
      exact ⟨_, endHeader_eq_ok.mpr ⟨state ▸ here, rfl⟩, isRequest, rfl⟩
  | endEntity =>
      obtain ⟨here, rfl⟩ := endEntity_eq_ok.mp updated
      exact ⟨_, endEntity_eq_ok.mpr ⟨state ▸ here, rfl⟩, isRequest, rfl⟩
  | endFooter =>
      obtain ⟨here, rfl⟩ := endFooter_eq_ok.mp updated
      exact ⟨_, endFooter_eq_ok.mpr ⟨state ▸ here, rfl⟩, isRequest, rfl⟩

theorem SameStage.fill {msg msg' other other' : HttpMessage} {updates : List Update}
    (same : SameStage msg other) (filled : msg.fill updates = .ok msg')
    (filled_other : other.fill updates = .ok other') : SameStage msg' other' := by
  induction updates generalizing msg other with
  | nil =>
      cases filled
      cases filled_other
      exact same
  | cons update updates ih =>
      rw [fill_cons] at filled filled_other
      obtain ⟨next, updated, filled⟩ := bind_eq_ok.mp filled
      obtain ⟨next', updated', filled_other⟩ := bind_eq_ok.mp filled_other
      obtain ⟨other_next, updated_other, same'⟩ := same.update updated
      obtain rfl := Except.ok.inj (updated'.symm.trans updated_other)
      exact ih same' filled filled_other

end HttpMessage

open HttpMessage (SameStage)

/-- An update that leaves the first line alone. -/
def Update.InSection : Update → Prop
  | setUrl _ | setVerb _ | setStatus _ => False
  | _ => True

/-! ## Uniform computations -/

/-- Whatever the computation makes of a message, it makes it by updates that are allowed, and by the
same ones of every message in the same section. -/
def Uniform {α β : Type} (allowed : Update → Prop) (build : α → HttpMessage → β)
    (compute : HttpMessage → Except Fault β) : Prop :=
  ∀ msg result, compute msg = .ok result →
    ∃ value updates, (∀ update ∈ updates, allowed update) ∧
      ∀ other, SameStage msg other →
        ∃ other', other.fill updates = .ok other' ∧ compute other = .ok (build value other')

namespace Uniform

variable {α β γ δ : Type} {allowed : Update → Prop} {build : α → HttpMessage → β}

theorem pure (value : α) : Uniform allowed build fun msg => .ok (build value msg) := by
  rintro msg result outcome
  exact ⟨value, [], by simp, fun other _ => ⟨other, rfl, rfl⟩⟩

/-- A failure has no result. -/
theorem error (fault : Fault) : Uniform allowed build fun _ => .error fault := by
  rintro msg result outcome
  cases outcome

theorem update {next : HttpMessage → Except Fault β} (update : Update) (ok : allowed update)
    (rest : Uniform allowed build next) :
    Uniform allowed build fun msg => msg.update update >>= next := by
  intro msg result outcome
  obtain ⟨msg', updated, outcome⟩ := bind_eq_ok.mp outcome
  obtain ⟨value, updates, allows, same⟩ := rest msg' result outcome
  refine ⟨value, update :: updates, List.forall_mem_cons.mpr ⟨ok, allows⟩, fun other stage => ?_⟩
  obtain ⟨other', other_updated, stage'⟩ := stage.update updated
  obtain ⟨last, filled, computed⟩ := same other' stage'
  refine ⟨last, ?_, ?_⟩
  · rw [HttpMessage.fill_cons, other_updated, ok_bind, filled]
  · simp only [other_updated, ok_bind, computed]

/-- An update that cannot fail. -/
theorem changed {change : HttpMessage → HttpMessage} (value : α) (update : Update)
    (ok : allowed update) (same : ∀ msg : HttpMessage, msg.update update = .ok (change msg)) :
    Uniform allowed build fun msg => .ok (build value (change msg)) := by
  have whole := Uniform.update update ok (Uniform.pure value : Uniform allowed build _)
  simpa only [same, ok_bind] using whole

theorem updateLast (update : Update) (ok : allowed update) :
    Uniform allowed (fun (_ : Unit) msg => msg) fun msg => msg.update update := by
  have same : (fun msg : HttpMessage => msg.update update) =
      fun msg => msg.update update >>= fun msg => .ok msg := by
    funext msg
    cases msg.update update <;> rfl
  rw [same]
  exact Uniform.update update ok (Uniform.pure ())

/-- A choice by what does not depend on the message. -/
theorem choice {condition : Prop} {decide : HttpMessage → Decidable condition}
    {first second : HttpMessage → Except Fault β} (here : condition → Uniform allowed build first)
    (there : ¬condition → Uniform allowed build second) :
    Uniform allowed build fun msg => @ite _ condition (decide msg) (first msg) (second msg) := by
  by_cases holds : condition
  · simpa only [holds, if_true] using here holds
  · simpa only [holds, if_false] using there holds

/-- A choice by the section. -/
theorem choiceStage {condition : HttpMessage → Prop} [DecidablePred condition]
    {first second : HttpMessage → Except Fault β}
    (stage : ∀ msg other, SameStage msg other → (condition other ↔ condition msg))
    (here : Uniform allowed build first) (there : Uniform allowed build second) :
    Uniform allowed build fun msg => if condition msg then first msg else second msg := by
  intro msg result outcome
  by_cases holds : condition msg
  · simp only [holds, if_true] at outcome
    obtain ⟨value, updates, allows, same⟩ := here msg result outcome
    refine ⟨value, updates, allows, fun other sameStage => ?_⟩
    have holds' := (stage msg other sameStage).mpr holds
    simpa only [holds', if_true] using same other sameStage
  · simp only [holds, if_false] at outcome
    obtain ⟨value, updates, allows, same⟩ := there msg result outcome
    refine ⟨value, updates, allows, fun other sameStage => ?_⟩
    have fails : ¬condition other := fun now => holds ((stage msg other sameStage).mp now)
    simpa only [fails, if_false] using same other sameStage

/-- What is computed first may be anything that does not depend on the message. -/
theorem bindValue {value : Except Fault γ} {next : γ → HttpMessage → Except Fault β}
    (rest : ∀ found, value = .ok found → Uniform allowed build (next found)) :
    Uniform allowed build fun msg => value >>= fun found => next found msg := by
  cases value with
  | error fault => exact error fault
  | ok found => exact rest found rfl

theorem mono {permitted : Update → Prop} {compute : HttpMessage → Except Fault β}
    (uniform : Uniform allowed build compute)
    (weaker : ∀ update, allowed update → permitted update) : Uniform permitted build compute := by
  intro msg result outcome
  obtain ⟨value, updates, allows, same⟩ := uniform msg result outcome
  exact ⟨value, updates, fun update member => weaker update (allows update member), same⟩

theorem bind {build' : γ → HttpMessage → δ} {compute : HttpMessage → Except Fault β}
    {next : β → Except Fault δ} (uniform : Uniform allowed build compute)
    (rest : ∀ value, (∃ msg msg', compute msg = .ok (build value msg')) →
      Uniform allowed build' fun msg => next (build value msg)) :
    Uniform allowed build' fun msg => compute msg >>= next := by
  intro msg result outcome
  obtain ⟨middle, computed, outcome⟩ := bind_eq_ok.mp outcome
  obtain ⟨value, updates, allows, same⟩ := uniform msg middle computed
  obtain ⟨msg', filled, computed'⟩ := same msg (SameStage.refl msg)
  obtain rfl := Except.ok.inj (computed.symm.trans computed')
  obtain ⟨value', updates', allows', same'⟩ := rest value ⟨msg, msg', computed'⟩ msg' result outcome
  refine ⟨value', updates ++ updates', fun update member => ?_, fun other stage => ?_⟩
  · obtain member | member := List.mem_append.mp member
    · exact allows update member
    · exact allows' update member
  · obtain ⟨other', filled_other, computed_other⟩ := same other stage
    have stage' : SameStage msg' other' := HttpMessage.SameStage.fill stage filled filled_other
    obtain ⟨last, filled_last, computed_last⟩ := same' other' stage'
    refine ⟨last, ?_, ?_⟩
    · rw [HttpMessage.fill_append, filled_other, ok_bind, filled_last]
    · simp only [computed_other, ok_bind, computed_last]

end Uniform

/-! ## The HTTP/1.1 reader -/

namespace MessageSource11

namespace Pass

def withMsg (pass : Pass) (msg : HttpMessage) : Pass := { pass with msg }

@[simp] theorem src_withMsg (pass : Pass) (msg : HttpMessage) : (pass.withMsg msg).src = pass.src :=
  rfl

@[simp] theorem msg_withMsg (pass : Pass) (msg : HttpMessage) : (pass.withMsg msg).msg = msg := rfl

@[simp] theorem entity_withMsg (pass : Pass) (msg : HttpMessage) :
    (pass.withMsg msg).entity = pass.entity := rfl

@[simp] theorem line_withMsg (pass : Pass) (msg : HttpMessage) (i : Nat) :
    (pass.withMsg msg).line i = pass.line i := rfl

variable {allowed : Update → Prop}

theorem uniform_parseFirstLine (pass : Pass) (line : Str) (all : ∀ update, allowed update) :
    Uniform allowed withMsg fun msg => .ok (pass.withMsg (parseFirstLine msg line)) := by
  have choice := @Uniform.choiceStage _ _ allowed withMsg (fun msg => msg.isRequest = true) _ _ _
    (fun msg other same => by rw [same.1])
    (Uniform.update (.setVerb (atoverb (getToken line).1)) (all _)
      (Uniform.update (.setUrl (urlDecode (secondToken line))) (all _) (Uniform.pure pass)))
    (Uniform.update (.setStatus (toInt32 (strtoll (secondToken line)).1)) (all _)
      (Uniform.pure pass))
  have same : (fun msg => Except.ok (pass.withMsg (parseFirstLine msg line))) =
      fun msg : HttpMessage => if msg.isRequest = true then
        msg.update (.setVerb (atoverb (getToken line).1)) >>= fun msg =>
          msg.update (.setUrl (urlDecode (secondToken line))) >>= fun msg =>
            .ok (pass.withMsg msg)
      else
        msg.update (.setStatus (toInt32 (strtoll (secondToken line)).1)) >>= fun msg =>
          (.ok (pass.withMsg msg) : Except Fault Pass) := by
    funext msg
    unfold parseFirstLine
    split <;> rfl
  rw [same]
  exact choice

variable (section_ : ∀ update : Update, update.InSection → allowed update)

include section_

theorem uniform_parseHeader (entityMode : Int) (line : Str) :
    Uniform allowed Prod.mk fun msg => parseHeader entityMode msg line := by
  unfold parseHeader
  cases splitField line with
  | none => exact Uniform.pure entityMode
  | some field =>
      obtain ⟨key, value⟩ := field
      apply Uniform.choice
      · intro
        apply Uniform.choice
        · exact fun _ => Uniform.pure entityChunked
        · exact fun _ => Uniform.pure entityMode
      · intro
        apply Uniform.choice
        · exact fun _ => Uniform.update (.addHeader key value) (section_ _ trivial)
            (Uniform.pure (strtoll value).1)
        · intro
          apply Uniform.choice
          · exact fun _ => Uniform.pure entityMode
          · exact fun _ => Uniform.update (.addHeader key value) (section_ _ trivial)
              (Uniform.pure entityMode)

theorem uniform_endSize (pass : Pass) (i : Nat) :
    Uniform allowed withMsg fun msg => (pass.withMsg msg).endSize i := by
  simp only [endSize, src_withMsg, msg_withMsg, entity_withMsg]
  apply Uniform.choice
  · exact fun _ => Uniform.pure
      { pass with src := { pass.src with entityState1 := 2 }, pos := i + 1 }
  · exact fun _ => Uniform.update (.appendEntity pass.entity) (section_ _ trivial)
      (Uniform.update .endEntity (section_ .endEntity trivial)
        (Uniform.pure
          ({ src := { pass.src with entityState1 := 3 }, msg := pass.msg, pos := i + 1 } : Pass)))

theorem uniform_fixedChar (pass : Pass) (i : Nat) (ch : UInt8) :
    Uniform allowed withMsg fun msg => (pass.withMsg msg).fixedChar i ch := by
  simp only [fixedChar, src_withMsg, msg_withMsg, entity_withMsg]
  apply Uniform.choice
  · exact fun _ => Uniform.update (.appendEntity (pass.entity ++ [ch])) (section_ _ trivial)
      (Uniform.update .endEntity (section_ .endEntity trivial)
        (Uniform.update .endFooter (section_ .endFooter trivial)
          (Uniform.pure
            ({ src := { pass.src with entityMode := 0, state := .done }, msg := pass.msg,
               pos := i + 1 } : Pass))))
  · exact fun _ => Uniform.pure { pass with
      src := { pass.src with entityMode := pass.src.entityMode - 1 }
      entity := pass.entity ++ [ch]
      pos := i + 1 }

theorem uniform_parseFooter (pass : Pass) (line : Str) :
    Uniform allowed withMsg fun msg =>
      parseFooter msg line >>= fun msg => .ok (pass.withMsg msg) := by
  unfold parseFooter
  cases splitField line with
  | none => exact Uniform.pure pass
  | some field =>
      exact Uniform.update (.addFooter field.1 field.2) (section_ _ trivial) (Uniform.pure pass)

theorem uniform_chunkedChar (pass : Pass) (i : Nat) (ch : UInt8) :
    Uniform allowed withMsg fun msg => (pass.withMsg msg).chunkedChar i ch := by
  have endSize := uniform_endSize section_ pass i
  have go_on (pass' : Pass) : Uniform allowed withMsg fun msg => .ok (pass'.withMsg msg) :=
    Uniform.pure pass'
  simp only [chunkedChar, src_withMsg, msg_withMsg, entity_withMsg, line_withMsg]
  apply Uniform.choice <;> intro
  · -- in a size
    apply Uniform.choice <;> intro
    · exact go_on { pass with
        src := { pass.src with
          entityState2 := (pass.src.entityState2 <<< 4) ||| BitVec.ofNat 64 (hextoi ch) }
        pos := i + 1 }
    apply Uniform.choice <;> intro
    · exact go_on { pass with src := { pass.src with entityState1 := 1 }, pos := i + 1 }
    apply Uniform.choice <;> intro
    · exact endSize
    · exact go_on { pass with pos := i + 1 }
  apply Uniform.choice <;> intro
  · -- behind its semicolon
    apply Uniform.choice <;> intro
    · exact endSize
    · exact go_on { pass with pos := i + 1 }
  apply Uniform.choice <;> intro
  · -- in a chunk
    apply Uniform.choice <;> intro
    · exact go_on { pass with
        src := { pass.src with entityState2 := pass.src.entityState2 - 1 }
        entity := pass.entity ++ [ch]
        pos := i + 1 }
    apply Uniform.choice <;> intro
    · exact go_on { pass with src := { pass.src with entityState1 := 0 }, pos := i + 1 }
    · exact go_on { pass with pos := i + 1 }
  apply Uniform.choice <;> intro
  · -- in the trailer
    apply Uniform.choice <;> intro
    · apply Uniform.choice <;> intro
      · exact Uniform.update .endFooter (section_ .endFooter trivial)
          (go_on { pass with src := { pass.src with state := .done }, pos := i + 1 })
      · exact uniform_parseFooter section_ { pass with pos := i + 1 } (pass.line i)
    · exact go_on pass
  · exact go_on { pass with pos := i + 1 }

omit section_

/-- Behind the first line it is not touched any more. -/
theorem uniform_readChar (pass : Pass) (i : Nat) (ch : UInt8) :
    Uniform (fun update => pass.src.state ≠ .firstLine → update.InSection) withMsg
      fun msg => (pass.withMsg msg).readChar i ch := by
  have go_on (pass' : Pass) :
      Uniform (fun update => pass.src.state ≠ .firstLine → update.InSection) withMsg
        fun msg => .ok (pass'.withMsg msg) := Uniform.pure pass'
  have section_ (update : Update) (here : update.InSection) :
      pass.src.state ≠ .firstLine → update.InSection := fun _ => here
  simp only [readChar, src_withMsg, msg_withMsg, entity_withMsg, line_withMsg]
  cases state : pass.src.state with
  | firstLine =>
      apply Uniform.choice <;> intro
      · apply Uniform.choice <;> intro
        · exact Uniform.pure { pass with pos := i + 1 }
        · exact uniform_parseFirstLine { pass with
            src := { pass.src with state := .headers }
            pos := i + 1 } (pass.line i) fun _ past => absurd rfl past
      · exact Uniform.pure pass
  | headers =>
      rw [state] at section_
      apply Uniform.choice <;> intro
      · apply Uniform.choice <;> intro
        · refine Uniform.bind (uniform_parseHeader section_ pass.src.entityMode (pass.line i))
            fun entityMode _ => ?_
          exact Uniform.pure { pass with
            src := { pass.src with state := .headers, entityMode }
            pos := i + 1 }
        · have ended : Uniform (fun update => Source11State.headers ≠ .firstLine → update.InSection)
              withMsg fun msg =>
                if pass.src.entityMode = 0 ∨ pass.src.entityMode = entityUnknown then
                  msg.update .endEntity >>= fun msg => msg.update .endFooter >>= fun msg =>
                    .ok (withMsg
                      { pass with src := { pass.src with state := .done }, pos := i + 1 } msg)
                else
                  .ok (withMsg { pass with
                    src := { pass.src with state := .entity, entityState1 := 0, entityState2 := 0 }
                    pos := i + 1 } msg) := by
            apply Uniform.choice <;> intro
            · exact Uniform.update .endEntity (section_ .endEntity trivial)
                (Uniform.update .endFooter (section_ .endFooter trivial) (Uniform.pure _))
            · exact Uniform.pure _
          exact Uniform.update .endHeader (section_ .endHeader trivial) ended
      · exact Uniform.pure pass
  | entity =>
      rw [state] at section_
      apply Uniform.choice <;> intro
      · exact uniform_fixedChar section_ pass i ch
      · exact uniform_chunkedChar section_ pass i ch
  | done => exact Uniform.pure pass

theorem state_endSize {pass pass' : Pass} {i : Nat} (outcome : pass.endSize i = .ok pass') :
    pass'.src.state = pass.src.state := by
  unfold endSize at outcome
  split at outcome
  · cases outcome
    rfl
  · obtain ⟨_, -, outcome⟩ := bind_eq_ok.mp outcome
    obtain ⟨_, -, outcome⟩ := bind_eq_ok.mp outcome
    cases outcome
    rfl

theorem state_chunkedChar {pass pass' : Pass} {i : Nat} {ch : UInt8}
    (outcome : pass.chunkedChar i ch = .ok pass') :
    pass'.src.state = pass.src.state ∨ pass'.src.state = .done := by
  simp only [chunkedChar] at outcome
  split at outcome
  · split at outcome
    · exact Or.inl (by cases outcome; rfl)
    split at outcome
    · exact Or.inl (by cases outcome; rfl)
    split at outcome
    · exact Or.inl (state_endSize outcome)
    · exact Or.inl (by cases outcome; rfl)
  split at outcome
  · split at outcome
    · exact Or.inl (state_endSize outcome)
    · exact Or.inl (by cases outcome; rfl)
  split at outcome
  · split at outcome
    · exact Or.inl (by cases outcome; rfl)
    split at outcome <;> exact Or.inl (by cases outcome; rfl)
  split at outcome
  · split at outcome
    · split at outcome
      · obtain ⟨_, -, outcome⟩ := bind_eq_ok.mp outcome
        exact Or.inr (by cases outcome; rfl)
      · obtain ⟨_, -, outcome⟩ := bind_eq_ok.mp outcome
        exact Or.inl (by cases outcome; rfl)
    · exact Or.inl (by cases outcome; rfl)
  · exact Or.inl (by cases outcome; rfl)

/-- A reader does not come back to the first line. -/
theorem past_readChar {pass pass' : Pass} {i : Nat} {ch : UInt8}
    (past : pass.src.state ≠ .firstLine) (outcome : pass.readChar i ch = .ok pass') :
    pass'.src.state ≠ .firstLine := by
  unfold readChar at outcome
  cases state : pass.src.state with
  | firstLine => exact absurd state past
  | headers =>
      simp only [state] at outcome
      split at outcome
      · split at outcome
        · obtain ⟨_, -, outcome⟩ := bind_eq_ok.mp outcome
          cases outcome
          simp
        · obtain ⟨_, -, outcome⟩ := bind_eq_ok.mp outcome
          split at outcome
          · obtain ⟨_, -, outcome⟩ := bind_eq_ok.mp outcome
            obtain ⟨_, -, outcome⟩ := bind_eq_ok.mp outcome
            cases outcome
            simp
          · cases outcome
            simp
      · cases outcome
        exact past
  | entity =>
      simp only [state] at outcome
      split at outcome
      · unfold fixedChar at outcome
        split at outcome
        · obtain ⟨_, -, outcome⟩ := bind_eq_ok.mp outcome
          obtain ⟨_, -, outcome⟩ := bind_eq_ok.mp outcome
          obtain ⟨_, -, outcome⟩ := bind_eq_ok.mp outcome
          cases outcome
          simp
        · cases outcome
          exact past
      · obtain same | done := state_chunkedChar outcome
        · rw [same]
          exact past
        · simp [done]
  | done =>
      simp only [state] at outcome
      cases outcome
      exact past

/-- In the first line the message is not touched before its end. -/
theorem msg_readChar {pass pass' : Pass} {i : Nat} {ch : UInt8}
    (outcome : pass.readChar i ch = .ok pass') :
    pass'.src.state ≠ .firstLine ∨ pass'.msg = pass.msg := by
  by_cases past : pass.src.state = .firstLine
  · unfold readChar at outcome
    simp only [past] at outcome
    split at outcome
    · split at outcome
      · cases outcome
        exact Or.inr rfl
      · cases outcome
        exact Or.inl (by simp)
    · cases outcome
      exact Or.inr rfl
  · exact Or.inl (past_readChar past outcome)

end Pass

theorem readLoop_cons (pass : Pass) (i : Nat) (ch : UInt8) (rest : Str) :
    readLoop pass i (ch :: rest) =
      if pass.src.state = .done then .ok (i, pass)
      else pass.readChar i ch >>= fun pass =>
        readLoop { pass with src := { pass.src with last := ch } } (i + 1) rest := by
  rw [readLoop]
  split
  · rfl
  · cases pass.readChar i ch <;> rfl

theorem uniform_readLoop (pass : Pass) (i : Nat) (rbuf : Str) :
    Uniform (fun update => pass.src.state ≠ .firstLine → update.InSection)
      (fun (stop : Nat × Pass) msg => (stop.1, stop.2.withMsg msg))
      fun msg => readLoop (pass.withMsg msg) i rbuf := by
  induction rbuf generalizing pass i with
  | nil => exact Uniform.pure (i, pass)
  | cons ch rest ih =>
      simp only [readLoop_cons, Pass.src_withMsg]
      apply Uniform.choice <;> intro
      · exact Uniform.pure (i, pass)
      · refine Uniform.bind (Pass.uniform_readChar pass i ch) fun pass' ⟨msg, msg', step⟩ => ?_
        refine (ih { pass' with src := { pass'.src with last := ch } } (i + 1)).mono
          fun update inSection past => inSection ?_
        have past' : (pass.withMsg msg).src.state ≠ .firstLine := past
        have behind : (pass'.withMsg msg').src.state ≠ .firstLine := Pass.past_readChar past' step
        exact behind

theorem past_readLoop {pass pass' : Pass} {i j : Nat} {rbuf : Str}
    (past : pass.src.state ≠ .firstLine) (outcome : readLoop pass i rbuf = .ok (j, pass')) :
    pass'.src.state ≠ .firstLine := by
  induction rbuf generalizing pass i with
  | nil =>
      cases outcome
      exact past
  | cons ch rest ih =>
      rw [readLoop_cons] at outcome
      split at outcome
      · cases outcome
        exact past
      · obtain ⟨next, step, outcome⟩ := bind_eq_ok.mp outcome
        have past' := Pass.past_readChar past step
        exact @ih { next with src := { next.src with last := ch } } _ past' outcome

theorem msg_readLoop {pass pass' : Pass} {i j : Nat} {rbuf : Str}
    (outcome : readLoop pass i rbuf = .ok (j, pass')) :
    pass'.src.state ≠ .firstLine ∨ pass'.msg = pass.msg := by
  induction rbuf generalizing pass i with
  | nil =>
      cases outcome
      exact Or.inr rfl
  | cons ch rest ih =>
      rw [readLoop_cons] at outcome
      split at outcome
      · cases outcome
        exact Or.inr rfl
      · obtain ⟨next, step, outcome⟩ := bind_eq_ok.mp outcome
        rcases Pass.msg_readChar step with past | same
        · exact Or.inl (@past_readLoop { next with src := { next.src with last := ch } } _ _ _ _
            past outcome)
        · exact (ih outcome).imp_right fun behind => behind.trans same

theorem state_rebase (pass : Pass) : pass.rebase.state = pass.src.state := by
  unfold Pass.rebase
  split <;> rfl

theorem uniform_flushEntity (pass : Pass) :
    Uniform Update.InSection (fun (_ : Unit) msg => msg)
      fun msg => (pass.withMsg msg).flushEntity := by
  simp only [Pass.flushEntity, Pass.entity_withMsg, Pass.msg_withMsg]
  apply Uniform.choice <;> intro
  · exact Uniform.updateLast (.appendEntity pass.entity) trivial
  · exact Uniform.pure ()

theorem uniform_read (source : MessageSource11) (rbuf : Str) :
    Uniform (fun update => source.state ≠ .firstLine → update.InSection)
      (fun (done : MessageSource11 × Nat) msg => ((done.1, msg), done.2))
      fun msg => read (source, msg) rbuf := by
  unfold read
  apply Uniform.choice <;> intro
  · exact Uniform.pure (source, 0)
  · have loop := uniform_readLoop
      { src := { source with buf := source.buf ++ rbuf }, msg := .fresh true }
      ((source.buf ++ rbuf).length - rbuf.length) rbuf
    have whole : Uniform (fun update => source.state ≠ .firstLine → update.InSection)
        (fun (done : MessageSource11 × Nat) msg => ((done.1, msg), done.2)) fun msg =>
          readLoop { src := { source with buf := source.buf ++ rbuf }, msg }
            ((source.buf ++ rbuf).length - rbuf.length) rbuf >>= fun stop =>
          stop.2.flushEntity >>= fun msg =>
          .ok ((stop.2.rebase, msg), rbuf.length - ((source.buf ++ rbuf).length - stop.1)) :=
      Uniform.bind loop fun stop _ =>
        Uniform.bind ((uniform_flushEntity stop.2).mono
          (fun update inSection (_ : source.state ≠ .firstLine) => inSection)) fun _ _ =>
            Uniform.pure (stop.2.rebase, rbuf.length - ((source.buf ++ rbuf).length - stop.1))
    exact whole

end MessageSource11

/-! ## The GNY reader -/

/-- Behind the first line of the message. -/
def GnyState.Past : GnyState → Prop
  | initVerb | initUrl | initStatus => False
  | _ => True

namespace MessageSourceGny

theorem uniform_addField {allowed : Update → Prop} (key value : Str)
    (section_ : ∀ update : Update, update.InSection → allowed update) :
    Uniform allowed (fun (_ : Unit) msg => msg) fun msg => msg.addField key value := by
  refine Uniform.choiceStage (fun msg other same => by rw [same.2]) ?_ ?_
  · exact Uniform.updateLast (.addHeader key value) (section_ _ trivial)
  · exact Uniform.updateLast (.addFooter key value) (section_ _ trivial)

theorem uniform_readChar (src : MessageSourceGny) (i : Nat) (ch : UInt8) :
    Uniform (fun update => src.state.Past → update.InSection) Prod.mk
      fun msg => src.readChar msg i ch := by
  have section_ (update : Update) (here : update.InSection) :
      src.state.Past → update.InSection := fun _ => here
  have field (src' : MessageSourceGny) (key value : Str) :
      Uniform (fun update => src.state.Past → update.InSection) Prod.mk fun msg =>
        msg.addField key value >>= fun msg => .ok (src', msg) :=
    Uniform.bind (uniform_addField key value section_) fun _ _ => Uniform.pure src'
  unfold readChar
  cases state : src.state with
  | initVerb =>
      refine Uniform.changed { src with state := .initUrl, pos := i + 1 } (.setVerb ch) ?_
        fun _ => rfl
      exact False.elim
  | initUrl =>
      apply Uniform.choice <;> intro
      · refine Uniform.bindValue fun url _ => ?_
        refine Uniform.changed { src with state := .headerStart, pos := i + 1 } (.setUrl url) ?_
          fun _ => rfl
        exact False.elim
      · exact Uniform.pure src
  | initStatus =>
      apply Uniform.choice <;> intro
      · refine Uniform.changed { src with state := .headerStart, pos := i + 1 }
          (.setStatus (readShort src.dataStream src.pos)) ?_ fun _ => rfl
        exact False.elim
      · exact Uniform.pure src
  | headerStart =>
      rw [state] at section_
      apply Uniform.choice <;> intro
      · refine Uniform.choiceStage (fun msg other same => by rw [same.2]) ?_ ?_
        · exact Uniform.update .endHeader (section_ .endHeader trivial)
            (Uniform.pure { src with key := ch, state := .entityStart, pos := i + 1 })
        · exact Uniform.update .endFooter (section_ .endFooter trivial)
            (Uniform.pure { src with key := ch, state := .done, pos := i + 1 })
      apply Uniform.choice <;> intro
      · exact Uniform.pure { src with key := ch, state := .headerKey, pos := i + 1 }
      · exact Uniform.pure { src with key := ch, state := .headerValue, pos := i + 1 }
  | headerKey =>
      apply Uniform.choice <;> intro
      · exact Uniform.pure { src with state := .headerValue, substate := i + 1 }
      · exact Uniform.pure src
  | headerValue =>
      rw [state] at field
      apply Uniform.choice <;> intro
      · apply Uniform.choice <;> intro
        · refine Uniform.bindValue fun key _ => Uniform.bindValue fun value _ => ?_
          exact field { src with pos := i + 1, state := .headerStart } key value
        · refine Uniform.bindValue fun key _ => Uniform.bindValue fun value _ => ?_
          exact field { src with pos := i + 1, state := .headerStart } key value
      · exact Uniform.pure src
  | entityStart =>
      rw [state] at section_
      apply Uniform.choice <;> intro
      · apply Uniform.choice <;> intro
        · exact Uniform.pure { src with
            substate := readShort src.dataStream src.pos, pos := i + 1, state := .entity }
        · exact Uniform.update .endEntity (section_ .endEntity trivial)
            (Uniform.pure { src with
              substate := readShort src.dataStream src.pos, pos := i + 1, state := .headerStart })
      · exact Uniform.pure src
  | entity =>
      rw [state] at section_
      apply Uniform.choice <;> intro
      · exact Uniform.update
          (.appendEntity ((src.dataStream.drop src.pos).take (i - src.pos + 1)))
          (section_ (.appendEntity _) trivial)
          (Uniform.pure { src with substate := 0, pos := i + 1, state := .entityStart })
      · exact Uniform.pure { src with state := .entity, substate := src.substate - 1 }
  | done => exact Uniform.pure src

/-- A reader does not come back to the first line. -/
theorem past_readChar {src src' : MessageSourceGny} {msg msg' : HttpMessage} {i : Nat} {ch : UInt8}
    (past : src.state.Past) (outcome : src.readChar msg i ch = .ok (src', msg')) :
    src'.state.Past := by
  unfold readChar at outcome
  cases state : src.state with
  | initVerb | initUrl | initStatus =>
      rw [state] at past
      exact past.elim
  | headerStart =>
      simp only [state] at outcome
      split at outcome
      · split at outcome <;> obtain ⟨_, -, outcome⟩ := bind_eq_ok.mp outcome <;> cases outcome <;>
          trivial
      split at outcome <;> cases outcome <;> trivial
  | headerKey =>
      simp only [state] at outcome
      split at outcome
      · cases outcome
        trivial
      · cases outcome
        exact past
  | headerValue =>
      simp only [state] at outcome
      split at outcome
      · split at outcome
        · obtain ⟨_, -, outcome⟩ := bind_eq_ok.mp outcome
          obtain ⟨_, -, outcome⟩ := bind_eq_ok.mp outcome
          obtain ⟨_, -, outcome⟩ := bind_eq_ok.mp outcome
          cases outcome
          trivial
        · obtain ⟨_, -, outcome⟩ := bind_eq_ok.mp outcome
          obtain ⟨_, -, outcome⟩ := bind_eq_ok.mp outcome
          obtain ⟨_, -, outcome⟩ := bind_eq_ok.mp outcome
          cases outcome
          trivial
      · cases outcome
        exact past
  | entityStart =>
      simp only [state] at outcome
      split at outcome
      · split at outcome
        · cases outcome
          trivial
        · obtain ⟨_, -, outcome⟩ := bind_eq_ok.mp outcome
          cases outcome
          trivial
      · cases outcome
        exact past
  | entity =>
      simp only [state] at outcome
      split at outcome
      · obtain ⟨_, -, outcome⟩ := bind_eq_ok.mp outcome
        cases outcome
        trivial
      · cases outcome
        trivial
  | done =>
      simp only [state] at outcome
      cases outcome
      exact past

/-- The url is the last of the first line of a request. -/
theorem url_readChar {src src' : MessageSourceGny} {msg msg' : HttpMessage} {i : Nat} {ch : UInt8}
    (outcome : src.readChar msg i ch = .ok (src', msg')) :
    src'.state.Past ∨ msg'.url = msg.url := by
  by_cases past : src.state.Past
  · exact Or.inl (past_readChar past outcome)
  · unfold readChar at outcome
    cases state : src.state with
    | initVerb =>
        simp only [state] at outcome
        cases outcome
        exact Or.inr rfl
    | initUrl =>
        simp only [state] at outcome
        split at outcome
        · obtain ⟨_, -, outcome⟩ := bind_eq_ok.mp outcome
          cases outcome
          exact Or.inl trivial
        · cases outcome
          exact Or.inr rfl
    | initStatus =>
        simp only [state] at outcome
        split at outcome
        · cases outcome
          exact Or.inl trivial
        · cases outcome
          exact Or.inr rfl
    | _ =>
        rw [state] at past
        exact absurd trivial past

theorem readLoop_cons (src : MessageSourceGny) (msg : HttpMessage) (i : Nat) (ch : UInt8)
    (rest : Str) :
    readLoop src msg i (ch :: rest) =
      if src.state = .done then .ok (i, src, msg)
      else src.readChar msg i ch >>= fun next => readLoop next.1 next.2 (i + 1) rest := by
  rw [readLoop]
  split
  · rfl
  · cases src.readChar msg i ch <;> rfl

theorem uniform_readLoop (src : MessageSourceGny) (i : Nat) (rbuf : Str) :
    Uniform (fun update => src.state.Past → update.InSection)
      (fun (stop : Nat × MessageSourceGny) msg => (stop.1, stop.2, msg))
      fun msg => readLoop src msg i rbuf := by
  induction rbuf generalizing src i with
  | nil => exact Uniform.pure (i, src)
  | cons ch rest ih =>
      simp only [readLoop_cons]
      apply Uniform.choice <;> intro
      · exact Uniform.pure (i, src)
      · refine Uniform.bind (uniform_readChar src i ch) fun src' ⟨msg, msg', step⟩ => ?_
        exact (ih src' (i + 1)).mono fun update inSection past =>
          inSection (past_readChar past step)

theorem past_readLoop {src src' : MessageSourceGny} {msg msg' : HttpMessage} {i j : Nat}
    {rbuf : Str} (past : src.state.Past)
    (outcome : readLoop src msg i rbuf = .ok (j, src', msg')) : src'.state.Past := by
  induction rbuf generalizing src msg i with
  | nil =>
      cases outcome
      exact past
  | cons ch rest ih =>
      rw [readLoop_cons] at outcome
      split at outcome
      · cases outcome
        exact past
      · obtain ⟨next, step, outcome⟩ := bind_eq_ok.mp outcome
        exact ih (past_readChar past step) outcome

theorem url_readLoop {src src' : MessageSourceGny} {msg msg' : HttpMessage} {i j : Nat}
    {rbuf : Str} (outcome : readLoop src msg i rbuf = .ok (j, src', msg')) :
    src'.state.Past ∨ msg'.url = msg.url := by
  induction rbuf generalizing src msg i with
  | nil =>
      cases outcome
      exact Or.inr rfl
  | cons ch rest ih =>
      rw [readLoop_cons] at outcome
      split at outcome
      · cases outcome
        exact Or.inr rfl
      · obtain ⟨next, step, outcome⟩ := bind_eq_ok.mp outcome
        rcases url_readChar step with past | same
        · exact Or.inl (past_readLoop past outcome)
        · exact (ih outcome).imp_right fun behind => behind.trans same

theorem state_rebase (src : MessageSourceGny) : src.rebase.state = src.state := by
  unfold rebase
  split <;> rfl

theorem flushEntity_keeps {src src' : MessageSourceGny} {msg msg' : HttpMessage}
    (outcome : src.flushEntity msg = .ok (src', msg')) :
    src'.state = src.state ∧ msg'.url = msg.url := by
  unfold flushEntity at outcome
  split at outcome
  · obtain ⟨_, appended, outcome⟩ := bind_eq_ok.mp outcome
    cases outcome
    obtain ⟨-, rfl⟩ := HttpMessage.appendEntity_eq_ok.mp appended
    exact ⟨rfl, rfl⟩
  · cases outcome
    exact ⟨rfl, rfl⟩

theorem uniform_flushEntity (src : MessageSourceGny) :
    Uniform Update.InSection Prod.mk fun msg => src.flushEntity msg := by
  unfold flushEntity
  apply Uniform.choice <;> intro
  · exact Uniform.update (.appendEntity (src.dataStream.drop src.pos)) trivial
      (Uniform.pure { src with pos := src.dataStream.length })
  · exact Uniform.pure src

theorem uniform_read (source : MessageSourceGny) (rbuf : Str) :
    Uniform (fun update => source.state.Past → update.InSection)
      (fun (done : MessageSourceGny × Nat) msg => ((done.1, msg), done.2))
      fun msg => read (source, msg) rbuf := by
  unfold read
  apply Uniform.choice <;> intro
  · exact Uniform.pure (source, 0)
  · have loop := uniform_readLoop { source with dataStream := source.dataStream ++ rbuf }
      ((source.dataStream ++ rbuf).length - rbuf.length) rbuf
    have rest (stop : Nat × MessageSourceGny) :
        Uniform (fun update => source.state.Past → update.InSection)
          (fun (done : MessageSourceGny × Nat) msg => ((done.1, msg), done.2)) fun msg =>
            stop.2.flushEntity msg >>= fun flushed => .ok ((flushed.1.rebase, flushed.2),
              rbuf.length - (flushed.1.dataStream.length - stop.1)) :=
      Uniform.bind ((uniform_flushEntity stop.2).mono
        (fun update inSection (_ : source.state.Past) => inSection)) fun src _ =>
          Uniform.pure (src.rebase, rbuf.length - (src.dataStream.length - stop.1))
    have whole : Uniform (fun update => source.state.Past → update.InSection)
        (fun (done : MessageSourceGny × Nat) msg => ((done.1, msg), done.2)) fun msg =>
          readLoop { source with dataStream := source.dataStream ++ rbuf } msg
            ((source.dataStream ++ rbuf).length - rbuf.length) rbuf >>= fun stop =>
          stop.2.1.flushEntity stop.2.2 >>= fun flushed =>
          .ok ((flushed.1.rebase, flushed.2),
            rbuf.length - (flushed.1.dataStream.length - stop.1)) :=
      Uniform.bind loop fun stop _ => rest stop
    exact whole

end MessageSourceGny

/-! ## Either reader -/

namespace MessageSource

/-- Behind the first line of the message. -/
def Past : MessageSource → Prop
  | .gny source => source.state.Past
  | .v11 source => source.state ≠ .firstLine

variable {source source' : MessageSource} {msg msg' : HttpMessage} {rbuf : Str} {amount : Nat}

theorem uniform_read (source : MessageSource) (rbuf : Str) :
    Uniform (fun update => source.Past → update.InSection)
      (fun (done : MessageSource × Nat) msg => ((done.1, msg), done.2))
      fun msg => source.read msg rbuf := by
  cases source with
  | gny source =>
      exact Uniform.bind (MessageSourceGny.uniform_read source rbuf) fun done _ =>
        Uniform.pure (MessageSource.gny done.1, done.2)
  | v11 source =>
      exact Uniform.bind (MessageSource11.uniform_read source rbuf) fun done _ =>
        Uniform.pure (MessageSource.v11 done.1, done.2)

/-- A read fills the message by updates that leave the first line alone behind it, and fills
another message in the same section by the same ones. -/
theorem read_fills (outcome : source.read msg rbuf = .ok ((source', msg'), amount)) :
    ∃ updates, (∀ update ∈ updates, source.Past → update.InSection) ∧
      msg.fill updates = .ok msg' ∧ ∀ other, SameStage msg other →
        ∃ other', other.fill updates = .ok other' ∧
          source.read other rbuf = .ok ((source', other'), amount) := by
  obtain ⟨⟨source₁, amount₁⟩, updates, inSection, same⟩ := uniform_read source rbuf msg _ outcome
  obtain ⟨msg₁, filled, outcome₁⟩ := same msg (SameStage.refl msg)
  obtain ⟨⟨rfl, rfl⟩, rfl⟩ : (source' = source₁ ∧ msg' = msg₁) ∧ amount = amount₁ := by
    simpa using outcome.symm.trans outcome₁
  exact ⟨updates, inSection, filled, same⟩

theorem past_read (past : source.Past)
    (outcome : source.read msg rbuf = .ok ((source', msg'), amount)) : source'.Past := by
  cases source with
  | gny source =>
      obtain ⟨done, inner, same⟩ := bind_eq_ok.mp outcome
      cases same
      unfold MessageSourceGny.read at inner
      split at inner
      · cases inner
        exact past
      · obtain ⟨⟨i, src, msg₁⟩, loop, inner⟩ := bind_eq_ok.mp inner
        have behind : src.state.Past := by
          have past' : ({ source with dataStream := source.dataStream ++ rbuf } :
              MessageSourceGny).state.Past := past
          exact MessageSourceGny.past_readLoop past' loop
        obtain ⟨⟨src₁, msg₂⟩, flush, inner⟩ := bind_eq_ok.mp inner
        cases inner
        change src₁.rebase.state.Past
        rw [MessageSourceGny.state_rebase, (MessageSourceGny.flushEntity_keeps flush).1]
        exact behind
  | v11 source =>
      obtain ⟨done, inner, same⟩ := bind_eq_ok.mp outcome
      cases same
      unfold MessageSource11.read at inner
      split at inner
      · cases inner
        exact past
      · obtain ⟨⟨i, pass⟩, loop, inner⟩ := bind_eq_ok.mp inner
        have behind : pass.src.state ≠ .firstLine := by
          have past' : ({ src := { source with buf := source.buf ++ rbuf }, msg } :
              MessageSource11.Pass).src.state ≠ .firstLine := past
          exact MessageSource11.past_readLoop past' loop
        obtain ⟨msg₁, -, inner⟩ := bind_eq_ok.mp inner
        cases inner
        change pass.rebase.state ≠ .firstLine
        rw [MessageSource11.state_rebase]
        exact behind

/-- A reader that has not come to the end of the first line has not set the url. -/
theorem read_url (outcome : source.read msg rbuf = .ok ((source', msg'), amount)) :
    source'.Past ∨ msg'.url = msg.url := by
  cases source with
  | gny source =>
      obtain ⟨done, inner, same⟩ := bind_eq_ok.mp outcome
      cases same
      unfold MessageSourceGny.read at inner
      split at inner
      · cases inner
        exact Or.inr rfl
      · obtain ⟨⟨i, src, msg₁⟩, loop, inner⟩ := bind_eq_ok.mp inner
        obtain ⟨⟨src₁, msg₂⟩, flush, inner⟩ := bind_eq_ok.mp inner
        cases inner
        obtain ⟨state_eq, url_eq⟩ := MessageSourceGny.flushEntity_keeps flush
        rcases MessageSourceGny.url_readLoop loop with past | same
        · refine Or.inl ?_
          change src₁.rebase.state.Past
          rw [MessageSourceGny.state_rebase, state_eq]
          exact past
        · exact Or.inr (url_eq.trans same)
  | v11 source =>
      obtain ⟨done, inner, same⟩ := bind_eq_ok.mp outcome
      cases same
      unfold MessageSource11.read at inner
      split at inner
      · cases inner
        exact Or.inr rfl
      · obtain ⟨⟨i, pass⟩, loop, inner⟩ := bind_eq_ok.mp inner
        obtain ⟨msg₁, flush, inner⟩ := bind_eq_ok.mp inner
        cases inner
        rcases MessageSource11.msg_readLoop loop with past | same
        · refine Or.inl ?_
          change pass.rebase.state ≠ .firstLine
          rw [MessageSource11.state_rebase]
          exact past
        · have flushed : msg₁.url = pass.msg.url := by
            unfold MessageSource11.Pass.flushEntity at flush
            split at flush
            · obtain ⟨-, rfl⟩ := HttpMessage.appendEntity_eq_ok.mp flush
              rfl
            · cases flush
              rfl
          exact Or.inr (flushed.trans (congrArg HttpMessage.url same))

end MessageSource

end GnyProxy
