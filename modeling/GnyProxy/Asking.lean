import GnyProxy.Encodings

/-!
# A request whose first line comes late

Whatever makes a request may set its url and verb behind other parts of it, as long as the first
line stays once it is known.  The writer puts out nothing until then.
-/

namespace GnyProxy

open HttpMessage (InStep)

/-- Every update keeps a first line that is known. -/
def HttpMessage.Admitted : HttpMessage → List Update → Prop
  | _, [] => True
  | msg, update :: updates =>
      msg.Admits update ∧
        match msg.update update with
        | .ok next => next.Admitted updates
        | .error _ => True

instance HttpMessage.decidableAdmitted :
    (msg : HttpMessage) → (updates : List Update) → Decidable (msg.Admitted updates)
  | _, [] => isTrue trivial
  | msg, update :: updates =>
      have _later : Decidable (match msg.update update with
          | .ok next => next.Admitted updates
          | .error _ => True) :=
        match msg.update update with
        | .ok next => HttpMessage.decidableAdmitted next updates
        | .error _ => isTrue trivial
      inferInstanceAs (Decidable (_ ∧ _))

theorem HttpMessage.Admitted.split {msg : HttpMessage} {front back : List Update}
    (admitted : msg.Admitted (front ++ back)) :
    msg.Admitted front ∧ ∀ next, msg.fill front = .ok next → next.Admitted back := by
  induction front generalizing msg with
  | nil =>
      refine ⟨trivial, fun next filled => ?_⟩
      cases filled
      exact admitted
  | cons update front ih =>
      rcases admitted with ⟨admits, later⟩
      cases updated : msg.update update with
      | error fault =>
          refine ⟨⟨admits, by simp [updated]⟩, fun next filled => ?_⟩
          rw [HttpMessage.fill_cons, updated] at filled
          cases filled
      | ok middle =>
          have rest : middle.Admitted (front ++ back) := by simpa [updated] using later
          rcases ih rest with ⟨first, second⟩
          refine ⟨⟨admits, by simpa [updated] using first⟩, fun next filled => ?_⟩
          rw [HttpMessage.fill_cons, updated, ok_bind] at filled
          exact second next filled

namespace MessageSink

variable {sink : MessageSink} {msg : HttpMessage}

/-- The first line of a response without a status is not known. -/
theorem firstLine_unset (sink : MessageSink) (response : msg.isRequest = false)
    (unset : msg.status = -1) : sink.firstLine msg = .ok none := by
  cases sink with
  | gny sink =>
      have wraps : toInt16 (-1) = -1 := by decide
      simp [firstLine, MessageSinkGny.firstLine, response, unset, wraps]
  | v11 sink => simp [firstLine, MessageSink11.firstLine, response, unset]

/-- A fresh writer does nothing while the first line is not known. -/
theorem getWriteSize_unknown (fresh : sink.IsFresh) (unknown : sink.firstLine msg = .ok none) :
    sink.getWriteSize msg = .ok ((sink, msg), 0) := by
  rcases fresh with rfl | rfl
  · have line : MessageSinkGny.firstLine msg = none := Except.ok.inj unknown
    simp [getWriteSize, MessageSinkGny.getWriteSize, MessageSinkGny.checkForUpdate,
      MessageSinkGny.begin, line]
  · have line : MessageSink11.firstLine msg = .ok none := unknown
    simp [getWriteSize, MessageSink11.getWriteSize, MessageSink11.checkForUpdate,
      MessageSink11.begin, line]

/-- A fresh writer that does not fail knows the first line of a request that is complete. -/
theorem getWriteSize_fresh {taken : (MessageSink × HttpMessage) × Nat} (fresh : sink.IsFresh)
    (size_eq : sink.getWriteSize msg = .ok taken)
    (unknown : ∀ first, sink.firstLine msg ≠ .ok (some first)) : sink.firstLine msg = .ok none := by
  cases line : sink.firstLine msg with
  | ok first =>
      cases first with
      | none => rfl
      | some first => exact absurd line (unknown first)
  | error fault =>
      rcases fresh with rfl | rfl
      · cases line
      · have fails : MessageSink11.firstLine msg = .error fault := line
        simp [getWriteSize, MessageSink11.getWriteSize, MessageSink11.checkForUpdate,
          MessageSink11.begin, fails] at size_eq

theorem firstLine_ne_none (sink : MessageSink) (request : msg.isRequest = true)
    (set : msg.FirstLineSet) : sink.firstLine msg ≠ .ok none := by
  rw [HttpMessage.FirstLineSet, if_pos request] at set
  cases sink with
  | gny sink => simp [firstLine, MessageSinkGny.firstLine, request, set.1, set.2]
  | v11 sink =>
      simp only [firstLine, MessageSink11.firstLine, request, set.1, set.2, if_true, or_self,
        if_false]
      cases verbtoa msg.verb <;> simp

end MessageSink

namespace Transfer

/-- A request whose first line is not known, of which nothing was written. -/
structure Unasked (fresh : MessageSink) (transfer : Transfer) : Prop where
  handed : transfer = .handed fresh transfer.whole
  isRequest : transfer.whole.isRequest = true
  inStep : InStep transfer.whole
  unknown : ∀ first, fresh.firstLine transfer.whole ≠ .ok (some first)

/-- A request on its way, whether its first line is known or not. -/
def Asking (fresh : MessageSink) (transfer : Transfer) : Prop :=
  Unasked fresh transfer ∨ ∃ first, Requesting fresh first transfer

variable {fresh : MessageSink} {transfer next : Transfer}

theorem asking_start (isFresh : fresh.IsFresh) : Asking fresh (start fresh true) := by
  refine Or.inl ⟨rfl, rfl, InStep.fresh true, fun first => ?_⟩
  rcases isFresh with rfl | rfl
  · simp [start, HttpMessage.fresh, MessageSink.firstLine, MessageSinkGny.firstLine]
  · simp [start, HttpMessage.fresh, MessageSink.firstLine, MessageSink11.firstLine]

/-- What is left of the request is in the section of the whole. -/
theorem Asking.sameStage (isFresh : fresh.IsFresh) (asking : Asking fresh transfer) :
    HttpMessage.SameStage transfer.msg transfer.whole := by
  rcases asking with unasked | ⟨first, requesting⟩
  · rw [unasked.handed]
    exact .refl _
  · rcases (requesting.kept isFresh).1.account with ⟨progress, accounts, -⟩
    exact ⟨accounts.firstLine.1.symm, accounts.state.symm⟩

/-- More is put into the request. -/
theorem Asking.update {msg : HttpMessage} {update : Update} (isFresh : fresh.IsFresh)
    (asking : Asking fresh transfer) (admits : transfer.whole.Admits update)
    (updated : transfer.msg.update update = .ok msg) :
    ∃ whole, transfer.whole.update update = .ok whole ∧
      Asking fresh { transfer with msg, whole } := by
  rcases (asking.sameStage isFresh).update updated with ⟨whole, whole_eq, -⟩
  refine ⟨whole, whole_eq, ?_⟩
  have step_eq : transfer.step (.update update) = .ok { transfer with msg, whole } := by
    simp only [step, updated, whole_eq, ok_bind]
  rcases asking with ⟨handed_eq, isRequest, inStep, unknown⟩ | ⟨first, requesting⟩
  · rcases transfer with ⟨own, sink, request, sent⟩
    simp only [handed, Transfer.mk.injEq, true_and] at handed_eq
    rcases handed_eq with ⟨rfl, rfl, rfl⟩
    obtain rfl : msg = whole := Except.ok.inj (updated.symm.trans whole_eq)
    have inStep' := inStep.extends (.update whole_eq)
    by_cases known : ∃ first, sink.firstLine msg = .ok (some first)
    · -- the writer may begin
      rcases known with ⟨first, begins⟩
      exact Or.inr ⟨first, requesting_handed isFresh begins inStep'⟩
    · exact Or.inl ⟨rfl, (HttpMessage.isRequest_of_update whole_eq).trans isRequest, inStep',
        fun first begins => known ⟨first, begins⟩⟩
  · have begins := (requesting.kept isFresh).2.1
    have same := HttpMessage.sameFirstLine_of_update
      (MessageSink.firstLineSet_of_firstLine begins) admits whole_eq
    have begins' : Begins fresh first whole := (MessageSink.firstLine_congr same fresh).trans begins
    exact Or.inr ⟨first, Writing.update requesting step_eq begins'⟩

theorem Asking.fill {msg : HttpMessage} {updates : List Update} (isFresh : fresh.IsFresh)
    (asking : Asking fresh transfer) (admitted : transfer.whole.Admitted updates)
    (filled : transfer.msg.fill updates = .ok msg) :
    ∃ whole, transfer.whole.fill updates = .ok whole ∧
      Asking fresh { transfer with msg, whole } := by
  induction updates generalizing transfer with
  | nil =>
      cases filled
      exact ⟨transfer.whole, rfl, asking⟩
  | cons update updates ih =>
      rw [HttpMessage.fill_cons] at filled
      rcases bind_eq_ok.mp filled with ⟨middle, updated, filled⟩
      rcases asking.update isFresh admitted.1 updated with ⟨whole, whole_eq, arrived⟩
      have later : whole.Admitted updates := by
        have both := admitted.2
        rwa [whole_eq] at both
      rcases ih arrived later filled with ⟨last, last_eq, asking'⟩
      exact ⟨last, by rw [HttpMessage.fill_cons, whole_eq, ok_bind, last_eq], asking'⟩

/-- The writer does nothing while the first line is not known. -/
theorem Unasked.getWriteSize {taken : (MessageSink × HttpMessage) × Nat} (isFresh : fresh.IsFresh)
    (unasked : Unasked fresh transfer)
    (size_eq : transfer.sink.getWriteSize transfer.msg = .ok taken) :
    taken = ((transfer.sink, transfer.msg), 0) ∧ fresh.firstLine transfer.whole = .ok none := by
  rw [unasked.handed] at size_eq ⊢
  have line := MessageSink.getWriteSize_fresh isFresh size_eq unasked.unknown
  have nothing := MessageSink.getWriteSize_unknown isFresh line
  exact ⟨Except.ok.inj (size_eq.symm.trans nothing), line⟩

/-- The writer is called. -/
theorem Asking.call {event : Event} (isFresh : fresh.IsFresh) (asking : Asking fresh transfer)
    (call : ∀ update, event ≠ .update update) (step_eq : transfer.step event = .ok next) :
    Asking fresh next := by
  rcases asking with unasked | ⟨first, requesting⟩
  · rcases step_call call step_eq with ⟨sink, msg, size, amount, size_eq, rfl⟩
    have same := (unasked.getWriteSize isFresh size_eq).1
    simp only [Prod.mk.injEq] at same
    rcases same with ⟨⟨rfl, rfl⟩, -⟩
    have empty : transfer.sink.buffer = [] := by
      rw [unasked.handed]
      rcases isFresh with rfl | rfl <;> rfl
    have unchanged : transfer.sink.drop amount = transfer.sink := by
      rw [unasked.handed]
      rcases isFresh with rfl | rfl <;> simp [handed, MessageSink.drop]
    rw [unchanged, empty, List.take_nil, List.append_nil]
    exact Or.inl unasked
  · exact Or.inr ⟨first, requesting.call call step_eq⟩

theorem Asking.getWriteSize {msg msg' whole : HttpMessage} {sink sink' : MessageSink} {sent : Str}
    {size : Nat} (isFresh : fresh.IsFresh) (asking : Asking fresh ⟨msg, sink, whole, sent⟩)
    (size_eq : sink.getWriteSize msg = .ok ((sink', msg'), size)) :
    Asking fresh ⟨msg', sink', whole, sent⟩ := by
  have step_eq : (⟨msg, sink, whole, sent⟩ : Transfer).step .getWriteSize =
      .ok ⟨msg', sink', whole, sent⟩ := by
    simp only [step, size_eq, ok_bind]
  exact asking.call isFresh Event.getWriteSize_ne step_eq

theorem Asking.write {msg msg' whole : HttpMessage} {sink sink' : MessageSink} {sent more : Str}
    {maxWrite amount : Nat} (isFresh : fresh.IsFresh)
    (asking : Asking fresh ⟨msg, sink, whole, sent⟩)
    (write_eq : sink.write msg maxWrite amount = .ok ((sink', msg'), more)) :
    Asking fresh ⟨msg', sink', whole, sent ++ more⟩ := by
  have step_eq : (⟨msg, sink, whole, sent⟩ : Transfer).step (.write maxWrite amount) =
      .ok ⟨msg', sink', whole, sent ++ more⟩ := by
    simp only [step, write_eq, ok_bind]
  exact asking.call isFresh (Event.write_ne maxWrite amount) step_eq

/-- With nothing left to write, a request with a first line was sent to the last byte. -/
theorem Asking.encodes {msg msg' whole : HttpMessage} {sink sink' : MessageSink} {sent : Str}
    {size : Nat} (isFresh : fresh.IsFresh) (asking : Asking fresh ⟨msg, sink, whole, sent⟩)
    (size_eq : sink.getWriteSize msg = .ok ((sink', msg'), size)) (none_left : size = 0)
    (isSent : msg'.isSent = true) (set : whole.state = .done → whole.FirstLineSet) :
    EncodesRequest fresh whole sent := by
  rcases asking with unasked | ⟨first, requesting⟩
  · rcases unasked.getWriteSize isFresh size_eq with ⟨same, unknown⟩
    simp only [Prod.mk.injEq] at same
    rcases same with ⟨⟨-, rfl⟩, -⟩
    have taken : msg' = whole := congrArg Transfer.msg unasked.handed
    have done : whole.state = .done := taken ▸ ((HttpMessage.isSent_iff _).mp isSent).1
    exact absurd unknown (fresh.firstLine_ne_none unasked.isRequest (set done))
  · exact requesting.encodes isFresh size_eq none_left isSent

/-- Whatever was sent is how a complete encoding of the request begins. -/
theorem Asking.begins (isFresh : fresh.IsFresh) (asking : Asking fresh transfer) :
    transfer.sent = [] ∨
      ∃ encoding, EncodesRequest fresh { transfer.whole with state := .done } encoding ∧
        transfer.sent <+: encoding := by
  rcases asking with unasked | ⟨first, requesting⟩
  · left
    rw [unasked.handed]
    rfl
  · exact Or.inr (requesting.completes isFresh)

end Transfer
end GnyProxy
