import GnyProxy.Asking

/-!
# A response whose status stays

Like the first line of a request, the status of a response may come behind other parts of it, as
long as it stays once it is known.  Then the response is sent with the status that it has in the
end.
-/

namespace GnyProxy

open HttpMessage (InStep)

namespace Transfer

/-- A complete encoding of a message, of either kind, with the first line that it has. -/
abbrev EncodesMessage (sink : MessageSink) (msg : HttpMessage) (encoding : Str) : Prop :=
  EncodesRequest sink msg encoding

/-- A response whose first line is not known, of which nothing was written. -/
structure Unreplied (fresh : MessageSink) (transfer : Transfer) : Prop where
  handed : transfer = .handed fresh transfer.whole
  isRequest : transfer.whole.isRequest = false
  inStep : InStep transfer.whole
  unknown : ∀ first, fresh.firstLine transfer.whole ≠ .ok (some first)

/-- A response on its way, whether its first line is known or not. -/
def Replying (fresh : MessageSink) (transfer : Transfer) : Prop :=
  Unreplied fresh transfer ∨ ∃ first, Requesting fresh first transfer

variable {fresh sink sink' : MessageSink} {transfer next : Transfer} {msg msg' whole : HttpMessage}
  {sent more : Str}

theorem replying_start : Replying fresh (start fresh false) := by
  refine Or.inl ⟨rfl, rfl, InStep.fresh false, fun first known => ?_⟩
  have unset : fresh.firstLine (start fresh false).whole = .ok none :=
    fresh.firstLine_unset rfl rfl
  rw [unset] at known
  cases known

/-- What is left of the response is in the section of the whole, and has its first line. -/
theorem Replying.same (isFresh : fresh.IsFresh) (replying : Replying fresh transfer) :
    HttpMessage.SameStage transfer.msg transfer.whole ∧
      transfer.msg.SameFirstLine transfer.whole := by
  rcases replying with unreplied | ⟨first, requesting⟩
  · rw [unreplied.handed]
    exact ⟨.refl _, rfl, rfl, rfl, rfl⟩
  · rcases (requesting.kept isFresh).1.account with ⟨progress, accounts, -⟩
    exact ⟨⟨accounts.firstLine.1.symm, accounts.state.symm⟩, accounts.firstLine⟩

/-- More is put into the response. -/
theorem Replying.update {update : Update} (isFresh : fresh.IsFresh)
    (replying : Replying fresh transfer) (admits : transfer.whole.Admits update)
    (updated : transfer.msg.update update = .ok msg) :
    ∃ whole, transfer.whole.update update = .ok whole ∧
      Replying fresh { transfer with msg, whole } := by
  rcases (replying.same isFresh).1.update updated with ⟨whole, whole_eq, -⟩
  refine ⟨whole, whole_eq, ?_⟩
  have step_eq : transfer.step (.update update) = .ok { transfer with msg, whole } := by
    simp only [step, updated, whole_eq, ok_bind]
  rcases replying with ⟨handed_eq, isRequest, inStep, -⟩ | ⟨first, requesting⟩
  · rcases transfer with ⟨own, sink, response, sent⟩
    simp only [handed, Transfer.mk.injEq, true_and] at handed_eq
    rcases handed_eq with ⟨rfl, rfl, rfl⟩
    obtain rfl : msg = whole := Except.ok.inj (updated.symm.trans whole_eq)
    have inStep' := inStep.extends (.update whole_eq)
    by_cases known : ∃ first, sink.firstLine msg = .ok (some first)
    · -- the writer may begin
      rcases known with ⟨first, begins⟩
      exact Or.inr ⟨first, requesting_handed isFresh begins inStep'⟩
    · exact Or.inl ⟨rfl, (HttpMessage.isRequest_of_update whole_eq).trans isRequest, inStep',
        fun first begins => known ⟨first, begins⟩⟩
  · have begins := (requesting.kept isFresh).2.1
    have same := HttpMessage.sameFirstLine_of_update
      (MessageSink.firstLineSet_of_firstLine begins) admits whole_eq
    have begins' : Begins fresh first whole := (MessageSink.firstLine_congr same fresh).trans begins
    exact Or.inr ⟨first, Writing.update requesting step_eq begins'⟩

theorem Replying.fill {updates : List Update} (isFresh : fresh.IsFresh)
    (replying : Replying fresh transfer) (admitted : transfer.whole.Admitted updates)
    (filled : transfer.msg.fill updates = .ok msg) :
    ∃ whole, transfer.whole.fill updates = .ok whole ∧
      Replying fresh { transfer with msg, whole } := by
  induction updates generalizing transfer with
  | nil =>
      cases filled
      exact ⟨transfer.whole, rfl, replying⟩
  | cons update updates ih =>
      rw [HttpMessage.fill_cons] at filled
      rcases bind_eq_ok.mp filled with ⟨middle, updated, filled⟩
      rcases replying.update isFresh admitted.1 updated with ⟨whole, whole_eq, arrived⟩
      have later : whole.Admitted updates := by
        have both := admitted.2
        rwa [whole_eq] at both
      rcases ih arrived later filled with ⟨last, last_eq, replying'⟩
      exact ⟨last, by rw [HttpMessage.fill_cons, whole_eq, ok_bind, last_eq], replying'⟩

/-- The writer does nothing while there is no first line. -/
theorem Unreplied.getWriteSize {taken : (MessageSink × HttpMessage) × Nat}
    (isFresh : fresh.IsFresh) (unreplied : Unreplied fresh transfer)
    (size_eq : transfer.sink.getWriteSize transfer.msg = .ok taken) :
    taken = ((transfer.sink, transfer.msg), 0) := by
  rw [unreplied.handed] at size_eq ⊢
  have line := MessageSink.getWriteSize_fresh isFresh size_eq unreplied.unknown
  have nothing := MessageSink.getWriteSize_unknown isFresh line
  exact Except.ok.inj (size_eq.symm.trans nothing)

/-- The writer is called. -/
theorem Replying.call {event : Event} (isFresh : fresh.IsFresh) (replying : Replying fresh transfer)
    (call : ∀ update, event ≠ .update update) (step_eq : transfer.step event = .ok next) :
    Replying fresh next := by
  rcases replying with unreplied | ⟨first, requesting⟩
  · rcases step_call call step_eq with ⟨sink, msg, size, amount, size_eq, rfl⟩
    have same := unreplied.getWriteSize isFresh size_eq
    simp only [Prod.mk.injEq] at same
    rcases same with ⟨⟨rfl, rfl⟩, -⟩
    have empty : transfer.sink.buffer = [] := by
      rw [unreplied.handed]
      rcases isFresh with rfl | rfl <;> rfl
    have unchanged : transfer.sink.drop amount = transfer.sink := by
      rw [unreplied.handed]
      rcases isFresh with rfl | rfl <;> simp [handed, MessageSink.drop]
    rw [unchanged, empty, List.take_nil, List.append_nil]
    exact Or.inl unreplied
  · exact Or.inr ⟨first, requesting.call call step_eq⟩

theorem Replying.getWriteSize {size : Nat} (isFresh : fresh.IsFresh)
    (replying : Replying fresh ⟨msg, sink, whole, sent⟩)
    (size_eq : sink.getWriteSize msg = .ok ((sink', msg'), size)) :
    Replying fresh ⟨msg', sink', whole, sent⟩ := by
  have step_eq : (⟨msg, sink, whole, sent⟩ : Transfer).step .getWriteSize =
      .ok ⟨msg', sink', whole, sent⟩ := by
    simp only [step, size_eq, ok_bind]
  exact replying.call isFresh Event.getWriteSize_ne step_eq

theorem Replying.write {maxWrite amount : Nat} (isFresh : fresh.IsFresh)
    (replying : Replying fresh ⟨msg, sink, whole, sent⟩)
    (write_eq : sink.write msg maxWrite amount = .ok ((sink', msg'), more)) :
    Replying fresh ⟨msg', sink', whole, sent ++ more⟩ := by
  have step_eq : (⟨msg, sink, whole, sent⟩ : Transfer).step (.write maxWrite amount) =
      .ok ⟨msg', sink', whole, sent ++ more⟩ := by
    simp only [step, write_eq, ok_bind]
  exact replying.call isFresh (Event.write_ne maxWrite amount) step_eq

/-- With a status in its range the writer has been handed the response. -/
theorem Replying.requesting (replying : Replying fresh transfer)
    (low : 0 ≤ transfer.whole.status) (high : transfer.whole.status ≤ 65534) :
    ∃ first, Requesting fresh first transfer := by
  rcases replying with unreplied | requesting
  · rcases MessageSink.firstLine_of_status fresh unreplied.isRequest low high with ⟨first, known⟩
    exact absurd known (unreplied.unknown first)
  · exact requesting

/-- With nothing left to write, a response with a status was sent to the last byte. -/
theorem Replying.encodes {size : Nat} (isFresh : fresh.IsFresh)
    (replying : Replying fresh ⟨msg, sink, whole, sent⟩)
    (size_eq : sink.getWriteSize msg = .ok ((sink', msg'), size)) (none_left : size = 0)
    (isSent : msg'.isSent = true) (low : 0 ≤ whole.status) (high : whole.status ≤ 65534) :
    EncodesMessage fresh whole sent := by
  rcases replying.requesting low high with ⟨first, requesting⟩
  exact requesting.encodes isFresh size_eq none_left isSent

/-- Whatever was sent is how a complete encoding of the response begins. -/
theorem Replying.begins (isFresh : fresh.IsFresh) (replying : Replying fresh transfer) :
    transfer.sent = [] ∨
      ∃ encoding, EncodesMessage fresh { transfer.whole with state := .done } encoding ∧
        transfer.sent <+: encoding := by
  rcases replying with unreplied | ⟨first, requesting⟩
  · left
    rw [unreplied.handed]
    rfl
  · exact Or.inr (requesting.completes isFresh)

end Transfer
end GnyProxy
