import GnyProxy.HttpProxy
import GnyProxy.Responses

/-!
# What a writer takes

A call of a writer takes parts of its message and changes nothing else.  `ALinker::get_write_size`
deletes the pairs at the front of its queue that are over.
-/

namespace GnyProxy

namespace HttpMessage

/-- Parts of the message were taken. -/
structure Drains (msg next : HttpMessage) : Prop where
  isRequest : next.isRequest = msg.isRequest
  url : next.url = msg.url
  verb : next.verb = msg.verb
  status : next.status = msg.status
  state : next.state = msg.state
  headers : next.headers = msg.headers ∨ next.headers = []
  entity : next.entity = msg.entity ∨ next.entity = []
  footers : next.footers = msg.footers ∨ next.footers = []

namespace Drains

variable {msg next last : HttpMessage}

theorem refl (msg : HttpMessage) : Drains msg msg :=
  ⟨rfl, rfl, rfl, rfl, rfl, Or.inl rfl, Or.inl rfl, Or.inl rfl⟩

theorem trans (first : Drains msg next) (second : Drains next last) : Drains msg last where
  isRequest := second.isRequest.trans first.isRequest
  url := second.url.trans first.url
  verb := second.verb.trans first.verb
  status := second.status.trans first.status
  state := second.state.trans first.state
  headers := second.headers.elim (fun same => same ▸ first.headers) Or.inr
  entity := second.entity.elim (fun same => same ▸ first.entity) Or.inr
  footers := second.footers.elim (fun same => same ▸ first.footers) Or.inr

theorem clearHeaders (msg : HttpMessage) : Drains msg msg.clearHeaders :=
  ⟨rfl, rfl, rfl, rfl, rfl, Or.inr rfl, Or.inl rfl, Or.inl rfl⟩

theorem clearEntity (msg : HttpMessage) : Drains msg msg.clearEntity :=
  ⟨rfl, rfl, rfl, rfl, rfl, Or.inl rfl, Or.inr rfl, Or.inl rfl⟩

theorem clearFooters (msg : HttpMessage) : Drains msg msg.clearFooters :=
  ⟨rfl, rfl, rfl, rfl, rfl, Or.inl rfl, Or.inl rfl, Or.inr rfl⟩

theorem isSent (drains : Drains msg next) (sent : msg.isSent = true) : next.isSent = true := by
  obtain ⟨done, headers, entity, footers⟩ := (isSent_iff msg).mp sent
  refine (isSent_iff next).mpr ⟨drains.state.trans done, ?_, ?_, ?_⟩
  · exact drains.headers.elim (fun same => same.trans headers) id
  · exact drains.entity.elim (fun same => same.trans entity) id
  · exact drains.footers.elim (fun same => same.trans footers) id

end Drains
end HttpMessage

open HttpMessage (Drains)

/-! ## One call -/

namespace MessageSink11

variable {sink sink' : MessageSink11} {msg msg' : HttpMessage} {size : Nat}

theorem drains_sendHeaders (sink : MessageSink11) (msg : HttpMessage) :
    Drains msg (sink.sendHeaders msg).2 := by
  unfold sendHeaders
  split
  · simp only [foldl_sendHeader]
    split <;> exact .clearHeaders msg
  · exact .refl msg

theorem drains_sendEntity (sink : MessageSink11) (msg : HttpMessage) :
    Drains msg (sink.sendEntity msg).2 := by
  unfold sendEntity
  split
  · simp only
    split <;> exact .clearEntity msg
  · exact .refl msg

theorem drains_sendFooters (sink : MessageSink11) (msg : HttpMessage) :
    Drains msg (sink.sendFooters msg).2 := by
  unfold sendFooters
  split
  · simp only
    split <;> exact .clearFooters msg
  · exact .refl msg

theorem drains_sendAvailable (sink : MessageSink11) (msg : HttpMessage) :
    Drains msg (sink.sendAvailable msg).2 :=
  ((drains_sendHeaders sink msg).trans (drains_sendEntity _ _)).trans (drains_sendFooters _ _)

theorem drains_getWriteSize (outcome : sink.getWriteSize msg = .ok ((sink', msg'), size)) :
    size = sink'.packetStr.length ∧ Drains msg msg' := by
  obtain ⟨⟨sink₁, msg₁⟩, check_eq, outcome⟩ := bind_eq_ok.mp outcome
  cases outcome
  obtain ⟨start, -, outcome⟩ := bind_eq_ok.mp check_eq
  cases start with
  | none =>
      cases outcome
      exact ⟨rfl, .refl msg⟩
  | some begun =>
      have drains := drains_sendAvailable begun msg
      have taken : begun.sendAvailable msg = (sink', msg') := Except.ok.inj outcome
      rw [taken] at drains
      exact ⟨rfl, drains⟩

end MessageSink11

namespace MessageSinkGny

variable {sink sink' : MessageSinkGny} {msg msg' : HttpMessage} {size : Nat}

theorem drains_sendHeaders (sink : MessageSinkGny) (msg : HttpMessage) :
    Drains msg (sink.sendHeaders msg).2 := by
  unfold sendHeaders
  split
  · exact .clearHeaders msg
  · exact .refl msg

theorem drains_sendEntity (outcome : sink.sendEntity msg = .ok (sink', msg')) :
    Drains msg msg' := by
  unfold sendEntity at outcome
  split at outcome
  · obtain ⟨dataStream, -, outcome⟩ := bind_eq_ok.mp outcome
    simp only [Except.ok.injEq, Prod.mk.injEq] at outcome
    obtain ⟨-, rfl⟩ := outcome
    exact .clearEntity msg
  · cases outcome
    exact .refl msg

theorem drains_sendFooters (sink : MessageSinkGny) (msg : HttpMessage) :
    Drains msg (sink.sendFooters msg).2 := by
  unfold sendFooters
  split
  · exact .clearFooters msg
  · exact .refl msg

theorem drains_sendAvailable (outcome : sink.sendAvailable msg = .ok (sink', msg')) :
    Drains msg msg' := by
  have sections : ((sink.sendHeaders msg).1.sendEntity (sink.sendHeaders msg).2 >>=
      fun taken => Except.ok (taken.1.sendFooters taken.2)) = .ok (sink', msg') := outcome
  obtain ⟨⟨sink₁, msg₁⟩, entity_eq, outcome⟩ := bind_eq_ok.mp sections
  have footers := drains_sendFooters sink₁ msg₁
  have taken : sink₁.sendFooters msg₁ = (sink', msg') := Except.ok.inj outcome
  rw [taken] at footers
  exact ((drains_sendHeaders sink msg).trans (drains_sendEntity entity_eq)).trans footers

theorem drains_getWriteSize (outcome : sink.getWriteSize msg = .ok ((sink', msg'), size)) :
    size = sink'.dataStream.length ∧ Drains msg msg' := by
  obtain ⟨⟨sink₁, msg₁⟩, check_eq, outcome⟩ := bind_eq_ok.mp outcome
  cases outcome
  unfold checkForUpdate at check_eq
  split at check_eq
  · cases begun : sink.begin msg with
    | none =>
        rw [begun] at check_eq
        cases check_eq
        exact ⟨rfl, .refl msg⟩
    | some start =>
        rw [begun] at check_eq
        exact ⟨rfl, drains_sendAvailable check_eq⟩
  · cases check_eq

end MessageSinkGny

namespace MessageSink

variable {sink sink' : MessageSink} {msg msg' : HttpMessage} {size : Nat}

theorem drains_getWriteSize (outcome : sink.getWriteSize msg = .ok ((sink', msg'), size)) :
    size = sink'.buffer.length ∧ Drains msg msg' := by
  cases sink with
  | gny sink =>
      obtain ⟨⟨⟨inner, taken⟩, count⟩, inner_eq, outcome⟩ := bind_eq_ok.mp outcome
      cases outcome
      exact MessageSinkGny.drains_getWriteSize inner_eq
  | v11 sink =>
      obtain ⟨⟨⟨inner, taken⟩, count⟩, inner_eq, outcome⟩ := bind_eq_ok.mp outcome
      cases outcome
      exact MessageSink11.drains_getWriteSize inner_eq

theorem drains_write {maxWrite amount : Nat} {sent : Str}
    (outcome : sink.write msg maxWrite amount = .ok ((sink', msg'), sent)) : Drains msg msg' := by
  have transfer : (⟨msg, sink, msg, []⟩ : Transfer).step (.write maxWrite amount) =
      .ok ⟨msg', sink', msg, sent⟩ := by
    simp only [Transfer.step, outcome, ok_bind, List.nil_append]
  obtain ⟨sink₁, msg₁, size, taken, size_eq, same⟩ :=
    Transfer.step_call (Event.write_ne maxWrite amount) transfer
  cases same
  exact (drains_getWriteSize size_eq).2

end MessageSink

/-! ## The response queue -/

/-- The messages of pairs. -/
def messageIds (pairs : List (MessageId × MessageId)) : List MessageId :=
  pairs.flatMap fun pair => [pair.1, pair.2]

@[simp] theorem messageIds_nil : messageIds [] = [] := rfl

@[simp] theorem messageIds_cons (pair : MessageId × MessageId)
    (pairs : List (MessageId × MessageId)) :
    messageIds (pair :: pairs) = pair.1 :: pair.2 :: messageIds pairs := rfl

@[simp] theorem messageIds_append (front back : List (MessageId × MessageId)) :
    messageIds (front ++ back) = messageIds front ++ messageIds back := List.flatMap_append

theorem mem_messageIds {pairs : List (MessageId × MessageId)} {id : MessageId} :
    id ∈ messageIds pairs ↔ ∃ pair ∈ pairs, id = pair.1 ∨ id = pair.2 := by
  simp [messageIds]

namespace ALinker

variable {proxy : HttpProxy} {linker linker' : ALinker} {size : Nat}
  {queue : List (MessageId × MessageId)}

/-- The writer of a response: the one that there is, or a new one. -/
def writerOf (proxy : HttpProxy) (linker : ALinker) (msgRes : MessageId) : MessageSink :=
  match linker.writer with
  | some (sink, own) => if own = msgRes then sink else proxy.aWriter.writerCreator
  | none => proxy.aWriter.writerCreator

/-- The response is done, and its writer has nothing left to write. -/
def Answered (proxy : HttpProxy) (linker : ALinker) (msgRes : MessageId) : Prop :=
  ∃ sink msg, (linker.writerOf proxy msgRes).getWriteSize (linker.messages msgRes) =
    .ok ((sink, msg), 0) ∧ msg.isSent = true

instance (proxy : HttpProxy) (linker : ALinker) (msgRes : MessageId) :
    Decidable (linker.Answered proxy msgRes) :=
  decidable_of_iff ((match (linker.writerOf proxy msgRes).getWriteSize (linker.messages msgRes) with
    | .ok ((_, msg), ret) => decide (ret = 0 ∧ msg.isSent = true)
    | .error _ => false) = true) <| by
      unfold Answered
      split
      · rename_i sink msg ret size_eq
        rw [size_eq, decide_eq_true_iff]
        constructor
        · rintro ⟨rfl, sent⟩
          exact ⟨sink, msg, rfl, sent⟩
        · rintro ⟨sink', msg', same, sent⟩
          cases same
          exact ⟨rfl, sent⟩
      · rename_i size_eq
        simp [size_eq]

/-- The response is answered, and the request does not keep the pair in the queue. -/
structure Over (proxy : HttpProxy) (linker : ALinker) (pair : MessageId × MessageId) : Prop where
  request : linker.tunneler = true ∨ (linker.messages pair.1).isSent = true
  response : linker.Answered proxy pair.2

/-- The pair is over, with all those before it. -/
def Deletes (proxy : HttpProxy) (linker : ALinker) (pair : MessageId × MessageId) : Prop :=
  ∃ front back, linker.responseQueue = front ++ pair :: back ∧
    linker.Over proxy pair ∧ ∀ other ∈ front, linker.Over proxy other

/-- Only the first response has a writer. -/
def WritesFirst (linker : ALinker) (queue : List (MessageId × MessageId)) : Prop :=
  ∀ sink own, linker.writer = some (sink, own) → ∃ msgReq rest, queue = (msgReq, own) :: rest

/-- What the calls of `get_write_size` and `write` leave alone. -/
structure SameInput (linker linker' : ALinker) : Prop where
  reader : linker'.reader = linker.reader
  connected : linker'.connected = linker.connected
  next : linker'.next = linker.next
  tunneler : linker'.tunneler = linker.tunneler
  dataReq : linker'.dataReq = linker.dataReq
  drains : ∀ id, Drains (linker.messages id) (linker'.messages id)

theorem drains_setMessage {id : MessageId} {msg : HttpMessage}
    (drains : Drains (linker.messages id) msg) (other : MessageId) :
    Drains (linker.messages other) ((linker.setMessage id msg).messages other) := by
  by_cases same : other = id
  · subst same
    simpa [setMessage] using drains
  · simpa [setMessage, Function.update_of_ne same] using Drains.refl _

/-- The writer of the first response. -/
theorem writer_first (proxy : HttpProxy) {msgReq msgRes : MessageId}
    (first : linker.WritesFirst ((msgReq, msgRes) :: queue)) :
    linker.writer.getD (proxy.aWriter.writerCreator, msgRes) =
      (linker.writerOf proxy msgRes, msgRes) := by
  cases writer : linker.writer with
  | none => simp [writerOf, writer]
  | some sink_own =>
      obtain ⟨sink, own⟩ := sink_own
      obtain ⟨_, _, same⟩ := first sink own writer
      obtain ⟨-, rfl⟩ : _ ∧ msgRes = own := by simpa using (List.cons.inj same).1
      simp [writerOf, writer]

/-- Behind a response, its call and its deletion do not matter. -/
theorem over_behind {msgReq msgRes : MessageId} {msg : HttpMessage} {pair : MessageId × MessageId}
    (first : linker.WritesFirst ((msgReq, msgRes) :: queue))
    (once : (messageIds ((msgReq, msgRes) :: queue)).Nodup) (member : pair ∈ queue) :
    Over proxy { linker.setMessage msgRes msg with writer := none } pair ↔
      linker.Over proxy pair := by
  simp only [messageIds_cons, List.nodup_cons] at once
  have request : pair.1 ≠ msgRes := fun same =>
    once.2.1 (mem_messageIds.mpr ⟨pair, member, Or.inl same.symm⟩)
  have response : pair.2 ≠ msgRes := fun same =>
    once.2.1 (mem_messageIds.mpr ⟨pair, member, Or.inr same.symm⟩)
  have writer : writerOf proxy { linker.setMessage msgRes msg with writer := none } pair.2 =
      linker.writerOf proxy pair.2 := by
    cases writer : linker.writer with
    | none => simp [writerOf, writer]
    | some sink_own =>
        obtain ⟨sink, own⟩ := sink_own
        obtain ⟨_, _, same⟩ := first sink own writer
        obtain ⟨-, rfl⟩ : _ ∧ msgRes = own := by simpa using (List.cons.inj same).1
        simp [writerOf, writer, response.symm]
  have messages : ({ linker.setMessage msgRes msg with writer := none } : ALinker).messages =
      Function.update linker.messages msgRes msg := rfl
  constructor
  · rintro ⟨request', response'⟩
    rw [messages, Function.update_of_ne request] at request'
    rw [Answered, writer, messages, Function.update_of_ne response] at response'
    exact ⟨request', response'⟩
  · rintro ⟨request', response'⟩
    refine ⟨?_, ?_⟩
    · rw [messages, Function.update_of_ne request]
      exact request'
    · rw [Answered, writer, messages, Function.update_of_ne response]
      exact response'

/-- A call of `get_write_size` deletes the pairs at the front that are over, and of the others only
the first one is worked on. -/
theorem getWriteSizeFrom_spec (first : linker.WritesFirst queue)
    (once : (messageIds queue).Nodup)
    (outcome : getWriteSizeFrom proxy linker queue = .ok (linker', size)) :
    SameInput linker linker' ∧ linker'.dataRes = linker.dataRes ∧
      linker'.WritesFirst linker'.responseQueue ∧
      (0 < size → linker'.writer.isSome ∨ linker'.tunneler = true ∧ linker'.responseQueue = []) ∧
      ∃ popped, queue = popped ++ linker'.responseQueue ∧
        (∀ pair ∈ popped, linker.Over proxy pair) ∧
        ∀ pair ∈ linker'.responseQueue.head?, ¬linker.Over proxy pair := by
  induction queue generalizing linker with
  | nil =>
      cases outcome
      refine ⟨⟨rfl, rfl, rfl, rfl, rfl, fun _ => .refl _⟩, rfl, first, fun positive => ?_, [], rfl,
        by simp, by simp⟩
      split at positive
      · rename_i tunnel
        exact Or.inr ⟨tunnel, rfl⟩
      · cases positive
  | cons pair rest ih =>
      obtain ⟨msgReq, msgRes⟩ := pair
      simp only [ALinker.getWriteSizeFrom, writer_first proxy first] at outcome
      obtain ⟨⟨⟨sink, msg⟩, ret⟩, size_eq, outcome⟩ := bind_eq_ok.mp outcome
      have drains := drains_setMessage (MessageSink.drains_getWriteSize size_eq).2
      have apart : msgReq ≠ msgRes := by
        simp only [messageIds_cons, List.nodup_cons, List.mem_cons, not_or] at once
        exact once.1.1
      have request_eq : (linker.setMessage msgRes msg).messages msgReq = linker.messages msgReq :=
        Function.update_of_ne apart _ _
      have response_eq : (linker.setMessage msgRes msg).messages msgRes = msg :=
        Function.update_self _ _ _
      have tunneler : (linker.setMessage msgRes msg).tunneler = linker.tunneler := rfl
      simp only [request_eq, response_eq, tunneler] at outcome
      split at outcome
      · -- the pair is over
        rename_i concluded
        obtain ⟨rfl, request, sent⟩ := concluded
        have once' : (messageIds rest).Nodup := by
          simp only [messageIds_cons, List.nodup_cons] at once
          exact once.2.2
        have waits :
            ALinker.WritesFirst { linker.setMessage msgRes msg with writer := none } rest :=
          fun _ _ other => by cases other
        obtain ⟨same, dataRes, first', ready, popped, split, before, next⟩ := ih waits once' outcome
        refine ⟨⟨same.reader, same.connected, same.next, same.tunneler, same.dataReq,
          fun id => (drains id).trans (same.drains id)⟩, dataRes, first', ready,
          (msgReq, msgRes) :: popped, by rw [split, List.cons_append],
          List.forall_mem_cons.mpr ⟨⟨request, sink, msg, size_eq, sent⟩, fun pair member => ?_⟩,
          fun pair member => ?_⟩
        · have inside : pair ∈ rest := split ▸ List.mem_append_left _ member
          exact (over_behind first once inside).mp (before pair member)
        · have inside : pair ∈ rest := split ▸
            List.mem_append_right _ (List.mem_of_mem_head? member)
          exact fun concluded => next pair member ((over_behind first once inside).mpr concluded)
      · rename_i going
        cases outcome
        refine ⟨⟨rfl, rfl, rfl, rfl, rfl, drains⟩, rfl, ?_, fun _ => Or.inl rfl, [], rfl,
          by simp, ?_⟩
        · intro sink₁ own writer
          cases writer
          exact ⟨msgReq, rest, rfl⟩
        · rintro pair ⟨⟩ ⟨request, sink₁, msg₁, size_eq₁, sent⟩
          cases size_eq.symm.trans size_eq₁
          exact going ⟨rfl, request, sent⟩

/-- Only responses are worked on. -/
theorem messages_getWriteSizeFrom {id : MessageId} (first : linker.WritesFirst queue)
    (apart : id ∉ queue.map (·.2))
    (outcome : getWriteSizeFrom proxy linker queue = .ok (linker', size)) :
    linker'.messages id = linker.messages id := by
  induction queue generalizing linker with
  | nil =>
      cases outcome
      rfl
  | cons pair rest ih =>
      obtain ⟨msgReq, msgRes⟩ := pair
      rw [List.map_cons, List.mem_cons, not_or] at apart
      simp only [ALinker.getWriteSizeFrom, writer_first proxy first] at outcome
      obtain ⟨⟨⟨sink, msg⟩, ret⟩, size_eq, outcome⟩ := bind_eq_ok.mp outcome
      have set_eq : (linker.setMessage msgRes msg).messages id = linker.messages id :=
        Function.update_of_ne apart.1 _ _
      split at outcome
      · have waits :
            ALinker.WritesFirst { linker.setMessage msgRes msg with writer := none } rest :=
          fun _ _ other => by cases other
        exact (ih waits apart.2 outcome).trans set_eq
      · cases outcome
        exact set_eq

/-- A request that is not sent keeps its pair in the queue. -/
theorem getWriteSizeFrom_waits {msgReq msgRes : MessageId}
    (first : linker.WritesFirst ((msgReq, msgRes) :: queue)) (apart : msgReq ≠ msgRes)
    (answered : linker.Answered proxy msgRes) (tunnel : linker.tunneler = false)
    (unsent : (linker.messages msgReq).isSent = false) :
    ∃ linker', getWriteSizeFrom proxy linker ((msgReq, msgRes) :: queue) = .ok (linker', 0) ∧
      linker'.responseQueue = (msgReq, msgRes) :: queue := by
  obtain ⟨sink, msg, size_eq, -⟩ := answered
  have unsent' : ((linker.setMessage msgRes msg).messages msgReq).isSent = false := by
    rw [show (linker.setMessage msgRes msg).messages msgReq = linker.messages msgReq from
      Function.update_of_ne apart _ _, unsent]
  have waits : ¬(True ∧ ((linker.setMessage msgRes msg).tunneler = true ∨
      ((linker.setMessage msgRes msg).messages msgReq).isSent = true) ∧
        ((linker.setMessage msgRes msg).messages msgRes).isSent = true) := by
    rintro ⟨-, some | sent, -⟩
    · exact absurd (tunnel.symm.trans some) (by simp)
    · exact absurd (unsent'.symm.trans sent) (by simp)
  refine ⟨{ linker.setMessage msgRes msg with
    writer := some (sink, msgRes), responseQueue := (msgReq, msgRes) :: queue }, ?_, rfl⟩
  simp only [getWriteSizeFrom, writer_first proxy first, size_eq, ok_bind]
  rw [if_neg waits]

/-- Which pairs a call of `get_write_size` deletes. -/
theorem mem_popped {popped : List (MessageId × MessageId)} {pair : MessageId × MessageId}
    (split : linker.responseQueue = popped ++ queue)
    (before : ∀ pair ∈ popped, linker.Over proxy pair)
    (next : ∀ pair ∈ queue.head?, ¬linker.Over proxy pair) :
    pair ∈ popped ↔ linker.Deletes proxy pair := by
  constructor
  · intro member
    obtain ⟨front, back, rfl⟩ := List.append_of_mem member
    refine ⟨front, back ++ queue, by simpa using split, before pair member, fun other inside => ?_⟩
    exact before other (List.mem_append_left _ inside)
  · rintro ⟨front, back, split', concluded, before'⟩
    rw [split] at split'
    rcases List.append_eq_append_iff.mp split' with ⟨more, rfl, rfl⟩ | ⟨more, rfl, rest⟩
    · -- the first pair that is left would be over
      cases more with
      | nil => exact absurd concluded (next pair rfl)
      | cons other more => exact absurd (before' other (by simp)) (next other rfl)
    · cases more with
      | nil =>
          obtain rfl : pair :: back = queue := by simpa using rest
          exact absurd concluded (next pair rfl)
      | cons other more =>
          obtain ⟨rfl, -⟩ := List.cons.inj rest
          simp

theorem write_spec {maxWrite amount : Nat} {sent : Str} (first : linker.WritesFirst queue)
    (outcome : linker.write maxWrite amount = .ok (linker', sent)) :
    SameInput linker linker' ∧ linker'.WritesFirst queue ∧
      linker'.responseQueue = linker.responseQueue ∧
      (linker.writer.isSome = true ∧ linker'.writer.isSome = true ∧
          linker'.dataRes = linker.dataRes ∨
        linker.writer = none ∧ linker'.writer = none ∧ linker.tunneler = true ∧
          sent ++ linker'.dataRes = linker.dataRes) := by
  unfold ALinker.write at outcome
  split at outcome
  · rename_i none
    split at outcome
    · rename_i tunnel
      cases outcome
      refine ⟨⟨rfl, rfl, rfl, rfl, rfl, fun _ => .refl _⟩, fun sink own other => ?_, rfl,
        Or.inr ⟨none, none, tunnel, List.take_append_drop _ _⟩⟩
      exact absurd (none.symm.trans other) (by simp)
    · cases outcome
  · rename_i sink own writer
    obtain ⟨⟨⟨sink', msg⟩, bytes⟩, write_eq, outcome⟩ := bind_eq_ok.mp outcome
    cases outcome
    refine ⟨⟨rfl, rfl, rfl, rfl, rfl, drains_setMessage (MessageSink.drains_write write_eq)⟩,
      fun sink₁ own₁ other => ?_, rfl, Or.inl ⟨by rw [writer]; rfl, rfl, rfl⟩⟩
    cases other
    exact first sink own writer

theorem messages_write {maxWrite amount : Nat} {sent : Str} {id : MessageId}
    (first : linker.WritesFirst queue) (apart : id ∉ queue.map (·.2))
    (outcome : linker.write maxWrite amount = .ok (linker', sent)) :
    linker'.messages id = linker.messages id := by
  unfold ALinker.write at outcome
  split at outcome
  · split at outcome
    · cases outcome
      rfl
    · cases outcome
  · rename_i sink own writer
    obtain ⟨⟨⟨sink', msg⟩, bytes⟩, write_eq, outcome⟩ := bind_eq_ok.mp outcome
    cases outcome
    obtain ⟨msgReq, rest, rfl⟩ := first sink own writer
    have differs : id ≠ own := fun same => apart (by simp [same])
    exact Function.update_of_ne differs _ _

end ALinker
end GnyProxy
