import GnyProxy.Asking
import GnyProxy.Requester

/-!
# Connections that are used again

One `ReqLinker` carries the requests of one generator after another, in HTTP/1.1.  What it sends for
one of them ends with the request, and what the generator gets ends with the response, before the
next one is attached.
-/

namespace GnyProxy

open HttpMessage (SameStage)
open Transfer (Asking EncodesRequest)

/-- A generator that fills its request through the source interface, and empties its response
through the sink interface. -/
class Transactor (γ : Type) (σ : outParam Type) where
  produce : γ → σ → HttpMessage → σ × List Update
  consume : γ → σ → HttpMessage → σ × List ALinker.Part

instance (priority := low) {γ σ : Type} [Transactor γ σ] : RequestGenerator γ σ where
  generateRequest gen state outMsg := do
    let (state, updates) := Transactor.produce gen state outMsg
    let outMsg ← outMsg.fill updates
    .ok (state, outMsg)
  readResponse gen state inMsg :=
    let (state, parts) := Transactor.consume gen state inMsg
    .ok (state, parts.foldl (fun msg part => part.clear msg) inMsg)

/-! ## What a generator gets -/

/-- What is taken with a part. -/
def ALinker.Part.contents : ALinker.Part → HttpMessage → Contents
  | headers, msg => { headers := msg.headers }
  | entity, msg => { entity := msg.entity }
  | footers, msg => { footers := msg.footers }

/-- What was received before, and what is taken with the parts. -/
def Contents.receive (received : Contents) (msg : HttpMessage) : List ALinker.Part → Contents
  | [] => received
  | part :: parts => (received.append (part.contents msg)).receive (part.clear msg) parts

theorem ALinker.Part.append_contents (part : ALinker.Part) (received : Contents)
    (msg : HttpMessage) :
    (received.append (part.contents msg)).append (part.clear msg).contents =
      received.append msg.contents := by
  cases part <;>
    simp [contents, clear, Contents.append, HttpMessage.contents, HttpMessage.clearHeaders,
      HttpMessage.clearEntity, HttpMessage.clearFooters]

/-- Nothing is lost between what was received and what is left. -/
theorem Contents.receive_append (parts : List ALinker.Part) (received : Contents)
    (msg : HttpMessage) :
    (received.receive msg parts).append
        (parts.foldl (fun msg part => part.clear msg) msg).contents =
      received.append msg.contents := by
  induction parts generalizing received msg with
  | nil => rfl
  | cons part parts ih =>
      rw [Contents.receive, List.foldl_cons, ih]
      exact part.append_contents received msg

theorem ALinker.Part.sameStage_clear (parts : List ALinker.Part) (msg : HttpMessage) :
    SameStage (parts.foldl (fun msg part => part.clear msg) msg) msg ∧
      (parts.foldl (fun msg part => part.clear msg) msg).status = msg.status := by
  induction parts generalizing msg with
  | nil => exact ⟨.refl msg, rfl⟩
  | cons part parts ih =>
      rcases ih (part.clear msg) with ⟨⟨isRequest, state⟩, status⟩
      rw [List.foldl_cons]
      cases part <;> exact ⟨⟨isRequest, state⟩, status⟩

/-- The same updates add the same to two messages. -/
theorem HttpMessage.fill_contents {msg next other other' : HttpMessage} {updates : List Update}
    {received : Contents} (status : msg.status = other.status)
    (contents : received.append msg.contents = other.contents)
    (filled : msg.fill updates = .ok next)
    (filled' : other.fill updates = .ok other') :
    next.status = other'.status ∧ received.append next.contents = other'.contents := by
  induction updates generalizing msg other with
  | nil =>
      cases filled
      cases filled'
      exact ⟨status, contents⟩
  | cons update updates ih =>
      rw [fill_cons] at filled filled'
      rcases bind_eq_ok.mp filled with ⟨middle, updated, filled⟩
      rcases bind_eq_ok.mp filled' with ⟨middle', updated', filled'⟩
      have status' : middle.status = middle'.status := by
        rcases update.status_cases with ⟨status, rfl⟩ | other_update
        · cases updated
          cases updated'
          rfl
        · rw [status_of_update other_update updated, status_of_update other_update updated', status]
      have contents' : received.append middle.contents = middle'.contents := by
        rw [contents_update updated, contents_update updated', ← Contents.append_add, contents]
      exact ih status' contents' filled filled'

/-! ## Transactions -/

/-- A request with the bytes of its response, and what became of both. -/
structure Transaction (γ : Type) where
  gen : γ
  response : Str
  /-- All that was put into the request. -/
  produced : List Update := []
  sent : Str := []
  consumed : Str := []
  /-- What the generator has seen and taken of its response. -/
  status : Int := -1
  received : Contents := {}

namespace Transaction

variable {γ σ : Type}

/-- The request with all that was put into it. -/
def request (transaction : Transaction γ) : Except Fault HttpMessage :=
  (HttpMessage.fresh true).fill transaction.produced

/-- The request keeps its first line, and has one when it is done. -/
def Legal (transaction : Transaction γ) : Prop :=
  (HttpMessage.fresh true).Admitted transaction.produced ∧
    match transaction.request with
    | .ok whole => whole.state = .done → whole.FirstLineSet
    | .error _ => True

instance (transaction : Transaction γ) : Decidable transaction.Legal := by
  unfold Legal
  cases transaction.request <;> infer_instance

/-- What a call makes of it: the generator has put something into the request, some of which was
sent, and it gets what the reader has read of the response. -/
def after [Transactor γ σ] (transaction : Transaction γ) (state : σ) (exchange : Exchange γ) :
    Call → Answer → Transaction γ
  | .getWriteSize, _ =>
      { transaction with
        produced := transaction.produced ++
          (Transactor.produce exchange.gen state exchange.outMsg).2 }
  | .write _ _, answer => { transaction with sent := transaction.sent ++ answer.sent }
  | .read rbuf, _ =>
      match exchange.reader.read exchange.inMsg rbuf with
      | .error _ => transaction
      | .ok ((_, inMsg), ret) =>
          { transaction with
            consumed := transaction.consumed ++ rbuf.take ret
            status := inMsg.status
            received := transaction.received.receive inMsg
              (Transactor.consume exchange.gen state inMsg).2 }

end Transaction

/-- What is left to read behind a call. -/
def Call.unread (answer : Answer) (unread : Str) : Call → Str
  | read _ => unread.drop answer.ret
  | _ => unread

/-- The bytes are a response, and a reader is done behind the last of them and not before. -/
def IsResponse11 (response : Str) : Prop :=
  ∃ msg, outcome11 false [response] = .ok (msg, true, response.length)

/-! ## One transaction -/

namespace Transaction

variable {γ σ : Type}

/-- The request is on its way upstream. -/
def Sends (transaction : Transaction γ) (exchange : Exchange γ) : Prop :=
  (HttpMessage.fresh true).Admitted transaction.produced →
    ∃ whole, transaction.request = .ok whole ∧
      Asking (.v11 {}) ⟨exchange.outMsg, exchange.writer, whole, transaction.sent⟩

/-- What was consumed of the response is in the reader's message, as far as the generator has not
taken it. -/
def Receives (transaction : Transaction γ) (exchange : Exchange γ) : Prop :=
  ∃ src whole dec, exchange.reader = .v11 src ∧ Decoder11.Matches (src, whole) dec ∧
    Decoder11.automaton.Reads (.fresh false) transaction.consumed dec ∧
    SameStage exchange.inMsg whole ∧ exchange.inMsg.status = whole.status ∧
    transaction.status = whole.status ∧
    transaction.received.append exchange.inMsg.contents = whole.contents

/-- The transaction that belongs to the exchange, with what can be read for it. -/
structure Carried (transaction : Transaction γ) (exchange : Exchange γ) (unread : Str) : Prop where
  gen : exchange.gen = transaction.gen
  sends : transaction.Sends exchange
  receives : transaction.Receives exchange
  stream : transaction.consumed ++ unread = transaction.response
  isResponse : IsResponse11 transaction.response

/-- The request was sent in full, and the generator has got the response. -/
structure Finished (transaction : Transaction γ) : Prop where
  consumed : transaction.consumed = transaction.response
  received : ∃ msg,
    outcome11 false [transaction.response] = .ok (msg, true, transaction.response.length) ∧
      transaction.status = msg.status ∧ transaction.received = msg.contents
  sent : transaction.Legal →
    ∃ request, transaction.request = .ok request ∧ EncodesRequest (.v11 {}) request transaction.sent

/-- What a call leaves of the transaction. -/
def Left (transaction : Transaction γ) (unread : Str) : Option (Exchange γ) → Prop
  | some exchange => transaction.Carried exchange unread
  | none => transaction.Finished ∧ unread = []

theorem isFresh : (MessageSink.v11 {}).IsFresh := Or.inr rfl

theorem carried_create (gen : γ) {response : Str} (isResponse : IsResponse11 response) :
    Carried { gen, response } (.create .v11 .v11 gen) response where
  gen := rfl
  sends := fun _ => ⟨.fresh true, rfl, Transfer.asking_start isFresh⟩
  receives := ⟨{}, .fresh false, .fresh false, rfl, Decoder11.matches_fresh false, .nil _, .refl _,
    rfl, rfl, rfl⟩
  stream := rfl
  isResponse := isResponse

variable {transaction : Transaction γ} {exchange : Exchange γ} {unread : Str}

/-- A response that is taken to its end was read to its end. -/
theorem Carried.drained (carried : transaction.Carried exchange unread)
    (isSent : exchange.inMsg.isSent = true) :
    unread = [] ∧ ∃ msg,
      outcome11 false [transaction.response] = .ok (msg, true, transaction.response.length) ∧
        transaction.status = msg.status ∧ transaction.received = msg.contents := by
  rcases carried.receives with ⟨src, whole, dec, -, ⟨sim, rfl⟩, reads, same, -, status, contents⟩
  rcases (HttpMessage.isSent_iff _).mp isSent with ⟨done, headers, entity, footers⟩
  rcases carried.isResponse with ⟨msg, outcome⟩
  rcases reads_of_outcome11 outcome with ⟨last, whole_reads, final, rfl⟩
  have stopped : Decoder11.automaton.final dec = true :=
    Decoder11.final_of_reads reads (same.2.symm ▸ done)
  have begins : transaction.consumed <+: transaction.response :=
    ⟨unread, carried.stream⟩
  rcases reads.prefix_free stopped whole_reads begins with ⟨all, rfl⟩
  have none_unread : unread = [] := by
    have stream := carried.stream
    rw [all] at stream
    exact List.append_right_eq_self.mp stream
  have taken : exchange.inMsg.contents = {} := by
    rw [HttpMessage.contents, headers, entity, footers]
  rw [taken, Contents.append_empty] at contents
  exact ⟨none_unread, last.msg, outcome, status, contents⟩

/-- `check_done` ends the exchange behind the last byte of both. -/
theorem Carried.checkDone {left : Option (Exchange γ)}
    (carried : transaction.Carried exchange unread) (outcome : exchange.checkDone = .ok left) :
    transaction.Left unread left := by
  rcases bind_eq_ok.mp outcome with ⟨⟨⟨writer, outMsg⟩, size⟩, size_eq, rest⟩
  rw [ite_eq_iff] at rest
  rcases rest with ⟨⟨none_left, inSent, outSent⟩, rest⟩ | ⟨-, rest⟩
  · cases rest
    rcases carried.drained inSent with ⟨rfl, received⟩
    refine ⟨⟨?_, received, ?_⟩, rfl⟩
    · simpa using carried.stream
    · rintro ⟨admitted, set⟩
      rcases carried.sends admitted with ⟨whole, whole_eq, asking⟩
      rw [whole_eq] at set
      exact ⟨whole, whole_eq, asking.encodes isFresh size_eq none_left outSent set⟩
  · cases rest
    refine { carried with sends := fun admitted => ?_ }
    rcases carried.sends admitted with ⟨whole, whole_eq, asking⟩
    exact ⟨whole, whole_eq, asking.getWriteSize isFresh size_eq⟩

variable [Transactor γ σ] {state state' : σ} {left : Option (Exchange γ)} {answer : Answer}

/-- A call adds to what was sent, and leaves the generator and its response alone. -/
theorem after_kept {call : Call} (transaction : Transaction γ)
    (outcome : exchange.call state call = .ok (state', left, answer)) :
    (transaction.after state exchange call answer).sent = transaction.sent ++ answer.sent ∧
      (transaction.after state exchange call answer).gen = transaction.gen ∧
      (transaction.after state exchange call answer).response = transaction.response := by
  cases call with
  | getWriteSize =>
      simp only [Exchange.call] at outcome
      rcases bind_eq_ok.mp outcome with ⟨_, -, rest⟩
      rcases bind_eq_ok.mp rest with ⟨_, -, rest⟩
      rcases bind_eq_ok.mp rest with ⟨_, -, rest⟩
      cases rest
      exact ⟨(List.append_nil _).symm, rfl, rfl⟩
  | write maxWrite amount => exact ⟨rfl, rfl, rfl⟩
  | read rbuf =>
      simp only [Exchange.call] at outcome
      rcases bind_eq_ok.mp outcome with ⟨_, read_eq, rest⟩
      rcases bind_eq_ok.mp rest with ⟨_, -, rest⟩
      rcases bind_eq_ok.mp rest with ⟨_, -, rest⟩
      cases rest
      rw [after, read_eq]
      exact ⟨(List.append_nil _).symm, rfl, rfl⟩

/-- More is put into the request. -/
theorem Carried.getWriteSize (carried : transaction.Carried exchange unread)
    (outcome : exchange.call state .getWriteSize = .ok (state', left, answer)) :
    (transaction.after state exchange .getWriteSize answer).Left unread left := by
  simp only [Exchange.call, RequestGenerator.generateRequest] at outcome
  rcases bind_eq_ok.mp outcome with ⟨⟨state₁, filled⟩, generated, rest⟩
  rcases bind_eq_ok.mp generated with ⟨outMsg, filled_eq, same⟩
  cases same
  rcases bind_eq_ok.mp rest with ⟨⟨⟨writer, outMsg'⟩, ret⟩, size_eq, rest⟩
  rcases bind_eq_ok.mp rest with ⟨left', done_eq, rest⟩
  cases rest
  refine Carried.checkDone ?_ done_eq
  refine ⟨carried.gen, fun admitted => ?_, carried.receives, carried.stream, carried.isResponse⟩
  rcases admitted.split with ⟨before, later⟩
  rcases carried.sends before with ⟨whole, whole_eq, asking⟩
  rcases asking.fill isFresh (later whole whole_eq) filled_eq with ⟨more, more_eq, asking⟩
  have request_eq : (HttpMessage.fresh true).fill (transaction.produced ++
      (Transactor.produce exchange.gen state exchange.outMsg).2) = .ok more := by
    rw [HttpMessage.fill_append, show (HttpMessage.fresh true).fill transaction.produced = .ok whole
      from whole_eq, ok_bind]
    exact more_eq
  exact ⟨more, request_eq, asking.getWriteSize isFresh size_eq⟩

/-- More of the request is sent. -/
theorem Carried.write {maxWrite amount : Nat} (carried : transaction.Carried exchange unread)
    (outcome : exchange.call state (.write maxWrite amount) = .ok (state', left, answer)) :
    (transaction.after state exchange (.write maxWrite amount) answer).Left unread left := by
  simp only [Exchange.call] at outcome
  rcases bind_eq_ok.mp outcome with ⟨⟨⟨writer, outMsg⟩, sent⟩, write_eq, rest⟩
  rcases bind_eq_ok.mp rest with ⟨left', done_eq, rest⟩
  cases rest
  refine Carried.checkDone ?_ done_eq
  refine ⟨carried.gen, fun admitted => ?_, carried.receives, carried.stream, carried.isResponse⟩
  rcases carried.sends admitted with ⟨whole, whole_eq, asking⟩
  exact ⟨whole, whole_eq, asking.write isFresh write_eq⟩

/-- More of the response is consumed, and the generator takes of it what it likes. -/
theorem Carried.read {amount : Nat} (carried : transaction.Carried exchange unread)
    (outcome : exchange.call state (.read (unread.take amount)) = .ok (state', left, answer)) :
    (transaction.after state exchange (.read (unread.take amount)) answer).Left
      (unread.drop answer.ret) left := by
  simp only [Exchange.call, RequestGenerator.readResponse] at outcome
  rcases bind_eq_ok.mp outcome with ⟨⟨⟨reader, inMsg⟩, ret⟩, read_eq, rest⟩
  rw [ok_bind] at rest
  rcases bind_eq_ok.mp rest with ⟨left', done_eq, rest⟩
  cases rest
  refine Carried.checkDone ?_ done_eq
  rcases carried.receives with
    ⟨src, whole, dec, reader_eq, matching, consumed, same, status, -, contents⟩
  rcases MessageSource.read_fills read_eq with ⟨updates, -, filled, uniform⟩
  rcases uniform whole same with ⟨whole', filled', read_whole⟩
  -- the bytes are the next ones of the response, so they are all consumed
  rcases carried.isResponse with ⟨msg, whole_outcome⟩
  rcases reads_of_outcome11 whole_outcome with ⟨last, whole_reads, -, -⟩
  rw [← carried.stream] at whole_reads
  rcases whole_reads.split with ⟨middle, before, after⟩
  obtain rfl := before.deterministic consumed
  rw [← List.take_append_drop amount unread] at after
  rcases after.split with ⟨dec', next, -⟩
  rcases Decoder11.simulates matching next.run_all with ⟨⟨src', whole''⟩, simulated, matching'⟩
  have same_read : MessageSource.read (.v11 src) whole (unread.take amount) =
      .ok ((.v11 src', whole''), (unread.take amount).length) := by
    simp only [MessageSource.read, simulated, ok_bind]
  rw [reader_eq, same_read] at read_whole
  simp only [Except.ok.injEq, Prod.mk.injEq] at read_whole
  rcases read_whole with ⟨⟨rfl, rfl⟩, rfl⟩
  have after_eq (answer : Answer) :
      transaction.after state exchange (.read (unread.take amount)) answer =
      { transaction with
        consumed := transaction.consumed ++ unread.take amount
        status := inMsg.status
        received := transaction.received.receive inMsg
          (Transactor.consume exchange.gen state inMsg).2 } := by
    rw [Transaction.after, read_eq]
    simp only [List.take_length]
  rw [after_eq]
  rcases HttpMessage.fill_contents status contents filled filled' with ⟨status', contents'⟩
  rcases ALinker.Part.sameStage_clear (Transactor.consume exchange.gen state inMsg).2 inMsg with
    ⟨cleared, cleared_status⟩
  have further := same.fill filled filled'
  constructor
  · exact carried.gen
  · exact carried.sends
  · refine ⟨src', whole'', dec', rfl, matching', consumed.append next,
      ⟨further.1.trans cleared.1, further.2.trans cleared.2⟩,
      cleared_status.trans status', status', ?_⟩
    rw [Contents.receive_append]
    exact contents'
  · rw [← carried.stream, List.append_assoc]
    congr 1
    rcases Nat.le_total amount unread.length with within | beyond
    · simp [within]
    · simp [beyond]
  · exact carried.isResponse

end Transaction

/-! ## Runs -/

namespace ReqLinker

/-- A connection with what can be read from it, and the transactions so far. -/
structure Session (γ σ : Type) where
  linker : ReqLinker γ
  state : σ
  unread : Str := []
  current : Option (Transaction γ) := none
  finished : List (Transaction γ) := []
  /-- All that was sent upstream. -/
  sent : Str := []
  /-- The generators that were attached, with their responses. -/
  attached : List (γ × Str) := []

/-- What may happen to the connection.  A response becomes readable when its generator is
attached; how much of it has arrived is up to the reads. -/
inductive Action (γ : Type) where
  | attach (gen : γ) (response : Str)
  | getWriteSize
  | write (maxWrite amount : Nat)
  | read (amount : Nat)

namespace Session

variable {γ σ : Type}

def start (endpoint : Endpoint) (state : σ) : Session γ σ := { linker := { endpoint }, state }

/-- `add_request`, which refuses a generator when there is one. -/
def attach (session : Session γ σ) (gen : γ) (response : Str) : Session γ σ :=
  match session.linker.exchange with
  | some _ => session
  | none =>
      { session with
        linker := { session.linker with exchange := some (.create .v11 .v11 gen) }
        unread := session.unread ++ response
        current := some { gen, response }
        attached := session.attached ++ [(gen, response)] }

/-- The transaction is finished when its generator is gone. -/
def settle (session : Session γ σ) (current : Option (Transaction γ)) : Session γ σ :=
  match session.linker.exchange with
  | some _ => { session with current }
  | none => { session with current := none, finished := session.finished ++ current.toList }

section Calls

variable [Transactor γ σ]

/-- What a call makes of the transaction in progress. -/
def progress (session : Session γ σ) (call : Call) (answer : Answer) : Option (Transaction γ) := do
  let exchange ← session.linker.exchange
  let transaction ← session.current
  some (transaction.after session.state exchange call answer)

/-- A method of the linker is called. -/
def call (session : Session γ σ) (call : Call) : Except Fault (Session γ σ) := do
  let (state, linker, answer) ← session.linker.call session.state call
  let later := { session with
    state, linker
    unread := call.unread answer session.unread
    sent := session.sent ++ answer.sent }
  .ok (later.settle (session.progress call answer))

def step (session : Session γ σ) : Action γ → Except Fault (Session γ σ)
  | .attach gen response => .ok (session.attach gen response)
  | .getWriteSize => session.call .getWriteSize
  | .write maxWrite amount => session.call (.write maxWrite amount)
  | .read amount => session.call (.read (session.unread.take amount))

def run : Session γ σ → List (Action γ) → Except Fault (Session γ σ)
  | session, [] => .ok session
  | session, action :: actions => do
      let session ← session.step action
      run session actions

end Calls

/-! ## No two transactions are mixed -/

/-- The transactions of a connection, each by itself. -/
structure Sound (session : Session γ σ) : Prop where
  carried : match session.linker.exchange, session.current with
    | some exchange, some transaction => transaction.Carried exchange session.unread
    | none, none => session.unread = []
    | _, _ => False
  finished : ∀ transaction ∈ session.finished, transaction.Finished
  sent : session.sent = (session.finished.map (·.sent)).flatten ++
    (session.current.toList.map (·.sent)).flatten
  attached : session.attached = (session.finished ++ session.current.toList).map
    fun transaction => (transaction.gen, transaction.response)

variable {session next : Session γ σ}

theorem sound_start (endpoint : Endpoint) (state : σ) :
    (start endpoint state : Session γ σ).Sound where
  carried := rfl
  finished := nofun
  sent := rfl
  attached := rfl

theorem Sound.attach {gen : γ} {response : Str} (sound : session.Sound)
    (isResponse : IsResponse11 response) : (session.attach gen response).Sound := by
  rcases session with ⟨⟨endpoint, exchange⟩, state, unread, current, finished, sent, attached⟩
  rcases sound with ⟨carried, done, sent_eq, attached_eq⟩
  cases exchange with
  | some exchange => exact ⟨carried, done, sent_eq, attached_eq⟩
  | none =>
      cases current with
      | some transaction => exact carried.elim
      | none =>
          obtain rfl : unread = [] := carried
          constructor
          · exact Transaction.carried_create gen isResponse
          · exact done
          · simpa [Session.attach] using sent_eq
          · simpa [Session.attach] using attached_eq

/-- The transaction goes on, or is finished. -/
theorem Sound.settle {transaction later : Transaction γ} {more : Str} (sound : session.Sound)
    (current : session.current = some transaction) (sent : later.sent = transaction.sent ++ more)
    (gen : later.gen = transaction.gen) (response : later.response = transaction.response)
    {state : σ} {linker : ReqLinker γ} {unread : Str} (left : later.Left unread linker.exchange) :
    Sound ({ session with state, linker, unread, sent := session.sent ++ more }.settle later) := by
  rcases session with ⟨own, before, pending, on, finished, out, attached⟩
  obtain rfl : on = some transaction := current
  rcases sound with ⟨-, done, sent_eq, attached_eq⟩
  have out_eq : out = (finished.map (·.sent)).flatten ++ transaction.sent := by
    simpa using sent_eq
  rcases linker with ⟨endpoint, exchange⟩
  cases exchange with
  | some exchange =>
      constructor
      · exact left
      · exact done
      · simp [Session.settle, sent, out_eq]
      · simp [Session.settle, gen, response, attached_eq]
  | none =>
      constructor
      · exact left.2
      · simp only [Session.settle, Option.toList_some, List.mem_append, List.mem_singleton]
        rintro other (member | rfl)
        · exact done other member
        · exact left.1
      · simp [Session.settle, sent, out_eq]
      · simp [Session.settle, gen, response, attached_eq]

variable [Transactor γ σ]

/-- Without a generator nothing happens. -/
theorem Sound.idle {call : Call} (sound : session.Sound) (idle : session.linker.exchange = none)
    (current : session.current = none) :
    Sound ({ session with
      unread := call.unread {} session.unread
      sent := session.sent ++ [] }.settle (session.progress call {})) := by
  rcases session with ⟨⟨endpoint, exchange⟩, state, unread, on, finished, out, attached⟩
  obtain rfl : exchange = none := idle
  obtain rfl : on = none := current
  rcases sound with ⟨rest, done, sent_eq, attached_eq⟩
  obtain rfl : unread = [] := rest
  constructor
  · cases call <;> simp [Session.settle, Call.unread]
  · simpa [Session.settle, progress] using done
  · simpa [Session.settle, progress] using sent_eq
  · simpa [Session.settle, progress] using attached_eq

/-- A call of the linker changes nothing, or is one of the transaction in progress. -/
theorem Sound.call {call : Call} (sound : session.Sound) (outcome : session.call call = .ok next)
    (carries : ∀ (exchange : Exchange γ) (transaction : Transaction γ) state left answer,
      transaction.Carried exchange session.unread →
      exchange.call session.state call = .ok (state, left, answer) →
      (transaction.after session.state exchange call answer).Left
        (call.unread answer session.unread) left) : next.Sound := by
  rcases bind_eq_ok.mp outcome with ⟨⟨state, linker, answer⟩, called, rest⟩
  cases rest
  have carried := sound.carried
  split at carried
  · rename_i exchange transaction busy current
    simp only [ReqLinker.call, busy] at called
    rcases bind_eq_ok.mp called with ⟨⟨state', left, answer'⟩, call_eq, rest⟩
    cases rest
    have progress_eq : session.progress call answer' =
        some (transaction.after session.state exchange call answer') := by
      simp only [progress, busy, current, Option.bind_eq_bind, Option.bind_some]
    rw [progress_eq]
    rcases transaction.after_kept call_eq with ⟨sent, gen, response⟩
    exact sound.settle current sent gen response
      (carries exchange transaction state' left answer' carried call_eq)
  · rename_i idle none_current
    simp only [ReqLinker.call, idle, Except.ok.injEq, Prod.mk.injEq] at called
    rcases called with ⟨rfl, rfl, rfl⟩
    exact sound.idle idle none_current
  · exact carried.elim

theorem Sound.step {action : Action γ} (sound : session.Sound)
    (responses : ∀ gen response, action = .attach gen response → IsResponse11 response)
    (outcome : session.step action = .ok next) : next.Sound := by
  cases action with
  | attach gen response =>
      cases outcome
      exact sound.attach (responses gen response rfl)
  | getWriteSize =>
      exact sound.call outcome fun exchange transaction state left answer carried call_eq =>
        carried.getWriteSize call_eq
  | write maxWrite amount =>
      exact sound.call outcome fun exchange transaction state left answer carried call_eq =>
        carried.write call_eq
  | read amount =>
      exact sound.call outcome fun exchange transaction state left answer carried call_eq =>
        carried.read call_eq

theorem Sound.run {actions : List (Action γ)} (sound : session.Sound)
    (responses : ∀ gen response, .attach gen response ∈ actions → IsResponse11 response)
    (outcome : session.run actions = .ok next) : next.Sound := by
  induction actions generalizing session with
  | nil =>
      cases outcome
      exact sound
  | cons action actions ih =>
      rcases bind_eq_ok.mp outcome with ⟨middle, step_eq, rest⟩
      have here := sound.step (fun gen response same =>
        responses gen response (same ▸ List.mem_cons_self)) step_eq
      exact ih here (fun gen response member =>
        responses gen response (List.mem_cons_of_mem _ member)) rest

end Session

open Session in
/-- In every run a generator is detached when its request was sent in full and the response was
consumed in full, and what it has got is what is in the response.  What was sent is one encoding
after another, of which the last may not be complete. -/
theorem neverMixes {γ σ : Type} [Transactor γ σ] {endpoint : Endpoint} {state : σ}
    {actions : List (Action γ)} {last : Session γ σ}
    (responses : ∀ gen response, .attach gen response ∈ actions → IsResponse11 response)
    (outcome : (start endpoint state).run actions = .ok last) :
    last.attached = (last.finished ++ last.current.toList).map
        (fun transaction => (transaction.gen, transaction.response)) ∧
      last.sent = ((last.finished ++ last.current.toList).map (·.sent)).flatten ∧
      (∀ transaction ∈ last.finished, transaction.Finished) ∧
      last.linker.gen = last.current.map (·.gen) ∧
      match last.current with
      | none => last.unread = []
      | some transaction =>
          transaction.consumed ++ last.unread = transaction.response ∧
            (transaction.Legal → transaction.sent = [] ∨ ∃ request encoding,
              transaction.request = .ok request ∧
                EncodesRequest (.v11 {}) { request with state := .done } encoding ∧
                transaction.sent <+: encoding) := by
  have sound := (sound_start endpoint state).run responses outcome
  refine ⟨sound.attached, ?_, sound.finished, ?_, ?_⟩
  · rw [sound.sent, List.map_append, List.flatten_append]
  · have carried := sound.carried
    split at carried
    · rename_i exchange transaction busy current
      rw [ReqLinker.gen, busy, current]
      exact congrArg some carried.gen
    · rename_i idle none_current
      rw [ReqLinker.gen, idle, none_current]
      rfl
    · exact carried.elim
  · have carried := sound.carried
    split at carried
    · rename_i exchange transaction busy current
      rw [current]
      refine ⟨carried.stream, fun legal => ?_⟩
      rcases carried.sends legal.1 with ⟨whole, whole_eq, asking⟩
      rcases asking.begins Transaction.isFresh with nothing | ⟨encoding, encodes, begins⟩
      · exact Or.inl nothing
      · exact Or.inr ⟨whole, encoding, whole_eq, encodes, begins⟩
    · rename_i idle none_current
      rw [none_current]
      exact carried
    · exact carried.elim

/-- Asks for a page, one part of the request after another. -/
structure Visitor where
  url : Str

instance : Transactor Visitor Unit where
  produce visitor _ outMsg :=
    match outMsg.state with
    | .header => ((), if outMsg.url = [] then [.setUrl visitor.url] else [.setVerb 2, .endHeader])
    | .entity => ((), [.endEntity])
    | .footer => ((), [.endFooter])
    | .done => ((), [])
  consume _ _ _ := ((), [.headers, .entity, .footers])

def firstPage : Str := ascii "HTTP/1.1 200 OK\r\nContent-Length: 2\r\n\r\nhi"

def secondPage : Str := ascii "HTTP/1.1 404 Not Found\r\n\r\n"

/-- Two pages in pieces.  The first response is read before all of its request was sent. -/
def twoVisits : List (Action Visitor) :=
  [.attach ⟨ascii "/a"⟩ firstPage, .getWriteSize, .read 20, .getWriteSize, .write 5 5, .read 100,
    .getWriteSize, .getWriteSize, .write 100 100, .attach ⟨ascii "/b"⟩ secondPage, .getWriteSize,
    .getWriteSize, .write 100 3, .read 1]

theorem isResponse11_of_run {response : Str}
    (read : (outcome11 false [response]).toOption.map (·.2) = some (true, response.length)) :
    IsResponse11 response := by
  cases outcome : outcome11 false [response] with
  | error fault =>
      rw [outcome] at read
      cases read
  | ok result =>
      rcases result with ⟨msg, done, count⟩
      rw [outcome] at read
      cases read
      exact ⟨msg, outcome⟩

open Session in
theorem neverMixes_two : ∃ last : Session Visitor Unit,
    (start ([], []) ()).run twoVisits = .ok last ∧
      last.finished.map (·.sent) = [ascii "GET /a HTTP/1.1\r\n\r\n"] ∧
      (∀ transaction ∈ last.finished, transaction.Finished) ∧
      last.sent = ((last.finished ++ last.current.toList).map (·.sent)).flatten := by
  have runs : ((start ([], []) () : Session Visitor Unit).run twoVisits).toOption.map
      (fun last => last.finished.map (·.sent)) = some [ascii "GET /a HTTP/1.1\r\n\r\n"] := by
    decide +kernel
  have responses : ∀ gen response, .attach gen response ∈ twoVisits → IsResponse11 response := by
    intro gen response member
    simp only [twoVisits, List.mem_cons, Action.attach.injEq, reduceCtorEq, List.not_mem_nil,
      false_or, or_false] at member
    rcases member with ⟨-, rfl⟩ | ⟨-, rfl⟩
    · exact isResponse11_of_run (by decide +kernel)
    · exact isResponse11_of_run (by decide +kernel)
  cases outcome : (start ([], []) () : Session Visitor Unit).run twoVisits with
  | error fault =>
      rw [outcome] at runs
      cases runs
  | ok last =>
      rw [outcome] at runs
      simp only [Except.toOption, Option.map_some, Option.some.injEq] at runs
      rcases neverMixes responses outcome with ⟨-, sent, finished, -⟩
      exact ⟨last, rfl, runs, finished, sent⟩

end ReqLinker
end GnyProxy
