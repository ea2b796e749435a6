import GnyProxy.GnyChunking
import GnyProxy.Reading
import GnyProxy.Tunnels

/-!
# The reply to a `CONNECT`

With a proxy upstream the reply to a `CONNECT` comes through the tunnel like the bytes behind it.
So it reaches the client as it was sent, whatever the client speaks.
-/

namespace GnyProxy

namespace Protocol

/-- What a reader for a response makes of the bytes. -/
def outcome : Protocol → Str → Except Fault (HttpMessage × Bool × Nat)
  | v11, bytes => outcome11 false [bytes]
  | gny, bytes => gnyOutcome false [bytes]

/-- The bytes are the response and nothing behind it. -/
def Decodes (protocol : Protocol) (bytes : Str) (response : HttpMessage) : Prop :=
  protocol.outcome bytes = .ok (response, true, bytes.length)

instance (protocol : Protocol) (bytes : Str) (response : HttpMessage) :
    Decidable (protocol.Decodes bytes response) := by
  unfold Decodes
  infer_instance

end Protocol

/-! ## What a reader can make of the bytes -/

/-- No response in HTTP/1.1 begins with another one. -/
theorem decodes11_unique {bytes bytes' : Str} {msg msg' : HttpMessage}
    (decodes : Protocol.v11.Decodes bytes msg) (decodes' : Protocol.v11.Decodes bytes' msg')
    (comparable : bytes <+: bytes' ∨ bytes' <+: bytes) : msg' = msg := by
  rcases reads_of_outcome11 decodes with ⟨last, reads, stopped, rfl⟩
  rcases reads_of_outcome11 decodes' with ⟨last', reads', stopped', rfl⟩
  rcases comparable with begins | begins
  · rw [(reads.prefix_free stopped reads' begins).2]
  · rw [(reads'.prefix_free stopped' reads begins).2]

theorem status_of_fill {msg next : HttpMessage} {updates : List Update}
    (inSection : ∀ update ∈ updates, update.InSection) (filled : msg.fill updates = .ok next) :
    next.status = msg.status := by
  induction updates generalizing msg with
  | nil =>
      cases filled
      rfl
  | cons update updates ih =>
      rw [HttpMessage.fill_cons] at filled
      rcases bind_eq_ok.mp filled with ⟨middle, updated, filled⟩
      have other (status : Int) : update ≠ .setStatus status := by
        rintro rfl
        exact inSection _ List.mem_cons_self
      rw [ih (fun later member => inSection later (List.mem_cons_of_mem _ member)) filled]
      exact HttpMessage.status_of_update other updated

/-- Behind the first line a reader leaves the status alone. -/
theorem status_of_uniform {α β : Type} {build : α → HttpMessage → β}
    {compute : HttpMessage → Except Fault β} {msg : HttpMessage} {result : β}
    (uniform : Uniform Update.InSection build compute) (outcome : compute msg = .ok result) :
    ∃ value next, result = build value next ∧ next.status = msg.status := by
  rcases uniform msg result outcome with ⟨value, updates, inSection, same⟩
  rcases same msg (.refl msg) with ⟨next, filled, outcome'⟩
  exact ⟨value, next, Except.ok.inj (outcome.symm.trans outcome'), status_of_fill inSection filled⟩

theorem readLoop_status (dataStream : Str) (first second : UInt8) (rest : Str) :
    MessageSourceGny.readLoop { state := .initStatus, dataStream } (.fresh false) 0
        (first :: second :: rest) =
      MessageSourceGny.readLoop { state := .headerStart, dataStream, pos := 2 }
        ((HttpMessage.fresh false).setStatus (readShort dataStream 0)) 2 rest := by
  rw [MessageSourceGny.readLoop_cons]
  simp only [MessageSourceGny.readChar, reduceCtorEq, if_false, ok_bind]
  rw [MessageSourceGny.readLoop_cons]
  simp only [MessageSourceGny.readChar, reduceCtorEq, if_false, if_true, ok_bind]

/-- The GNY reader takes the status from the first two bytes. -/
theorem status_of_gnyOutcome {first second : UInt8} {rest : Str} {msg : HttpMessage} {done : Bool}
    {count : Nat}
    (outcome : Protocol.gny.outcome (first :: second :: rest) = .ok (msg, done, count)) :
    msg.status = readShort (first :: second :: rest) 0 := by
  generalize whole : first :: second :: rest = bytes at outcome ⊢
  simp only [Protocol.outcome, gnyOutcome, Incremental.feed] at outcome
  cases read_eq : MessageSourceGny.read (.create false, .fresh false) bytes with
  | error fault => simp [read_eq] at outcome
  | ok value =>
      rcases value with ⟨⟨src, read⟩, amount⟩
      simp only [read_eq, Except.ok.injEq, Prod.mk.injEq] at outcome
      rcases outcome with ⟨rfl, -⟩
      have some : bytes ≠ [] := by simp [← whole]
      rw [MessageSourceGny.read, if_neg some] at read_eq
      rcases bind_eq_ok.mp read_eq with ⟨⟨i, src₁, msg₁⟩, loop, read_eq⟩
      rcases bind_eq_ok.mp read_eq with ⟨⟨src₂, msg₂⟩, flush, read_eq⟩
      cases read_eq
      have begins : MessageSourceGny.readLoop
          { state := .headerStart, dataStream := bytes, pos := 2 }
          ((HttpMessage.fresh false).setStatus (readShort bytes 0)) 2 rest =
            .ok (i, src₁, msg₁) := by
        rw [← readLoop_status bytes first second rest, whole]
        simpa [MessageSourceGny.create] using loop
      have past := (MessageSourceGny.uniform_readLoop
        { state := .headerStart, dataStream := bytes, pos := 2 } 2 rest).mono
          fun update inSection => inSection trivial
      rcases status_of_uniform past begins with ⟨⟨j, src'⟩, next, same, status⟩
      cases same
      rcases status_of_uniform (MessageSourceGny.uniform_flushEntity src') flush with
        ⟨src'', next', same', status'⟩
      cases same'
      exact status'.trans status

/-! ## The reply and the client -/

namespace World

/-- A proxy with these protocols that forwards to another one. -/
def chained (client : Protocol) (host service : Str) (requester : Requester.Config) : Config :=
  ⟨⟨client, client, some host, service⟩, requester⟩

/-- What the client gets for a `CONNECT` begins with a response in its own protocol, which is the
one that upstream has replied, and goes on with what upstream has sent behind the reply. -/
def AnswersConnect (same : HttpMessage → HttpMessage → Prop) (client upstream : Protocol) : Prop :=
  ∀ host service requester events last, requester.reader = upstream →
    requester.writer = upstream →
    run (chained client host service requester) (start (chained client host service requester))
      events = .ok last →
    ∀ id reply response raw, upstream.Decodes reply response →
      reply <+: (last.shared.clients id).trace.fetched →
      (last.shared.clients id).trace.sent = (last.shared.clients id).trace.answered ++ raw →
      ∃ bytes answer, client.Decodes bytes answer ∧ same answer response ∧
        (raw <+: bytes ∨ ∃ tunnelled, raw = bytes ++ tunnelled ∧
          reply ++ tunnelled <+: (last.shared.clients id).trace.fetched)

def SameStatus (answer response : HttpMessage) : Prop := answer.status = response.status

theorem AnswersConnect.imp {same same' : HttpMessage → HttpMessage → Prop}
    {client upstream : Protocol} (answers : AnswersConnect same client upstream)
    (imp : ∀ answer response, same answer response → same' answer response) :
    AnswersConnect same' client upstream := by
  intro host service requester events last reader writer outcome id reply response raw decodes
    begins sent
  rcases answers host service requester events last reader writer outcome id reply response raw
    decodes begins sent with ⟨bytes, answer, decodes', is_same, further⟩
  exact ⟨bytes, answer, decodes', imp answer response is_same, further⟩

/-- In the same protocol the reply is what it was. -/
theorem answersConnect_self (protocol : Protocol) : AnswersConnect (· = ·) protocol protocol := by
  intro host service requester events last _ _ outcome id reply response raw decodes begins sent
  rcases (tunnels_run outcome).2.flowing.clients id |>.downstream with
    ⟨raw', sent', fetched, -⟩
  have same : raw' = raw := List.append_cancel_left (sent'.symm.trans sent)
  rw [same] at fetched
  have passed : raw <+: (last.shared.clients id).trace.fetched := ⟨_, fetched⟩
  refine ⟨reply, response, decodes, rfl, ?_⟩
  rcases List.prefix_or_prefix_of_prefix passed begins with shorter | ⟨tunnelled, rfl⟩
  · exact Or.inl shorter
  · exact Or.inr ⟨tunnelled, rfl, passed⟩

/-- The client got all of this through the tunnel, behind no response. -/
def Passes (world : World) (bytes : Str) : Prop :=
  (world.shared.clients 0).trace.sent = bytes ∧ (world.shared.clients 0).trace.fetched = bytes ∧
    (world.shared.clients 0).trace.answered = []

instance (world : World) (bytes : Str) : Decidable (world.Passes bytes) := by
  unfold Passes
  infer_instance

/-- A response of another status is none that upstream has replied. -/
theorem not_answers_of_passes {client : Protocol} {host service : Str}
    {requester : Requester.Config} {events : List Event} {reply bytes : Str}
    {response : HttpMessage} (writer : requester.writer = requester.reader)
    (runs : ∃ last, run (chained client host service requester)
      (start (chained client host service requester)) events = .ok last ∧ last.Passes bytes)
    (decodes : requester.reader.Decodes reply response) (begins : reply <+: bytes)
    (other : ∀ bytes' answer, client.Decodes bytes' answer → bytes <+: bytes' ∨ bytes' <+: bytes →
      answer.status ≠ response.status) :
    ¬AnswersConnect SameStatus client requester.reader := by
  intro answers
  rcases runs with ⟨last, outcome, sent, fetched, answered⟩
  rcases answers host service requester events last rfl writer outcome 0 reply response bytes
    decodes
    (fetched ▸ begins) (by rw [sent, answered, List.nil_append]) with
    ⟨bytes', answer, decodes', same, further⟩
  refine other bytes' answer decodes' ?_ same
  rcases further with shorter | ⟨tunnelled, longer, -⟩
  · exact Or.inl shorter
  · exact Or.inr ⟨tunnelled, longer.symm⟩

/-- The reply `200` in GNY. -/
def gnyReply : Str := [0, 200, headerEnd, 0, 0, headerEnd]

/-- A browser asks for a tunnel through a proxy that speaks GNY; behind the reply comes an empty
line. -/
def browserConnect : List Event :=
  [.read 0 (ascii "CONNECT a:1 HTTP/1.1\r\n\r\n") true,
    .call 0 (.read (gnyReply ++ ascii "\r\n\r\n")), .getWriteSize 0, .write 0 100 100]

/-- The browser finds no status in what should be a status line. -/
theorem not_answers_gny : ¬AnswersConnect SameStatus .v11 .gny := by
  apply @not_answers_of_passes .v11 (ascii "up") (ascii "80") forwarding.requester browserConnect
    gnyReply (gnyReply ++ ascii "\r\n\r\n")
    { isRequest := false, status := 200, state := .done } rfl
  · exact exists_run (by decide +kernel)
  · decide
  · exact List.prefix_append _ _
  · intro bytes answer decodes comparable
    have front : Protocol.v11.Decodes (gnyReply ++ ascii "\r\n\r\n")
        { isRequest := false, status := 0, state := .done } := by decide
    rw [decodes11_unique front decodes comparable]
    decide

/-- The first two bytes of an HTTP/1.1 response are a status that no response has. -/
theorem status_of_gny11 {bytes rest : Str} {answer : HttpMessage}
    (decodes : Protocol.gny.Decodes bytes answer)
    (comparable : 72 :: 84 :: rest <+: bytes ∨ bytes <+: 72 :: 84 :: rest) :
    answer.status = 18516 := by
  rcases bytes with _ | ⟨first, _ | ⟨second, more⟩⟩
  · have waits : Protocol.gny.outcome [] = .ok (.fresh false, false, 0) := by decide
    cases waits.symm.trans decodes
  · obtain rfl : first = 72 := by simpa using comparable
    have waits : Protocol.gny.outcome [72] = .ok (.fresh false, false, 1) := by decide
    cases waits.symm.trans decodes
  · have same : first = 72 ∧ second = 84 := by
      rcases comparable with longer | shorter
      · simp only [List.cons_prefix_cons] at longer
        exact ⟨longer.1.symm, longer.2.1.symm⟩
      · simp only [List.cons_prefix_cons] at shorter
        exact ⟨shorter.1, shorter.2.1⟩
    rw [status_of_gnyOutcome decodes, same.1, same.2, readShort]
    simp

/-- HTTP/1.1 upstream, to a client that speaks GNY. -/
def requesting11 : Requester.Config := ⟨.v11, .v11, false, 10, fun object => object⟩

def gnyConnect : List Event :=
  [.read 0 ([verbConnect] ++ ascii "a:1" ++ [0, headerEnd, 0, 0, headerEnd]) true,
    .call 0 (.read (ascii "HTTP/1.1 200 OK\r\n\r\n")), .getWriteSize 0, .write 0 100 100]

/-- The client takes `HT` for the status. -/
theorem not_answers_v11 : ¬AnswersConnect SameStatus .gny .v11 := by
  apply @not_answers_of_passes .gny (ascii "up") (ascii "80") requesting11 gnyConnect
    (ascii "HTTP/1.1 200 OK\r\n\r\n") (ascii "HTTP/1.1 200 OK\r\n\r\n")
    { isRequest := false, status := 200, state := .done } rfl
  · exact exists_run (by decide +kernel)
  · decide
  · exact List.prefix_rfl
  · intro bytes answer decodes comparable
    rw [status_of_gny11 decodes comparable]
    simp

/-- A `CONNECT` that is forwarded is answered in the protocol of the client if upstream speaks it,
and else not even with the status of the reply. -/
theorem answersConnect_iff (client upstream : Protocol) :
    (AnswersConnect (· = ·) client upstream ↔ client = upstream) ∧
      (AnswersConnect SameStatus client upstream ↔ client = upstream) := by
  have same (answers : AnswersConnect SameStatus client upstream) : client = upstream := by
    cases client with
    | v11 =>
        cases upstream with
        | v11 => rfl
        | gny => exact absurd answers not_answers_gny
    | gny =>
        cases upstream with
        | v11 => exact absurd answers not_answers_v11
        | gny => rfl
  have weaker (answers : AnswersConnect (· = ·) client upstream) :
      AnswersConnect SameStatus client upstream := by
    apply answers.imp
    rintro answer _ rfl
    rfl
  constructor
  · constructor
    · exact fun answers => same (weaker answers)
    · rintro rfl
      exact answersConnect_self client
  · constructor
    · exact same
    · rintro rfl
      apply (answersConnect_self client).imp
      rintro answer _ rfl
      rfl

/-- Through a proxy that speaks GNY a browser gets no answer that it can read. -/
theorem not_answersConnect_browser :
    ¬∀ client upstream, AnswersConnect SameStatus client upstream :=
  fun always => not_answers_gny (always .v11 .gny)

end World
end GnyProxy
