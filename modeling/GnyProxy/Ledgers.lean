import GnyProxy.Custody
import GnyProxy.Handing

/-!
# What goes through the proxy

For each message of a client: the pieces that were read of it on one side, and the bytes that were
sent of it on the other.  A copier and the two connections that it works for keep the one an
encoding of the other.
-/

namespace GnyProxy

open HttpMessage (SameStage SameFirstLine)
open Transfer (Asking Replying EncodesRequest EncodesMessage)

/-! ## The ledger -/

/-- What a reader was given of a message, and what was sent of it. -/
structure Transit where
  given : List Str := []
  sent : Str := []

/-- For each message of each client. -/
abbrev Ledger := ClientId → MessageId → Transit

namespace Ledger

def setTransit (ledger : Ledger) (id : ClientId) (msg : MessageId) (transit : Transit) : Ledger :=
  Function.update ledger id (Function.update (ledger id) msg transit)

/-- A reader is given a piece. -/
def give (ledger : Ledger) (id : ClientId) (msg : MessageId) (rbuf : Str) : Ledger :=
  ledger.setTransit id msg { ledger id msg with given := (ledger id msg).given ++ [rbuf] }

/-- A writer has sent some bytes. -/
def send (ledger : Ledger) (id : ClientId) (msg : MessageId) (bytes : Str) : Ledger :=
  ledger.setTransit id msg { ledger id msg with sent := (ledger id msg).sent ++ bytes }

variable {ledger : Ledger} {id other : ClientId} {msg msg' : MessageId} {transit : Transit}

@[simp] theorem setTransit_self : ledger.setTransit id msg transit id msg = transit := by
  simp [setTransit]

theorem setTransit_ne (differs : other = id → msg' ≠ msg) :
    ledger.setTransit id msg transit other msg' = ledger other msg' := by
  by_cases same : other = id
  · subst same
    simp [setTransit, Function.update_of_ne (differs rfl)]
  · simp [setTransit, Function.update_of_ne same]

end Ledger

/-- What a call adds for the messages of its copier. -/
def Exchange.record (exchange : Exchange MessageCopier) (ledger : Ledger) : Call → Ledger
  | .getWriteSize => ledger
  | .write maxWrite amount =>
      match exchange.writer.write exchange.outMsg maxWrite amount with
      | .ok (_, sent) => ledger.send exchange.gen.client exchange.gen.msgReq sent
      | .error _ => ledger
  | .read rbuf => ledger.give exchange.gen.client exchange.gen.msgRes rbuf

/-- Only what is transferred of the request and of the response changes. -/
theorem Exchange.record_ne {exchange : Exchange MessageCopier} {ledger : Ledger} {id : ClientId}
    {msg : MessageId} (asked : Call)
    (request : id = exchange.gen.client → msg ≠ exchange.gen.msgReq)
    (response : id = exchange.gen.client → msg ≠ exchange.gen.msgRes) :
    exchange.record ledger asked id msg = ledger id msg := by
  cases asked with
  | getWriteSize => rfl
  | write maxWrite amount =>
      cases written : exchange.writer.write exchange.outMsg maxWrite amount with
      | error fault => simp only [record, written]
      | ok sent =>
          simp only [record, written]
          exact Ledger.setTransit_ne request
  | read rbuf => exact Ledger.setTransit_ne response

/-- What a call of an object upstream adds. -/
def Ledger.recordCall (ledger : Ledger) (requester : Requester MessageCopier Connector)
    (place : ObjectId) (asked : Call) : Ledger :=
  match requester.exchangeAt place with
  | some exchange => exchange.record ledger asked
  | none => ledger

/-- What an event adds. -/
def Ledger.record (ledger : Ledger) (world : World) : World.Event → Ledger
  | .read id rbuf _ =>
      match (world.shared.linker id).reader with
      | some (_, msg) => ledger.give id msg rbuf
      | none => ledger
  | .write id maxWrite amount =>
      match (world.shared.clients id).ready, (world.shared.linker id).writer with
      | true, some (sink, own) =>
          match sink.write (world.shared.message id own) maxWrite amount with
          | .ok (_, sent) => ledger.send id own sent
          | .error _ => ledger
      | _, _ => ledger
  | .call place asked => ledger.recordCall world.requester place asked
  | .getWriteSize _ | .delete _ | .close _ => ledger

/-- The ledger behind a run. -/
def World.ledger (config : Config) : World → Ledger → List Event → Ledger
  | _, ledger, [] => ledger
  | world, ledger, event :: events =>
      let later := if ∀ id ∈ event.client, (world.shared.clients id).alive then
        ledger.record world event else ledger
      match world.step config event with
      | .ok next => next.ledger config later events
      | .error _ => later

/-! ## What belongs to a copier -/

section Deals

/-- A request: what was read of it by a reader behind its first line is what was copied and what is
left. -/
structure Asks (config : World.Config) (shared : Shared) (ledger : Ledger) (gen : MessageCopier)
    (source : MessageSource) (whole copy : HttpMessage) : Prop where
  reads : config.proxy.aReader.readerCreator.readAll (.fresh true)
    (ledger gen.client gen.msgReq).given = .ok (source, whole)
  reader : ∀ later, (shared.linker gen.client).reader = some (later, gen.msgReq) → later = source
  past : source.Past
  line : whole.verb ≠ verbUnknown ∧ whole.url ≠ []
  handing : Handing whole (shared.message gen.client gen.msgReq) copy
  request : copy.isRequest = true
  begun : copy = .fresh true ∨ dumpFirstLine whole copy = copy

/-- A response: all that was read of it was copied, and is on its way to the client, or was sent. -/
structure Answers (config : World.Config) (shared : Shared) (ledger : Ledger)
    (gen : MessageCopier) (whole : HttpMessage) : Prop where
  waiting : gen.pair ∉ (shared.clients gen.client).popped →
    Replying config.proxy.aWriter.writerCreator
      ⟨shared.message gen.client gen.msgRes,
        (shared.linker gen.client).writerOf config.proxy gen.msgRes,
        whole.copied (.fresh false), (ledger gen.client gen.msgRes).sent⟩
  popped : gen.pair ∈ (shared.clients gen.client).popped → 0 ≤ whole.status →
    whole.status ≤ 65534 → EncodesMessage config.proxy.aWriter.writerCreator
      (whole.copied (.fresh false)) (ledger gen.client gen.msgRes).sent

/-- The exchange of a copier. -/
structure Deals (config : World.Config) (shared : Shared) (ledger : Ledger)
    (exchange : Exchange MessageCopier) : Prop where
  request : ∃ source whole copy, Asks config shared ledger exchange.gen source whole copy ∧
    Asking config.requester.writer.writerCreator ⟨exchange.outMsg, exchange.writer, copy,
      (ledger exchange.gen.client exchange.gen.msgReq).sent⟩
  response : ∃ whole, config.requester.reader.responseReader.readAll (.fresh false)
      (ledger exchange.gen.client exchange.gen.msgRes).given = .ok (exchange.reader, whole) ∧
    SameStage exchange.inMsg whole ∧ exchange.inMsg.SameFirstLine whole ∧
    (exchange.reader.Past ∨ whole.status = -1) ∧
    Answers config shared ledger exchange.gen whole

/-- A copier that is done. -/
structure Dealt (config : World.Config) (shared : Shared) (ledger : Ledger)
    (gen : MessageCopier) : Prop where
  request : ∃ source whole copy, Asks config shared ledger gen source whole copy ∧
    EncodesRequest config.requester.writer.writerCreator copy
      (ledger gen.client gen.msgReq).sent
  response : ∃ source whole, config.requester.reader.responseReader.readAll (.fresh false)
      (ledger gen.client gen.msgRes).given = .ok (source, whole) ∧
    whole.state = .done ∧ Answers config shared ledger gen whole

variable {config : World.Config} {shared shared' : Shared} {ledger ledger' : Ledger}
  {gen : MessageCopier} {exchange : Exchange MessageCopier} {source : MessageSource}
  {whole copy : HttpMessage}

/-- Nothing happens to the request. -/
structure SameRequest (gen : MessageCopier) (shared shared' : Shared) (ledger ledger' : Ledger) :
    Prop where
  message : shared'.message gen.client gen.msgReq = shared.message gen.client gen.msgReq
  reader : ∀ source, (shared'.linker gen.client).reader = some (source, gen.msgReq) →
    (shared.linker gen.client).reader = some (source, gen.msgReq)
  ledger : ledger' gen.client gen.msgReq = ledger gen.client gen.msgReq

/-- Nothing happens to the response. -/
structure SameResponse (gen : MessageCopier) (shared shared' : Shared) (ledger ledger' : Ledger) :
    Prop where
  message : shared'.message gen.client gen.msgRes = shared.message gen.client gen.msgRes
  writer : ∀ proxy, (shared'.linker gen.client).writerOf proxy gen.msgRes =
    (shared.linker gen.client).writerOf proxy gen.msgRes
  popped : gen.pair ∈ (shared'.clients gen.client).popped ↔
    gen.pair ∈ (shared.clients gen.client).popped
  ledger : ledger' gen.client gen.msgRes = ledger gen.client gen.msgRes

theorem Asks.congr (asks : Asks config shared ledger gen source whole copy)
    (same : SameRequest gen shared shared' ledger ledger') :
    Asks config shared' ledger' gen source whole copy where
  reads := by
    rw [same.ledger]
    exact asks.reads
  reader later here := asks.reader later (same.reader later here)
  past := asks.past
  line := asks.line
  handing := by
    rw [same.message]
    exact asks.handing
  request := asks.request
  begun := asks.begun

theorem Answers.congr (answers : Answers config shared ledger gen whole)
    (same : SameResponse gen shared shared' ledger ledger') :
    Answers config shared' ledger' gen whole where
  waiting unpopped := by
    rw [same.message, same.writer, same.ledger]
    exact answers.waiting (mt same.popped.mpr unpopped)
  popped popped low high := by
    rw [same.ledger]
    exact answers.popped (same.popped.mp popped) low high

theorem Deals.congr (deals : Deals config shared ledger exchange)
    (request : SameRequest exchange.gen shared shared' ledger ledger')
    (response : SameResponse exchange.gen shared shared' ledger ledger') :
    Deals config shared' ledger' exchange := by
  obtain ⟨⟨source, whole, copy, asks, asking⟩, reply, reads, stage, line, status, answers⟩ := deals
  refine ⟨⟨source, whole, copy, asks.congr request, ?_⟩, reply, ?_, stage, line, status,
    answers.congr response⟩
  · rw [request.ledger]
    exact asking
  · rw [response.ledger]
    exact reads

theorem Dealt.congr (dealt : Dealt config shared ledger gen)
    (request : SameRequest gen shared shared' ledger ledger')
    (response : SameResponse gen shared shared' ledger ledger') :
    Dealt config shared' ledger' gen := by
  obtain ⟨⟨source, whole, copy, asks, encodes⟩, source', reply, reads, ended, answers⟩ := dealt
  refine ⟨⟨source, whole, copy, asks.congr request, ?_⟩, source', reply, ?_, ended,
    answers.congr response⟩
  · rw [request.ledger]
    exact encodes
  · rw [response.ledger]
    exact reads

/-! ### Messages that change -/

section SetMessage

variable {client : ClientId} {msg : MessageId} {value : HttpMessage}

theorem linker_setMessage (shared : Shared) (client other : ClientId) (msg : MessageId)
    (value : HttpMessage) :
    ((shared.setMessage client msg value).linker other).reader = (shared.linker other).reader ∧
      ((shared.setMessage client msg value).linker other).writer =
        (shared.linker other).writer := by
  by_cases same : other = client
  · subst same
    simp [Shared.setMessage, ALinker.setMessage]
  · simp [Shared.setMessage, Shared.linker_setLinker_ne same]

theorem clients_setMessage (shared : Shared) (client other : ClientId) (msg : MessageId)
    (value : HttpMessage) :
    ((shared.setMessage client msg value).clients other).popped =
      (shared.clients other).popped := by
  by_cases same : other = client
  · subst same
    simp [Shared.setMessage, Shared.setLinker]
  · simp [Shared.setMessage, Shared.setLinker, Shared.clients_setClient_ne same]

theorem writerOf_congr {linker later : ALinker} (same : later.writer = linker.writer)
    (proxy : HttpProxy) (msg : MessageId) :
    later.writerOf proxy msg = linker.writerOf proxy msg := by
  rw [ALinker.writerOf, ALinker.writerOf, same]

theorem sameRequest_setMessage (ledger : Ledger)
    (apart : gen.client = client → gen.msgReq ≠ msg) :
    SameRequest gen shared (shared.setMessage client msg value) ledger ledger where
  message := Shared.message_setMessage_ne apart
  reader source here := by
    rwa [(linker_setMessage shared client gen.client msg value).1] at here
  ledger := rfl

theorem sameResponse_setMessage (ledger : Ledger)
    (apart : gen.client = client → gen.msgRes ≠ msg) :
    SameResponse gen shared (shared.setMessage client msg value) ledger ledger where
  message := Shared.message_setMessage_ne apart
  writer proxy :=
    writerOf_congr (linker_setMessage shared client gen.client msg value).2 proxy gen.msgRes
  popped := by rw [clients_setMessage]
  ledger := rfl

end SetMessage

/-! ### Calls of an exchange -/

theorem Asks.firstLineSet (asks : Asks config shared ledger gen source whole copy)
    (begun : copy ≠ .fresh true) : copy.verb = whole.verb ∧ copy.FirstLineSet := by
  have again := asks.begun.resolve_left begun
  have verb : copy.verb = whole.verb := by
    rw [← again, dumpFirstLine, if_pos asks.request]
    simp only
    split <;> rfl
  refine ⟨verb, ?_⟩
  rw [HttpMessage.FirstLineSet, if_pos asks.request]
  refine ⟨fun none => asks.line.2 ?_, verb ▸ asks.line.1⟩
  rw [dumpFirstLine, if_pos asks.request] at again
  simp only [show (copy.setVerb whole.verb).url = [] from none, if_true] at again
  exact (congrArg HttpMessage.url again).trans none

/-- What is left of an exchange. -/
def Settles (config : World.Config) (shared : Shared) (ledger : Ledger) (gen : MessageCopier) :
    Option (Exchange MessageCopier) → Prop
  | some exchange => exchange.gen = gen ∧ Deals config shared ledger exchange
  | none => Dealt config shared ledger gen

variable {left : Option (Exchange MessageCopier)} {answer : Answer}
  {pairs : ClientId → List (MessageId × MessageId)}

/-- The exchange ends behind the last byte of its request. -/
theorem Deals.checkDone (deals : Deals config shared ledger exchange)
    (outcome : exchange.checkDone = .ok left) :
    Settles config shared ledger exchange.gen left := by
  have isFresh := config.requester.writer.isFresh_writerCreator
  obtain ⟨⟨source, whole, copy, asks, asking⟩, reply, reads, stage, line, status, answers⟩ := deals
  obtain ⟨⟨⟨writer, outMsg⟩, size⟩, size_eq, rest⟩ := bind_eq_ok.mp outcome
  simp only at rest
  split at rest
  · rename_i concluded
    cases rest
    refine ⟨⟨source, whole, copy, asks, ?_⟩, exchange.reader, reply, reads,
      stage.2.trans ((HttpMessage.isSent_iff _).mp concluded.2.1).1, answers⟩
    refine asking.encodes isFresh size_eq concluded.1 concluded.2.2 fun done => ?_
    refine (asks.firstLineSet fun start => ?_).2
    rw [start] at done
    cases done
  · cases rest
    exact ⟨rfl, ⟨source, whole, copy, asks, asking.getWriteSize isFresh size_eq⟩, reply, reads,
      stage, line, status, answers⟩

theorem Deals.write {maxWrite amount : Nat} (deals : Deals config shared ledger exchange)
    (apart : exchange.gen.msgReq ≠ exchange.gen.msgRes)
    (outcome : exchange.call shared (.write maxWrite amount) = .ok (shared', left, answer)) :
    shared' = shared ∧
      Settles config shared' (exchange.record ledger (.write maxWrite amount)) exchange.gen
        left := by
  have isFresh := config.requester.writer.isFresh_writerCreator
  obtain ⟨⟨⟨writer, outMsg⟩, sent⟩, write_eq, outcome⟩ := bind_eq_ok.mp outcome
  obtain ⟨left₁, check_eq, outcome⟩ := bind_eq_ok.mp outcome
  cases outcome
  obtain ⟨⟨source, whole, copy, asks, asking⟩, reply, reads, stage, line, status, answers⟩ := deals
  refine ⟨rfl, ?_⟩
  simp only [Exchange.record, write_eq]
  refine @Deals.checkDone _ _ _ { exchange with writer, outMsg } _ ?_ check_eq
  have response : ledger.send exchange.gen.client exchange.gen.msgReq sent exchange.gen.client
      exchange.gen.msgRes = ledger exchange.gen.client exchange.gen.msgRes :=
    Ledger.setTransit_ne fun _ => apart.symm
  refine ⟨⟨source, whole, copy, ⟨?_, asks.reader, asks.past, asks.line, asks.handing, asks.request,
    asks.begun⟩, ?_⟩, reply, ?_, stage, line, status,
    answers.congr { message := rfl, writer := fun _ => rfl, popped := Iff.rfl, ledger := response }⟩
  · rw [Ledger.send, Ledger.setTransit_self]
    exact asks.reads
  · rw [Ledger.send, Ledger.setTransit_self]
    exact asking.write isFresh write_eq
  · rw [response]
    exact reads

/-- What has arrived of the request is copied, and the writer takes of it what there is. -/
theorem Deals.getWriteSize (deals : Deals config shared ledger exchange)
    (carrying : Carrying pairs shared exchange)
    (apart : exchange.gen.msgReq ≠ exchange.gen.msgRes)
    (outcome : exchange.call shared .getWriteSize = .ok (shared', left, answer)) :
    (∃ msgReq, shared' = shared.setMessage exchange.gen.client exchange.gen.msgReq msgReq) ∧
      Settles config shared' ledger exchange.gen left := by
  have isFresh := config.requester.writer.isFresh_writerCreator
  obtain ⟨⟨after, outMsg⟩, generated, outcome⟩ := bind_eq_ok.mp outcome
  obtain ⟨⟨⟨writer, outMsg₁⟩, ret⟩, size_eq, outcome⟩ := bind_eq_ok.mp outcome
  obtain ⟨left₁, check_eq, outcome⟩ := bind_eq_ok.mp outcome
  cases outcome
  obtain ⟨⟨msgReq, copy₁⟩, dump_eq, same⟩ := bind_eq_ok.mp generated
  obtain ⟨rfl, rfl⟩ := Prod.mk.inj (Except.ok.inj (carrying.request.dump.symm.trans dump_eq))
  cases same
  obtain ⟨⟨source, whole, copy, asks, asking⟩, reply, reads, stage, line, status, answers⟩ := deals
  refine ⟨⟨_, rfl⟩,
    @Deals.checkDone _ _ _ { exchange with writer, outMsg := outMsg₁ } _ ?_ check_eq⟩
  have request : exchange.outMsg.isRequest = true :=
    (asking.sameFirstLine isFresh).1.trans asks.request
  have dumped := asking.dump isFresh carrying.request request fun set => by
    rw [(asks.firstLineSet fun start => ?_).1]
    · exact asks.handing.firstLine.2.2.1
    · rw [start] at set
      exact absurd set (by decide)
  refine ⟨⟨source, whole, _, ⟨asks.reads, fun later here => asks.reader later ?_, asks.past,
    asks.line, ?_, ?_, Or.inr ?_⟩, dumped.getWriteSize isFresh size_eq⟩, reply, reads, stage, line,
    status, answers.congr (sameResponse_setMessage ledger fun _ => apart.symm)⟩
  · rwa [(linker_setMessage shared _ _ _ _).1] at here
  · rw [Shared.message_setMessage_self]
    exact asks.handing.dump
  · exact (HttpMessage.isRequest_dumpFirstLine _ copy).trans asks.request
  · rw [← HttpMessage.dumpFirstLine_congr asks.handing.firstLine, Handing.dumpFirstLine_copied]

/-- What is read of the response is copied at once. -/
theorem Deals.read {rbuf : Str} (deals : Deals config shared ledger exchange)
    (carrying : Carrying pairs shared exchange)
    (apart : exchange.gen.msgReq ≠ exchange.gen.msgRes)
    (queued : exchange.gen.pair ∉ (shared.clients exchange.gen.client).popped)
    (outcome : exchange.call shared (.read rbuf) = .ok (shared', left, answer)) :
    (∃ msgRes, shared' = shared.setMessage exchange.gen.client exchange.gen.msgRes msgRes) ∧
      Settles config shared' (exchange.record ledger (.read rbuf)) exchange.gen left := by
  have isFresh := config.proxy.aWriter.isFresh_writerCreator
  obtain ⟨⟨⟨reader, inMsg⟩, ret⟩, read_eq, outcome⟩ := bind_eq_ok.mp outcome
  obtain ⟨⟨after, inMsg₁⟩, given, outcome⟩ := bind_eq_ok.mp outcome
  obtain ⟨left₁, check_eq, outcome⟩ := bind_eq_ok.mp outcome
  cases outcome
  obtain ⟨updates, inSection, filled, uniform⟩ := MessageSource.read_fills read_eq
  have copying := carrying.response.copying.extends (HttpMessage.Extends.fill filled)
  obtain ⟨⟨drained, msgRes⟩, dump_eq, same⟩ := bind_eq_ok.mp given
  obtain ⟨rfl, rfl⟩ := Prod.mk.inj (Except.ok.inj (copying.dump.symm.trans dump_eq))
  cases same
  obtain ⟨⟨source, whole, copy, asks, asking⟩, reply, reads, stage, line, status, answers⟩ := deals
  obtain ⟨reply', filled', read_eq'⟩ := uniform reply stage
  refine ⟨⟨_, rfl⟩,
    @Deals.checkDone _ _ _ { exchange with reader, inMsg := inMsg.drained } _ ?_ check_eq⟩
  -- the reader by itself would have come as far
  have handing : Handing reply exchange.inMsg (reply.copied (.fresh false)) := by
    refine ⟨stage, line, ?_, ?_⟩
    · rw [HttpMessage.dumpFirstLine_congr line, Handing.dumpFirstLine_copied]
      exact ⟨rfl, rfl, rfl, rfl⟩
    · have nothing : exchange.inMsg.contents = {} := by
        rw [HttpMessage.contents, carrying.response.headers, carrying.response.entity,
          carrying.response.footers]
      rw [nothing, Handing.contents_copied, Contents.append_empty]
      exact Contents.empty_append _
  have handing' := handing.fill (fun request => by cases request) filled filled'
  have copied : inMsg.copied (reply.copied (.fresh false)) = reply'.copied (.fresh false) :=
    handing'.copied
  have known : reply'.status = reply.status ∨ reply.status = -1 := by
    refine status.imp_left fun past => ?_
    exact (HttpMessage.sameFirstLine_of_fill
      (fun update member => inSection update member past) filled').2.2.2
  have request : SameRequest exchange.gen shared (shared.setMessage exchange.gen.client
      exchange.gen.msgRes (inMsg.copied (shared.message exchange.gen.client exchange.gen.msgRes)))
      ledger (exchange.record ledger (.read rbuf)) :=
    { sameRequest_setMessage ledger fun _ => apart with
      ledger := Ledger.setTransit_ne fun _ => apart }
  have transit : exchange.record ledger (.read rbuf) exchange.gen.client exchange.gen.msgRes =
      { ledger exchange.gen.client exchange.gen.msgRes with
        given := (ledger exchange.gen.client exchange.gen.msgRes).given ++ [rbuf] } :=
    Ledger.setTransit_self
  refine ⟨⟨source, whole, copy, asks.congr request, ?_⟩, reply', ?_, handing'.stage,
    handing'.firstLine, ?_, fun unpopped => ?_, fun popped => ?_⟩
  · rw [request.ledger]
    exact asking
  · rw [transit, MessageSource.readAll_append rbuf reads, read_eq']
    rfl
  · rcases MessageSource.read_status read_eq' with past | same
    · exact Or.inl past
    · exact (status.imp_left (MessageSource.past_read · read_eq')).imp_right same.trans
  · have replying := answers.waiting queued
    have response := (replying.same isFresh).2.1
    have dumped := replying.dump isFresh copying response fun set => by
      change inMsg.status = reply.status
      rw [handing'.firstLine.2.2.2]
      exact known.resolve_right set
    rw [copied] at dumped
    rw [Shared.message_setMessage_self, transit,
      writerOf_congr (linker_setMessage shared _ _ _ _).2]
    exact dumped
  · rw [clients_setMessage] at popped
    exact absurd popped queued

end Deals
end GnyProxy
