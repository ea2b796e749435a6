import GnyProxy.Relaying
import GnyProxy.Tunnels

/-!
# The accounts of a run

With every step of the proxy the ledger goes on, and the copiers keep their accounts.  So a request
that is relayed was sent upstream as it was read, and its response is sent to the client as it was
read from upstream.
-/

namespace GnyProxy

open HttpMessage (InStep SameStage)
open Transfer (Asking Replying EncodesRequest EncodesMessage)

/-! ## Responses that are written -/

namespace ALinker

variable {proxy : HttpProxy} {linker linker' : ALinker} {size : Nat}
  {queue : List (MessageId × MessageId)}

/-- Behind the first response of the queue there are no writers. -/
theorem writerOf_behind {msgReq msgRes id : MessageId}
    (first : linker.WritesFirst ((msgReq, msgRes) :: queue)) (differs : id ≠ msgRes) :
    linker.writerOf proxy id = proxy.aWriter.writerCreator := by
  unfold writerOf
  split
  · rename_i sink own writer
    obtain ⟨_, _, same⟩ := first sink own writer
    obtain ⟨-, rfl⟩ : _ ∧ msgRes = own := by simpa using (List.cons.inj same).1
    exact if_neg differs.symm
  · rfl

/-- A response that is left in the queue waits as it did, or its writer was called. -/
theorem getWriteSizeFrom_left (first : linker.WritesFirst queue) (once : (messageIds queue).Nodup)
    (outcome : getWriteSizeFrom proxy linker queue = .ok (linker', size))
    {pair : MessageId × MessageId} (member : pair ∈ linker'.responseQueue) :
    linker'.writerOf proxy pair.2 = linker.writerOf proxy pair.2 ∧
        linker'.messages pair.2 = linker.messages pair.2 ∨
      ∃ ret, (linker.writerOf proxy pair.2).getWriteSize (linker.messages pair.2) =
        .ok ((linker'.writerOf proxy pair.2, linker'.messages pair.2), ret) := by
  induction queue generalizing linker with
  | nil =>
      cases outcome
      cases member
  | cons head rest ih =>
      obtain ⟨msgReq, msgRes⟩ := head
      have inside : pair ∈ (msgReq, msgRes) :: rest := by
        obtain ⟨-, -, -, -, popped, split, -⟩ := getWriteSizeFrom_spec first once outcome
        exact split ▸ List.mem_append_right _ member
      have behind (later : pair ∈ rest) : pair.2 ≠ msgRes := by
        simp only [messageIds_cons, List.nodup_cons] at once
        rintro rfl
        exact once.2.1 (mem_messageIds.mpr ⟨pair, later, Or.inr rfl⟩)
      simp only [ALinker.getWriteSizeFrom, writer_first proxy first] at outcome
      obtain ⟨⟨⟨sink, msg⟩, ret⟩, size_eq, outcome⟩ := bind_eq_ok.mp outcome
      have set_eq (differs : pair.2 ≠ msgRes) :
          (linker.setMessage msgRes msg).messages pair.2 = linker.messages pair.2 :=
        Function.update_of_ne differs _ _
      split at outcome
      · -- the first pair is over
        have once' : (messageIds rest).Nodup := by
          simp only [messageIds_cons, List.nodup_cons] at once
          exact once.2.2
        have waits :
            ALinker.WritesFirst { linker.setMessage msgRes msg with writer := none } rest :=
          fun _ _ other => by cases other
        have later : pair ∈ rest := by
          obtain ⟨-, -, -, -, popped, split, -⟩ := getWriteSizeFrom_spec waits once' outcome
          exact split ▸ List.mem_append_right _ member
        have differs := behind later
        have left := ih waits once' outcome
        rw [writerOf_behind first differs, ← set_eq differs]
        exact left
      · cases outcome
        rcases List.mem_cons.mp inside with rfl | later
        · refine Or.inr ⟨ret, ?_⟩
          simpa [writerOf, setMessage] using size_eq
        · have differs := behind later
          refine Or.inl ⟨?_, set_eq differs⟩
          rw [writerOf_behind first differs]
          simp [writerOf, differs.symm]

end ALinker

namespace Transfer

variable {fresh sink sink' : MessageSink} {msg msg' whole : HttpMessage} {sent more : Str}

/-- Nothing is sent before there is anything of the first line. -/
theorem Asking.sent_fresh (isFresh : fresh.IsFresh)
    (asking : Asking fresh ⟨msg, sink, .fresh true, sent⟩) : sent = [] := by
  rcases asking with unasked | ⟨first, requesting⟩
  · exact congrArg Transfer.sent unasked.handed
  · have begins : fresh.firstLine (.fresh true) = .ok (some first) := (requesting.kept isFresh).2.1
    cases fresh with
    | gny sink =>
        simp [MessageSink.firstLine, MessageSinkGny.firstLine, HttpMessage.fresh] at begins
    | v11 sink =>
        simp [MessageSink.firstLine, MessageSink11.firstLine, HttpMessage.fresh] at begins

end Transfer

/-! ## A request that is read -/

section Receive

variable {config : World.Config} {shared shared' : Shared} {ledger ledger' : Ledger}
  {gen : MessageCopier} {exchange : Exchange MessageCopier}
  {source source' source₁ : MessageSource} {whole copy : HttpMessage} {rbuf : Str}

/-- The reader of a request goes on with it. -/
structure Receives (gen : MessageCopier) (source source' : MessageSource) (rbuf : Str)
    (shared shared' : Shared) (ledger ledger' : Ledger) : Prop where
  reader : (shared.linker gen.client).reader = some (source, gen.msgReq)
  read : ∃ msg amount, source.read (shared.message gen.client gen.msgReq) rbuf =
    .ok ((source', msg), amount) ∧ shared'.message gen.client gen.msgReq = msg
  reader' : (shared'.linker gen.client).reader = some (source', gen.msgReq)
  ledger : ledger' gen.client gen.msgReq = { ledger gen.client gen.msgReq with
    given := (ledger gen.client gen.msgReq).given ++ [rbuf] }

/-- What was copied stays, and what was read is not copied yet. -/
theorem Asks.receive (asks : Asks config shared ledger gen source₁ whole copy)
    (receives : Receives gen source source' rbuf shared shared' ledger ledger') :
    ∃ whole', Asks config shared' ledger' gen source' whole' copy := by
  obtain rfl := asks.reader source receives.reader
  obtain ⟨msg, amount, read_eq, message_eq⟩ := receives.read
  obtain ⟨updates, inSection, filled, uniform⟩ := MessageSource.read_fills read_eq
  obtain ⟨whole', filled', read_eq'⟩ := uniform whole asks.handing.stage
  have behind : ∀ update ∈ updates, update.InSection :=
    fun update member => inSection update member asks.past
  have same := HttpMessage.sameFirstLine_of_fill behind filled'
  refine ⟨whole', ?_, fun later here => ?_, MessageSource.past_read asks.past read_eq, ?_, ?_,
    asks.request, ?_⟩
  · rw [receives.ledger, MessageSource.readAll_append rbuf asks.reads, read_eq']
    rfl
  · cases receives.reader'.symm.trans here
    rfl
  · rw [same.2.2.1, same.2.1]
    exact asks.line
  · rw [message_eq]
    exact asks.handing.fill (fun _ => behind) filled filled'
  · rw [HttpMessage.dumpFirstLine_congr same]
    exact asks.begun

/-- A copy that is done is all that was read, when nothing is left of it. -/
theorem Asks.copied (asks : Asks config shared ledger gen source whole copy)
    (sent : (shared.message gen.client gen.msgReq).isSent = true) (ended : copy.state = .done) :
    whole.state = .done ∧ copy = { whole with status := -1 } := by
  obtain ⟨done, headers, entity, footers⟩ := (HttpMessage.isSent_iff _).mp sent
  have handing := asks.handing
  have whole_done : whole.state = .done := handing.stage.2.trans done
  have isRequest : whole.isRequest = true :=
    (MessageSource.extends_readAll asks.reads).isRequest
  have begun : dumpFirstLine (shared.message gen.client gen.msgReq) copy = copy := by
    rw [HttpMessage.dumpFirstLine_congr handing.firstLine]
    refine asks.begun.resolve_left fun start => ?_
    rw [start] at ended
    cases ended
  have still : (shared.message gen.client gen.msgReq).copied copy = copy := by
    rw [HttpMessage.copied, begun, headers, entity, footers, done, ← ended]
    simp
  have all := handing.copied
  rw [still, asks.request] at all
  exact ⟨whole_done, all.trans (HttpMessage.copied_request isRequest)⟩

/-- Nothing else is in the first line of a copy. -/
theorem Asks.firstLine (asks : Asks config shared ledger gen source whole copy)
    (begun : copy ≠ .fresh true) : copy.verb = whole.verb ∧ copy.url = whole.url := by
  have again := asks.begun.resolve_left begun
  have same : dumpFirstLine (shared.message gen.client gen.msgReq) copy = copy :=
    (HttpMessage.dumpFirstLine_congr asks.handing.firstLine copy).trans again
  have line := asks.handing.line
  rw [same, asks.request] at line
  exact ⟨line.2.2.1, line.2.1⟩

theorem Deals.receive (deals : Deals config shared ledger exchange)
    (receives : Receives exchange.gen source source' rbuf shared shared' ledger ledger')
    (response : SameResponse exchange.gen shared shared' ledger ledger') :
    Deals config shared' ledger' exchange := by
  obtain ⟨⟨source₁, whole, copy, asks, asking⟩, reply, reads, stage, line, status, answers⟩ := deals
  obtain ⟨whole', asks'⟩ := asks.receive receives
  refine ⟨⟨source', whole', copy, asks', ?_⟩, reply, ?_, stage, line, status,
    answers.congr response⟩
  · rw [receives.ledger]
    exact asking
  · rw [response.ledger]
    exact reads

theorem Dealt.receive (dealt : Dealt config shared ledger gen)
    (receives : Receives gen source source' rbuf shared shared' ledger ledger')
    (response : SameResponse gen shared shared' ledger ledger') :
    Dealt config shared' ledger' gen := by
  obtain ⟨⟨source₁, whole, copy, asks, encodes⟩, source₂, reply, reads, ended, answers⟩ := dealt
  obtain ⟨whole', asks'⟩ := asks.receive receives
  refine ⟨⟨source', whole', copy, asks', ?_⟩, source₂, reply, ?_, ended, answers.congr response⟩
  · rw [receives.ledger]
    exact encodes
  · rw [response.ledger]
    exact reads

end Receive

/-! ## Every account -/

section Writes

variable {config : World.Config} {forwards : Prop}
  {pairs : ClientId → List (MessageId × MessageId)} {shared shared' : Shared}
  {ledger ledger' : Ledger} {linked : ObjectId → Option (Linked MessageCopier Connector)}
  {finished : List MessageCopier} {gen : MessageCopier}

/-- What a step does to every account. -/
theorem Relaying.map (relaying : Relaying config shared ledger linked finished)
    (working : Working forwards pairs shared linked finished)
    (deals : ∀ exchange, exchange.gen.pair ∈ pairs exchange.gen.client →
      Deals config shared ledger exchange → Deals config shared' ledger' exchange)
    (dealt : ∀ gen, gen.pair ∈ pairs gen.client → Dealt config shared ledger gen →
      Dealt config shared' ledger' gen) :
    Relaying config shared' ledger' linked finished := by
  refine ⟨fun place linker exchange found busy => ?_, fun gen member => ?_⟩
  · have carried : Carried pairs shared exchange := working.objects place _ found exchange busy
    exact deals exchange carried.pair (relaying.deals place linker exchange found busy)
  · exact dealt gen (working.relayed gen member).pair (relaying.dealt gen member)

/-- The response of a copier is written, if anything. -/
structure Writes (config : World.Config) (gen : MessageCopier) (shared shared' : Shared)
    (ledger ledger' : Ledger) : Prop where
  request : SameRequest gen shared shared' ledger ledger'
  given : (ledger' gen.client gen.msgRes).given = (ledger gen.client gen.msgRes).given
  answers : ∀ whole, Answers config shared ledger gen whole →
    Answers config shared' ledger' gen whole

theorem Writes.ofSame (request : SameRequest gen shared shared' ledger ledger')
    (response : SameResponse gen shared shared' ledger ledger') :
    Writes config gen shared shared' ledger ledger' where
  request := request
  given := by rw [response.ledger]
  answers _ answers := answers.congr response

theorem still_others {id : ClientId} {client : Client}
    (same : ∀ other, other ≠ id → ∀ msg, ledger' other msg = ledger other msg) :
    Still (fun other _ => other ≠ id) shared (shared.setClient id client) ledger ledger' :=
  .ofClient (fun _ differs => absurd rfl differs) (fun _ _ differs => absurd rfl differs)
    (fun _ _ differs => absurd rfl differs) (fun _ _ differs => absurd rfl differs)
    fun other msg differs => same other differs msg

theorem Writes.ofOther {id : ClientId} {client : Client}
    (same : ∀ other, other ≠ id → ∀ msg, ledger' other msg = ledger other msg)
    (differs : gen.client ≠ id) :
    Writes config gen shared (shared.setClient id client) ledger ledger' :=
  .ofSame ((still_others same).request differs) ((still_others same).response differs)

theorem Relaying.writes (relaying : Relaying config shared ledger linked finished)
    (working : Working forwards pairs shared linked finished)
    (writes : ∀ gen, gen.pair ∈ pairs gen.client →
      Writes config gen shared shared' ledger ledger') :
    Relaying config shared' ledger' linked finished := by
  refine relaying.map working (fun exchange member deals => ?_) fun gen member dealt => ?_
  · obtain ⟨request, given, answers_map⟩ := writes exchange.gen member
    obtain ⟨⟨source, whole, copy, asks, asking⟩, reply, reads, stage, line, status, answers⟩ :=
      deals
    refine ⟨⟨source, whole, copy, asks.congr request, ?_⟩, reply, ?_, stage, line, status,
      answers_map reply answers⟩
    · rw [request.ledger]
      exact asking
    · rw [given]
      exact reads
  · obtain ⟨request, given, answers_map⟩ := writes gen member
    obtain ⟨⟨source, whole, copy, asks, encodes⟩, source', reply, reads, ended, answers⟩ := dealt
    refine ⟨⟨source, whole, copy, asks.congr request, ?_⟩, source', reply, ?_, ended,
      answers_map reply answers⟩
    · rw [request.ledger]
      exact encodes
    · rw [given]
      exact reads

/-- An account begins with what has arrived of the request. -/
theorem Deals.create (source : MessageSource)
    (reads : config.proxy.aReader.readerCreator.readAll (.fresh true)
      (ledger gen.client gen.msgReq).given = .ok (source, shared.message gen.client gen.msgReq))
    (reader : ∀ later, (shared.linker gen.client).reader = some (later, gen.msgReq) →
      later = source)
    (past : source.Past)
    (line : (shared.message gen.client gen.msgReq).verb ≠ verbUnknown ∧
      (shared.message gen.client gen.msgReq).url ≠ [])
    (unsent : (ledger gen.client gen.msgReq).sent = [])
    (fresh : ledger gen.client gen.msgRes = {})
    (response : shared.message gen.client gen.msgRes = .fresh false)
    (writer : (shared.linker gen.client).writerOf config.proxy gen.msgRes =
      config.proxy.aWriter.writerCreator)
    (unpopped : gen.pair ∉ (shared.clients gen.client).popped) :
    Deals config shared ledger
      (.create config.requester.reader config.requester.writer gen) := by
  refine ⟨⟨source, _, .fresh true, ⟨reads, reader, past, line, .start _ true, rfl, Or.inl rfl⟩, ?_⟩,
    .fresh false, ?_, .refl _, .refl _, Or.inr rfl, fun _ => ?_,
    fun popped => absurd popped unpopped⟩
  · rw [show (Exchange.create config.requester.reader config.requester.writer gen).gen = gen from
      rfl, unsent]
    exact Transfer.asking_start config.requester.writer.isFresh_writerCreator
  · rw [show (Exchange.create config.requester.reader config.requester.writer gen).gen = gen from
      rfl, fresh]
    rfl
  · rw [show (Exchange.create config.requester.reader config.requester.writer gen).gen = gen from
      rfl, response, writer, fresh]
    exact Transfer.replying_start

/-- No request is a response. -/
theorem request_ne_response {queue : List (MessageId × MessageId)}
    (once : (messageIds queue).Nodup) {pair other : MessageId × MessageId} (member : pair ∈ queue)
    (member' : other ∈ queue) : pair.1 ≠ other.2 := by
  intro same
  obtain rfl := pair_unique once member member' (Or.inl rfl) (Or.inr same)
  exact pair_apart once member same

theorem Client.not_popped {client : Client} (once : (messageIds client.pairs).Nodup)
    {pair : MessageId × MessageId} (queued : pair ∈ client.linker.responseQueue) :
    pair ∉ client.popped := by
  intro popped
  rw [Client.pairs, messageIds_append] at once
  exact List.disjoint_of_nodup_append once (mem_messageIds.mpr ⟨pair, popped, Or.inl rfl⟩)
    (mem_messageIds.mpr ⟨pair, queued, Or.inl rfl⟩)

end Writes

namespace World

/-- All that was read of a request that is not connected is in its message. -/
def Arriving (config : Config) (shared : Shared) (ledger : Ledger) (id : ClientId) : Prop :=
  ∀ source msg, (shared.linker id).reader = some (source, msg) →
    (shared.linker id).connected = false →
    config.proxy.aReader.readerCreator.readAll (.fresh true) (ledger id msg).given =
        .ok (source, shared.message id msg) ∧
      (source.Past ∨ (shared.message id msg).url = []) ∧ (ledger id msg).sent = []

/-- The copiers keep their accounts, and so do the requests that have none yet. -/
structure Accounts (config : Config) (world : World) (ledger : Ledger) : Prop where
  copiers : Relaying config world.shared ledger world.requester.linked world.requester.finished
  arriving : ∀ id, Arriving config world.shared ledger id
  fresh : ∀ id msg, (world.shared.linker id).next ≤ msg → ledger id msg = {}

section Accounts

variable {config : Config} {world next : World} {shared shared' : Shared}
  {ledger ledger' : Ledger} {P : ClientId → MessageId → Prop} {id : ClientId}
  {place : ObjectId} {asked : Call} {answer : Answer} {source : MessageSource}
  {msgReq : MessageId} {rbuf : Str}
  {requester requester' : Requester MessageCopier Connector}

/-- A message that is read and not connected is in no pair, and there is no tunnel. -/
theorem Invariant.unasked (invariant : world.Invariant config)
    (reader : (world.shared.linker id).reader = some (source, msgReq))
    (unconnected : (world.shared.linker id).connected = false) :
    (world.shared.linker id).tunneler = false ∧ msgReq ∉ messageIds (world.shared.pairs id) := by
  have reads : (world.shared.linker id).readerMsg = some msgReq := by
    simp [ALinker.readerMsg, reader]
  exact ⟨invariant.no_tunnel reads unconnected,
    (invariant.settled id).unqueued msgReq reads unconnected⟩

theorem Arriving.still (arriving : Arriving config shared ledger id)
    (reader : (shared'.linker id).reader = (shared.linker id).reader)
    (connected : (shared'.linker id).connected = (shared.linker id).connected)
    (still : Still P shared shared' ledger ledger')
    (inside : ∀ source msg, (shared.linker id).reader = some (source, msg) →
      (shared.linker id).connected = false → P id msg) :
    Arriving config shared' ledger' id := by
  intro source msg here unconnected
  rw [reader] at here
  rw [connected] at unconnected
  have stays := inside source msg here unconnected
  rw [still.message id msg stays, still.ledger id msg stays]
  exact arriving source msg here unconnected

/-! ### Upstream -/

theorem recordCall_of_notMem {forwards : Prop} {pairs : ClientId → List (MessageId × MessageId)}
    (working : Working forwards pairs shared requester.linked requester.finished)
    {msg : MessageId} (apart : msg ∉ messageIds (pairs id)) :
    ledger.recordCall requester place asked id msg = ledger id msg := by
  unfold Ledger.recordCall
  cases found : requester.exchangeAt place with
  | none => rfl
  | some exchange =>
      have carried : Carried pairs shared exchange := by
        unfold Requester.exchangeAt at found
        split at found
        · rename_i linker here
          exact working.objects place _ here exchange found
        · cases found
      have differs (own : MessageId)
          (inside : own = exchange.gen.pair.1 ∨ own = exchange.gen.pair.2)
          (same : id = exchange.gen.client) : msg ≠ own := by
        rintro rfl
        exact apart (same ▸ mem_messageIds.mpr ⟨_, carried.pair, inside⟩)
      exact exchange.record_ne asked (differs _ (Or.inl rfl)) (differs _ (Or.inr rfl))

theorem alone_of_assigned {accepted : List (Endpoint × MessageCopier)}
    (assigned : Requester.Assigned requester.Attached requester.Deleted accepted)
    (place : ObjectId) : requester.Alone place := by
  intro endpoint gen here
  refine ⟨fun other endpoint' there => (assigned.once _ _ _ _ _ there here).1, fun done => ?_⟩
  exact (assigned.known _ _ _ here).2 (Or.inl done)

theorem Accounts.call (accounts : world.Accounts config ledger)
    (invariant : world.Invariant config) (queued : world.GensQueued)
    (outcome : world.requester.call world.shared place asked = .ok (shared', requester', answer)) :
    Accounts config ⟨shared', requester'⟩ (ledger.recordCall world.requester place asked) := by
  obtain ⟨accepted, tracked⟩ := invariant.tracked
  have served := invariant.working.served_call outcome
  obtain ⟨copiers, still⟩ := accounts.copiers.call invariant.working
    (alone_of_assigned tracked.assigned place) (fun rbuf _ => queued place) outcome
  refine ⟨copiers, fun id => ?_, fun id msg below => ?_⟩
  · exact (accounts.arriving id).still (served id).reader (served id).connected still
      fun source msg reader unconnected => invariant.unasked reader unconnected
  · have below' : (world.shared.linker id).next ≤ msg := (served id).next ▸ below
    rw [recordCall_of_notMem invariant.working fun member => ?_]
    · exact accounts.fresh id msg below'
    · exact absurd ((invariant.working.clients id).below msg member) (not_lt.mpr below')

theorem Accounts.close (accounts : world.Accounts config ledger)
    (invariant : world.Invariant config) (place : ObjectId) :
    Accounts config ⟨(world.requester.close world.shared place).1,
      (world.requester.close world.shared place).2⟩ ledger := by
  have stays := (invariant.close place).2
  obtain ⟨copiers, still⟩ := accounts.copiers.close place
  refine ⟨copiers, fun id => ?_, fun id msg below => ?_⟩
  · exact (accounts.arriving id).still (stays id).reader (stays id).connected still
      fun _ _ _ _ => trivial
  · exact accounts.fresh id msg ((stays id).next ▸ below)

/-! ### Writing to a client -/

theorem Invariant.left_getWriteSize (invariant : world.Invariant config)
    (outcome : world.getWriteSize config id = .ok next) (pair : MessageId × MessageId)
    (member : pair ∈ (next.shared.linker id).responseQueue) :
    (next.shared.linker id).writerOf config.proxy pair.2 =
          (world.shared.linker id).writerOf config.proxy pair.2 ∧
        next.shared.message id pair.2 = world.shared.message id pair.2 ∨
      ∃ ret, ((world.shared.linker id).writerOf config.proxy pair.2).getWriteSize
          (world.shared.message id pair.2) =
        .ok (((next.shared.linker id).writerOf config.proxy pair.2,
          next.shared.message id pair.2), ret) := by
  obtain ⟨⟨linker, size⟩, size_eq, outcome⟩ := bind_eq_ok.mp outcome
  cases outcome
  have sound := invariant.working.clients id
  have once : (messageIds (world.shared.linker id).responseQueue).Nodup := by
    have both := sound.once
    rw [Shared.pairs, Client.pairs, messageIds_append] at both
    exact both.of_append_right
  have linker_eq (client : Client) : (world.shared.setClient id client).linker id =
      client.linker := congrArg Client.linker Shared.clients_setClient_self
  rw [linker_eq] at member
  simp only [Shared.message, linker_eq]
  exact ALinker.getWriteSizeFrom_left sound.first once size_eq member

/-- The pairs that are deleted were sent to the last byte, and the others are as far as before, or
their writer was called. -/
theorem Invariant.writes_getWriteSize (invariant : world.Invariant config)
    (outcome : world.getWriteSize config id = .ok next) {gen : MessageCopier}
    (here : gen.client = id) (member : gen.pair ∈ world.shared.pairs gen.client) :
    Writes config gen world.shared next.shared ledger ledger := by
  subst here
  have isFresh := config.proxy.aWriter.isFresh_writerCreator
  have once := (invariant.working.clients gen.client).once
  have apart : gen.msgReq ∉ (world.shared.pairs gen.client).map (·.2) := by
    intro inside
    obtain ⟨other, member', same⟩ := List.mem_map.mp inside
    exact request_ne_response once member member' same.symm
  have messages := invariant.messages_getWriteSize apart outcome
  have left := invariant.left_getWriteSize outcome gen.pair
  obtain ⟨linker, size, popped, same, -, -, -, queue, deletes, rfl⟩ :=
    invariant.getWriteSize_cases outcome
  simp only [Shared.linker, Shared.clients_setClient_self] at left
  refine ⟨⟨messages, fun source reader => ?_, rfl⟩, rfl, fun whole answers =>
    ⟨fun unpopped => ?_, fun gone low high => ?_⟩⟩
  · simp only [Shared.linker, Shared.clients_setClient_self] at reader
    rwa [same.reader] at reader
  · simp only [Shared.clients_setClient_self] at unpopped
    have queued : gen.pair ∈ linker.responseQueue := by
      rcases List.mem_append.mp member with old | waits
      · exact absurd (List.mem_append_left _ old) unpopped
      · rw [show (world.shared.clients gen.client).linker.responseQueue = _ from queue] at waits
        exact (List.mem_append.mp waits).resolve_left
          fun new => unpopped (List.mem_append_right _ new)
    have replying := answers.waiting fun old => unpopped (List.mem_append_left _ old)
    simp only [Shared.linker, Shared.clients_setClient_self]
    rcases left queued with ⟨writer, message⟩ | ⟨ret, size_eq⟩
    · rw [show ALinker.writerOf config.proxy linker gen.msgRes = _ from writer,
        show Shared.message _ gen.client gen.msgRes = _ from message]
      exact replying
    · exact replying.getWriteSize isFresh size_eq
  · simp only [Shared.clients_setClient_self] at gone
    rcases List.mem_append.mp gone with old | new
    · exact answers.popped old low high
    · obtain ⟨front, back, split, concluded, -⟩ := (deletes gen.pair).mp new
      obtain ⟨sink, msg, size_eq, sent⟩ := concluded.response
      have queued : gen.pair ∈ (world.shared.clients gen.client).linker.responseQueue := by
        rw [show (world.shared.clients gen.client).linker.responseQueue = _ from split]
        simp
      exact (answers.waiting (Client.not_popped once queued)).encodes isFresh size_eq rfl sent low
        high

/-- Nothing happens to any message. -/
theorem Accounts.drains (accounts : world.Accounts config ledger)
    (invariant : world.Invariant config) (drains : world.shared.Drains shared')
    (messages : ∀ id msg, shared'.message id msg = world.shared.message id msg) :
    Accounts config ⟨shared', world.requester⟩ ledger := by
  have stays : world.shared.Stays world.shared.pairs shared' :=
    fun id => (drains.served world.shared.pairs id).toStays
  have still : Still (fun _ _ => True) world.shared shared' ledger ledger :=
    .ofStays stays (fun id msg _ => messages id msg) fun _ _ _ => rfl
  refine ⟨accounts.copiers.still invariant.working still fun _ _ _ => trivial, fun id => ?_,
    fun id msg below => accounts.fresh id msg ((drains id).next ▸ below)⟩
  exact (accounts.arriving id).still (drains id).reader (drains id).connected still
    fun _ _ _ _ => trivial

/-- One client changes, and the other ones are as they were. -/
theorem Accounts.setClient {client : Client}
    (copiers : Relaying config (shared.setClient id client) ledger' requester.linked
      requester.finished)
    (same : ∀ other, other ≠ id → ∀ msg, ledger' other msg = ledger other msg)
    (others : ∀ other, other ≠ id → Arriving config shared ledger other ∧
      ∀ msg, (shared.linker other).next ≤ msg → ledger other msg = {})
    (arriving : Arriving config (shared.setClient id client) ledger' id)
    (fresh : ∀ msg, client.linker.next ≤ msg → ledger' id msg = {}) :
    Accounts config ⟨shared.setClient id client, requester⟩ ledger' := by
  refine ⟨copiers, fun other => ?_, Shared.forall_setClient (P := fun other client => ∀ msg,
    client.linker.next ≤ msg → ledger' other msg = {}) |>.mpr ⟨fresh, fun other differs msg below =>
      (same other differs msg).trans ((others other differs).2 msg below)⟩⟩
  by_cases here : other = id
  · subst here
    exact arriving
  · have linker_eq : (shared.setClient id client).linker other = shared.linker other :=
      congrArg Client.linker (Shared.clients_setClient_ne here)
    exact (others other here).1.still (by rw [linker_eq]) (by rw [linker_eq]) (still_others same)
      fun _ _ _ _ => here

theorem Accounts.others (accounts : world.Accounts config ledger) (other : ClientId) :
    Arriving config world.shared ledger other ∧
      ∀ msg, (world.shared.linker other).next ≤ msg → ledger other msg = {} :=
  ⟨accounts.arriving other, accounts.fresh other⟩

theorem Accounts.getWriteSize (accounts : world.Accounts config ledger)
    (invariant : world.Invariant config) (outcome : world.getWriteSize config id = .ok next) :
    next.Accounts config ledger := by
  have writes (gen : MessageCopier) := @Invariant.writes_getWriteSize _ _ _ ledger _ invariant
    outcome gen
  obtain ⟨linker, size, popped, same, -, -, -, -, -, next_eq⟩ :=
    invariant.getWriteSize_cases outcome
  have arriving : Arriving config next.shared ledger id := by
    have linker_eq : next.shared.linker id = linker := by
      rw [next_eq, Shared.linker, Shared.clients_setClient_self]
    intro source msg reader unconnected
    rw [linker_eq, same.reader] at reader
    rw [linker_eq, same.connected] at unconnected
    have apart := not_mem_responseIds (invariant.unasked reader unconnected).2
    have message : next.shared.message id msg = world.shared.message id msg :=
      invariant.messages_getWriteSize apart outcome
    rw [message]
    exact accounts.arriving id source msg reader unconnected
  subst next_eq
  refine .setClient (accounts.copiers.writes invariant.working fun gen member => ?_)
    (fun _ _ _ => rfl) (fun other _ => accounts.others other) arriving
    fun msg below => accounts.fresh id msg (same.next ▸ below)
  by_cases here : gen.client = id
  · exact writes gen here member
  · exact .ofOther (fun _ _ _ => rfl) here

/-- A response that is written, of which a copier may know. -/
theorem Invariant.writes_write (invariant : world.Invariant config) {sink sink' : MessageSink}
    {own : MessageId} {msg : HttpMessage} {sent : Str} {maxWrite amount : Nat} {trace : Trace}
    (writer : (world.shared.linker id).writer = some (sink, own))
    (write_eq : sink.write (world.shared.message id own) maxWrite amount =
      .ok ((sink', msg), sent)) {gen : MessageCopier}
    (here : gen.client = id) (member : gen.pair ∈ world.shared.pairs gen.client) :
    Writes config gen world.shared (world.shared.setClient id { world.shared.clients id with
        linker := { (world.shared.linker id).setMessage own msg with writer := some (sink', own) }
        trace }) ledger (ledger.send id own sent) := by
  subst here
  have isFresh := config.proxy.aWriter.isFresh_writerCreator
  have sound := invariant.working.clients gen.client
  obtain ⟨msgReq, rest, queue⟩ := sound.first sink own writer
  have queued : (msgReq, own) ∈ (world.shared.clients gen.client).linker.responseQueue := by
    rw [queue]
    exact List.mem_cons_self
  have inside : (msgReq, own) ∈ world.shared.pairs gen.client := List.mem_append_right _ queued
  have request : gen.msgReq ≠ own := request_ne_response sound.once member inside
  have unchanged {msg' : MessageId} (differs : msg' ≠ own) :
      ledger.send gen.client own sent gen.client msg' = ledger gen.client msg' :=
    Ledger.setTransit_ne fun _ => differs
  have same_request : SameRequest gen world.shared (world.shared.setClient gen.client
      { world.shared.clients gen.client with
        linker := { (world.shared.linker gen.client).setMessage own msg with
          writer := some (sink', own) }
        trace }) ledger (ledger.send gen.client own sent) := by
    refine ⟨?_, fun source reader => ?_, unchanged request⟩
    · simp [Shared.message, Shared.linker, ALinker.setMessage, Function.update_of_ne request]
    · simpa [Shared.linker, ALinker.setMessage] using reader
  by_cases response : gen.msgRes = own
  · subst response
    have unpopped : gen.pair ∉ (world.shared.clients gen.client).popped := by
      obtain same := pair_unique sound.once member inside (Or.inr rfl) (Or.inr rfl)
      rw [same]
      exact Client.not_popped sound.once queued
    refine ⟨same_request, by simp [Ledger.send], fun whole answers => ⟨fun _ => ?_,
      fun popped => absurd (by simpa using popped) unpopped⟩⟩
    have replying := answers.waiting unpopped
    rw [ALinker.writerOf, writer] at replying
    simp only [if_true] at replying
    have later := replying.write isFresh write_eq
    simpa [Shared.message, Shared.linker, ALinker.setMessage, ALinker.writerOf, Ledger.send]
      using later
  · refine .ofSame same_request ⟨?_, fun proxy => ?_, ?_, unchanged response⟩
    · simp [Shared.message, Shared.linker, ALinker.setMessage, Function.update_of_ne response]
    · have differs : own ≠ gen.msgRes := fun same => response same.symm
      rw [ALinker.writerOf, ALinker.writerOf, writer]
      simp [Shared.linker, differs]
    · simp

theorem Accounts.write {maxWrite amount : Nat} (accounts : world.Accounts config ledger)
    (invariant : world.Invariant config) (outcome : world.write id maxWrite amount = .ok next) :
    next.Accounts config (ledger.record world (.write id maxWrite amount)) := by
  unfold World.write at outcome
  simp only at outcome
  split at outcome
  · rename_i ready
    obtain ⟨⟨linker, sent⟩, write_eq, outcome⟩ := bind_eq_ok.mp outcome
    cases outcome
    have sound := invariant.working.clients id
    cases writer : (world.shared.linker id).writer with
    | none =>
        -- the bytes of the tunnel
        have same : ledger.record world (.write id maxWrite amount) = ledger := by
          simp [Ledger.record, ready, writer]
        rw [same]
        have raw : linker = { world.shared.linker id with dataRes := linker.dataRes } := by
          unfold ALinker.write at write_eq
          split at write_eq
          · split at write_eq
            · cases write_eq
              rfl
            · cases write_eq
          · rename_i some
            cases writer.symm.trans some
        rw [raw]
        refine accounts.drains invariant (Shared.drains_setClient
          ⟨rfl, rfl, rfl, rfl, rfl, rfl, rfl, rfl, rfl, fun _ => .refl _⟩) fun other msg => ?_
        by_cases here : other = id
        · subst here
          simp [Shared.message, Shared.linker]
        · simp [Shared.message, Shared.linker, Shared.clients_setClient_ne here]
    | some sink_own =>
        obtain ⟨sink, own⟩ := sink_own
        rw [ALinker.write, show (world.shared.clients id).linker.writer = some (sink, own) from
          writer] at write_eq
        obtain ⟨⟨⟨sink', msg⟩, bytes⟩, written, same⟩ := bind_eq_ok.mp write_eq
        cases same
        have written' : sink.write (world.shared.message id own) maxWrite amount =
            .ok ((sink', msg), sent) := written
        have recorded : ledger.record world (.write id maxWrite amount) =
            ledger.send id own sent := by
          simp only [Ledger.record, ready, writer, written']
        rw [recorded]
        have others (other : ClientId) (differs : other ≠ id) (msg' : MessageId) :
            ledger.send id own sent other msg' = ledger other msg' :=
          Ledger.setTransit_ne fun same => absurd same differs
        obtain ⟨msgReq, rest, queue⟩ := sound.first sink own writer
        have queued : (msgReq, own) ∈ (world.shared.clients id).linker.responseQueue := by
          rw [queue]
          exact List.mem_cons_self
        have inside : own ∈ messageIds (world.shared.pairs id) :=
          mem_messageIds.mpr ⟨_, List.mem_append_right _ queued, Or.inr rfl⟩
        have unchanged {msg' : MessageId} (differs : msg' ≠ own) :
            ledger.send id own sent id msg' = ledger id msg' :=
          Ledger.setTransit_ne fun _ => differs
        refine .setClient (accounts.copiers.writes invariant.working fun gen member => ?_) others
          (fun other _ => accounts.others other) (fun source msg' reader unconnected => ?_)
          fun msg' below => ?_
        · by_cases here : gen.client = id
          · exact invariant.writes_write writer written' here member
          · exact .ofOther others here
        · simp only [Shared.linker, Shared.clients_setClient_self] at reader unconnected
          have differs : msg' ≠ own := fun same =>
            (invariant.unasked reader unconnected).2 (same ▸ inside)
          rw [unchanged differs, Shared.message, Shared.linker, Shared.clients_setClient_self]
          simp only [ALinker.setMessage, Function.update_of_ne differs]
          exact accounts.arriving id source msg' reader unconnected
        · have differs : msg' ≠ own := fun same =>
            absurd (sound.below own inside) (not_lt.mpr (same ▸ below))
          exact (unchanged differs).trans (accounts.fresh id msg' below)
  · rename_i idle
    cases outcome
    have same : ledger.record world (.write id maxWrite amount) = ledger := by
      simp [Ledger.record, idle]
    rwa [same]

theorem Accounts.delete (accounts : world.Accounts config ledger)
    (invariant : world.Invariant config) (id : ClientId) :
    (world.delete id).Accounts config ledger := by
  have gone : Accounts config ⟨world.shared.setClient id
      { world.shared.clients id with alive := false }, world.requester⟩ ledger := by
    refine .setClient (accounts.copiers.still invariant.working (P := fun _ _ => True)
      (Still.ofClient (fun _ _ => rfl) (fun _ _ _ here => here) (fun _ _ _ => rfl)
        (fun _ _ _ => Iff.rfl) fun _ _ _ => rfl) fun _ _ _ => trivial) (fun _ _ _ => rfl)
      (fun other _ => accounts.others other) (fun source msg reader unconnected => ?_)
      (accounts.fresh id)
    simp only [Shared.message, Shared.linker, Shared.clients_setClient_self] at reader unconnected ⊢
    exact accounts.arriving id source msg reader unconnected
  have invariant' : Invariant config ⟨world.shared.setClient id
      { world.shared.clients id with alive := false }, world.requester⟩ :=
    invariant.sameInput ⟨rfl, rfl, rfl, rfl, rfl, fun _ => .refl _⟩ rfl rfl
      (invariant.working.clients id).first rfl
  simp only [World.delete]
  split
  · refine gone.drains invariant' (Shared.drains_unlink _ _) fun other msg => ?_
    rw [Shared.message, Shared.linker, clients_unlink]
    rfl
  · exact gone

/-! ### Reading from a client -/

theorem Accounts.receive (accounts : world.Accounts config ledger)
    (invariant : world.Invariant config)
    (reader : (world.shared.linker id).reader = some (source, msgReq))
    (outcome : world.receive id source msgReq rbuf = .ok next) :
    next.Accounts config (ledger.give id msgReq rbuf) := by
  obtain ⟨source', msg, amount, read_eq, rfl⟩ := receive_reads outcome
  have reads : (world.shared.linker id).readerMsg = some msgReq := by
    simp [ALinker.readerMsg, reader]
  have sound := invariant.working.clients id
  obtain ⟨below, -, apart⟩ := sound.reading msgReq reads
  have others (other : ClientId) (differs : other ≠ id) (msg' : MessageId) :
      ledger.give id msgReq rbuf other msg' = ledger other msg' :=
    Ledger.setTransit_ne fun same => absurd same differs
  have unchanged {msg' : MessageId} (differs : msg' ≠ msgReq) :
      ledger.give id msgReq rbuf id msg' = ledger id msg' :=
    Ledger.setTransit_ne fun _ => differs
  have given : ledger.give id msgReq rbuf id msgReq = { ledger id msgReq with
      given := (ledger id msgReq).given ++ [rbuf] } := Ledger.setTransit_self
  -- a copier goes on with the request that is read, or nothing happens to it
  have moves (gen : MessageCopier) (member : gen.pair ∈ world.shared.pairs gen.client) :
      (Receives gen source source' rbuf world.shared (world.shared.setClient id
          (followed (world.shared.clients id) source source' msgReq msg rbuf)) ledger
          (ledger.give id msgReq rbuf) ∨
        SameRequest gen world.shared (world.shared.setClient id
          (followed (world.shared.clients id) source source' msgReq msg rbuf)) ledger
          (ledger.give id msgReq rbuf)) ∧
        SameResponse gen world.shared (world.shared.setClient id
          (followed (world.shared.clients id) source source' msgReq msg rbuf)) ledger
          (ledger.give id msgReq rbuf) := by
    by_cases here : gen.client = id
    · subst here
      have response : gen.msgRes ≠ msgReq := fun same => apart (same ▸ List.mem_map_of_mem member)
      refine ⟨?_, ?_, fun proxy => ?_, ?_, unchanged response⟩
      · by_cases request : gen.msgReq = msgReq
        · subst request
          exact Or.inl ⟨reader, ⟨msg, amount, read_eq, by simp [Shared.message, Shared.linker,
            messages_received]⟩, by simp [Shared.linker, received], given⟩
        · refine Or.inr ⟨?_, fun later same => ?_, unchanged request⟩
          · simp [Shared.message, Shared.linker, messages_received, Function.update_of_ne request]
          · simp only [Shared.linker, Shared.clients_setClient_self, received, Option.some.injEq,
              Prod.mk.injEq] at same
            exact absurd same.2.symm request
      · simp [Shared.message, Shared.linker, messages_received, Function.update_of_ne response]
      · rw [Shared.linker, Shared.clients_setClient_self]
        rfl
      · rw [Shared.clients_setClient_self]
        rfl
    · exact ⟨Or.inr ((still_others others).request here), (still_others others).response here⟩
  refine .setClient (accounts.copiers.map invariant.working (fun exchange member deals => ?_)
    fun gen member dealt => ?_) others (fun other _ => accounts.others other)
    (fun source₁ msg₁ reader' unconnected => ?_) fun msg' above => ?_
  · obtain ⟨receives | request, response⟩ := moves exchange.gen member
    · exact deals.receive receives response
    · exact deals.congr request response
  · obtain ⟨receives | request, response⟩ := moves gen member
    · exact dealt.receive receives response
    · exact dealt.congr request response
  · simp only [Shared.linker, Shared.clients_setClient_self] at reader' unconnected
    cases reader'
    obtain ⟨all, line, sent⟩ := accounts.arriving id source msgReq reader unconnected
    have message_eq : Shared.message (world.shared.setClient id
        (followed (world.shared.clients id) source source' msgReq msg rbuf)) id msgReq = msg := by
      simp [Shared.message, Shared.linker, messages_received]
    rw [message_eq, given]
    refine ⟨?_, ?_, sent⟩
    · rw [MessageSource.readAll_append rbuf all, read_eq]
      rfl
    · rcases line with past | empty
      · exact Or.inl (MessageSource.past_read past read_eq)
      · exact (MessageSource.read_url read_eq).imp_right fun same => same.trans empty
  · have differs : msg' ≠ msgReq := fun same => absurd below (not_lt.mpr (same ▸ above))
    exact (unchanged differs).trans (accounts.fresh id msg' above)

/-- New messages leave the old ones as they are. -/
theorem still_grows {client : Client} (grows : (shared.linker id).Grows client.linker)
    (writer : client.linker.writer = (shared.linker id).writer)
    (popped : client.popped = (shared.clients id).popped)
    (reader : ∀ source msg, client.linker.reader = some (source, msg) →
      msg < (shared.linker id).next → (shared.linker id).reader = some (source, msg)) :
    Still (fun other msg => other = id → msg < (shared.linker id).next) shared
      (shared.setClient id client) ledger ledger :=
  .ofClient (fun msg below => grows.messages msg (below rfl))
    (fun source msg below here => reader source msg here (below rfl))
    (fun msg proxy _ => writerOf_congr writer proxy msg)
    (fun msgReq msgRes _ => by rw [popped]) fun _ _ _ => rfl

theorem Invariant.below_pairs (invariant : world.Invariant config) (id other : ClientId)
    (msg : MessageId) (member : msg ∈ messageIds (world.shared.pairs other)) (same : other = id) :
    msg < (world.shared.linker id).next := by
  subst same
  exact (invariant.working.clients other).below msg member

/-- A new request begins, of which nothing was read. -/
theorem Accounts.nextRequest {linker : ALinker} {client : Client}
    (accounts : world.Accounts config ledger) (invariant : world.Invariant config)
    (grows : (world.shared.linker id).Grows linker)
    (writer : linker.writer = (world.shared.linker id).writer)
    (linker_eq : client.linker = ALinker.nextRequest config.proxy linker)
    (popped : client.popped = (world.shared.clients id).popped) :
    Accounts config ⟨world.shared.setClient id client, world.requester⟩ ledger := by
  have grows' : (world.shared.linker id).Grows client.linker := by
    rw [linker_eq]
    exact grows.trans (ALinker.grows_nextRequest config.proxy)
  have reader_eq :
      client.linker.reader = some (config.proxy.aReader.readerCreator, linker.next) := by
    rw [linker_eq]
    rfl
  have still : Still (fun other msg => other = id → msg < (world.shared.linker id).next)
      world.shared (world.shared.setClient id client) ledger ledger := by
    have writer_eq : client.linker.writer = (world.shared.linker id).writer := by
      rw [linker_eq]
      exact writer
    refine still_grows grows' writer_eq popped fun source msg here below => ?_
    cases reader_eq.symm.trans here
    exact absurd below (not_lt.mpr grows.next)
  refine .setClient (accounts.copiers.still invariant.working still
    fun other msg => invariant.below_pairs id other msg) (fun _ _ _ => rfl)
    (fun other _ => accounts.others other) (fun source msg reader _ => ?_)
    fun msg below => accounts.fresh id msg (grows'.next.trans below)
  rw [Shared.linker, Shared.clients_setClient_self, reader_eq] at reader
  cases reader
  have message_eq : (world.shared.setClient id client).message id linker.next = .fresh true := by
    rw [Shared.message, Shared.linker, Shared.clients_setClient_self, linker_eq]
    exact Function.update_self _ _ _
  rw [message_eq, accounts.fresh id linker.next grows.next]
  exact ⟨rfl, Or.inr rfl, rfl⟩

theorem Accounts.finishRequest (accounts : world.Accounts config ledger)
    (invariant : world.Invariant config)
    (reads : (world.shared.linker id).readerMsg = some msgReq)
    (outcome : world.finishRequest config id msgReq = .ok next) :
    next.Accounts config ledger := by
  obtain ⟨linker, trace, rfl, -, further⟩ := finishRequest_cases outcome
  rcases further with ⟨-, rfl⟩ | ⟨-, -, rfl⟩ | ⟨-, -, rfl⟩ | ⟨unconnected, response, -, tunnel⟩
  · -- the request goes on
    refine accounts.drains invariant (Shared.drains_setClient
      ⟨rfl, rfl, rfl, rfl, rfl, rfl, rfl, rfl, rfl, fun _ => .refl _⟩) fun other msg => ?_
    by_cases here : other = id
    · subst here
      simp [Shared.message, Shared.linker, finished]
    · simp [Shared.message, Shared.linker, Shared.clients_setClient_ne here]
  · -- nothing more is read
    refine .setClient (accounts.copiers.still invariant.working (P := fun _ _ => True)
      (Still.ofClient (fun _ _ => rfl) (fun _ _ _ none => by cases none) (fun _ _ _ => rfl)
        (fun _ _ _ => Iff.rfl) fun _ _ _ => rfl) fun _ _ _ => trivial) (fun _ _ _ => rfl)
      (fun other _ => accounts.others other) (fun source msg reader _ => ?_) (accounts.fresh id)
    rw [Shared.linker, Shared.clients_setClient_self] at reader
    cases reader
  · -- the next request begins
    exact accounts.nextRequest invariant (.refl _) rfl rfl rfl
  · -- the request is queued as well
    have none := invariant.no_tunnel reads unconnected
    obtain tunnel | rfl := tunnel
    · cases none.symm.trans tunnel
    have responds : (world.shared.linker id).Grows
        ((world.shared.linker id).respond msgReq response) :=
      @grows_responded msgReq (world.shared.clients id) response _ _ fun tunnel => tunnel
    exact accounts.nextRequest invariant responds rfl rfl rfl

/-- A client whose request is connected by now. -/
theorem Accounts.connected {client : Client} (accounts : world.Accounts config ledger)
    (invariant : world.Invariant config) (grows : (world.shared.linker id).Grows client.linker)
    (writer : client.linker.writer = (world.shared.linker id).writer)
    (popped : client.popped = (world.shared.clients id).popped)
    (reader : client.linker.reader = (world.shared.linker id).reader)
    (connected : client.linker.connected = true) :
    Accounts config ⟨world.shared.setClient id client, world.requester⟩ ledger := by
  refine .setClient (accounts.copiers.still invariant.working
    (still_grows grows writer popped fun source msg here _ => reader ▸ here)
    fun other msg => invariant.below_pairs id other msg) (fun _ _ _ => rfl)
    (fun other _ => accounts.others other) (fun source msg _ unconnected => ?_)
    fun msg below => accounts.fresh id msg (grows.next.trans below)
  rw [Shared.linker, Shared.clients_setClient_self, connected] at unconnected
  cases unconnected

/-- The account of a copier that is new. -/
theorem Accounts.created (accounts : world.Accounts config ledger)
    (invariant : world.Invariant config)
    (reader : (world.shared.linker id).reader = some (source, msgReq))
    (unconnected : (world.shared.linker id).connected = false)
    (line : (world.shared.message id msgReq).verb ≠ verbUnknown ∧
      (world.shared.message id msgReq).url ≠ []) :
    Deals config (world.shared.setClient id (awaited (world.shared.clients id))) ledger
      (.create config.requester.reader config.requester.writer
        ⟨id, msgReq, (world.shared.linker id).next⟩) := by
  have sound := invariant.working.clients id
  have reads : (world.shared.linker id).readerMsg = some msgReq := by
    simp [ALinker.readerMsg, reader]
  obtain ⟨below, -, -⟩ := sound.reading msgReq reads
  obtain ⟨all, line', unsent⟩ := accounts.arriving id source msgReq reader unconnected
  have linker_eq : (world.shared.setClient id (awaited (world.shared.clients id))).linker id =
      (world.shared.linker id).newMessage (.fresh false) :=
    congrArg Client.linker Shared.clients_setClient_self
  have message_eq : (world.shared.setClient id (awaited (world.shared.clients id))).message id
      msgReq = world.shared.message id msgReq := by
    rw [Shared.message, linker_eq]
    exact ALinker.messages_newMessage below
  have fresh_above {msg : MessageId} (member : msg ∈ messageIds (world.shared.pairs id)) :
      msg ≠ (world.shared.linker id).next := (sound.below msg member).ne
  refine Deals.create source ?_ (fun later here => ?_) (line'.resolve_right line.2) ?_
    unsent (accounts.fresh id _ le_rfl) ?_ ?_ fun popped => ?_
  · rw [message_eq]
    exact all
  · rw [linker_eq] at here
    cases reader.symm.trans here
    rfl
  · rw [message_eq]
    exact line
  · rw [Shared.message, linker_eq]
    exact Function.update_self _ _ _
  · rw [linker_eq]
    unfold ALinker.writerOf
    split
    · rename_i sink own writer
      obtain ⟨msgReq', rest, queue⟩ := sound.first sink own writer
      refine if_neg (fresh_above (mem_messageIds.mpr ⟨(msgReq', own), ?_, Or.inr rfl⟩))
      refine List.mem_append_right _ ?_
      rw [queue]
      exact List.mem_cons_self
    · rfl
  · rw [Shared.clients_setClient_self] at popped
    exact fresh_above (mem_messageIds.mpr ⟨_, List.mem_append_left _ popped, Or.inr rfl⟩) rfl

/-- Upstream takes the request, or the proxy answers it. -/
theorem Accounts.connectRequest {endpoint : Endpoint} {connects : Bool}
    (accounts : world.Accounts config ledger) (invariant : world.Invariant config)
    (reader : (world.shared.linker id).reader = some (source, msgReq))
    (unconnected : (world.shared.linker id).connected = false)
    (line : (world.shared.message id msgReq).verb ≠ verbUnknown ∧
      (world.shared.message id msgReq).url ≠ [])
    (outcome : world.connectRequest config id msgReq endpoint connects = .ok next) :
    next.Accounts config ledger := by
  have reads : (world.shared.linker id).readerMsg = some msgReq := by
    simp [ALinker.readerMsg, reader]
  obtain ⟨none, unqueued⟩ := invariant.unasked reader unconnected
  rcases connectRequest_cases invariant.toCore outcome with
    ⟨shared, requester, added, rfl⟩ | ⟨response, -, rfl⟩
  · have sound := invariant.working.clients id
    obtain ⟨below, -, -⟩ := sound.reading msgReq reads
    obtain ⟨core, stays, -⟩ := invariant.toCore.connectRequest reads unqueued none added
    obtain ⟨awaiting, new, request, response⟩ := invariant.toCore.awaiting reads unqueued
    obtain ⟨working, carried⟩ := @Core.accepts config world.shared.pairs _ world.requester
      ⟨id, msgReq, (world.shared.linker id).next⟩ awaiting new
      (Or.inl (linker_awaited.trans none)) request response
    have grows := grows_awaited (world.shared.clients id)
    have still : Still (fun other msg => other = id → msg < (world.shared.linker id).next)
        world.shared (world.shared.setClient id (awaited (world.shared.clients id))) ledger
        ledger :=
      still_grows grows rfl rfl fun _ _ here _ => here
    have copiers := accounts.copiers.still invariant.working still
      fun other msg => invariant.below_pairs id other msg
    have other_eq {other : ClientId} (differs : other ≠ id) :
        (world.shared.setClient id (awaited (world.shared.clients id))).linker other =
          world.shared.linker other :=
      congrArg Client.linker (Shared.clients_setClient_ne differs)
    obtain ⟨accepted, tracked⟩ := invariant.tracked
    have unknown (inside : (msgReq, (world.shared.linker id).next) ∈ world.shared.pairs id) :
        False := unqueued (mem_messageIds.mpr ⟨_, inside, Or.inl rfl⟩)
    obtain ⟨copiers', still'⟩ := copiers.addRequest working awaiting.pooled carried
      (accounts.created invariant reader unconnected line) ⟨fun place endpoint here =>
        unknown (tracked.known _ _ (tracked.assigned.known _ _ _ here).1),
        fun done => unknown (invariant.working.relayed _ done).pair⟩ added
    have grows' := grows_queued (shared.clients id) (msgReq, (world.shared.linker id).next)
    refine .setClient (copiers'.still core.working
      (still_grows grows' rfl rfl fun _ _ here _ => here) fun other msg member same => ?_)
      (fun _ _ _ => rfl) (fun other differs => ⟨?_, fun msg above => ?_⟩)
      (fun source msg _ unconnected => ?_) fun msg above => ?_
    · subst same
      exact (core.working.clients other).below msg member
    · have before : Arriving config (world.shared.setClient id
          (awaited (world.shared.clients id))) ledger other :=
        (accounts.arriving other).still (by rw [other_eq differs]) (by rw [other_eq differs])
          (still_others fun _ _ _ => rfl) fun _ _ _ _ => differs
      refine before.still (stays other).reader (stays other).connected still'
        fun source msg reader unconnected => ?_
      rw [other_eq differs] at reader unconnected ⊢
      obtain ⟨free, apart⟩ := invariant.unasked reader unconnected
      rw [extended_ne differs]
      exact ⟨free, apart⟩
    · have next_eq : (shared.linker other).next = (world.shared.linker other).next :=
        (stays other).next.trans (congrArg ALinker.next (other_eq differs))
      exact accounts.fresh other msg (next_eq ▸ above)
    · rw [Shared.linker, Shared.clients_setClient_self] at unconnected
      cases unconnected
    · have next_eq : (shared.linker id).next = (world.shared.linker id).next + 1 := by
        rw [Shared.linker, (stays id).next, Shared.clients_setClient_self]
        rfl
      have above' : (shared.linker id).next ≤ msg := above
      rw [next_eq] at above'
      exact accounts.fresh id msg ((Nat.le_succ _).trans above')
  · exact accounts.connected invariant (grows_responded fun tunnel => tunnel) rfl rfl rfl rfl

theorem Accounts.opens (accounts : world.Accounts config ledger)
    (invariant : world.Invariant config) (id : ClientId) :
    Accounts config ⟨opened world.shared id, world.requester⟩ ledger := by
  have cell : Accounts config ⟨world.shared.newCell 2, world.requester⟩ ledger :=
    accounts.drains invariant (drains_of_clients rfl) fun _ _ => rfl
  have invariant' : Invariant config ⟨world.shared.newCell 2, world.requester⟩ :=
    invariant.drains (drains_of_clients rfl)
  refine .setClient (cell.copiers.still invariant'.working (P := fun _ _ => True)
    (Still.ofClient (fun _ _ => rfl) (fun _ _ _ here => here) (fun _ _ _ => rfl)
      (fun _ _ _ => Iff.rfl) fun _ _ _ => rfl) fun _ _ _ => trivial) (fun _ _ _ => rfl)
    (fun other _ => cell.others other) (fun source msg reader unconnected => ?_)
    (accounts.fresh id)
  rw [Shared.message, Shared.linker, Shared.clients_setClient_self] at *
  exact accounts.arriving id source msg reader unconnected

/-- A tunnel is made with a message that is in no pair, or refused. -/
theorem Accounts.connectTunnel {endpoint : Endpoint} {connects : Bool}
    (accounts : world.Accounts config ledger) (invariant : world.Invariant config)
    (reader : (world.shared.linker id).reader = some (source, msgReq))
    (unconnected : (world.shared.linker id).connected = false)
    (outcome : world.connectTunnel config id msgReq endpoint connects = .ok next) :
    next.Accounts config ledger := by
  have reads : (world.shared.linker id).readerMsg = some msgReq := by
    simp [ALinker.readerMsg, reader]
  obtain ⟨none, unqueued⟩ := invariant.unasked reader unconnected
  rcases connectTunnel_cases outcome with ⟨shared, requester, added, direct⟩ | ⟨response, done, rfl⟩
  · have connecting := connecting_new (invariant.working.clients id)
      (fun forwards => forwards) reads unqueued
    have begins := accounts.opens invariant id
    obtain ⟨core, stays, -⟩ := (invariant.toCore.opened id).addConnection connecting added
    have fits : Fits config.Forwards world.shared.pairs (opened world.shared id)
        (.connector (newConnector config world.shared id msgReq)) := connecting
    have arrives : Arrives config (opened world.shared id) ledger world.requester
        (.connector (newConnector config world.shared id msgReq)) :=
      ⟨by rintro linker exchange ⟨⟩, by rintro linker gen ⟨⟩⟩
    obtain ⟨copiers, still⟩ :=
      begins.copiers.connect (invariant.toCore.opened id).working fits arrives added
    -- whatever the proxy answers, the request is connected
    have connected {client : Client} (grows : (shared.linker id).Grows client.linker)
        (writer : client.linker.writer = (shared.linker id).writer)
        (popped : client.popped = (shared.clients id).popped)
        (reader_eq : client.linker.reader = (shared.linker id).reader)
        (connected : client.linker.connected = true) :
        Accounts config ⟨shared.setClient id client, requester⟩ ledger := by
      refine .setClient (copiers.still core.working (still_grows grows writer popped
        fun source msg here _ => reader_eq ▸ here) fun other msg member same => ?_)
        (fun _ _ _ => rfl) (fun other differs => ⟨?_, fun msg above => ?_⟩)
        (fun source msg _ unconnected => ?_) fun msg above => ?_
      · subst same
        exact (core.working.clients other).below msg member
      · have other_eq : (opened world.shared id).linker other = world.shared.linker other :=
          congrArg Client.linker (clients_opened_ne differs)
        refine (begins.arriving other).still (stays other).reader (stays other).connected still
          fun source msg reader unconnected => ?_
        rw [other_eq] at reader unconnected ⊢
        exact invariant.unasked reader unconnected
      · exact begins.fresh other msg ((stays other).next ▸ above)
      · rw [Shared.linker, Shared.clients_setClient_self, connected] at unconnected
        cases unconnected
      · exact begins.fresh id msg ((stays id).next.ge.trans (grows.next.trans above))
    rcases direct with ⟨-, response, -, rfl⟩ | ⟨-, rfl⟩
    · exact connected (grows_responded fun tunnel => tunnel) rfl rfl rfl rfl
    · exact connected (grows_linked _) rfl rfl rfl rfl
  · have tunnel : (world.shared.linker id).tunneler = true → false = true :=
      fun some => none.symm.trans some
    have responds : Accounts config ⟨world.shared.setClient id
        (responded (world.shared.clients id) msgReq response true false), world.requester⟩ ledger :=
      accounts.connected invariant (grows_responded tunnel) rfl rfl rfl rfl
    have same (other : ClientId) (msg : MessageId) : Shared.message
        ((((opened world.shared id).unlink world.shared.nextCell).release
          world.shared.nextCell).setClient id
            { responded (world.shared.clients id) msgReq response true false with
              linkedCount := Option.none }) other msg =
        Shared.message (world.shared.setClient id
          (responded (world.shared.clients id) msgReq response true false)) other msg := by
      by_cases here : other = id
      · subst here
        simp [Shared.message, Shared.linker]
      · simp [Shared.message, Shared.linker, Shared.clients_setClient_ne here,
          clients_opened_ne here]
    refine responds.drains (invariant.respond reads unconnected done).1 (fun other => ?_) same
    by_cases here : other = id
    · subst here
      rw [Shared.clients_setClient_self, Shared.clients_setClient_self]
      exact ⟨rfl, rfl, rfl, rfl, rfl, rfl, rfl, rfl, rfl, fun _ => .refl _⟩
    · rw [Shared.clients_setClient_ne here, Shared.clients_setClient_ne here, clients_release,
        clients_unlink, clients_opened_ne here]
      exact .refl _

theorem Accounts.connect {connects : Bool} (accounts : world.Accounts config ledger)
    (invariant : world.Invariant config)
    (reader : (world.shared.linker id).reader = some (source, msgReq))
    (outcome : world.connect config id msgReq connects = .ok next) :
    next.Accounts config ledger := by
  unfold World.connect at outcome
  simp only at outcome
  split at outcome
  · rename_i found
    split at outcome
    · exact accounts.connectRequest invariant reader found.1 ⟨found.2.1, found.2.2.1⟩ outcome
    · exact accounts.connectTunnel invariant reader found.1 outcome
  · cases outcome
    exact accounts

theorem Accounts.read {connects : Bool} (accounts : world.Accounts config ledger)
    (invariant : world.Invariant config)
    (outcome : world.read config id rbuf connects = .ok next) :
    next.Accounts config (ledger.record world (.read id rbuf connects)) := by
  rcases read_cases outcome with
    ⟨none, -, rfl⟩ | ⟨source, msgReq, world₁, world₂, reader, receive_eq, connect_eq, finish_eq⟩
  · have same : ledger.record world (.read id rbuf connects) = ledger := by
      simp [Ledger.record, none]
    rw [same]
    refine accounts.drains invariant (Shared.drains_setClient
      ⟨rfl, rfl, rfl, rfl, rfl, rfl, rfl, rfl, rfl, fun _ => .refl _⟩) fun other msg => ?_
    by_cases here : other = id
    · subst here
      simp [Shared.message, Shared.linker, finished]
    · simp [Shared.message, Shared.linker, Shared.clients_setClient_ne here]
  · have recorded : ledger.record world (.read id rbuf connects) = ledger.give id msgReq rbuf := by
      simp only [Ledger.record, reader]
    rw [recorded]
    obtain ⟨invariant₁, invariant₂, -, -, reads, -⟩ :=
      invariant.read_stages reader receive_eq connect_eq finish_eq
    have received := accounts.receive invariant reader receive_eq
    obtain ⟨source', reader₁⟩ : ∃ source', (world₁.shared.linker id).reader =
        some (source', msgReq) := by
      obtain ⟨source', msg, amount, -, rfl⟩ := receive_reads receive_eq
      exact ⟨source', congrArg (fun client => client.linker.reader) Shared.clients_setClient_self⟩
    exact (received.connect invariant₁ reader₁ connect_eq).finishRequest invariant₂ reads finish_eq

theorem Accounts.act {event : Event} (accounts : world.Accounts config ledger)
    (invariant : world.Invariant config) (queued : world.GensQueued)
    (outcome : world.act config event = .ok next) :
    next.Accounts config (ledger.record world event) := by
  cases event with
  | read id rbuf connects => exact accounts.read invariant outcome
  | getWriteSize id => exact accounts.getWriteSize invariant outcome
  | write id maxWrite amount => exact accounts.write invariant outcome
  | delete id =>
      cases outcome
      exact accounts.delete invariant id
  | call id asked =>
      obtain ⟨⟨shared, requester, answer⟩, called, outcome⟩ := bind_eq_ok.mp outcome
      cases outcome
      exact accounts.call invariant queued called
  | close id =>
      cases outcome
      exact accounts.close invariant id

end Accounts

/-! ## Every run -/

section Run

variable {config : Config} {world last : World} {ledger : Ledger} {events : List Event}

theorem accounts_start (config : Config) :
    (start config).Accounts config fun _ _ => {} := by
  refine ⟨⟨fun _ _ _ none => (nomatch none), fun _ none => (nomatch none)⟩,
    fun id source msg reader _ => ?_, fun _ _ _ => rfl⟩
  cases reader
  exact ⟨rfl, Or.inr rfl, rfl⟩

theorem gensQueued_start (config : Config) : (start config).GensQueued := by
  rintro place endpoint gen ⟨linker, none, -⟩
  cases none

theorem Accounts.run (accounts : world.Accounts config ledger) (invariant : world.Invariant config)
    (queued : world.GensQueued) (sent : Throughout config (SentUpstream config) world events)
    (outcome : World.run config world events = .ok last) :
    last.Invariant config ∧ last.Accounts config (world.ledger config ledger events) ∧
      last.GensQueued := by
  induction events generalizing world ledger with
  | nil =>
      cases outcome
      exact ⟨invariant, accounts, queued⟩
  | cons event events ih =>
      obtain ⟨next, step_eq, outcome⟩ := bind_eq_ok.mp outcome
      have later : next.Accounts config (if ∀ id ∈ event.client,
          (world.shared.clients id).alive then ledger.record world event else ledger) := by
        have acted := step_eq
        unfold World.step at acted
        split at acted
        · rename_i alive
          rw [if_pos alive]
          exact accounts.act invariant queued acted
        · rename_i gone
          cases acted
          rw [if_neg gone]
          exact accounts
      have carries := ih later (invariant.step step_eq)
        (gensQueued_step invariant queued sent.1 step_eq) (sent.2 next step_eq) outcome
      rw [World.ledger, step_eq]
      exact carries

/-- What was transferred of the messages in a run. -/
def transits (config : Config) (events : List Event) : Ledger :=
  (start config).ledger config (fun _ _ => {}) events

/-- A request was sent upstream as it was read. -/
def RequestRelayed (config : Config) (ledger : Ledger) (gen : MessageCopier) : Prop :=
  ∃ source request, config.proxy.aReader.readerCreator.readAll (.fresh true)
      (ledger gen.client gen.msgReq).given = .ok (source, request) ∧ request.state = .done ∧
    EncodesRequest config.requester.writer.writerCreator { request with status := -1 }
      (ledger gen.client gen.msgReq).sent

/-- A response is sent to the client as it was read, to the last byte where its pair is deleted. -/
def ResponseRelayed (config : Config) (world : World) (ledger : Ledger) (gen : MessageCopier) :
    Prop :=
  ∃ source reply, config.requester.reader.responseReader.readAll (.fresh false)
      (ledger gen.client gen.msgRes).given = .ok (source, reply) ∧ reply.state = .done ∧
    (0 ≤ reply.status → reply.status ≤ 65534 → ∃ encoding,
      EncodesMessage config.proxy.aWriter.writerCreator
          { reply with url := [], verb := verbUnknown } encoding ∧
        (ledger gen.client gen.msgRes).sent <+: encoding ∧
        (gen.pair ∈ (world.shared.clients gen.client).popped →
          (ledger gen.client gen.msgRes).sent = encoding))

/-- A copier that is done has relayed its request, and its response goes to the client. -/
theorem Accounts.relayed (accounts : world.Accounts config ledger)
    (invariant : world.Invariant config) {gen : MessageCopier}
    (done : gen ∈ world.requester.finished) :
    RequestRelayed config ledger gen ∧ ResponseRelayed config world ledger gen := by
  have relayed := invariant.working.relayed gen done
  obtain ⟨⟨source, request, copy, asks, encodes⟩, source', reply, reads, ended, answers⟩ :=
    accounts.copiers.dealt gen done
  constructor
  · obtain ⟨first, final, requesting, finished, rfl, sent_eq⟩ := encodes
    obtain ⟨whole_done, copy_eq⟩ := asks.copied relayed.request finished.done
    exact ⟨source, request, asks.reads, whole_done, first, final, requesting, finished, copy_eq,
      sent_eq⟩
  · refine ⟨source', reply, reads, ended, fun low high => ?_⟩
    have isRequest : reply.isRequest = false := (MessageSource.extends_readAll reads).isRequest
    have copied_eq := HttpMessage.copied_response isRequest
    by_cases popped : gen.pair ∈ (world.shared.clients gen.client).popped
    · have encodes := answers.popped popped low high
      rw [copied_eq] at encodes
      exact ⟨_, encodes, List.prefix_rfl, fun _ => rfl⟩
    · have replying := answers.waiting popped
      rw [copied_eq] at replying
      obtain ⟨first, requesting⟩ := replying.requesting low high
      obtain ⟨encoding, encodes, longer⟩ :=
        requesting.completes config.proxy.aWriter.isFresh_writerCreator
      have whole : { reply with url := [], verb := verbUnknown, state := .done } =
          { reply with url := [], verb := verbUnknown } := by
        rw [← ended]
      rw [whole] at encodes
      exact ⟨encoding, encodes, longer, fun gone => absurd gone popped⟩

/-- Where each pair is deleted behind the last byte of its request upstream, a copier that is done
has relayed its request, and its response goes to the client. -/
theorem relayed_whole (config : Config) (events : List Event) (last : World)
    (sent : Throughout config (SentUpstream config) (start config) events)
    (outcome : run config (start config) events = .ok last) (gen : MessageCopier)
    (done : gen ∈ last.requester.finished) :
    RequestRelayed config (transits config events) gen ∧
      ResponseRelayed config last (transits config events) gen := by
  obtain ⟨invariant, accounts, -⟩ := (accounts_start config).run (invariant_start config)
    (gensQueued_start config) sent outcome
  exact accounts.relayed invariant done

/-- The pair of a request that was relayed is deleted behind its response. -/
theorem relayed_whole_request : ∃ last,
    run plain (start plain) (relayedRequest ++ [.getWriteSize 0]) = .ok last ∧
      (last.shared.clients 0).popped = [(0, 1)] ∧
      RequestRelayed plain (transits plain (relayedRequest ++ [.getWriteSize 0])) ⟨0, 0, 1⟩ ∧
      ResponseRelayed plain last (transits plain (relayedRequest ++ [.getWriteSize 0]))
        ⟨0, 0, 1⟩ := by
  obtain ⟨last, outcome, popped, finished⟩ : ∃ last,
      run plain (start plain) (relayedRequest ++ [.getWriteSize 0]) = .ok last ∧
        (last.shared.clients 0).popped = [(0, 1)] ∧
          ⟨0, 0, 1⟩ ∈ last.requester.finished := exists_run (by decide +kernel)
  have sent : Throughout plain (SentUpstream plain) (start plain)
      (relayedRequest ++ [.getWriteSize 0]) :=
    (invariant_start plain).throughout_of_checks (fun _ _ => sentUpstream_of_check)
      (by decide +kernel)
  exact ⟨last, outcome, popped, relayed_whole plain _ last sent outcome _ finished⟩

/-! ### Transactions in progress -/

/-- What was sent upstream of a request is how one begins that was read. -/
def RequestRelaying (config : Config) (ledger : Ledger) (gen : MessageCopier) : Prop :=
  ∃ source request, ∃ copy : HttpMessage,
    config.proxy.aReader.readerCreator.readAll (.fresh true)
        (ledger gen.client gen.msgReq).given = .ok (source, request) ∧
    (∃ rest, copy.contents.append rest = request.contents) ∧
    ((ledger gen.client gen.msgReq).sent = [] ∨
      copy.verb = request.verb ∧ copy.url = request.url ∧ ∃ encoding,
        EncodesRequest config.requester.writer.writerCreator { copy with state := .done }
          encoding ∧ (ledger gen.client gen.msgReq).sent <+: encoding)

/-- What was sent of a response is how the one begins that was read. -/
def ResponseRelaying (config : Config) (ledger : Ledger) (gen : MessageCopier) : Prop :=
  ∃ source reply, config.requester.reader.responseReader.readAll (.fresh false)
      (ledger gen.client gen.msgRes).given = .ok (source, reply) ∧
    ((ledger gen.client gen.msgRes).sent = [] ∨
      ∃ encoding, EncodesMessage config.proxy.aWriter.writerCreator
          { reply with url := [], verb := verbUnknown, state := .done } encoding ∧
        (ledger gen.client gen.msgRes).sent <+: encoding)

/-- A copier at work never sends anything but what was read on the other side. -/
theorem relaying_part (config : Config) (events : List Event) (last : World)
    (sent : Throughout config (SentUpstream config) (start config) events)
    (outcome : run config (start config) events = .ok last) (place : ObjectId)
    (endpoint : Endpoint) (gen : MessageCopier)
    (here : last.requester.Attached place endpoint gen) :
    RequestRelaying config (transits config events) gen ∧
      ResponseRelaying config (transits config events) gen := by
  obtain ⟨-, accounts, queued⟩ := (accounts_start config).run (invariant_start config)
    (gensQueued_start config) sent outcome
  obtain ⟨linker, found, -, gen_eq⟩ := id here
  obtain ⟨exchange, busy, rfl⟩ := Option.map_eq_some_iff.mp gen_eq
  have isFresh := config.requester.writer.isFresh_writerCreator
  obtain ⟨⟨source, request, copy, asks, asking⟩, reply, reads, -, -, -, answers⟩ :=
    accounts.copiers.deals place linker exchange found busy
  constructor
  · refine ⟨source, request, copy, asks.reads, ⟨_, asks.handing.contents⟩, ?_⟩
    by_cases begun : copy = .fresh true
    · subst begun
      exact Or.inl (Transfer.Asking.sent_fresh isFresh asking)
    · obtain ⟨verb, url⟩ := asks.firstLine begun
      exact (asking.begins isFresh).imp_right fun begins => ⟨verb, url, begins⟩
  · refine ⟨exchange.reader, reply, reads, ?_⟩
    have response := HttpMessage.copied_response (MessageSource.extends_readAll reads).isRequest
    have begins := (answers.waiting (queued place endpoint exchange.gen here)).begins
      config.proxy.aWriter.isFresh_writerCreator
    rwa [response] at begins

/-- A part of a request is written, and a part of its response, which has arrived. -/
def halfRequest : List Event :=
  [.read 0 getRequest true, .call 0 .getWriteSize, .call 0 (.write 100 10),
    .call 0 (.read emptyResponse), .getWriteSize 0, .write 0 100 10, .getWriteSize 0]

theorem relaying_part_half : ∃ last, run plain (start plain) halfRequest = .ok last ∧
    last.genOf 0 = some ⟨0, 0, 1⟩ ∧
    RequestRelaying plain (transits plain halfRequest) ⟨0, 0, 1⟩ ∧
    ResponseRelaying plain (transits plain halfRequest) ⟨0, 0, 1⟩ := by
  obtain ⟨last, outcome, gen⟩ : ∃ last, run plain (start plain) halfRequest = .ok last ∧
      last.genOf 0 = some ⟨0, 0, 1⟩ := exists_run (by decide +kernel)
  have sent : Throughout plain (SentUpstream plain) (start plain) halfRequest :=
    (invariant_start plain).throughout_of_checks (fun _ _ => sentUpstream_of_check)
      (by decide +kernel)
  obtain ⟨endpoint, here⟩ := attached_of_genOf gen
  exact ⟨last, outcome, gen, relaying_part plain halfRequest last sent outcome 0 endpoint _ here⟩

end Run
end World
end GnyProxy
