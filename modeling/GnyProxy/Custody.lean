import GnyProxy.Requests

/-!
# Who deletes a message

`ALinker::get_write_size` deletes the messages of a pair, and a `Connector` the message it has sent.
Where they do so early, a `ReqLinker` or the reader of the client is left with a message that is
gone; where a socket upstream is closed, a response is left with nobody to fill it.
-/

namespace GnyProxy

open HttpMessage (Drains Extends InStep Onward)

/-! ## What a step does -/

namespace World

variable {config : Config} {world next last : World} {event : Event} {events : List Event}
  {id : ClientId} {client : Client}

/-- Upstream and the other clients go on where only one client is written to. -/
theorem continues_setClient (tends : (world.shared.clients id).Tends client) :
    world.Continues ⟨world.shared.setClient id client, world.requester⟩ :=
  ⟨Shared.tends_setClient tends, fun _ _ _ here => Or.inl here, rfl⟩

theorem tends_sameInput {linker : ALinker} {client later : Client}
    (same : client.linker.SameInput linker) (linker_eq : later.linker = linker)
    (alive : later.alive = true → client.alive = true) (popped : later.popped = client.popped)
    (queue : linker.responseQueue = client.linker.responseQueue)
    (forwarded : later.forwarded = client.forwarded) : client.Tends later := by
  subst linker_eq
  refine ⟨alive, popped, ?_, same.next.ge, ?_, fun msg _ => (same.drains msg).state,
    fun msg _ => by rw [(same.drains msg).state], fun msg member => Or.inl (forwarded ▸ member)⟩
  · rw [Client.pairs, Client.pairs, popped, queue]
    exact fun _ member => member
  · rw [ALinker.readerMsg, same.reader, ALinker.readerMsg]

theorem Invariant.continues_write {maxWrite amount : Nat} (invariant : world.Invariant config)
    (outcome : world.write id maxWrite amount = .ok next) : world.Continues next := by
  unfold World.write at outcome
  simp only at outcome
  split at outcome
  · obtain ⟨⟨linker, sent⟩, write_eq, outcome⟩ := bind_eq_ok.mp outcome
    cases outcome
    obtain ⟨same, -, queue, -⟩ :=
      ALinker.write_spec (invariant.working.clients id).first write_eq
    exact continues_setClient (tends_sameInput same rfl (fun alive => alive) rfl queue rfl)
  · cases outcome
    exact .refl _

theorem continues_delete (world : World) (id : ClientId) : world.Continues (world.delete id) := by
  have gone : world.Continues ⟨world.shared.setClient id
      { world.shared.clients id with alive := false }, world.requester⟩ :=
    continues_setClient (tends_sameInput ⟨rfl, rfl, rfl, rfl, rfl, fun _ => .refl _⟩ rfl
      (fun alive => nomatch alive) rfl rfl rfl)
  simp only [World.delete]
  split
  · exact gone.trans ⟨fun other => (Shared.drains_unlink _ _ other).tends,
      fun _ _ _ here => Or.inl here, rfl⟩
  · exact gone

theorem Invariant.continues_call {place : ObjectId} {asked : Call} {shared : Shared}
    {requester : Requester MessageCopier Connector} {answer : Answer}
    (invariant : world.Invariant config)
    (outcome : world.requester.call world.shared place asked = .ok (shared, requester, answer)) :
    world.Continues ⟨shared, requester⟩ := by
  obtain ⟨core, served⟩ := invariant.toCore.call outcome
  have admits : Requester.Admits [] world.requester requester := .call outcome
  exact ⟨fun id => (served id).tends (invariant.working.clients id) (core.working.clients id),
    fun place endpoint gen here =>
      (admits.attached place endpoint gen here).imp_right fun new => (nomatch new),
    admits.abandoned⟩

/-- A step that is no more than this: everything goes on, a client is written to, a client reads a
request, or a socket upstream is closed. -/
theorem Invariant.step_effect (invariant : world.Invariant config)
    (outcome : world.step config event = .ok next) :
    world.Continues next ∨
    (∃ id, event = .getWriteSize id ∧ (world.shared.clients id).alive = true ∧
      world.getWriteSize config id = .ok next) ∨
    (∃ id rbuf connects source msgReq world₁ world₂, event = .read id rbuf connects ∧
      (world.shared.linker id).reader = some (source, msgReq) ∧
      world.receive id source msgReq rbuf = .ok world₁ ∧
      world₁.connect config id msgReq connects = .ok world₂ ∧
      world₂.finishRequest config id msgReq = .ok next) ∨
    ∃ id, event = .close id ∧ next = ⟨(world.requester.close world.shared id).1,
      (world.requester.close world.shared id).2⟩ := by
  rcases step_cases outcome with ⟨alive, outcome⟩ | rfl
  · cases event with
    | read id rbuf connects =>
        rcases read_cases outcome with
          ⟨-, -, rfl⟩ | ⟨source, msgReq, world₁, world₂, reader, receive_eq, connect_eq, finish_eq⟩
        · refine Or.inl (continues_setClient (Client.Drains.tends ?_))
          exact ⟨rfl, rfl, rfl, rfl, rfl, rfl, rfl, rfl, rfl, fun _ => .refl _⟩
        · exact Or.inr (Or.inr (Or.inl ⟨id, rbuf, connects, source, msgReq, world₁, world₂, rfl,
            reader, receive_eq, connect_eq, finish_eq⟩))
    | getWriteSize id => exact Or.inr (Or.inl ⟨id, rfl, alive id rfl, outcome⟩)
    | write id maxWrite amount => exact Or.inl (invariant.continues_write outcome)
    | delete id =>
        cases outcome
        exact Or.inl (continues_delete world id)
    | call id asked =>
        obtain ⟨⟨shared, requester, answer⟩, called, outcome⟩ := bind_eq_ok.mp outcome
        cases outcome
        exact Or.inl (invariant.continues_call called)
    | close id =>
        cases outcome
        exact Or.inr (Or.inr (Or.inr ⟨id, rfl, rfl⟩))
  · exact Or.inl (.refl _)

end World

namespace Requester

variable {γ δ σ : Type} [Connection δ σ]

/-- What is attached when a socket was closed was attached before. -/
theorem attached_close {requester : Requester γ δ} {state : σ} {id place : ObjectId}
    {endpoint : Endpoint} {gen : γ}
    (here : (requester.close state id).2.Attached place endpoint gen) :
    requester.Attached place endpoint gen := by
  rcases close_cases requester state id with ⟨-, same⟩ | ⟨wrapper, -, same⟩
  · rwa [same] at here
  · have start : (requester.unwrapped id wrapper.endpoint).Attached place endpoint gen →
        requester.Attached place endpoint gen := fun here => here
    rw [same] at here
    exact foldl_delete (P := fun (_ : σ) (requester' : Requester γ δ) =>
      requester'.Attached place endpoint gen → requester.Attached place endpoint gen)
      (fun requester' state' linked _ before here => before (attached_delete.mp here).2) start here

end Requester

/-! ## Runs of one client -/

namespace World

/-- HTTP/1.1 on both sides, no proxy upstream, and a socket for each request. -/
def plain : Config := ⟨⟨.v11, .v11, none, []⟩, ⟨.v11, .v11, false, 10, id⟩⟩

def getRequest : Str := ascii "GET / HTTP/1.1\r\nHost: a\r\n\r\n"

def emptyResponse : Str := ascii "HTTP/1.1 200 OK\r\nContent-Length: 0\r\n\r\n"

/-- The `gen` of an object. -/
def genOf (world : World) (place : ObjectId) : Option MessageCopier :=
  match world.requester.linked place with
  | some (.reqLinker linker) => linker.gen
  | _ => none

theorem attached_of_genOf {world : World} {place : ObjectId} {gen : MessageCopier}
    (found : world.genOf place = some gen) :
    ∃ endpoint, world.requester.Attached place endpoint gen := by
  unfold genOf at found
  split at found
  · rename_i linker linked
    exact ⟨linker.endpoint, linker, linked, rfl, found⟩
  · cases found

/-- A run that is evaluated. -/
theorem exists_run {config : Config} {events : List Event} {P : World → Prop} [DecidablePred P]
    (evaluates : ((run config (start config) events).toOption.map fun last => decide (P last)) =
      some true) : ∃ last, run config (start config) events = .ok last ∧ P last := by
  cases outcome : run config (start config) events with
  | error fault =>
      rw [outcome] at evaluates
      cases evaluates
  | ok last =>
      rw [outcome] at evaluates
      exact ⟨last, rfl, of_decide_eq_true (Option.some.inj evaluates)⟩

end World

/-! ## Messages in use upstream -/

/-- A message that was allocated, and deleted neither by `get_write_size` nor by a `Connector`. -/
def Client.Live (client : Client) (msg : MessageId) : Prop :=
  msg < client.linker.next ∧ msg ∉ messageIds client.popped ∧ msg ∉ client.forwarded

namespace World

variable {config : Config} {world next last : World} {event : Event} {events : List Event}
  {id : ClientId}

/-- Every `gen` of a `ReqLinker` refers to live messages. -/
def GensLive (world : World) : Prop :=
  ∀ place endpoint gen, world.requester.Attached place endpoint gen →
    (world.shared.clients gen.client).Live gen.msgReq ∧
      (world.shared.clients gen.client).Live gen.msgRes

/-- When a pair is deleted, its request was sent upstream in full. -/
def SentUpstream (config : Config) (world : World) (event : Event) : Prop :=
  ∀ id, event = .getWriteSize id → (world.shared.clients id).alive = true →
    ∀ place linker exchange, world.requester.linked place = some (.reqLinker linker) →
      linker.exchange = some exchange → exchange.gen.client = id →
      (world.shared.linker id).Deletes config.proxy exchange.gen.pair →
      exchange.writer.buffer = [] ∧ exchange.outMsg.isSent = true

/-- No pair is deleted that a `gen` refers to. -/
def GensQueued (world : World) : Prop :=
  ∀ place endpoint gen, world.requester.Attached place endpoint gen →
    gen.pair ∉ (world.shared.clients gen.client).popped

theorem Invariant.gensLive (invariant : world.Invariant config) (queued : world.GensQueued) :
    world.GensLive := by
  intro place endpoint gen here
  obtain ⟨linker, found, -, gen_eq⟩ := id here
  obtain ⟨exchange, busy, rfl⟩ := Option.map_eq_some_iff.mp gen_eq
  have carried : Carried world.shared.pairs world.shared exchange :=
    invariant.working.objects place _ found exchange busy
  have sound := invariant.working.clients exchange.gen.client
  have live (msg : MessageId)
      (shares : msg = exchange.gen.pair.1 ∨ msg = exchange.gen.pair.2) :
      (world.shared.clients exchange.gen.client).Live msg := by
    have member : msg ∈ messageIds (world.shared.pairs exchange.gen.client) :=
      mem_messageIds.mpr ⟨_, carried.pair, shares⟩
    refine ⟨sound.below msg member, fun popped => ?_, fun forwarded => ?_⟩
    · obtain ⟨other, inside, shares'⟩ := mem_messageIds.mp popped
      have pair :=
        pair_unique sound.once carried.pair (List.mem_append_left _ inside) shares shares'
      exact queued place endpoint exchange.gen here (pair ▸ inside)
    · exact (sound.forwarded msg forwarded).2.2.2 member
  exact ⟨live _ (Or.inl rfl), live _ (Or.inr rfl)⟩

/-- Behind its call a copier that has taken all is done, so a `gen` that is left has not. -/
theorem Invariant.not_deletes (invariant : world.Invariant config) {place : ObjectId}
    {linker : ReqLinker MessageCopier} {exchange : Exchange MessageCopier}
    (found : world.requester.linked place = some (.reqLinker linker))
    (busy : linker.exchange = some exchange)
    (sent : exchange.writer.buffer = [] ∧ exchange.outMsg.isSent = true) :
    ¬(world.shared.linker exchange.gen.client).Deletes config.proxy exchange.gen.pair := by
  rintro ⟨front, back, -, concluded, -⟩
  have carried : Carried world.shared.pairs world.shared exchange :=
    invariant.working.objects place _ found exchange busy
  obtain ⟨sink, msg, size_eq, sent_msg⟩ := concluded.response
  have drains := (MessageSink.drains_getWriteSize size_eq).2
  have done : (world.shared.message exchange.gen.client exchange.gen.msgRes).state = .done :=
    drains.state.symm.trans ((HttpMessage.isSent_iff msg).mp sent_msg).1
  exact carried.going ⟨sent.1, carried.response.isSent done, sent.2⟩

theorem Continues.gensQueued (continues : world.Continues next) (queued : world.GensQueued) :
    next.GensQueued := by
  intro place endpoint gen here member
  rw [(continues.clients gen.client).popped] at member
  rcases continues.attached place endpoint gen here with before | new
  · exact queued place endpoint gen before member
  · exact new (List.mem_append_left _ member)

theorem gensQueued_setClient {client : Client} (queued : world.GensQueued)
    (popped : client.popped = (world.shared.clients id).popped) :
    GensQueued ⟨world.shared.setClient id client, world.requester⟩ := by
  intro place endpoint gen here
  have before := queued place endpoint gen here
  by_cases same : gen.client = id
  · rw [same] at before
    rwa [same, Shared.clients_setClient_self, popped]
  · rwa [Shared.clients_setClient_ne same]

theorem gensQueued_step (invariant : world.Invariant config) (queued : world.GensQueued)
    (sent : SentUpstream config world event) (outcome : world.step config event = .ok next) :
    next.GensQueued := by
  rcases invariant.step_effect outcome with continues | ⟨id, rfl, alive, outcome⟩ |
    ⟨id, rbuf, connects, source, msgReq, world₁, world₂, rfl, reader, receive_eq, connect_eq,
      finish_eq⟩ | ⟨id, rfl, rfl⟩
  · exact continues.gensQueued queued
  · obtain ⟨linker, size, popped, -, -, -, -, -, deletes, rfl⟩ :=
      invariant.getWriteSize_cases outcome
    intro place endpoint gen here member
    by_cases same : gen.client = id
    · subst same
      rw [Shared.clients_setClient_self] at member
      rcases List.mem_append.mp member with before | now
      · exact queued place endpoint gen here before
      · obtain ⟨reqLinker, found, -, gen_eq⟩ := here
        obtain ⟨exchange, busy, rfl⟩ := Option.map_eq_some_iff.mp gen_eq
        have goes := (deletes exchange.gen.pair).mp now
        exact invariant.not_deletes found busy
          (sent _ rfl alive place reqLinker exchange found busy rfl goes) goes
    · rw [Shared.clients_setClient_ne same] at member
      exact queued place endpoint gen here member
  · obtain ⟨-, -, -, continues, -, client, finishes⟩ :=
      invariant.read_stages reader receive_eq connect_eq finish_eq
    obtain ⟨source', msg, trace, -, rfl⟩ := receive_cases receive_eq
    have received := continues.gensQueued (gensQueued_setClient queued rfl)
    rw [finishes.next]
    exact gensQueued_setClient received finishes.popped
  · intro place endpoint gen here
    have stays := (invariant.close id).2 gen.client
    rw [stays.popped]
    exact queued place endpoint gen (Requester.attached_close here)

/-- Where each pair is deleted behind the last byte of its request upstream, no `ReqLinker` is left
with a message that is gone. -/
theorem gensLive_of_sent (sent : Throughout config (SentUpstream config) (start config) events)
    (outcome : run config (start config) events = .ok last) : last.GensLive := by
  have start_queued : (start config).GensQueued := by
    rintro place endpoint gen ⟨linker, none, -⟩
    cases none
  obtain ⟨invariant, queued⟩ := Invariant.run_keeps (P := GensQueued)
    (fun world event next invariant queued sent outcome =>
      gensQueued_step invariant queued sent outcome)
    (invariant_start config) start_queued sent outcome
  exact invariant.gensLive queued

/-- Whether a client deletes no pair of a copier that has more to send. -/
def sendsFirst (config : Config) (world : World) : Event → Bool
  | .getWriteSize id =>
      match world.getWriteSize config id with
      | .ok next => decide (∀ place < world.requester.next,
          ∀ exchange ∈ world.requester.exchangeAt place,
            exchange.gen.client = id ∧ exchange.gen.pair ∈ (next.shared.clients id).popped →
              exchange.writer.buffer = [] ∧ exchange.outMsg.isSent = true)
      | .error _ => false
  | _ => true

theorem sentUpstream_of_check (invariant : world.Invariant config)
    (checked : sendsFirst config world event = true) : SentUpstream config world event := by
  rintro id rfl alive place linker exchange found busy client deletes
  simp only [sendsFirst] at checked
  cases outcome : world.getWriteSize config id with
  | error fault =>
      rw [outcome] at checked
      cases checked
  | ok next =>
      rw [outcome] at checked
      have holds := of_decide_eq_true checked
      obtain ⟨linker', size, popped, -, -, -, -, -, popped_iff, rfl⟩ :=
        invariant.getWriteSize_cases outcome
      have inside : exchange.gen.pair ∈ popped := (popped_iff _).mpr deletes
      have exchange_eq : world.requester.exchangeAt place = some exchange := by
        rw [Requester.exchangeAt, found]
        exact busy
      have old : place < world.requester.next := by
        by_contra beyond
        cases found.symm.trans (invariant.pooled.fresh place (not_lt.mp beyond)).1
      exact holds place old exchange exchange_eq ⟨client, by simp [inside]⟩

/-- A response arrives before the request is written. -/
def earlyResponse : List Event :=
  [.read 0 getRequest true, .call 0 .getWriteSize, .call 0 (.read emptyResponse)]

/-- The early response goes to the client, and with it the pair is deleted. -/
theorem not_gens_live : ∃ last, run plain (start plain)
    (earlyResponse ++ [.getWriteSize 0, .write 0 100 100, .getWriteSize 0]) = .ok last ∧
      ¬last.GensLive := by
  obtain ⟨last, outcome, gen, popped⟩ : ∃ last, run plain (start plain)
      (earlyResponse ++ [.getWriteSize 0, .write 0 100 100, .getWriteSize 0]) = .ok last ∧
      last.genOf 0 = some ⟨0, 0, 1⟩ ∧ (last.shared.clients 0).popped = [(0, 1)] :=
    exists_run (by decide +kernel)
  refine ⟨last, outcome, fun live => ?_⟩
  obtain ⟨endpoint, here⟩ := attached_of_genOf gen
  exact (live 0 endpoint _ here).1.2.1 (by rw [popped]; decide)

/-! ## The message that is read -/

/-- The message that a client reads is live. -/
def ReaderLive (world : World) : Prop :=
  ∀ id, (world.shared.clients id).alive = true → ∀ msg,
    (world.shared.linker id).readerMsg = some msg → (world.shared.clients id).Live msg

/-- The messages that the connectors behind a socket have not sent. -/
def Unsent (world : World) (place : ObjectId) (client : ClientId) (msg : MessageId) : Prop :=
  ∃ wrapper object connector sink, world.requester.wrappers place = some wrapper ∧
    object ∈ wrapper.conn.linked ∧ world.requester.linked object = some (.connector connector) ∧
    connector.writer = some (sink, msg) ∧ connector.conn.client = client

/-- In a tunnel no pair is deleted whose request is read, and no socket is closed whose connector
has the message that is read. -/
def ReadToTheEnd (config : Config) (world : World) (event : Event) : Prop :=
  ∀ id, (world.shared.clients id).alive = true → ∀ msg,
    (world.shared.linker id).readerMsg = some msg →
      (event = .getWriteSize id → (world.shared.linker id).tunneler = true →
        ∀ msgRes, ¬(world.shared.linker id).Deletes config.proxy (msg, msgRes)) ∧
      ∀ place, event = .close place → ¬world.Unsent place id msg

/-- The message that a client reads is not done, and was deleted neither by the client nor, while
the client is there, by a connector. -/
structure Reads (client : Client) : Prop where
  unfinished : client.Unfinished
  queued : ∀ msg, client.linker.readerMsg = some msg → msg ∉ messageIds client.popped
  kept : client.alive = true → ∀ msg, client.linker.readerMsg = some msg → msg ∉ client.forwarded

theorem unfinished_tends {client later : Client} (unfinished : client.Unfinished)
    (tends : client.Tends later) : later.Unfinished := by
  intro msg same
  rw [tends.readerMsg] at same
  rw [tends.state msg same]
  exact unfinished msg same

theorem Reads.tends {client later : Client} (reads : Reads client) (tends : client.Tends later) :
    Reads later := by
  have unfinished := unfinished_tends reads.unfinished tends
  refine ⟨unfinished, fun msg same => ?_, fun alive msg same member => ?_⟩
  · rw [tends.readerMsg] at same
    rw [tends.popped]
    exact reads.queued msg same
  · rcases tends.forwarded msg member with before | ⟨-, done⟩
    · exact reads.kept (tends.alive alive) msg (tends.readerMsg.symm.trans same) before
    · exact unfinished msg same done

/-- A client is written to: without a tunnel the request of a pair that is deleted is finished. -/
theorem Invariant.reads_getWriteSize (invariant : world.Invariant config)
    (reads : ∀ id, Reads (world.shared.clients id)) (alive : (world.shared.clients id).alive = true)
    (kept : ReadToTheEnd config world (.getWriteSize id))
    (outcome : world.getWriteSize config id = .ok next) (other : ClientId) :
    Reads (next.shared.clients other) := by
  obtain ⟨linker, size, popped, same, -, -, -, -, deletes, rfl⟩ :=
    invariant.getWriteSize_cases outcome
  refine Shared.forall_setClient.mpr ⟨?_, fun other _ => reads other⟩ other
  have readerMsg : linker.readerMsg = (world.shared.linker id).readerMsg := by
    rw [ALinker.readerMsg, same.reader, ALinker.readerMsg]
  refine ⟨fun msg current => ?_, fun msg current member => ?_, fun alive msg current => ?_⟩
  · rw [readerMsg] at current
    rw [(same.drains msg).state]
    exact (reads id).unfinished msg current
  · rw [readerMsg] at current
    rw [messageIds_append] at member
    rcases List.mem_append.mp member with before | now
    · exact (reads id).queued msg current before
    · obtain ⟨pair, inside, shares⟩ := mem_messageIds.mp now
      have goes := (deletes pair).mp inside
      obtain ⟨front, back, queue, concluded, -⟩ := goes
      rcases shares with rfl | rfl
      · rcases concluded.request with tunnel | sent
        · exact (kept id alive pair.1 current).1 rfl tunnel pair.2 ((deletes pair).mp inside)
        · exact (reads id).unfinished pair.1 current ((HttpMessage.isSent_iff _).mp sent).1
      · have queued : pair ∈ (world.shared.linker id).responseQueue := by simp [queue]
        have inside' : pair ∈ world.shared.pairs id := List.mem_append_right _ queued
        exact ((invariant.working.clients id).reading pair.2 current).2.2
          (List.mem_map_of_mem inside')
  · rw [readerMsg] at current
    exact (reads id).kept alive msg current

theorem Invariant.reads_read {rbuf : Str} {connects : Bool} {source : MessageSource}
    {msgReq : MessageId} {world₁ world₂ : World} (invariant : world.Invariant config)
    (reads : ∀ id, Reads (world.shared.clients id))
    (reader : (world.shared.linker id).reader = some (source, msgReq))
    (receive_eq : world.receive id source msgReq rbuf = .ok world₁)
    (connect_eq : world₁.connect config id msgReq connects = .ok world₂)
    (finish_eq : world₂.finishRequest config id msgReq = .ok next) (other : ClientId) :
    Reads (next.shared.clients other) := by
  obtain ⟨-, invariant₂, -, continues, reads₂, client, finishes⟩ :=
    invariant.read_stages reader receive_eq connect_eq finish_eq
  obtain ⟨source', msg, trace, -, rfl⟩ := receive_cases receive_eq
  have current : (world.shared.linker id).readerMsg = some msgReq := by
    simp [ALinker.readerMsg, reader]
  have tends := continues.clients other
  rw [finishes.next]
  by_cases here : other = id
  · subst here
    rw [Shared.clients_setClient_self] at tends ⊢
    have sound := invariant₂.working.clients other
    have popped : (world₂.shared.clients other).popped = (world.shared.clients other).popped :=
      tends.popped
    refine ⟨finishes.unfinished, fun msg' same member => ?_, fun alive msg' same member => ?_⟩
    · rw [finishes.popped] at member
      rcases finishes.grows.reading msg' same with before | ⟨low, -⟩
      · obtain rfl := Option.some.inj (reads₂.symm.trans before)
        rw [popped] at member
        exact (reads other).queued msgReq current member
      · have inside : msg' ∈ messageIds (world₂.shared.pairs other) := by
          rw [Shared.pairs, Client.pairs, messageIds_append]
          exact List.mem_append_left _ member
        exact absurd (sound.below msg' inside) (not_lt.mpr low)
    · rw [finishes.forwarded] at member
      rw [finishes.alive] at alive
      rcases finishes.grows.reading msg' same with before | ⟨low, -⟩
      · obtain rfl := Option.some.inj (reads₂.symm.trans before)
        rcases tends.forwarded msgReq member with old | ⟨below, done⟩
        · exact (reads other).kept (tends.alive alive) msgReq current old
        · refine finishes.unfinished msgReq same ?_
          rw [finishes.grows.messages msgReq below]
          exact done
      · exact absurd (sound.forwarded msg' member).2.2.1 (not_lt.mpr low)
  · rw [Shared.clients_setClient_ne here] at tends ⊢
    exact (reads other).tends tends

/-- The connectors that are deleted with a socket delete what they have not sent. -/
theorem forwarded_close {place : ObjectId} {msg : MessageId}
    (member : msg ∈ ((world.requester.close world.shared place).1.clients id).forwarded) :
    msg ∈ (world.shared.clients id).forwarded ∨ world.Unsent place id msg := by
  rcases Requester.close_cases world.requester world.shared place with
    ⟨-, same⟩ | ⟨wrapper, found, same⟩
  · rw [same] at member
    exact Or.inl member
  · have start : (∀ object linked,
        (world.requester.unwrapped place wrapper.endpoint).linked object = some linked →
          world.requester.linked object = some linked) ∧
        (msg ∈ (world.shared.clients id).forwarded →
          msg ∈ (world.shared.clients id).forwarded ∨ world.Unsent place id msg) :=
      ⟨fun _ _ here => here, Or.inl⟩
    rw [same] at member
    refine (Requester.foldl_delete (P := fun (shared : Shared)
        (requester : Requester MessageCopier Connector) =>
      (∀ object linked, requester.linked object = some linked →
        world.requester.linked object = some linked) ∧
      (msg ∈ (shared.clients id).forwarded →
        msg ∈ (world.shared.clients id).forwarded ∨ world.Unsent place id msg))
      (fun requester shared object inside holds => ?_) start).2 member
    obtain ⟨same, before⟩ := holds
    refine ⟨fun other linked here => ?_, ?_⟩
    · rw [(Requester.delete_rest requester shared object).2.2.2] at here
      exact same other linked (of_update_none here).2
    · rcases requester.delete_state shared object with ⟨connector, here, deleted⟩ | ⟨-, deleted⟩
      · rw [deleted]
        intro gone
        change msg ∈ ((connector.delete shared).clients id).forwarded at gone
        cases writer : connector.writer with
        | none =>
            have kept : connector.delete shared = shared.unlink connector.conn.linkedCount := by
              simp only [Connector.delete, writer]
            rw [kept, (Shared.drains_unlink _ connector.conn.linkedCount id).forwarded] at gone
            exact before gone
        | some own =>
            obtain ⟨sink, own⟩ := own
            have unlinked : connector.delete shared =
                (shared.forget connector.conn.client own).unlink connector.conn.linkedCount := by
              simp only [Connector.delete, writer]
            rw [unlinked, (Shared.drains_unlink _ connector.conn.linkedCount id).forwarded] at gone
            by_cases eq : id = connector.conn.client
            · subst eq
              rw [Shared.forget, Shared.clients_setClient_self] at gone
              rcases List.mem_append.mp gone with old | new
              · exact before old
              · obtain rfl := List.mem_singleton.mp new
                exact Or.inr ⟨wrapper, object, connector, sink, found, inside,
                  same object _ here, writer, rfl⟩
            · rw [Shared.forget, Shared.clients_setClient_ne eq] at gone
              exact before gone
      · rw [deleted]
        exact before

theorem reads_step (invariant : world.Invariant config)
    (reads : ∀ id, Reads (world.shared.clients id)) (kept : ReadToTheEnd config world event)
    (outcome : world.step config event = .ok next) : ∀ id, Reads (next.shared.clients id) := by
  rcases invariant.step_effect outcome with continues | ⟨id, rfl, alive, outcome⟩ |
    ⟨id, rbuf, connects, source, msgReq, world₁, world₂, rfl, reader, receive_eq, connect_eq,
      finish_eq⟩ | ⟨place, rfl, rfl⟩
  · exact fun id => (reads id).tends (continues.clients id)
  · exact invariant.reads_getWriteSize reads alive kept outcome
  · exact invariant.reads_read reads reader receive_eq connect_eq finish_eq
  · intro id
    have stays := (invariant.close place).2 id
    have sound := invariant.working.clients id
    refine ⟨(reads id).unfinished.stays sound stays, fun msg same => ?_,
      fun alive msg same member => ?_⟩
    · rw [stays.readerMsg] at same
      rw [stays.popped]
      exact (reads id).queued msg same
    · rw [stays.readerMsg] at same
      rw [stays.alive] at alive
      rcases forwarded_close member with before | unsent
      · exact (reads id).kept alive msg same before
      · exact (kept id alive msg same).2 place rfl unsent

/-- Where a request is not deleted before its end by a tunnel, or with the socket that it should go
to, what a client reads is live. -/
theorem reader_live (config : Config) (events : List Event) (last : World)
    (kept : Throughout config (ReadToTheEnd config) (start config) events)
    (outcome : run config (start config) events = .ok last) : last.ReaderLive := by
  have start_reads (id : ClientId) : Reads ((start config).shared.clients id) := by
    refine ⟨fun msg same => ?_, fun _ _ none => (nomatch none), fun _ _ _ none => (nomatch none)⟩
    rw [show ((start config).shared.clients id).linker.messages msg = .fresh true from rfl]
    simp [HttpMessage.fresh]
  obtain ⟨invariant, reads⟩ := Invariant.run_keeps
    (P := fun world => ∀ id, Reads (world.shared.clients id))
    (fun world event next invariant reads kept outcome => reads_step invariant reads kept outcome)
    (invariant_start config) start_reads kept outcome
  intro id alive msg same
  exact ⟨((invariant.working.clients id).reading msg same).1, (reads id).queued msg same,
    (reads id).kept alive msg same⟩

/-- Whether what a client reads is in no pair that a tunnel deletes, and no connector has a message
to send. -/
def readsOn (config : Config) (world : World) : Event → Bool
  | .getWriteSize id =>
      match world.getWriteSize config id with
      | .ok next => decide ((world.shared.linker id).tunneler = true →
          ∀ msg ∈ (world.shared.linker id).readerMsg,
            msg ∉ messageIds (next.shared.clients id).popped)
      | .error _ => false
  | .close _ => (List.range world.requester.next).all fun object =>
      match world.requester.linked object with
      | some (.connector connector) => connector.writer.isNone
      | _ => true
  | _ => true

theorem readToTheEnd_of_check (invariant : world.Invariant config)
    (checked : readsOn config world event = true) : ReadToTheEnd config world event := by
  refine fun id alive msg reads => ⟨?_, ?_⟩
  · rintro rfl tunnel msgRes deletes
    simp only [readsOn] at checked
    cases outcome : world.getWriteSize config id with
    | error fault =>
        rw [outcome] at checked
        cases checked
    | ok next =>
        rw [outcome] at checked
        have apart := of_decide_eq_true checked tunnel msg reads
        obtain ⟨linker, size, popped, -, -, -, -, -, popped_iff, rfl⟩ :=
          invariant.getWriteSize_cases outcome
        have inside : (msg, msgRes) ∈ popped := (popped_iff _).mpr deletes
        refine apart (mem_messageIds.mpr ⟨(msg, msgRes), ?_, Or.inl rfl⟩)
        simp [inside]
  · rintro place rfl ⟨wrapper, object, connector, sink, -, -, found, writer, -⟩
    have old : object < world.requester.next := by
      by_contra beyond
      cases found.symm.trans (invariant.pooled.fresh object (not_lt.mp beyond)).1
    have nothing := List.all_eq_true.mp checked object (List.mem_range.mpr old)
    simp [found, writer] at nothing

/-- The first line of a `CONNECT`. -/
def firstOfConnect : List Event := [.read 0 (ascii "CONNECT a:1 HTTP/1.1\r\n") true]

/-- The response waits until the request is read; then the pair is deleted, and the socket
closed. -/
def wholeConnect : List Event :=
  firstOfConnect ++ [.getWriteSize 0, .read 0 (ascii "Host: a:1\r\n\r\n") true, .write 0 100 100,
    .getWriteSize 0, .close 1]

theorem reader_live_connect : ∃ last, run plain (start plain) wholeConnect = .ok last ∧
    (last.shared.clients 0).popped = [(0, 1)] ∧ last.ReaderLive := by
  obtain ⟨last, outcome, popped⟩ : ∃ last, run plain (start plain) wholeConnect = .ok last ∧
      (last.shared.clients 0).popped = [(0, 1)] := exists_run (by decide +kernel)
  have kept : Throughout plain (ReadToTheEnd plain) (start plain) wholeConnect :=
    (invariant_start plain).throughout_of_checks (fun _ _ => readToTheEnd_of_check)
      (by decide +kernel)
  exact ⟨last, outcome, popped, reader_live plain wholeConnect last kept outcome⟩

/-- The response that the tunnel was made is written before the headers of the request arrive. -/
theorem not_reader_live : ∃ last, run plain (start plain)
    (firstOfConnect ++ [.getWriteSize 0, .write 0 100 100, .getWriteSize 0]) = .ok last ∧
      ¬last.ReaderLive := by
  obtain ⟨last, outcome, alive, reads, popped⟩ : ∃ last, run plain (start plain)
      (firstOfConnect ++ [.getWriteSize 0, .write 0 100 100, .getWriteSize 0]) = .ok last ∧
      (last.shared.clients 0).alive = true ∧ (last.shared.linker 0).readerMsg = some 0 ∧
        (last.shared.clients 0).popped = [(0, 1)] := exists_run (by decide +kernel)
  exact ⟨last, outcome, fun live => (live 0 alive 0 reads).2.1 (by rw [popped]; decide)⟩

/-! ## Responses that wait -/

/-- A response that is not done, in the queue of a client that is there, is filled by one
`ReqLinker`. -/
def Served (world : World) : Prop :=
  ∀ id, (world.shared.clients id).alive = true →
    ∀ pair ∈ (world.shared.linker id).responseQueue,
      (world.shared.message id pair.2).state ≠ .done →
      ∃! place, ∃ endpoint, world.requester.Attached place endpoint ⟨id, pair.1, pair.2⟩

/-- No socket is closed behind which a response is to come for a client that is there. -/
def ClosedIdle (world : World) (event : Event) : Prop :=
  ∀ place wrapper, event = .close place → world.requester.wrappers place = some wrapper →
    ∀ object ∈ wrapper.conn.linked, ∀ endpoint gen, world.requester.Attached object endpoint gen →
      (world.shared.clients gen.client).alive = true →
      (world.shared.message gen.client gen.msgRes).state = .done

/-- A copier that was deleted with its `ReqLinker` is needed no more. -/
def Unneeded (world : World) : Prop :=
  ∀ gen ∈ world.requester.abandoned, (world.shared.clients gen.client).alive = true →
    (world.shared.message gen.client gen.msgRes).state = .done

/-- The sections of messages only go on, and a client that is deleted does not come back. -/
structure Proceeds (client later : Client) : Prop where
  alive : later.alive = true → client.alive = true
  rank : ∀ msg < client.linker.next,
    (client.linker.messages msg).state.rank ≤ (later.linker.messages msg).state.rank

theorem proceeds_setClient {client : Client} (proceeds : Proceeds (world.shared.clients id) client)
    (other : ClientId) :
    Proceeds (world.shared.clients other) ((world.shared.setClient id client).clients other) :=
  (Shared.forall_setClient (P := fun other => Proceeds (world.shared.clients other))).mpr
    ⟨proceeds, fun _ _ => ⟨fun alive => alive, fun _ _ => le_rfl⟩⟩ other

theorem proceeds_received {source : MessageSource} {msgReq : MessageId} {msg : HttpMessage}
    {trace : Trace} {client : Client} (longer : Extends (client.linker.messages msgReq) msg) :
    Proceeds client (received client source msgReq msg trace) := by
  refine ⟨fun alive => alive, fun other _ => ?_⟩
  rw [messages_received]
  by_cases same : other = msgReq
  · subst same
    rw [Function.update_self]
    exact longer.state
  · rw [Function.update_of_ne same]

theorem Invariant.proceeds (invariant : world.Invariant config)
    (outcome : world.step config event = .ok next) (id : ClientId) :
    Proceeds (world.shared.clients id) (next.shared.clients id) := by
  rcases invariant.step_effect outcome with continues | ⟨own, rfl, alive, outcome⟩ |
    ⟨own, rbuf, connects, source, msgReq, world₁, world₂, rfl, reader, receive_eq, connect_eq,
      finish_eq⟩ | ⟨place, rfl, rfl⟩
  · exact ⟨(continues.clients id).alive, (continues.clients id).rank⟩
  · obtain ⟨linker, size, popped, same, -, -, -, -, -, rfl⟩ := invariant.getWriteSize_cases outcome
    have written : Proceeds (world.shared.clients own) { world.shared.clients own with
        linker := linker
        ready := 0 < size
        popped := (world.shared.clients own).popped ++ popped } :=
      ⟨fun alive => alive, fun msg _ => (congrArg MessageState.rank (same.drains msg).state).ge⟩
    exact proceeds_setClient written id
  · obtain ⟨-, -, -, continues, -, client, finishes⟩ :=
      invariant.read_stages reader receive_eq connect_eq finish_eq
    obtain ⟨source', msg, trace, longer, rfl⟩ := receive_cases receive_eq
    have first := proceeds_setClient (@proceeds_received source' msgReq msg trace _ longer) id
    have second := continues.clients id
    have third : Proceeds (world₂.shared.clients id) (next.shared.clients id) := by
      rw [finishes.next]
      refine proceeds_setClient ⟨fun alive => finishes.alive ▸ alive, fun other below => ?_⟩ id
      rw [finishes.grows.messages other below]
      exact le_rfl
    have next_eq : ((world.shared.setClient own
        (received (world.shared.clients own) source' msgReq msg trace)).clients id).linker.next =
          (world.shared.clients id).linker.next := by
      by_cases same : id = own
      · subst same
        rw [Shared.clients_setClient_self]
        rfl
      · rw [Shared.clients_setClient_ne same]
    refine ⟨fun alive => first.alive (second.alive (third.alive alive)), fun other below => ?_⟩
    have below₁ := below.trans_eq next_eq.symm
    exact ((first.rank other below).trans (second.rank other below₁)).trans
      (third.rank other (below₁.trans_le second.next))
  · have stays := (invariant.close place).2 id
    exact ⟨fun alive => stays.alive.symm.trans alive, fun msg _ => stays.rank msg⟩

theorem Invariant.abandoned_step (invariant : world.Invariant config)
    (outcome : world.step config event = .ok next) :
    next.requester.abandoned = world.requester.abandoned ∨
      ∃ place, event = .close place ∧ next = ⟨(world.requester.close world.shared place).1,
        (world.requester.close world.shared place).2⟩ := by
  rcases invariant.step_effect outcome with continues | ⟨id, rfl, alive, outcome⟩ |
    ⟨own, rbuf, connects, source, msgReq, world₁, world₂, rfl, reader, receive_eq, connect_eq,
      finish_eq⟩ | closes
  · exact Or.inl continues.abandoned
  · obtain ⟨linker, size, popped, -, -, -, -, -, -, rfl⟩ := invariant.getWriteSize_cases outcome
    exact Or.inl rfl
  · obtain ⟨-, -, -, continues, -, client, finishes⟩ :=
      invariant.read_stages reader receive_eq connect_eq finish_eq
    obtain ⟨source', msg, trace, -, rfl⟩ := receive_cases receive_eq
    rw [finishes.next]
    exact Or.inl continues.abandoned
  · exact Or.inr closes

/-- The copiers that are deleted with a socket were attached behind it. -/
theorem abandoned_close {place : ObjectId} {gen : MessageCopier}
    (member : gen ∈ (world.requester.close world.shared place).2.abandoned) :
    gen ∈ world.requester.abandoned ∨ ∃ wrapper object endpoint,
      world.requester.wrappers place = some wrapper ∧ object ∈ wrapper.conn.linked ∧
      world.requester.Attached object endpoint gen := by
  rcases Requester.close_cases world.requester world.shared place with
    ⟨-, same⟩ | ⟨wrapper, found, same⟩
  · rw [same] at member
    exact Or.inl member
  · have start : (∀ object endpoint gen,
        (world.requester.unwrapped place wrapper.endpoint).Attached object endpoint gen →
          world.requester.Attached object endpoint gen) ∧
        (gen ∈ (world.requester.unwrapped place wrapper.endpoint).abandoned →
          gen ∈ world.requester.abandoned ∨ ∃ object endpoint, object ∈ wrapper.conn.linked ∧
            world.requester.Attached object endpoint gen) := ⟨fun _ _ _ here => here, Or.inl⟩
    rw [same] at member
    have gone := (Requester.foldl_delete (P := fun (_ : Shared)
        (requester : Requester MessageCopier Connector) =>
      (∀ object endpoint gen, requester.Attached object endpoint gen →
        world.requester.Attached object endpoint gen) ∧
      (gen ∈ requester.abandoned →
        gen ∈ world.requester.abandoned ∨ ∃ object endpoint, object ∈ wrapper.conn.linked ∧
          world.requester.Attached object endpoint gen))
      (fun requester shared object inside holds => ?_) start).2 member
    · rcases gone with before | ⟨object, endpoint, inside, here⟩
      · exact Or.inl before
      · exact Or.inr ⟨wrapper, object, endpoint, found, inside, here⟩
    obtain ⟨attached, before⟩ := holds
    refine ⟨fun other endpoint gen here => attached other endpoint gen
      (Requester.attached_delete.mp here).2, ?_⟩
    cases here : requester.linked object with
    | none =>
        rw [Requester.delete_of_none here]
        exact before
    | some linked =>
        cases linked with
        | connector connector =>
            rw [Requester.delete_connector here]
            exact before
        | reqLinker linker =>
            cases busy : linker.gen with
            | none =>
                rw [Requester.delete_idle here busy]
                exact before
            | some own =>
                rw [Requester.delete_attached here busy]
                intro gone
                rcases List.mem_append.mp gone with old | new
                · exact before old
                · obtain rfl := List.mem_singleton.mp new
                  exact Or.inr ⟨object, linker.endpoint, inside,
                    attached object _ _ ⟨linker, here, rfl, busy⟩⟩

theorem Invariant.below_of_deleted (invariant : world.Invariant config) {gen : MessageCopier}
    (deleted : world.requester.Deleted gen) :
    gen.pair ∈ world.shared.pairs gen.client ∧
      gen.msgRes < (world.shared.linker gen.client).next := by
  obtain ⟨accepted, tracked⟩ := invariant.tracked
  obtain ⟨endpoint, member⟩ := tracked.assigned.deleted gen deleted
  have inside := tracked.known endpoint gen member
  exact ⟨inside, (invariant.working.clients gen.client).below _
    (mem_messageIds.mpr ⟨_, inside, Or.inr rfl⟩)⟩

theorem unneeded_step (invariant : world.Invariant config) (unneeded : world.Unneeded)
    (idle : ClosedIdle world event) (outcome : world.step config event = .ok next) :
    next.Unneeded := by
  intro gen member alive
  have proceeds := invariant.proceeds outcome gen.client
  have alive' := proceeds.alive alive
  rcases invariant.abandoned_step outcome with same | ⟨place, rfl, rfl⟩
  · rw [same] at member
    have below := (invariant.below_of_deleted (Or.inr member)).2
    exact MessageState.done_of_rank (proceeds.rank _ below) (unneeded gen member alive')
  · rcases abandoned_close member with before | ⟨wrapper, object, endpoint, found, inside, here⟩
    · have below := (invariant.below_of_deleted (Or.inr before)).2
      exact MessageState.done_of_rank (proceeds.rank _ below) (unneeded gen before alive')
    · obtain ⟨linker, there, -, gen_eq⟩ := id here
      obtain ⟨exchange, busy, rfl⟩ := Option.map_eq_some_iff.mp gen_eq
      have carried : Carried world.shared.pairs world.shared exchange :=
        invariant.working.objects object _ there exchange busy
      have below : exchange.gen.msgRes < (world.shared.linker exchange.gen.client).next :=
        (invariant.working.clients exchange.gen.client).below _
          (mem_messageIds.mpr ⟨_, carried.pair, Or.inr rfl⟩)
      exact MessageState.done_of_rank (proceeds.rank _ below)
        (idle place wrapper rfl found object inside endpoint exchange.gen here alive')

theorem Invariant.served (invariant : world.Invariant config) (unneeded : world.Unneeded) :
    world.Served := by
  intro id alive pair member open_
  obtain ⟨accepted, tracked⟩ := invariant.tracked
  obtain ⟨endpoint, known⟩ := tracked.waiting id pair (List.mem_append_right _ member) open_
  have kept : ¬world.requester.Deleted ⟨id, pair.1, pair.2⟩ := by
    rintro (finished | abandoned)
    · exact open_ (invariant.working.relayed _ finished).response
    · exact open_ (unneeded _ abandoned alive)
  obtain ⟨place, here⟩ := tracked.assigned.served endpoint _ known kept
  refine ⟨place, ⟨endpoint, here⟩, fun other there => ?_⟩
  obtain ⟨endpoint', there⟩ := there
  exact (tracked.assigned.once _ _ _ _ _ there here).1

/-- Where no socket is closed that a response is to come from, somebody fills every response. -/
theorem served_of_idle (idle : Throughout config ClosedIdle (start config) events)
    (outcome : run config (start config) events = .ok last) : last.Served := by
  obtain ⟨invariant, unneeded⟩ := Invariant.run_keeps (P := Unneeded)
    (fun world event next invariant unneeded idle outcome =>
      unneeded_step invariant unneeded idle outcome)
    (invariant_start config) (fun _ none => nomatch none) idle outcome
  exact invariant.served unneeded

/-- Whether a socket is closed only when nobody behind it has a request. -/
def closesIdle (world : World) : Event → Bool
  | .close place =>
      match world.requester.wrappers place with
      | some wrapper =>
          decide (∀ object ∈ wrapper.conn.linked, world.requester.exchangeAt object = none)
      | none => true
  | _ => true

theorem closedIdle_of_check (checked : closesIdle world event = true) :
    ClosedIdle world event := by
  rintro place wrapper rfl found object inside endpoint gen ⟨linker, there, -, gen_eq⟩
  rw [closesIdle, found] at checked
  have idle : linker.exchange = none := by
    simpa [Requester.exchangeAt, there] using of_decide_eq_true checked object inside
  rw [ReqLinker.gen, idle] at gen_eq
  cases gen_eq

/-- The socket is closed before there is a response. -/
theorem not_served : ∃ last,
    run plain (start plain) [.read 0 getRequest true, .close 1] = .ok last ∧ ¬last.Served := by
  obtain ⟨last, outcome, alive, queue, state, abandoned⟩ : ∃ last,
      run plain (start plain) [.read 0 getRequest true, .close 1] = .ok last ∧
        (last.shared.clients 0).alive = true ∧ (last.shared.linker 0).responseQueue = [(0, 1)] ∧
          (last.shared.message 0 1).state = .header ∧
            last.requester.abandoned = [⟨0, 0, 1⟩] := exists_run (by decide +kernel)
  obtain ⟨accepted, tracked⟩ := ((invariant_start plain).run outcome).tracked
  refine ⟨last, outcome, fun served => ?_⟩
  obtain ⟨place, ⟨endpoint, here⟩, -⟩ :=
    served 0 alive (0, 1) (by simp [queue]) (by simp [state])
  exact (tracked.assigned.known place endpoint _ here).2 (Or.inr (by simp [abandoned]))

/-! ## Pairs that are answered -/

/-- A request that nothing is left of, or that never had headers, an entity or footers. -/
theorem isSent_of_done {msg : HttpMessage} (done : msg.state = .done) :
    msg.isSent = true ↔ msg.headers = [] ∧ msg.entity = [] ∧ msg.footers = [] := by
  rw [HttpMessage.isSent_iff]
  exact and_iff_right done

/-- In every state that is reached without a tunnel, an answered pair at the front of the queue is
deleted by the next call exactly where its request was relayed, or holds nothing. -/
theorem queue_moves_on (config : Config) (events : List Event) (world : World)
    (outcome : run config (start config) events = .ok world) (id : ClientId)
    (pair : MessageId × MessageId) (rest : List (MessageId × MessageId))
    (tunnel : (world.shared.linker id).tunneler = false)
    (front : (world.shared.linker id).responseQueue = pair :: rest)
    (done : (world.shared.message id pair.1).state = .done)
    (answered : (world.shared.linker id).Answered config.proxy pair.2) :
    (∀ next, world.getWriteSize config id = .ok next →
        pair ∉ (next.shared.linker id).responseQueue) ↔
      ⟨id, pair.1, pair.2⟩ ∈ world.requester.finished ∨
        (world.shared.message id pair.1).headers = [] ∧
          (world.shared.message id pair.1).entity = [] ∧
            (world.shared.message id pair.1).footers = [] := by
  have invariant := (invariant_start config).run outcome
  have sound := invariant.working.clients id
  have inside : pair ∈ world.shared.pairs id :=
    List.mem_append_right _
      (front ▸ List.mem_cons_self : pair ∈ (world.shared.linker id).responseQueue)
  have apart := pair_apart sound.once inside
  -- what is left of the request decides
  have sent_iff : (⟨id, pair.1, pair.2⟩ ∈ world.requester.finished ∨
      (world.shared.message id pair.1).headers = [] ∧
        (world.shared.message id pair.1).entity = [] ∧
          (world.shared.message id pair.1).footers = []) ↔
      (world.shared.message id pair.1).isSent = true := by
    rw [← isSent_of_done done]
    exact ⟨fun either => either.elim
      (fun finished => (invariant.working.relayed _ finished).request)
      fun sent => sent, Or.inr⟩
  rw [sent_iff]
  constructor
  · intro removed
    by_contra unsent
    have waits : ∃ linker, (world.shared.linker id).getWriteSize config.proxy = .ok (linker, 0) ∧
        linker.responseQueue = pair :: rest := by
      rw [ALinker.getWriteSize, front]
      exact ALinker.getWriteSizeFrom_waits (front ▸ sound.first) apart answered tunnel
        (Bool.eq_false_iff.mpr unsent)
    obtain ⟨linker, size_eq, queue⟩ := waits
    have outcome : ∃ next, world.getWriteSize config id = .ok next ∧
        (next.shared.linker id).responseQueue = pair :: rest := by
      have size_eq' :
          (world.shared.clients id).linker.getWriteSize config.proxy = .ok (linker, 0) :=
        size_eq
      simp only [World.getWriteSize, size_eq', ok_bind]
      exact ⟨_, rfl, by simpa [Shared.linker] using queue⟩
    obtain ⟨next, size_eq, queue⟩ := outcome
    exact removed next size_eq (queue ▸ List.mem_cons_self)
  · intro sent next outcome member
    obtain ⟨linker, size, popped, -, -, -, -, queue, deletes, rfl⟩ :=
      invariant.getWriteSize_cases outcome
    have gone : pair ∈ popped := (deletes pair).mpr
      ⟨[], rest, front, ⟨Or.inr sent, answered⟩, by simp⟩
    have stays : pair ∈ linker.responseQueue := by simpa [Shared.linker] using member
    have once : (messageIds (popped ++ linker.responseQueue)).Nodup := by
      have both := sound.once
      rw [Shared.pairs, Client.pairs, messageIds_append] at both
      exact queue ▸ both.of_append_right
    rw [messageIds_append] at once
    exact List.disjoint_of_nodup_append once (mem_messageIds.mpr ⟨pair, gone, Or.inl rfl⟩)
      (mem_messageIds.mpr ⟨pair, stays, Or.inl rfl⟩)

/-- A request is relayed, and its response is written. -/
def relayedRequest : List Event :=
  [.read 0 getRequest true, .call 0 .getWriteSize, .call 0 (.write 100 100),
    .call 0 (.read emptyResponse), .getWriteSize 0, .write 0 100 100]

theorem queue_moves_on_relayed : ∃ world, run plain (start plain) relayedRequest = .ok world ∧
    (world.shared.linker 0).responseQueue = [(0, 1)] ∧
      ∀ next, world.getWriteSize plain 0 = .ok next →
        (0, 1) ∉ (next.shared.linker 0).responseQueue := by
  obtain ⟨world, outcome, tunnel, front, done, answered, finished⟩ : ∃ world,
      run plain (start plain) relayedRequest = .ok world ∧
        (world.shared.linker 0).tunneler = false ∧
        (world.shared.linker 0).responseQueue = [(0, 1)] ∧
        (world.shared.message 0 0).state = .done ∧
        (world.shared.linker 0).Answered plain.proxy 1 ∧
        ⟨0, 0, 1⟩ ∈ world.requester.finished := exists_run (by decide +kernel)
  exact ⟨world, outcome, front, (queue_moves_on plain relayedRequest world outcome 0 (0, 1) []
    tunnel front done answered).mpr (Or.inl finished)⟩

/-- A request without a host. -/
def noHost : List Event :=
  [.read 0 (ascii "GET / HTTP/1.1\r\nX: y\r\n\r\n") true, .getWriteSize 0, .write 0 1000 1000]

/-- It is answered, and upstream never knew of it, but its header is not taken. -/
theorem not_queue_moves_on : ∃ world next, run plain (start plain) noHost = .ok world ∧
    (world.shared.linker 0).tunneler = false ∧
    (world.shared.linker 0).responseQueue = [(0, 1)] ∧
    (world.shared.message 0 0).state = .done ∧ (world.shared.message 0 1).isSent = true ∧
    (world.shared.linker 0).Answered plain.proxy 1 ∧
    (∀ place endpoint gen, ¬world.requester.Attached place endpoint gen) ∧
    world.getWriteSize plain 0 = .ok next ∧
    (next.shared.linker 0).responseQueue = [(0, 1)] := by
  obtain ⟨world, outcome, tunnel, front, done, sent, answered, none, stays⟩ : ∃ world,
      run plain (start plain) noHost = .ok world ∧
        (world.shared.linker 0).tunneler = false ∧
        (world.shared.linker 0).responseQueue = [(0, 1)] ∧
        (world.shared.message 0 0).state = .done ∧ (world.shared.message 0 1).isSent = true ∧
        (world.shared.linker 0).Answered plain.proxy 1 ∧ world.requester.next = 0 ∧
        ((world.getWriteSize plain 0).toOption.map fun next =>
          (next.shared.linker 0).responseQueue) = some [(0, 1)] := exists_run (by decide +kernel)
  cases size_eq : world.getWriteSize plain 0 with
  | error fault =>
      rw [size_eq] at stays
      cases stays
  | ok next =>
      rw [size_eq] at stays
      refine ⟨world, next, outcome, tunnel, front, done, sent, answered, ?_, size_eq,
        Option.some.inj stays⟩
      rintro place endpoint gen ⟨linker, found, -⟩
      have pooled := ((invariant_start plain).run outcome).pooled
      have fresh := (pooled.fresh place (none.trans_le (Nat.zero_le _))).1
      cases fresh.symm.trans found

end World
end GnyProxy
