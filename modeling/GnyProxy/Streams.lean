import GnyProxy.Reception

/-!
# The stream of a client

A client sends one request after the other.  Those at the beginning of its stream are read one by
one, however it is cut and whatever follows them, and queued in their order.
-/

namespace GnyProxy

open HttpMessage (SameStage)

namespace World

/-! ## What arrives from a client -/

/-- What `ALinker::read` returns: how many bytes it takes of those that have arrived. -/
def taken (world : World) (id : ClientId) (rbuf : Str) : Nat :=
  match (world.shared.linker id).reader with
  | none => rbuf.length
  | some (source, msg) =>
      match source.read (world.shared.message id msg) rbuf with
      | .ok (_, amount) => amount
      | .error _ => 0

/-- What an event leaves of the stream of a client. -/
def untaken (world : World) (id : ClientId) (stream : Str) : Event → Str
  | .read other rbuf _ =>
      if other = id ∧ (world.shared.clients id).alive then stream.drop (world.taken id rbuf)
      else stream
  | _ => stream

/-- A client is read from the beginning of its stream. -/
def Arrives (world : World) (id : ClientId) (stream : Str) : Event → Prop
  | .read other rbuf _ => other = id → (world.shared.clients id).alive = true → rbuf <+: stream
  | _ => True

/-- What a client is read from is its stream, behind the bytes that were taken. -/
def Feeds (config : Config) (id : ClientId) : World → Str → List Event → Prop
  | _, _, [] => True
  | world, stream, event :: events =>
      world.Arrives id stream event ∧ ∀ next, world.step config event = .ok next →
        Feeds config id next (world.untaken id stream event) events

instance (world : World) (id : ClientId) (stream : Str) : DecidablePred (world.Arrives id stream)
  | .read other rbuf _ => inferInstanceAs (Decidable (other = id →
      (world.shared.clients id).alive = true → rbuf <+: stream))
  | .getWriteSize _ | .write .. | .delete _ | .call .. | .close _ => isTrue trivial

instance decidableFeeds (config : Config) (id : ClientId) : ∀ (events : List Event) (world : World)
    (stream : Str), Decidable (Feeds config id world stream events)
  | [], _, _ => isTrue trivial
  | event :: events, world, stream =>
      match step_eq : world.step config event with
      | .ok next =>
          have := decidableFeeds config id events next (world.untaken id stream event)
          decidable_of_iff (world.Arrives id stream event ∧
            Feeds config id next (world.untaken id stream event) events) (by simp [Feeds, step_eq])
      | .error _ => decidable_of_iff (world.Arrives id stream event) (by simp [Feeds, step_eq])

/-- What follows the first requests of a stream. -/
def behind (requests : List (Str × HttpMessage)) (count : Nat) (tail : Str) : Str :=
  ((requests.drop count).map (·.1)).flatten ++ tail

theorem behind_eq {requests : List (Str × HttpMessage)} {count : Nat} {request : Str × HttpMessage}
    (here : requests[count]? = some request) (tail : Str) :
    behind requests count tail = request.1 ++ behind requests (count + 1) tail := by
  obtain ⟨inside, same⟩ := List.getElem?_eq_some_iff.mp here
  rw [behind, List.drop_eq_getElem_cons inside, same, List.map_cons, List.flatten_cons,
    List.append_assoc, behind]

/-! ## Requests that are read -/

/-- The requests of a stream that were read, and the one that is read: its reader awaits the rest of
it, and then come the others. -/
structure Follows (config : Config) (world : World) (ledger : Ledger) (id : ClientId)
    (requests : List (Str × HttpMessage)) (tail stream : Str) (completed : List MessageId) :
    Prop where
  known : ∀ msg ∈ completed, msg < (world.shared.linker id).next ∧
    msg ∉ responseIds world.shared.pairs id ∧ (world.shared.linker id).readerMsg ≠ some msg
  queued : (world.shared.pairs id).map (·.1) <+:
    completed ++ (world.shared.linker id).readerMsg.toList
  waiting : ∀ msg, (world.shared.linker id).readerMsg = some msg →
    (world.shared.linker id).connected = false →
    (world.shared.pairs id).map (·.1) = completed
  linked : ∀ msg, (world.shared.linker id).readerMsg = some msg →
    (world.shared.linker id).connected = true → (world.shared.linker id).tunneler = true ∨
      (world.shared.pairs id).map (·.1) = completed ++ [msg]
  fresh : ∀ msg, (world.shared.linker id).next ≤ msg → (ledger id msg).given = []
  read : ∀ (count : Nat) (msg : MessageId) (request : Str × HttpMessage),
    completed[count]? = some msg → requests[count]? = some request → ∃ source,
      config.proxy.aReader.readerCreator.readAll (.fresh true) (ledger id msg).given =
        .ok (source, request.2)
  awaits : ∀ (source : MessageSource) (msg : MessageId) (request : Str × HttpMessage),
    (world.shared.linker id).reader = some (source, msg) →
    requests[completed.length]? = some request → ∃ whole left,
      config.proxy.aReader.readerCreator.readAll (.fresh true) (ledger id msg).given =
        .ok (source, whole) ∧
      SameStage (world.shared.message id msg) whole ∧ source.Awaits whole left request.2 ∧
      stream = left ++ behind requests (completed.length + 1) tail

section Follows

variable {config : Config} {world next : World} {ledger ledger' : Ledger} {id : ClientId}
  {requests : List (Str × HttpMessage)} {tail stream : Str} {completed : List MessageId}
  {source : MessageSource} {msgReq : MessageId} {rbuf : Str}

theorem readerMsg_of_reader (reader : (world.shared.linker id).reader = some (source, msgReq)) :
    (world.shared.linker id).readerMsg = some msgReq := by
  rw [ALinker.readerMsg, reader]
  rfl

/-- Nothing happens to the client. -/
theorem Follows.unmoved (follows : Follows config world ledger id requests tail stream completed)
    (invariant : world.Invariant config)
    (unmoved : Unmoved id world.shared next.shared ledger ledger') :
    Follows config next ledger' id requests tail stream completed := by
  have sound := invariant.working.clients id
  have readerMsg : (next.shared.linker id).readerMsg = (world.shared.linker id).readerMsg := by
    rw [ALinker.readerMsg, unmoved.reader, ALinker.readerMsg]
  have responses : responseIds next.shared.pairs id = responseIds world.shared.pairs id :=
    congrArg (List.map _) unmoved.pairs
  refine ⟨fun msg member => ?_, ?_, fun msg reads unconnected => ?_, fun msg reads connected => ?_,
    fun msg above => ?_, fun count msg request here there => ?_,
    fun source msg request reader here => ?_⟩
  · rw [unmoved.next, responses, readerMsg]
    exact follows.known msg member
  · rw [unmoved.pairs, readerMsg]
    exact follows.queued
  · rw [readerMsg] at reads
    rw [unmoved.connected] at unconnected
    rw [unmoved.pairs]
    exact follows.waiting msg reads unconnected
  · rw [readerMsg] at reads
    rw [unmoved.connected] at connected
    rw [unmoved.pairs, unmoved.tunneler]
    exact follows.linked msg reads connected
  · rw [unmoved.next] at above
    rw [unmoved.given msg fun member => ?_]
    · exact follows.fresh msg above
    · obtain ⟨pair, inside, rfl⟩ := List.mem_map.mp member
      exact absurd (sound.below _ (mem_messageIds.mpr ⟨pair, inside, Or.inr rfl⟩))
        (not_lt.mpr above)
  · rw [unmoved.given msg (follows.known msg (List.mem_of_getElem? here)).2.1]
    exact follows.read count msg request here there
  · rw [unmoved.reader] at reader
    have apart := (sound.reading msg (readerMsg_of_reader reader)).2.2
    obtain ⟨whole, left, reads, stage, awaits, same⟩ :=
      follows.awaits source msg request reader here
    have drains := unmoved.drains msg apart
    rw [unmoved.given msg apart]
    exact ⟨whole, left, reads, ⟨stage.1.trans drains.isRequest.symm,
      stage.2.trans drains.state.symm⟩, awaits, same⟩

/-- The reader takes what belongs to the request. -/
theorem Follows.receive (follows : Follows config world ledger id requests tail stream completed)
    (invariant : world.Invariant config)
    (reader : (world.shared.linker id).reader = some (source, msgReq)) (arrived : rbuf <+: stream)
    (outcome : world.receive id source msgReq rbuf = .ok next) :
    Follows config next (ledger.give id msgReq rbuf) id requests tail
      (stream.drop (world.taken id rbuf)) completed := by
  obtain ⟨source', msg, amount, read_eq, rfl⟩ := receive_reads outcome
  have reads := readerMsg_of_reader reader
  have below := ((invariant.working.clients id).reading msgReq reads).1
  have taken_eq : world.taken id rbuf = amount := by simp only [taken, reader, read_eq]
  have linker_eq (client : Client) : (world.shared.setClient id client).linker id =
      client.linker := congrArg Client.linker Shared.clients_setClient_self
  have given_ne {own : MessageId} (differs : own ≠ msgReq) :
      ledger.give id msgReq rbuf id own = ledger id own := Ledger.setTransit_ne fun _ => differs
  have given_self : (ledger.give id msgReq rbuf id msgReq).given =
      (ledger id msgReq).given ++ [rbuf] := by rw [Ledger.give, Ledger.setTransit_self]
  have reader_eq : (followed (world.shared.clients id) source source' msgReq msg
      rbuf).linker.readerMsg = (world.shared.linker id).readerMsg := reads.symm ▸ rfl
  have pairs_eq : (world.shared.setClient id (followed (world.shared.clients id) source source'
      msgReq msg rbuf)).pairs = world.shared.pairs := pairs_setClient_self rfl
  refine ⟨fun own member => ?_, ?_, fun own reads => ?_, fun own reads => ?_, fun own above => ?_,
    fun count own request here there => ?_, fun later own request here there => ?_⟩
  · rw [pairs_eq, linker_eq, reader_eq]
    exact follows.known own member
  · rw [pairs_eq, linker_eq, reader_eq]
    exact follows.queued
  · rw [linker_eq, reader_eq] at reads
    rw [pairs_eq, linker_eq]
    exact follows.waiting own reads
  · rw [linker_eq, reader_eq] at reads
    rw [pairs_eq, linker_eq]
    exact follows.linked own reads
  · rw [linker_eq] at above
    have above' : (world.shared.linker id).next ≤ own := above
    rw [given_ne fun same => absurd below (not_lt.mpr (same ▸ above'))]
    exact follows.fresh own above'
  · have differs : own ≠ msgReq := by
      rintro rfl
      exact (follows.known own (List.mem_of_getElem? here)).2.2 reads
    rw [given_ne differs]
    exact follows.read count own request here there
  · rw [linker_eq] at here
    cases here
    obtain ⟨whole, left, all, stage, awaits, rfl⟩ :=
      follows.awaits source msgReq request reader there
    obtain ⟨updates, -, filled, uniform⟩ := MessageSource.read_fills read_eq
    obtain ⟨whole', filled', read_eq'⟩ := uniform whole stage
    obtain ⟨source₁, whole₁, read_eq₁, awaits'⟩ := awaits.read arrived
    simp only [read_eq', Except.ok.injEq, Prod.mk.injEq] at read_eq₁
    obtain ⟨⟨rfl, rfl⟩, rfl⟩ := read_eq₁
    refine ⟨whole', left.drop rbuf.length, ?_, ?_, awaits', ?_⟩
    · rw [given_self, MessageSource.readAll_append rbuf all, read_eq']
      rfl
    · rw [Shared.message, linker_eq, messages_followed]
      exact stage.fill filled filled'
    · rw [taken_eq, List.drop_append]
      rcases Nat.le_total rbuf.length left.length with inside | beyond
      · rw [Nat.min_eq_left inside, Nat.sub_eq_zero_of_le inside, List.drop_zero]
      · rw [Nat.min_eq_right beyond, Nat.sub_self, List.drop_zero, List.drop_length,
          List.drop_eq_nil_of_le beyond]

/-- The request is connected. -/
theorem Follows.links (follows : Follows config world ledger id requests tail stream completed)
    (invariant : world.Invariant config)
    (reads : (world.shared.linker id).readerMsg = some msgReq)
    (unconnected : (world.shared.linker id).connected = false)
    (links : Links id msgReq world.shared next.shared) :
    Follows config next ledger id requests tail stream completed := by
  have sound := invariant.working.clients id
  have readerMsg : (next.shared.linker id).readerMsg = (world.shared.linker id).readerMsg := by
    rw [ALinker.readerMsg, links.reader, ALinker.readerMsg]
  have heads := follows.waiting msgReq reads unconnected
  refine ⟨fun msg member => ?_, ?_, fun msg _ later => ?_, fun msg same _ => ?_,
    fun msg above => ?_, follows.read, fun source msg request reader here => ?_⟩
  · obtain ⟨below, apart, other⟩ := follows.known msg member
    refine ⟨below.trans_le links.next, ?_, readerMsg ▸ other⟩
    rcases links.pairs with ⟨same, -⟩ | longer
    · rwa [responseIds, same]
    · rw [responseIds, longer, List.map_append, List.mem_append, not_or]
      exact ⟨apart, by simpa using below.ne⟩
  · rw [readerMsg, reads]
    rcases links.pairs with ⟨same, -⟩ | longer
    · rw [same, heads]
      exact List.prefix_append _ _
    · rw [longer, List.map_append, heads]
      exact List.prefix_rfl
  · cases links.connected.symm.trans later
  · obtain rfl : msgReq = msg := Option.some.inj ((readerMsg.trans reads).symm.trans same)
    rcases links.pairs with ⟨-, tunneler⟩ | longer
    · exact Or.inl tunneler
    · rw [longer, List.map_append, heads]
      exact Or.inr rfl
  · exact follows.fresh msg (links.next.trans above)
  · rw [links.reader] at reader
    obtain ⟨below, -, apart⟩ := sound.reading msg (readerMsg_of_reader reader)
    obtain ⟨whole, left, all, stage, awaits, same⟩ := follows.awaits source msg request reader here
    have drains := links.drains msg below apart
    exact ⟨whole, left, all, ⟨stage.1.trans drains.isRequest.symm,
      stage.2.trans drains.state.symm⟩, awaits, same⟩

/-- A client that has read a request, and reads no more or a new one. -/
structure Completes (config : Config) (shared : Shared) (id : ClientId) (msgReq : MessageId)
    (completed : List MessageId) (client : Client) : Prop where
  next : (shared.linker id).next ≤ client.linker.next
  queued : client.pairs.map (·.1) <+: completed ++ [msgReq]
  responses : ∀ msg < (shared.linker id).next, msg ∉ responseIds shared.pairs id →
    msg ∉ client.pairs.map (·.2)
  reader : client.linker.reader = none ∨ ∃ new, (shared.linker id).next ≤ new ∧
    client.linker.reader = some (config.proxy.aReader.readerCreator, new) ∧
    client.linker.messages new = .fresh true ∧ client.linker.connected = false ∧
    client.pairs.map (·.1) = completed ++ [msgReq]

/-- When the request is done, the stream goes on behind it. -/
theorem Follows.ended (follows : Follows config world ledger id requests tail stream completed)
    (reader : (world.shared.linker id).reader = some (source, msgReq))
    (done : (world.shared.message id msgReq).state = .done) {request : Str × HttpMessage}
    (here : requests[completed.length]? = some request) :
    config.proxy.aReader.readerCreator.readAll (.fresh true) (ledger id msgReq).given =
        .ok (source, request.2) ∧
      stream = behind requests (completed.length + 1) tail := by
  obtain ⟨whole, left, all, stage, awaits, rfl⟩ := follows.awaits source msgReq request reader here
  obtain rfl := awaits.done_iff.mp (stage.2.trans done)
  obtain rfl := awaits.eq_of_nil
  exact ⟨all, rfl⟩

theorem Follows.completes (follows : Follows config world ledger id requests tail stream completed)
    (invariant : world.Invariant config)
    (awaited : ∀ request ∈ requests,
      config.proxy.aReader.readerCreator.Awaits (.fresh true) request.1 request.2)
    (reader : (world.shared.linker id).reader = some (source, msgReq))
    (done : (world.shared.message id msgReq).state = .done) {client : Client}
    (completes : Completes config world.shared id msgReq completed client) :
    Follows config ⟨world.shared.setClient id client, world.requester⟩ ledger id requests tail
      stream (completed ++ [msgReq]) := by
  have reads := readerMsg_of_reader reader
  obtain ⟨below, -, apart⟩ := (invariant.working.clients id).reading msgReq reads
  have linker_eq : (world.shared.setClient id client).linker id = client.linker :=
    congrArg Client.linker Shared.clients_setClient_self
  have pairs_eq : (world.shared.setClient id client).pairs id = client.pairs :=
    congrArg Client.pairs Shared.clients_setClient_self
  have known (msg : MessageId) (member : msg ∈ completed ++ [msgReq]) :
      msg < (world.shared.linker id).next ∧ msg ∉ responseIds world.shared.pairs id := by
    rcases List.mem_append.mp member with old | new
    · exact ⟨(follows.known msg old).1, (follows.known msg old).2.1⟩
    · rw [List.mem_singleton.mp new]
      exact ⟨below, apart⟩
  refine ⟨fun msg member => ?_, ?_, fun msg same _ => ?_, fun msg same connected => ?_,
    fun msg above => ?_, fun count msg request here there => ?_,
    fun later msg request same here => ?_⟩
  · obtain ⟨old, free⟩ := known msg member
    rw [linker_eq, responseIds, pairs_eq]
    refine ⟨old.trans_le completes.next, completes.responses msg old free, fun same => ?_⟩
    rcases completes.reader with none | ⟨new, above, begins, -⟩
    · rw [ALinker.readerMsg, none] at same
      cases same
    · rw [ALinker.readerMsg, begins] at same
      cases same
      exact absurd old (not_lt.mpr above)
  · rw [pairs_eq]
    exact completes.queued.trans (List.prefix_append _ _)
  · rw [linker_eq] at same
    rw [pairs_eq]
    rcases completes.reader with none | ⟨new, -, -, -, -, heads⟩
    · rw [ALinker.readerMsg, none] at same
      cases same
    · exact heads
  · rw [linker_eq] at same connected
    rcases completes.reader with none | ⟨new, -, -, -, unconnected, -⟩
    · rw [ALinker.readerMsg, none] at same
      cases same
    · cases unconnected.symm.trans connected
  · rw [linker_eq] at above
    exact follows.fresh msg (completes.next.trans above)
  · rcases Nat.lt_or_ge count completed.length with inside | last
    · rw [List.getElem?_append_left inside] at here
      exact follows.read count msg request here there
    · rw [List.getElem?_append_right last] at here
      obtain ⟨zero, same⟩ := List.getElem?_eq_some_iff.mp here
      obtain rfl : count = completed.length := by simp at zero; omega
      obtain rfl : msgReq = msg := by simpa using same
      exact ⟨source, (follows.ended reader done there).1⟩
  · rw [linker_eq] at same
    rcases completes.reader with none | ⟨new, above, begins, fresh, -⟩
    · cases none.symm.trans same
    · cases begins.symm.trans same
      rw [List.length_append] at here ⊢
      obtain ⟨inside, -⟩ := List.getElem?_eq_some_iff.mp here
      have before : requests[completed.length]? = some requests[completed.length] :=
        List.getElem?_eq_getElem _
      refine ⟨.fresh true, request.1, ?_, ?_, awaited request (List.mem_of_getElem? here), ?_⟩
      · rw [follows.fresh msg above]
        rfl
      · rw [Shared.message, linker_eq, fresh]
        exact .refl _
      · rw [(follows.ended reader done before).2]
        exact behind_eq here tail

/-- When the request is done it is queued, and the next one begins. -/
theorem Follows.finishRequest
    (follows : Follows config world ledger id requests tail stream completed)
    (invariant : world.Invariant config)
    (awaited : ∀ request ∈ requests,
      config.proxy.aReader.readerCreator.Awaits (.fresh true) request.1 request.2)
    (reader : (world.shared.linker id).reader = some (source, msgReq))
    (outcome : world.finishRequest config id msgReq = .ok next) :
    ∃ completed', Follows config next ledger id requests tail stream completed' := by
  have reads := readerMsg_of_reader reader
  by_cases done : (world.shared.message id msgReq).state = .done
  · refine ⟨completed ++ [msgReq], ?_⟩
    obtain ⟨linker, trace, rfl, -, further⟩ := finishRequest_cases outcome
    refine follows.completes invariant awaited reader done ?_
    rcases further with ⟨going, -⟩ | ⟨-, -, rfl⟩ | ⟨connected, none, rfl⟩ |
      ⟨unconnected, response, -, tunnel⟩
    · exact absurd done going
    · -- nothing more is read
      have queued := follows.queued
      rw [reads] at queued
      exact ⟨le_rfl, queued, fun _ _ apart => apart, Or.inl rfl⟩
    · -- the next request begins
      rcases follows.linked msgReq reads connected with tunneler | heads
      · cases none.symm.trans tunneler
      · refine ⟨Nat.le_succ _, heads ▸ List.prefix_rfl, fun _ _ apart => apart, Or.inr
          ⟨(world.shared.linker id).next, le_rfl, rfl, Function.update_self _ _ _, rfl, heads⟩⟩
    · -- the request is queued as well
      have none := invariant.no_tunnel reads unconnected
      obtain tunnel | rfl := tunnel
      · cases none.symm.trans tunnel
      have pairs_eq : (finished (world.shared.clients id) (ALinker.nextRequest config.proxy
          ((world.shared.linker id).respond msgReq response)) trace).pairs =
            world.shared.pairs id ++ [(msgReq, (world.shared.linker id).next)] :=
        (List.append_assoc _ _ _).symm
      have heads : (finished (world.shared.clients id) (ALinker.nextRequest config.proxy
          ((world.shared.linker id).respond msgReq response)) trace).pairs.map (·.1) =
            completed ++ [msgReq] := by
        rw [pairs_eq, List.map_append, follows.waiting msgReq reads unconnected]
        rfl
      refine ⟨(Nat.le_succ _).trans (Nat.le_succ _), heads ▸ List.prefix_rfl,
        fun msg below apart => ?_, Or.inr ⟨(world.shared.linker id).next + 1, Nat.le_succ _, rfl,
          Function.update_self _ _ _, rfl, heads⟩⟩
      rw [pairs_eq, List.map_append, List.mem_append, not_or]
      exact ⟨apart, by simpa using below.ne⟩
  · refine ⟨completed, ?_⟩
    obtain ⟨linker, linker_eq, outcome⟩ := bind_eq_ok.mp outcome
    cases outcome
    have same : world.shared.linker id = linker := by
      rwa [ALinker.finishRequest, if_neg (show ¬((world.shared.linker id).messages msgReq).state =
        .done from done), Except.ok.injEq] at linker_eq
    subst same
    rw [setTrace_setLinker]
    exact follows.unmoved invariant
      (.ofSameInput ⟨rfl, rfl, rfl, rfl, rfl, fun _ => .refl _⟩ rfl fun _ _ => rfl)

/-! ### A run -/

/-- Where nothing is read the stream does not matter. -/
theorem Follows.ofNone (follows : Follows config world ledger id requests tail stream completed)
    (none : (world.shared.linker id).reader = none) (stream' : Str) :
    Follows config world ledger id requests tail stream' completed :=
  { follows with awaits := fun _ _ _ reader => by cases none.symm.trans reader }

theorem Follows.read_self {connects : Bool}
    (follows : Follows config world ledger id requests tail stream completed)
    (invariant : world.Invariant config)
    (awaited : ∀ request ∈ requests,
      config.proxy.aReader.readerCreator.Awaits (.fresh true) request.1 request.2)
    (arrived : rbuf <+: stream) (outcome : world.read config id rbuf connects = .ok next) :
    ∃ completed', Follows config next (ledger.record world (.read id rbuf connects)) id requests
      tail (stream.drop (world.taken id rbuf)) completed' := by
  rcases read_cases outcome with
    ⟨none, -, rfl⟩ | ⟨source, msgReq, world₁, world₂, reader, receive_eq, connect_eq, finish_eq⟩
  · have same : ledger.record world (.read id rbuf connects) = ledger := by
      simp [Ledger.record, none]
    rw [same]
    refine ⟨completed, (follows.ofNone none _).unmoved invariant ?_⟩
    have linker_eq (client : Client) : (world.shared.setClient id client).linker id =
        client.linker := congrArg Client.linker Shared.clients_setClient_self
    have pairs_eq (client : Client) : (world.shared.setClient id client).pairs id =
        client.pairs := congrArg Client.pairs Shared.clients_setClient_self
    refine ⟨?_, ?_, ?_, ?_, ?_, fun msg _ => ?_, fun _ _ => rfl⟩
    · rw [linker_eq]
      rfl
    · rw [linker_eq]
      rfl
    · rw [linker_eq]
      rfl
    · rw [linker_eq]
      rfl
    · rw [pairs_eq]
      rfl
    · simp only [Shared.message, linker_eq]
      exact .refl _
  · have recorded : ledger.record world (.read id rbuf connects) = ledger.give id msgReq rbuf := by
      simp only [Ledger.record, reader]
    rw [recorded]
    obtain ⟨invariant₁, invariant₂, -⟩ :=
      invariant.read_stages reader receive_eq connect_eq finish_eq
    have received := follows.receive invariant reader arrived receive_eq
    obtain ⟨source₁, reader₁⟩ : ∃ source₁, (world₁.shared.linker id).reader =
        some (source₁, msgReq) := by
      obtain ⟨source₁, msg, amount, -, rfl⟩ := receive_reads receive_eq
      exact ⟨source₁, congrArg (fun client => client.linker.reader) Shared.clients_setClient_self⟩
    have reads₁ := readerMsg_of_reader reader₁
    rcases (invariant₁.connect_links reads₁ connect_eq).1 with rfl | ⟨unconnected, links⟩
    · exact received.finishRequest invariant₁ awaited reader₁ finish_eq
    · exact (received.links invariant₁ reads₁ unconnected links).finishRequest invariant₂ awaited
        (links.reader.trans reader₁) finish_eq

theorem Follows.step {event : Event}
    (follows : Follows config world ledger id requests tail stream completed)
    (invariant : world.Invariant config)
    (awaited : ∀ request ∈ requests,
      config.proxy.aReader.readerCreator.Awaits (.fresh true) request.1 request.2)
    (arrived : world.Arrives id stream event) (outcome : world.step config event = .ok next) :
    ∃ completed', Follows config next (if ∀ id ∈ event.client, (world.shared.clients id).alive then
      ledger.record world event else ledger) id requests tail (world.untaken id stream event)
      completed' := by
  unfold World.step at outcome
  split at outcome
  · rename_i alive
    rw [if_pos alive]
    cases event with
    | read other rbuf connects =>
        have living : (world.shared.clients other).alive = true := alive other rfl
        by_cases here : other = id
        · subst here
          rw [untaken, if_pos ⟨rfl, living⟩]
          exact follows.read_self invariant awaited (arrived rfl living) outcome
        · rw [untaken, if_neg fun both => here both.1]
          exact ⟨completed, follows.unmoved invariant
            (invariant.unmoved_read (fun same => here same.symm) ledger outcome)⟩
    | getWriteSize other =>
        exact ⟨completed, follows.unmoved invariant
          (invariant.unmoved_getWriteSize outcome id ledger)⟩
    | write other maxWrite amount =>
        exact ⟨completed, follows.unmoved invariant (invariant.unmoved_write outcome id ledger)⟩
    | delete other =>
        cases outcome
        exact ⟨completed, follows.unmoved invariant (unmoved_delete world other id ledger)⟩
    | call place asked =>
        obtain ⟨⟨shared, requester, answer⟩, called, outcome⟩ := bind_eq_ok.mp outcome
        cases outcome
        exact ⟨completed, follows.unmoved invariant (invariant.unmoved_call called id ledger)⟩
    | close place =>
        cases outcome
        exact ⟨completed, follows.unmoved invariant (unmoved_close world place id ledger)⟩
  · rename_i gone
    cases outcome
    rw [if_neg gone]
    refine ⟨completed, ?_⟩
    have same : world.untaken id stream event = stream := by
      cases event with
      | read other rbuf connects =>
          refine if_neg fun both => gone fun own member => ?_
          obtain rfl := Option.some.inj member
          exact both.1 ▸ both.2
      | _ => rfl
    rwa [same]

theorem follows_start (config : Config) (id : ClientId) (requests : List (Str × HttpMessage))
    (tail : Str) (awaited : ∀ request ∈ requests,
      config.proxy.aReader.readerCreator.Awaits (.fresh true) request.1 request.2) :
    Follows config (start config) (fun _ _ => {}) id requests tail (behind requests 0 tail) [] := by
  refine ⟨fun _ none => (nomatch none), List.nil_prefix, fun _ _ _ => rfl, fun _ _ some => ?_,
    fun _ _ => rfl, fun _ _ _ none => (nomatch none), fun source msg request reader here => ?_⟩
  · cases some
  · cases reader
    exact ⟨.fresh true, request.1, rfl, .refl _, awaited request (List.mem_of_getElem? here),
      behind_eq here tail⟩

theorem Follows.run {last : World} {events : List Event}
    (follows : Follows config world ledger id requests tail stream completed)
    (invariant : world.Invariant config)
    (awaited : ∀ request ∈ requests,
      config.proxy.aReader.readerCreator.Awaits (.fresh true) request.1 request.2)
    (feeds : Feeds config id world stream events)
    (outcome : World.run config world events = .ok last) :
    ∃ stream' completed', Follows config last (world.ledger config ledger events) id requests tail
      stream' completed' := by
  induction events generalizing world ledger stream completed with
  | nil =>
      cases outcome
      exact ⟨stream, completed, follows⟩
  | cons event events ih =>
      obtain ⟨next, step_eq, outcome⟩ := bind_eq_ok.mp outcome
      obtain ⟨completed', later⟩ := follows.step invariant awaited feeds.1 step_eq
      have ends := ih later (invariant.step step_eq) (feeds.2 next step_eq) outcome
      rw [World.ledger, step_eq]
      exact ends

/-- The request of a pair was read as it comes in the stream. -/
theorem Follows.reads (follows : Follows config world ledger id requests tail stream completed)
    {count : Nat} {pair : MessageId × MessageId} {request : Str × HttpMessage}
    (queued : (world.shared.pairs id)[count]? = some pair) (here : requests[count]? = some request)
    (done : (world.shared.message id pair.1).state = .done) :
    ∃ source, config.proxy.aReader.readerCreator.readAll (.fresh true) (ledger id pair.1).given =
      .ok (source, request.2) := by
  have head : ((world.shared.pairs id).map (·.1))[count]? = some pair.1 := by
    rw [List.getElem?_map, queued]
    rfl
  obtain ⟨others, split⟩ := follows.queued
  have place : (completed ++ (world.shared.linker id).readerMsg.toList)[count]? = some pair.1 := by
    rw [← split, List.getElem?_append_left (List.getElem?_eq_some_iff.mp head).1, head]
  rcases Nat.lt_or_ge count completed.length with inside | last
  · rw [List.getElem?_append_left inside] at place
    exact follows.read count pair.1 request place here
  · -- the request that is read comes behind those that were
    rw [List.getElem?_append_right last] at place
    match reader : (world.shared.linker id).reader with
    | none =>
        rw [ALinker.readerMsg, reader] at place
        cases place
    | some (source, msg) =>
        rw [readerMsg_of_reader reader] at place
        obtain ⟨bound, same⟩ := List.getElem?_eq_some_iff.mp place
        obtain rfl : count = completed.length := by simp at bound; omega
        obtain rfl : msg = pair.1 := by simpa using same
        exact ⟨source, (follows.ended reader done here).1⟩

end Follows

end World
end GnyProxy
