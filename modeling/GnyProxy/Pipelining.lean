import GnyProxy.HttpProxy
import GnyProxy.Replying
import Mathlib.Data.List.Forall2

/-!
# Pipelining

Responses go back to the client in the order of the requests and whole, in every run without a
tunnel: requests are queued once and in order, and a writer is replaced only behind the last byte
of its response.
-/

namespace GnyProxy

open Transfer (EncodesMessage Replying)

namespace ALinker

/-! ## Requests -/

/-- A message that a response may begin as. -/
def Opens (response : HttpMessage) : Prop :=
  response.isRequest = false ∧ HttpMessage.InStep response

theorem opens_fresh : Opens (.fresh false) := ⟨rfl, .fresh false⟩

theorem Opens.update {response next : HttpMessage} {update : Update} (opens : Opens response)
    (updated : response.update update = .ok next) : Opens next :=
  ⟨(HttpMessage.isRequest_of_update updated).trans opens.1, opens.2.extends (.update updated)⟩

theorem opens_generateMessage {response : HttpMessage} {status : Int} {info : Str}
    (generated : generateMessage (.fresh false) status info = .ok response) : Opens response := by
  obtain ⟨msg₁, header, generated⟩ := bind_eq_ok.mp generated
  obtain ⟨msg₂, end_header, generated⟩ := bind_eq_ok.mp generated
  obtain ⟨msg₃, entity, generated⟩ := bind_eq_ok.mp generated
  obtain ⟨msg₄, end_entity, end_footer⟩ := bind_eq_ok.mp generated
  have opens := @Opens.update _ _ (.setStatus status) opens_fresh rfl
  have opens₁ := @Opens.update _ _ (.addHeader _ _) opens header
  have opens₂ := @Opens.update _ _ .endHeader opens₁ end_header
  have opens₃ := @Opens.update _ _ (.appendEntity _) opens₂ entity
  have opens₄ := @Opens.update _ _ .endEntity opens₃ end_entity
  exact @Opens.update _ _ .endFooter opens₄ end_footer

/-- A fresh writer may be handed it. -/
theorem Opens.replying {fresh : MessageSink} {response : HttpMessage} (opens : Opens response)
    (isFresh : fresh.IsFresh) : Replying fresh (.handed fresh response) := by
  by_cases known : ∃ first, fresh.firstLine response = .ok (some first)
  · obtain ⟨first, begins⟩ := known
    exact Or.inr ⟨first, Transfer.requesting_handed isFresh begins opens.2⟩
  · exact Or.inl ⟨rfl, opens.1, opens.2, fun first begins => known ⟨first, begins⟩⟩

theorem opens_upstreamResponse {response : HttpMessage} {connects : Bool}
    (answered : upstreamResponse connects = .ok response) : Opens response := by
  unfold upstreamResponse at answered
  split at answered
  · cases answered
    exact opens_fresh
  · exact opens_generateMessage answered

/-- `connect` leaves the connection alone, queues the request or makes a tunnel. -/
theorem connect_cases {proxy : HttpProxy} {linker linker' : ALinker} {id : MessageId}
    {connects : Bool} (outcome : connect proxy linker id connects = .ok linker') :
    linker' = linker ∨
      (linker.connected = false ∧ ∃ response, Opens response ∧
        linker' = { linker.respond id response with connected := true }) ∨
      linker'.tunneler = true := by
  unfold connect at outcome
  simp only at outcome
  split at outcome
  · rename_i found
    split at outcome
    · obtain ⟨response, response_eq, outcome⟩ := bind_eq_ok.mp outcome
      exact Or.inr (Or.inl ⟨found.1, response, opens_upstreamResponse response_eq,
        (Except.ok.inj outcome).symm⟩)
    · split at outcome
      · obtain ⟨response, response_eq, outcome⟩ := bind_eq_ok.mp outcome
        exact Or.inr (Or.inl ⟨found.1, response,
          opens_upstreamResponse response_eq, (Except.ok.inj outcome).symm⟩)
      · split at outcome
        · obtain ⟨response, -, outcome⟩ := bind_eq_ok.mp outcome
          exact Or.inr (Or.inr (by rw [← Except.ok.inj outcome]))
        · exact Or.inr (Or.inr (by rw [← Except.ok.inj outcome]))
  · exact Or.inl (Except.ok.inj outcome).symm

/-- Without a tunnel a request that finishes is queued by then, and a new one begins. -/
theorem finishRequest_cases {proxy : HttpProxy} {linker linker' : ALinker} {id : MessageId}
    (outcome : finishRequest proxy linker id = .ok linker') :
    linker'.tunneler = linker.tunneler ∧ (linker.tunneler = false →
      linker' = linker ∨
        (linker.connected = true ∧ linker' = nextRequest proxy linker) ∨
        (linker.connected = false ∧ ∃ response, Opens response ∧
          linker' = nextRequest proxy { linker.respond id response with connected := true })) := by
  unfold finishRequest at outcome
  split at outcome
  · obtain ⟨queued, queued_eq, outcome⟩ := bind_eq_ok.mp outcome
    cases connected : linker.connected with
    | true =>
        rw [queueUnconnected, if_pos connected] at queued_eq
        cases queued_eq
        split at outcome
        · rename_i tunnel
          cases outcome
          exact ⟨rfl, fun none => absurd (tunnel.symm.trans none) (by simp)⟩
        · cases outcome
          exact ⟨rfl, fun _ => Or.inr (Or.inl ⟨rfl, rfl⟩)⟩
    | false =>
        rw [queueUnconnected, if_neg (by simp [connected])] at queued_eq
        obtain ⟨response, response_eq, queued_eq⟩ := bind_eq_ok.mp queued_eq
        cases queued_eq
        split at outcome
        · rename_i tunnel
          cases outcome
          exact ⟨rfl, fun none => absurd (tunnel.symm.trans none) (by simp)⟩
        · cases outcome
          exact ⟨rfl, fun _ => Or.inr (Or.inr ⟨rfl, response,
            opens_generateMessage response_eq, rfl⟩)⟩
  · cases outcome
    exact ⟨rfl, fun _ => Or.inl rfl⟩

/-- The reader has made progress with its message. -/
def reading (linker : ALinker) (source : MessageSource) (id : MessageId) (msg : HttpMessage) :
    ALinker :=
  { linker.setMessage id msg with reader := some (source, id) }

/-- The request that is read is queued. -/
def queueRequest (linker : ALinker) (id : MessageId) (response : HttpMessage) : ALinker :=
  { linker.respond id response with connected := true }

/-- Without a tunnel a call of `read` may queue the request that is read, unless it was queued
before, and may finish it, if it is queued by then. -/
theorem read_cases {proxy : HttpProxy} {linker linker' : ALinker} {rbuf : Str} {connects : Bool}
    {ret : Nat} {id : MessageId} (current : linker.readerMsg = some id)
    (outcome : linker.read proxy rbuf connects = .ok (linker', ret))
    (noTunnel : linker'.tunneler = false) :
    ∃ source msg,
      linker' = linker.reading source id msg ∨
      (linker.connected = true ∧ linker' = nextRequest proxy (linker.reading source id msg)) ∨
      (linker.connected = false ∧ ∃ response, Opens response ∧
        (linker' = (linker.reading source id msg).queueRequest id response ∨
          linker' = nextRequest proxy
            ((linker.reading source id msg).queueRequest id response))) := by
  unfold ALinker.read at outcome
  cases reader : linker.reader with
  | none => simp [readerMsg, reader] at current
  | some reader_eq =>
      obtain ⟨source, id'⟩ := reader_eq
      obtain rfl : id' = id := by simpa [readerMsg, reader] using current
      rw [reader] at outcome
      obtain ⟨⟨⟨source', msg⟩, amount⟩, -, outcome⟩ := bind_eq_ok.mp outcome
      obtain ⟨behind, connect_eq, outcome⟩ := bind_eq_ok.mp outcome
      obtain ⟨last, finish_eq, outcome⟩ := bind_eq_ok.mp outcome
      cases outcome
      obtain ⟨same_tunnel, finishes⟩ := finishRequest_cases finish_eq
      have open_tunnel : behind.tunneler = false := same_tunnel.symm.trans noTunnel
      refine ⟨source', msg, ?_⟩
      obtain rfl | ⟨unconnected, response, opens, rfl⟩ | tunnel := connect_cases connect_eq
      · obtain stays | ⟨connected, ends⟩ | ⟨unconnected, response, opens, ends⟩ :=
          finishes open_tunnel
        · exact Or.inl stays
        · exact Or.inr (Or.inl ⟨connected, ends⟩)
        · exact Or.inr (Or.inr ⟨unconnected, response, opens, Or.inr ends⟩)
      · obtain stays | ⟨-, ends⟩ | ⟨connected, -⟩ := finishes open_tunnel
        · exact Or.inr (Or.inr ⟨unconnected, response, opens, Or.inl stays⟩)
        · exact Or.inr (Or.inr ⟨unconnected, response, opens, Or.inr ends⟩)
        · cases connected
      · exact absurd (tunnel.symm.trans open_tunnel) (by simp)

/-- The requests are queued in order, each with messages of its own. -/
structure Ordered (linker : ALinker) (finished : List MessageId)
    (queued : List (MessageId × MessageId)) : Prop where
  requests : queued.map (·.1) =
    finished ++ if linker.connected then linker.readerMsg.toList else []
  own : (finished ++ linker.readerMsg.toList ++ queued.map (·.2)).Nodup
  below : ∀ id ∈ finished ++ linker.readerMsg.toList ++ queued.map (·.2), id < linker.next

/-- Nothing but messages, the writer and the queue changes. -/
def SameReading (linker linker' : ALinker) : Prop :=
  linker'.reader = linker.reader ∧ linker'.connected = linker.connected ∧
    linker'.next = linker.next ∧ linker'.tunneler = linker.tunneler

section Ordered

variable {proxy : HttpProxy} {linker : ALinker} {finished : List MessageId}
  {queued : List (MessageId × MessageId)} {id : MessageId}

theorem SameReading.readerMsg {linker' : ALinker} (same : SameReading linker linker') :
    linker'.readerMsg = linker.readerMsg := by
  rw [ALinker.readerMsg, same.1, ALinker.readerMsg]

theorem Ordered.congr {linker' : ALinker} (ordered : Ordered linker finished queued)
    (same : SameReading linker linker') : Ordered linker' finished queued := by
  have reader := same.readerMsg
  obtain ⟨-, connected, next, -⟩ := same
  exact ⟨by rw [reader, connected]; exact ordered.requests, by rw [reader]; exact ordered.own,
    by rw [reader, next]; exact ordered.below⟩

theorem Ordered.reading (ordered : Ordered linker finished queued)
    (current : linker.readerMsg = some id) (source : MessageSource) (msg : HttpMessage) :
    Ordered (linker.reading source id msg) finished queued := by
  have same : (linker.reading source id msg).readerMsg = linker.readerMsg := current.symm
  exact ⟨by rw [same]; exact ordered.requests, by rw [same]; exact ordered.own,
    by rw [same]; exact ordered.below⟩

theorem Ordered.queueRequest (ordered : Ordered linker finished queued)
    (current : linker.readerMsg = some id) (unconnected : linker.connected = false)
    (response : HttpMessage) :
    Ordered (linker.queueRequest id response) finished (queued ++ [(id, linker.next)]) := by
  obtain ⟨requests, own, below⟩ := ordered
  have same : (linker.queueRequest id response).readerMsg = some id := current
  rw [current] at own below
  refine ⟨?_, ?_, ?_⟩
  · have connected : (linker.queueRequest id response).connected = true := rfl
    rw [connected, if_pos rfl, same]
    simp [requests, unconnected]
  · have fresh : linker.next ∉ finished ++ (some id).toList ++ queued.map (·.2) :=
      fun member => absurd (below _ member) (lt_irrefl _)
    rw [same, List.map_append, ← List.append_assoc]
    exact List.Nodup.append own (by simp) (by simpa using fresh)
  · intro other member
    rw [same, List.map_append, ← List.append_assoc, List.mem_append] at member
    have next : (linker.queueRequest id response).next = linker.next + 1 := rfl
    rw [next]
    obtain member | member := member
    · exact (below other member).trans (Nat.lt_succ_self _)
    · rw [List.mem_singleton.mp member]
      exact Nat.lt_succ_self _

theorem Ordered.nextRequest (ordered : Ordered linker finished queued)
    (current : linker.readerMsg = some id) (connected : linker.connected = true) :
    Ordered (nextRequest proxy linker) (finished ++ [id]) queued := by
  obtain ⟨requests, own, below⟩ := ordered
  have reader : (ALinker.nextRequest proxy linker).readerMsg = some linker.next := rfl
  have next : (ALinker.nextRequest proxy linker).next = linker.next + 1 := rfl
  rw [current] at requests own below
  refine ⟨?_, ?_, ?_⟩
  · simpa [connected, ALinker.nextRequest] using requests
  · rw [reader]
    have fresh : linker.next ∉ finished ++ (some id).toList ++ queued.map (·.2) :=
      fun member => absurd (below _ member) (lt_irrefl _)
    have split : finished ++ [id] ++ (some linker.next).toList ++ queued.map (·.2) =
        (finished ++ [id]) ++ linker.next :: queued.map (·.2) := by simp
    rw [split, List.nodup_middle]
    exact List.nodup_cons.mpr ⟨fresh, own⟩
  · intro other member
    rw [next]
    by_cases new : other = linker.next
    · rw [new]
      exact Nat.lt_succ_self _
    · refine (below other ?_).trans (Nat.lt_succ_self _)
      simpa [reader, new] using member

/-- What a call of `read` leaves behind: pairs at the end of the queue, whose responses are new, and
the same messages but for the request that is read. -/
structure Advances (linker linker' : ALinker) (id : MessageId)
    (pushed : List (MessageId × MessageId)) : Prop where
  queue : linker'.responseQueue = linker.responseQueue ++ pushed
  writer : linker'.writer = linker.writer
  kept : ∀ other < linker.next, other ≠ id → linker'.messages other = linker.messages other
  opened : ∀ pair ∈ pushed, linker.next ≤ pair.2 ∧ Opens (linker'.messages pair.2)

theorem advances_reading (linker : ALinker) (source : MessageSource) (id : MessageId)
    (msg : HttpMessage) : Advances linker (linker.reading source id msg) id [] where
  queue := (List.append_nil _).symm
  writer := rfl
  kept _ _ other := Function.update_of_ne other _ _
  opened := by simp

theorem Advances.queueRequest {linker linker' : ALinker} (advances : Advances linker linker' id [])
    (next : linker'.next = linker.next) {response : HttpMessage} (opens : Opens response) :
    Advances linker (linker'.queueRequest id response) id [(id, linker.next)] where
  queue := by
    have queue := advances.queue
    rw [List.append_nil] at queue
    rw [← queue, ← next]
    rfl
  writer := advances.writer
  kept other below differs := by
    have old : other ≠ linker'.next := by
      rw [next]
      exact below.ne
    rw [← advances.kept other below differs]
    exact Function.update_of_ne old _ _
  opened pair member := by
    rw [List.mem_singleton.mp member]
    refine ⟨le_rfl, ?_⟩
    have new : (linker'.queueRequest id response).messages linker.next = response := by
      rw [← next]
      exact Function.update_self _ _ _
    rwa [new]

theorem Advances.nextRequest {linker linker' : ALinker}
    {pushed : List (MessageId × MessageId)} (advances : Advances linker linker' id pushed)
    (later : linker.next ≤ linker'.next) (below : ∀ pair ∈ pushed, pair.2 < linker'.next) :
    Advances linker (nextRequest proxy linker') id pushed where
  queue := advances.queue
  writer := advances.writer
  kept other old differs := by
    rw [← advances.kept other old differs]
    exact Function.update_of_ne (old.trans_le later).ne _ _
  opened pair member := by
    obtain ⟨new, opens⟩ := advances.opened pair member
    refine ⟨new, ?_⟩
    have same : (ALinker.nextRequest proxy linker').messages pair.2 = linker'.messages pair.2 :=
      Function.update_of_ne (below pair member).ne _ _
    rwa [same]

theorem Ordered.read {linker' : ALinker} {rbuf : Str} {connects : Bool} {ret : Nat}
    (ordered : Ordered linker finished queued) (current : linker.readerMsg = some id)
    (outcome : linker.read proxy rbuf connects = .ok (linker', ret))
    (noTunnel : linker'.tunneler = false) :
    ∃ pushed, Advances linker linker' id pushed ∧
      Ordered linker' (finished ++
        if linker'.readerMsg = linker.readerMsg then [] else linker.readerMsg.toList)
        (queued ++ pushed) ∧ linker'.readerMsg.isSome := by
  have old : id < linker.next := ordered.below id (by simp [current])
  have changes : ¬some linker.next = some id := fun same => old.ne' (Option.some.inj same)
  obtain ⟨source, msg, rfl | ⟨connected, rfl⟩ | ⟨unconnected, response, opens, rfl | rfl⟩⟩ :=
    read_cases current outcome noTunnel
  · -- the request goes on
    have same : (linker.reading source id msg).readerMsg = linker.readerMsg := current.symm
    refine ⟨[], advances_reading _ _ _ _, ?_, by rw [same, current]; rfl⟩
    rw [if_pos same, List.append_nil, List.append_nil]
    exact ordered.reading current source msg
  · -- it ends
    have reader : (ALinker.nextRequest proxy (linker.reading source id msg)).readerMsg =
        some linker.next := rfl
    refine ⟨[], (advances_reading _ _ _ _).nextRequest le_rfl (by simp), ?_, by rw [reader]; rfl⟩
    rw [reader, current, if_neg changes, List.append_nil]
    exact (ordered.reading current source msg).nextRequest rfl connected
  · -- it is queued
    have same : ((linker.reading source id msg).queueRequest id response).readerMsg =
        linker.readerMsg := current.symm
    refine ⟨[(id, linker.next)], (advances_reading _ _ _ _).queueRequest rfl opens, ?_,
      by rw [same, current]; rfl⟩
    rw [if_pos same, List.append_nil]
    exact (ordered.reading current source msg).queueRequest rfl unconnected response
  · -- it is queued and ends
    have reader : (ALinker.nextRequest proxy
        ((linker.reading source id msg).queueRequest id response)).readerMsg =
          some (linker.next + 1) := rfl
    have queued_advances := (advances_reading linker source id msg).queueRequest rfl opens
    refine ⟨[(id, linker.next)], queued_advances.nextRequest (Nat.le_succ _) ?_, ?_,
      by rw [reader]; rfl⟩
    · intro pair member
      rw [List.mem_singleton.mp member]
      exact Nat.lt_succ_self _
    · have changes' : ¬some (linker.next + 1) = some id :=
        fun same => (old.trans (Nat.lt_succ_self _)).ne' (Option.some.inj same)
      rw [reader, current, if_neg changes']
      exact ((ordered.reading current source msg).queueRequest rfl unconnected response).nextRequest
        rfl rfl

end Ordered

/-! ## Responses -/

/-- The writer that a response has, and what was sent of it. -/
def served (fresh : MessageSink) (writer : Option (MessageSink × MessageId)) (current : Str)
    (id : MessageId) : MessageSink × Str :=
  match writer with
  | none => (fresh, [])
  | some (sink, own) => if own = id then (sink, current) else (fresh, [])

/-- The responses in the queue are on their way, and only the first of them has a writer. -/
structure Serving (fresh : MessageSink) (linker : ALinker) (responses : MessageId → HttpMessage)
    (queue : List (MessageId × MessageId)) (current : Str) : Prop where
  idle : linker.writer = none → current = []
  first : ∀ sink own, linker.writer = some (sink, own) →
    ∃ msgReq rest, queue = (msgReq, own) :: rest
  replying : ∀ pair ∈ queue, Replying fresh
    { msg := linker.messages pair.2
      sink := (served fresh linker.writer current pair.2).1
      whole := responses pair.2
      sent := (served fresh linker.writer current pair.2).2 }

section Serving

variable {fresh : MessageSink} {linker : ALinker} {responses : MessageId → HttpMessage}
  {queue rest : List (MessageId × MessageId)} {msgReq msgRes : MessageId} {current : Str}

theorem Serving.congr {linker' : ALinker} {responses' : MessageId → HttpMessage}
    (serving : Serving fresh linker responses queue current)
    (writer : linker'.writer = linker.writer)
    (messages : ∀ pair ∈ queue, linker'.messages pair.2 = linker.messages pair.2)
    (same : ∀ pair ∈ queue, responses' pair.2 = responses pair.2) :
    Serving fresh linker' responses' queue current := by
  refine ⟨by rw [writer]; exact serving.idle, by rw [writer]; exact serving.first,
    fun pair member => ?_⟩
  rw [writer, messages pair member, same pair member]
  exact serving.replying pair member

/-- The first response in the queue, with its writer or with the one that it will get. -/
theorem Serving.head (serving : Serving fresh linker responses ((msgReq, msgRes) :: rest) current) :
    ∃ sink, linker.writer.getD (fresh, msgRes) = (sink, msgRes) ∧ Replying fresh
      { msg := linker.messages msgRes, sink, whole := responses msgRes, sent := current } := by
  have replying := serving.replying _ List.mem_cons_self
  cases writer : linker.writer with
  | none =>
      rw [writer] at replying
      refine ⟨fresh, rfl, ?_⟩
      rw [serving.idle writer]
      exact replying
  | some sink_own =>
      obtain ⟨sink, own⟩ := sink_own
      obtain ⟨_, _, same⟩ := serving.first sink own writer
      obtain ⟨rfl, rfl⟩ : _ ∧ own = msgRes := by simpa [eq_comm] using (List.cons.inj same).1
      rw [writer] at replying
      refine ⟨sink, rfl, ?_⟩
      simpa [served] using replying

/-- Only the first response has a writer. -/
theorem Serving.served_of_ne
    (serving : Serving fresh linker responses ((msgReq, msgRes) :: rest) current) {id : MessageId}
    (other : id ≠ msgRes) : served fresh linker.writer current id = (fresh, []) := by
  cases writer : linker.writer with
  | none => rfl
  | some sink_own =>
      obtain ⟨sink, own⟩ := sink_own
      obtain ⟨_, _, same⟩ := serving.first sink own writer
      obtain ⟨rfl, rfl⟩ : _ ∧ own = msgRes := by simpa [eq_comm] using (List.cons.inj same).1
      exact if_neg (Ne.symm other)

/-- The writer of the first response goes on. -/
theorem Serving.call
    (serving : Serving fresh linker responses ((msgReq, msgRes) :: rest) current)
    {sink : MessageSink} {msg : HttpMessage} {current' : Str}
    (replying : Replying fresh { msg, sink, whole := responses msgRes, sent := current' }) :
    Serving fresh { linker.setMessage msgRes msg with writer := some (sink, msgRes) } responses
      ((msgReq, msgRes) :: rest) current' := by
  refine ⟨nofun, fun sink' own same => ?_, fun pair member => ?_⟩
  · cases same
    exact ⟨msgReq, rest, rfl⟩
  · by_cases own : pair.2 = msgRes
    · simpa [own, served, setMessage] using replying
    · have waiting := serving.replying pair member
      rw [serving.served_of_ne own] at waiting
      simpa [served, Ne.symm own, setMessage, Function.update_of_ne own] using waiting

/-- The first response leaves the queue. -/
theorem Serving.pop (serving : Serving fresh linker responses ((msgReq, msgRes) :: rest) current)
    (distinct : (((msgReq, msgRes) :: rest).map (·.2)).Nodup) (msg : HttpMessage) :
    Serving fresh { linker.setMessage msgRes msg with writer := none } responses rest [] := by
  refine ⟨fun _ => rfl, nofun, fun pair member => ?_⟩
  have own : pair.2 ≠ msgRes := by
    intro same
    refine (List.nodup_cons.mp distinct).1 (List.mem_map.mpr ⟨pair, member, same⟩)
  have waiting := serving.replying pair (List.mem_cons_of_mem _ member)
  rw [serving.served_of_ne own] at waiting
  simpa [served, setMessage, Function.update_of_ne own] using waiting

/-- A call of `get_write_size` answers the responses that are sent to the last byte, and goes on
with the one behind them. -/
theorem Serving.getWriteSizeFrom {proxy : HttpProxy} {linker' : ALinker} {size : Nat}
    (serving : Serving proxy.aWriter.writerCreator linker responses queue current)
    (distinct : (queue.map (·.2)).Nodup)
    (inRange : ∀ pair ∈ queue, (responses pair.2).state = .done →
      0 ≤ (responses pair.2).status ∧ (responses pair.2).status ≤ 65534)
    (outcome : getWriteSizeFrom proxy linker queue = .ok (linker', size)) :
    ∃ answered encodings current', queue = answered ++ linker'.responseQueue ∧
      List.Forall₂ (fun pair encoding =>
        EncodesMessage proxy.aWriter.writerCreator (responses pair.2) encoding)
          answered encodings ∧
      current = encodings.flatten ++ current' ∧
      Serving proxy.aWriter.writerCreator linker' responses linker'.responseQueue current' ∧
      SameReading linker linker' := by
  have isFresh := proxy.aWriter.isFresh_writerCreator
  induction queue generalizing linker current with
  | nil =>
      cases outcome
      exact ⟨[], [], current, rfl, .nil, rfl,
        serving.congr rfl (fun _ _ => rfl) fun _ _ => rfl, rfl, rfl, rfl, rfl⟩
  | cons pair rest ih =>
      obtain ⟨msgReq, msgRes⟩ := pair
      obtain ⟨sink, writer_eq, replying⟩ := serving.head
      simp only [ALinker.getWriteSizeFrom, writer_eq] at outcome
      obtain ⟨⟨⟨sink', msg⟩, ret⟩, size_eq, outcome⟩ := bind_eq_ok.mp outcome
      have replying' := replying.getWriteSize isFresh size_eq
      simp only at outcome
      split at outcome
      · rename_i moves_on
        obtain ⟨none_left, -, sent⟩ := moves_on
        have isSent : msg.isSent = true := by simpa [setMessage] using sent
        have done : (responses msgRes).state = .done :=
          (replying'.same isFresh).1.2.trans ((HttpMessage.isSent_iff _).mp isSent).1
        obtain ⟨low, high⟩ := inRange _ List.mem_cons_self done
        have encodes := replying.encodes isFresh size_eq none_left isSent low high
        obtain ⟨answered, encodings, current', queue_eq, all, split, serving', same⟩ :=
          ih (serving.pop distinct msg) (List.nodup_cons.mp distinct).2
            (fun pair member => inRange pair (List.mem_cons_of_mem _ member)) outcome
        refine ⟨(msgReq, msgRes) :: answered, current :: encodings, current', ?_,
          .cons encodes all, ?_, serving', same⟩
        · rw [queue_eq, List.cons_append]
        · rw [List.flatten_cons, List.append_assoc, ← split, List.append_nil]
      · cases outcome
        refine ⟨[], [], current, rfl, .nil, rfl, ?_, rfl, rfl, rfl, rfl⟩
        exact (serving.call replying').congr rfl (fun _ _ => rfl) fun _ _ => rfl

/-- A call of `write` sends more of the first response. -/
theorem Serving.write {linker' : ALinker} {maxWrite amount : Nat} {sent : Str}
    (isFresh : fresh.IsFresh) (serving : Serving fresh linker responses queue current)
    (noTunnel : linker.tunneler = false)
    (outcome : linker.write maxWrite amount = .ok (linker', sent)) :
    Serving fresh linker' responses queue (current ++ sent) ∧ SameReading linker linker' ∧
      linker'.responseQueue = linker.responseQueue := by
  unfold ALinker.write at outcome
  cases writer : linker.writer with
  | none => simp [writer, noTunnel] at outcome
  | some sink_own =>
      obtain ⟨sink, own⟩ := sink_own
      rw [writer] at outcome
      obtain ⟨⟨⟨sink', msg⟩, bytes⟩, write_eq, outcome⟩ := bind_eq_ok.mp outcome
      cases outcome
      obtain ⟨msgReq, rest, rfl⟩ := serving.first sink own writer
      obtain ⟨head, writer_eq, replying⟩ := serving.head
      rw [writer] at writer_eq
      obtain rfl : sink = head := congrArg Prod.fst writer_eq
      exact ⟨serving.call (replying.write isFresh write_eq), ⟨rfl, rfl, rfl, rfl⟩, rfl⟩

/-- A call of `read` adds responses on which nothing was written. -/
theorem Serving.read {linker' : ALinker} {id : MessageId}
    {pushed : List (MessageId × MessageId)} (isFresh : fresh.IsFresh)
    (serving : Serving fresh linker responses queue current)
    (advances : Advances linker linker' id pushed)
    (old : ∀ pair ∈ queue, pair.2 < linker.next ∧ pair.2 ≠ id) :
    Serving fresh linker'
      (fun other => if other < linker.next then responses other else linker'.messages other)
      (queue ++ pushed) current := by
  refine ⟨by rw [advances.writer]; exact serving.idle, fun sink own writer => ?_,
    fun pair member => ?_⟩
  · rw [advances.writer] at writer
    obtain ⟨msgReq, rest, rfl⟩ := serving.first sink own writer
    exact ⟨msgReq, rest ++ pushed, rfl⟩
  · obtain member | member := List.mem_append.mp member
    · obtain ⟨below, differs⟩ := old pair member
      rw [advances.writer, advances.kept _ below differs, if_pos below]
      exact serving.replying pair member
    · obtain ⟨new, opens⟩ := advances.opened pair member
      have waiting : served fresh linker.writer current pair.2 = (fresh, []) := by
        cases writer : linker.writer with
        | none => rfl
        | some sink_own =>
            obtain ⟨sink, own⟩ := sink_own
            obtain ⟨msgReq, rest, rfl⟩ := serving.first sink own writer
            have below : own < linker.next := (old _ List.mem_cons_self).1
            exact if_neg (below.trans_le new).ne
      rw [advances.writer, waiting, if_neg new.not_gt]
      exact opens.replying isFresh

/-- Upstream goes on with a response. -/
theorem Serving.respond {pair : MessageId × MessageId} {update : Update} {msg : HttpMessage}
    (isFresh : fresh.IsFresh) (serving : Serving fresh linker responses queue current)
    (member : pair ∈ queue) (admits : (responses pair.2).Admits update)
    (msg_eq : (linker.messages pair.2).update update = .ok msg) {response : HttpMessage}
    (response_eq : (responses pair.2).update update = .ok response) :
    Serving fresh (linker.setMessage pair.2 msg) (Function.update responses pair.2 response) queue
      current := by
  refine ⟨serving.idle, serving.first, fun other other_member => ?_⟩
  by_cases same : other.2 = pair.2
  · obtain ⟨whole, whole_eq, replying⟩ :=
      (serving.replying pair member).update isFresh admits msg_eq
    obtain rfl : response = whole := Except.ok.inj (response_eq.symm.trans whole_eq)
    simpa [same, setMessage] using replying
  · have unchanged := serving.replying other other_member
    simpa [setMessage, Function.update_of_ne same] using unchanged

end Serving

/-! ## Runs -/

namespace Session

/-- A response that is done has a status in its range. -/
def InRange (session : Session) : Prop :=
  ∀ pair ∈ session.queued, (session.responses pair.2).state = .done →
    0 ≤ (session.responses pair.2).status ∧ (session.responses pair.2).status ≤ 65534

/-- Upstream leaves a status that is set as it is. -/
def KeepsStatus (session : Session) : Action → Prop
  | .respond index update =>
      ∀ pair ∈ session.linker.responseQueue[index]?, (session.responses pair.2).Admits update
  | _ => True

/-- The statuses are in their range, and stay, all along the run. -/
def RunsInRange (proxy : HttpProxy) : Session → List Action → Prop
  | session, [] => session.InRange
  | session, action :: actions =>
      session.InRange ∧ session.KeepsStatus action ∧
        match session.step proxy action with
        | .error _ => True
        | .ok next => next.RunsInRange proxy actions

instance (session : Session) : Decidable session.InRange := by
  unfold InRange
  infer_instance

instance (session : Session) (action : Action) : Decidable (session.KeepsStatus action) := by
  cases action <;> unfold KeepsStatus <;> infer_instance

instance decidableRunsInRange (proxy : HttpProxy) :
    (session : Session) → (actions : List Action) → Decidable (session.RunsInRange proxy actions)
  | session, [] => inferInstanceAs (Decidable session.InRange)
  | session, action :: actions =>
      have _later : Decidable (match session.step proxy action with
          | .error _ => True
          | .ok next => next.RunsInRange proxy actions) :=
        match session.step proxy action with
        | .error _ => isTrue trivial
        | .ok next => decidableRunsInRange proxy next actions
      inferInstanceAs (Decidable (_ ∧ _ ∧ _))

/-- The bytes that were sent are complete encodings of the responses that were answered, and the
first bytes of one of the response behind them. -/
structure Invariant (proxy : HttpProxy) (session : Session) : Prop where
  reads : session.linker.readerMsg.isSome
  ordered : Ordered session.linker session.finished session.queued
  stream : ∃ answered encodings current,
    session.queued = answered ++ session.linker.responseQueue ∧
    List.Forall₂ (fun pair encoding =>
      EncodesMessage proxy.aWriter.writerCreator (session.responses pair.2) encoding)
        answered encodings ∧
    session.sent = encodings.flatten ++ current ∧
    Serving proxy.aWriter.writerCreator session.linker session.responses
      session.linker.responseQueue current

theorem forall₂_imp_of_mem {α β : Type} {R S : α → β → Prop} {left : List α} {right : List β}
    (all : List.Forall₂ R left right) (imp : ∀ a ∈ left, ∀ b, R a b → S a b) :
    List.Forall₂ S left right := by
  induction all with
  | nil => exact .nil
  | cons head _ ih =>
      exact .cons (imp _ List.mem_cons_self _ head)
        (ih fun a member => imp a (List.mem_cons_of_mem _ member))

theorem invariant_start (proxy : HttpProxy) : (start proxy).Invariant proxy where
  reads := rfl
  ordered := ⟨rfl, by simp [start, create, readerMsg], by simp [start, create, readerMsg]⟩
  stream := ⟨[], [], [], rfl, .nil, rfl, fun _ => rfl, nofun, by simp [start, create]⟩

variable {proxy : HttpProxy} {session next : Session}

theorem Invariant.read {rbuf : Str} {connects : Bool} (invariant : session.Invariant proxy)
    (step_eq : session.step proxy (.read rbuf connects) = .ok next)
    (noTunnel : next.linker.tunneler = false) : next.Invariant proxy := by
  obtain ⟨reads, ordered, answered, encodings, current, queued, all, sent, serving⟩ := invariant
  obtain ⟨id, reader⟩ := Option.isSome_iff_exists.mp reads
  obtain ⟨⟨linker, ret⟩, read_eq, step_eq⟩ := bind_eq_ok.mp step_eq
  cases step_eq
  obtain ⟨pushed, advances, ordered', reads'⟩ := ordered.read reader read_eq noTunnel
  have pushed_eq : linker.responseQueue.drop session.linker.responseQueue.length = pushed := by
    rw [advances.queue, List.drop_left]
  have old : ∀ pair ∈ session.queued, pair.2 < session.linker.next ∧ pair.2 ≠ id := by
    intro pair member
    have response : pair.2 ∈ session.queued.map (·.2) := List.mem_map_of_mem member
    refine ⟨ordered.below _ (List.mem_append_right _ response), fun same => ?_⟩
    have own := ordered.own
    rw [reader] at own
    exact List.disjoint_of_nodup_append own (by simp) (same ▸ response)
  have in_queue (pair) (member : pair ∈ session.linker.responseQueue) : pair ∈ session.queued := by
    rw [queued]
    exact List.mem_append_right _ member
  refine ⟨reads', ?_, answered, encodings, current, ?_, ?_, sent, ?_⟩
  · simp only [pushed_eq]
    exact ordered'
  · simp only [pushed_eq]
    rw [queued, advances.queue, List.append_assoc]
  · refine forall₂_imp_of_mem all fun pair member encoding encodes => ?_
    have below := (old pair (by rw [queued]; exact List.mem_append_left _ member)).1
    simpa only [below, if_true] using encodes
  · simp only [advances.queue]
    exact serving.read proxy.aWriter.isFresh_writerCreator advances fun pair member =>
      old pair (in_queue pair member)

theorem Invariant.getWriteSize (invariant : session.Invariant proxy) (inRange : session.InRange)
    (step_eq : session.step proxy .getWriteSize = .ok next) : next.Invariant proxy := by
  obtain ⟨reads, ordered, answered, encodings, current, queued, all, sent, serving⟩ := invariant
  obtain ⟨⟨linker, size⟩, size_eq, step_eq⟩ := bind_eq_ok.mp step_eq
  cases step_eq
  have distinct : (session.linker.responseQueue.map (·.2)).Nodup := by
    have own := ordered.own.of_append_right
    rw [queued, List.map_append] at own
    exact own.of_append_right
  obtain ⟨answered', encodings', current', queue_eq, all', split, serving', same⟩ :=
    serving.getWriteSizeFrom distinct
      (fun pair member => inRange pair (queued ▸ List.mem_append_right _ member)) size_eq
  refine ⟨same.readerMsg ▸ reads, ordered.congr same, answered ++ answered',
    encodings ++ encodings', current', ?_, List.rel_append all all', ?_, serving'⟩
  · simp only [queued, queue_eq, List.append_assoc]
  · simp only [sent, split, List.flatten_append, List.append_assoc]

theorem Invariant.write {maxWrite amount : Nat} (invariant : session.Invariant proxy)
    (step_eq : session.step proxy (.write maxWrite amount) = .ok next)
    (noTunnel : session.linker.tunneler = false) : next.Invariant proxy := by
  obtain ⟨reads, ordered, answered, encodings, current, queued, all, sent, serving⟩ := invariant
  obtain ⟨⟨linker, bytes⟩, write_eq, step_eq⟩ := bind_eq_ok.mp step_eq
  cases step_eq
  obtain ⟨serving', same, queue_eq⟩ :=
    serving.write proxy.aWriter.isFresh_writerCreator noTunnel write_eq
  refine ⟨same.readerMsg ▸ reads, ordered.congr same, answered, encodings, current ++ bytes,
    ?_, all,
    ?_, ?_⟩
  · simp only [queued, queue_eq]
  · simp only [sent, List.append_assoc]
  · simp only [queue_eq]
    exact serving'

/-- A response in the queue is no other message. -/
theorem Invariant.response_ne (invariant : session.Invariant proxy)
    {pair : MessageId × MessageId} (member : pair ∈ session.linker.responseQueue) :
    (∀ answered, session.queued = answered ++ session.linker.responseQueue →
      ∀ other ∈ answered, other.2 ≠ pair.2) ∧
    ∀ other ∈ session.queued, other.1 ≠ pair.2 := by
  obtain ⟨-, ordered, before, -, -, queued, -⟩ := invariant
  have queued_member : pair ∈ session.queued := by
    rw [queued]
    exact List.mem_append_right _ member
  have response : pair.2 ∈ session.queued.map (·.2) := List.mem_map_of_mem queued_member
  constructor
  · intro answered split other other_member same
    have own := ordered.own.of_append_right
    rw [split, List.map_append] at own
    exact List.disjoint_of_nodup_append own (List.mem_map_of_mem other_member)
      (same ▸ List.mem_map_of_mem member)
  · intro other other_member same
    have request : other.1 ∈ session.queued.map (·.1) := List.mem_map_of_mem other_member
    rw [ordered.requests] at request
    have requests : other.1 ∈ session.finished ++ session.linker.readerMsg.toList := by
      obtain finished | current := List.mem_append.mp request
      · exact List.mem_append_left _ finished
      · split at current
        · exact List.mem_append_right _ current
        · cases current
    exact List.disjoint_of_nodup_append ordered.own requests (same ▸ response)

theorem Invariant.respond {index : Nat} {update : Update} (invariant : session.Invariant proxy)
    (keeps : session.KeepsStatus (.respond index update))
    (step_eq : session.step proxy (.respond index update) = .ok next) : next.Invariant proxy := by
  cases found : session.linker.responseQueue[index]? with
  | none =>
      simp only [step, found, Except.ok.injEq] at step_eq
      exact step_eq ▸ invariant
  | some pair =>
      have member : pair ∈ session.linker.responseQueue := List.mem_of_getElem? found
      obtain ⟨answered_ne, -⟩ := invariant.response_ne member
      simp only [step, found] at step_eq
      obtain ⟨msg, msg_eq, step_eq⟩ := bind_eq_ok.mp step_eq
      obtain ⟨response, response_eq, step_eq⟩ := bind_eq_ok.mp step_eq
      cases step_eq
      obtain ⟨reads, ordered, answered, encodings, current, queued, all, sent, serving⟩ := invariant
      have admits : (session.responses pair.2).Admits update := keeps pair found
      refine ⟨reads, ordered.congr ⟨rfl, rfl, rfl, rfl⟩, answered, encodings, current, queued, ?_,
        sent, serving.respond proxy.aWriter.isFresh_writerCreator member admits msg_eq response_eq⟩
      refine forall₂_imp_of_mem all fun other other_member encoding encodes => ?_
      simpa only [Function.update_of_ne (answered_ne answered queued other other_member)] using
        encodes

theorem Invariant.forward {index : Nat} {part : Part} (invariant : session.Invariant proxy)
    (step_eq : session.step proxy (.forward index part) = .ok next) : next.Invariant proxy := by
  cases found : session.linker.responseQueue[index]? with
  | none =>
      simp only [step, found, Except.ok.injEq] at step_eq
      exact step_eq ▸ invariant
  | some pair =>
      have member : pair ∈ session.linker.responseQueue := List.mem_of_getElem? found
      simp only [step, found, Except.ok.injEq] at step_eq
      subst step_eq
      obtain ⟨answered, encodings, current, queued, all, sent, serving⟩ := invariant.stream
      refine ⟨invariant.reads, invariant.ordered.congr ⟨rfl, rfl, rfl, rfl⟩, answered, encodings,
        current, queued, all, sent, serving.congr rfl (fun other other_member => ?_) fun _ _ => rfl⟩
      have differs : pair.1 ≠ other.2 := (invariant.response_ne other_member).2 pair (by
        rw [queued]
        exact List.mem_append_right _ member)
      exact Function.update_of_ne differs.symm _ _

theorem tunneler_getWriteSizeFrom {linker linker' : ALinker} {size : Nat}
    {queue : List (MessageId × MessageId)}
    (outcome : getWriteSizeFrom proxy linker queue = .ok (linker', size)) :
    linker'.tunneler = linker.tunneler := by
  induction queue generalizing linker with
  | nil =>
      cases outcome
      rfl
  | cons pair rest ih =>
      obtain ⟨msgReq, msgRes⟩ := pair
      obtain ⟨⟨sink, own⟩, writer_eq⟩ :
          ∃ writer, linker.writer.getD (proxy.aWriter.writerCreator, msgRes) = writer := ⟨_, rfl⟩
      simp only [ALinker.getWriteSizeFrom, writer_eq] at outcome
      obtain ⟨⟨⟨sink', msg⟩, ret⟩, -, outcome⟩ := bind_eq_ok.mp outcome
      simp only at outcome
      split at outcome
      · have later := ih outcome
        exact later
      · cases outcome
        rfl

/-- A tunnel stays. -/
theorem tunneler_step {action : Action} (step_eq : session.step proxy action = .ok next)
    (tunnel : session.linker.tunneler = true) : next.linker.tunneler = true := by
  cases action with
  | read rbuf connects =>
      obtain ⟨⟨linker, ret⟩, read_eq, step_eq⟩ := bind_eq_ok.mp step_eq
      cases step_eq
      unfold ALinker.read at read_eq
      split at read_eq
      · rw [if_pos tunnel] at read_eq
        cases read_eq
        exact tunnel
      · obtain ⟨⟨⟨source, msg⟩, amount⟩, -, read_eq⟩ := bind_eq_ok.mp read_eq
        obtain ⟨behind, connect_eq, read_eq⟩ := bind_eq_ok.mp read_eq
        obtain ⟨last, finish_eq, read_eq⟩ := bind_eq_ok.mp read_eq
        cases read_eq
        rw [(finishRequest_cases finish_eq).1]
        obtain rfl | ⟨-, response, -, rfl⟩ | made := connect_cases connect_eq
        · exact tunnel
        · exact tunnel
        · exact made
  | getWriteSize =>
      obtain ⟨⟨linker, size⟩, size_eq, step_eq⟩ := bind_eq_ok.mp step_eq
      cases step_eq
      exact (tunneler_getWriteSizeFrom size_eq).trans tunnel
  | write maxWrite amount =>
      obtain ⟨⟨linker, bytes⟩, write_eq, step_eq⟩ := bind_eq_ok.mp step_eq
      cases step_eq
      unfold ALinker.write at write_eq
      split at write_eq
      · rw [if_pos tunnel] at write_eq
        cases write_eq
        exact tunnel
      · obtain ⟨⟨⟨sink, msg⟩, sent⟩, -, write_eq⟩ := bind_eq_ok.mp write_eq
        cases write_eq
        exact tunnel
  | respond index update =>
      simp only [step] at step_eq
      split at step_eq
      · cases step_eq
        exact tunnel
      · obtain ⟨msg, -, step_eq⟩ := bind_eq_ok.mp step_eq
        obtain ⟨response, -, step_eq⟩ := bind_eq_ok.mp step_eq
        cases step_eq
        exact tunnel
  | forward index part =>
      simp only [step] at step_eq
      split at step_eq <;>
      · cases step_eq
        exact tunnel

theorem Invariant.step {action : Action} (invariant : session.Invariant proxy)
    (inRange : session.InRange) (keeps : session.KeepsStatus action)
    (step_eq : session.step proxy action = .ok next)
    (noTunnel : next.linker.tunneler = false) : next.Invariant proxy := by
  cases action with
  | read rbuf connects => exact invariant.read step_eq noTunnel
  | getWriteSize => exact invariant.getWriteSize inRange step_eq
  | write maxWrite amount =>
      have before : session.linker.tunneler = false := by
        by_contra tunnel
        rw [Bool.not_eq_false] at tunnel
        exact absurd ((tunneler_step step_eq tunnel).symm.trans noTunnel) (by simp)
      exact invariant.write step_eq before
  | respond index update => exact invariant.respond keeps step_eq
  | forward index part => exact invariant.forward step_eq

theorem tunneler_run {last : Session} {actions : List Action}
    (outcome : session.run proxy actions = .ok last) (tunnel : session.linker.tunneler = true) :
    last.linker.tunneler = true := by
  induction actions generalizing session with
  | nil =>
      cases outcome
      exact tunnel
  | cons action actions ih =>
      obtain ⟨next, step_eq, rest⟩ := bind_eq_ok.mp outcome
      exact ih rest (tunneler_step step_eq tunnel)

theorem Invariant.run {last : Session} {actions : List Action}
    (invariant : session.Invariant proxy) (outcome : session.run proxy actions = .ok last)
    (inRange : session.RunsInRange proxy actions) (noTunnel : last.linker.tunneler = false) :
    last.Invariant proxy := by
  induction actions generalizing session with
  | nil =>
      cases outcome
      exact invariant
  | cons action actions ih =>
      obtain ⟨next, step_eq, rest⟩ := bind_eq_ok.mp outcome
      have later : next.RunsInRange proxy actions := by
        have behind := inRange.2.2
        rwa [step_eq] at behind
      have before : next.linker.tunneler = false := by
        by_contra tunnel
        rw [Bool.not_eq_false] at tunnel
        exact absurd ((tunneler_run rest tunnel).symm.trans noTunnel) (by simp)
      exact ih (invariant.step inRange.1 inRange.2.1 step_eq before) rest later

/-- Every request that is finished or connected was queued once, in order, with messages of its
own; and what was sent are complete encodings of the responses to the first of them, and the first
bytes of one of the response behind those, as it would be if it ended there. -/
structure InOrder (proxy : HttpProxy) (session : Session) : Prop where
  requests : session.queued.map (·.1) = session.finished ++
    if session.linker.connected then session.linker.readerMsg.toList else []
  own : (session.finished ++ session.linker.readerMsg.toList ++ session.queued.map (·.2)).Nodup
  stream : ∃ answered encodings current,
    session.queued = answered ++ session.linker.responseQueue ∧
    List.Forall₂ (fun pair encoding =>
      EncodesMessage proxy.aWriter.writerCreator (session.responses pair.2) encoding)
        answered encodings ∧
    session.sent = encodings.flatten ++ current ∧
    (session.linker.responseQueue = [] → current = []) ∧
    ∀ pair rest, session.linker.responseQueue = pair :: rest → current = [] ∨ ∃ encoding,
      EncodesMessage proxy.aWriter.writerCreator
        { session.responses pair.2 with state := .done } encoding ∧ current <+: encoding

theorem Invariant.inOrder (invariant : session.Invariant proxy) : session.InOrder proxy := by
  obtain ⟨-, ⟨requests, own, -⟩, answered, encodings, current, queued, all, sent, serving⟩ :=
    invariant
  refine ⟨requests, own, answered, encodings, current, queued, all, sent, fun empty => ?_,
    fun pair rest queue => ?_⟩
  · refine serving.idle (Option.eq_none_iff_forall_ne_some.mpr fun writer same => ?_)
    obtain ⟨msgReq, rest, some⟩ := serving.first writer.1 writer.2 same
    exact absurd (empty.symm.trans some) (by simp)
  · rw [queue] at serving
    obtain ⟨sink, -, replying⟩ := serving.head
    exact replying.begins proxy.aWriter.isFresh_writerCreator

end Session

open Session in
/-- In every run without a tunnel, responses go back whole and in the order of their requests. -/
theorem pipelining (proxy : HttpProxy) (actions : List Action) (session : Session)
    (outcome : (start proxy).run proxy actions = .ok session)
    (inRange : (start proxy).RunsInRange proxy actions)
    (noTunnel : session.linker.tunneler = false) : session.InOrder proxy :=
  ((invariant_start proxy).run outcome inRange noTunnel).inOrder

/-- Two requests at once; upstream answers the second one first. -/
def twoRequests : List Action :=
  let request := ascii "GET / HTTP/1.1\r\nHost: a\r\n\r\n"
  [.read (request ++ request) true, .forward 0 .headers, .getWriteSize, .read request true,
    .respond 1 (.setStatus 404), .respond 1 .endFooter, .respond 0 (.setStatus 200), .getWriteSize,
    .write 10 10, .respond 0 .endFooter, .write 100 3, .getWriteSize, .write 100 100,
    .getWriteSize, .write 100 5]

open Session in
theorem pipelining_two : ∃ session, (start ⟨.v11, .v11, none, []⟩).run ⟨.v11, .v11, none, []⟩
    twoRequests = .ok session ∧ session.InOrder ⟨.v11, .v11, none, []⟩ := by
  have runs : ((start ⟨.v11, .v11, none, []⟩).run ⟨.v11, .v11, none, []⟩
      twoRequests).toOption.map (·.linker.tunneler) = some false := by
    decide +kernel
  cases outcome : (start ⟨.v11, .v11, none, []⟩).run ⟨.v11, .v11, none, []⟩ twoRequests with
  | error fault =>
      rw [outcome] at runs
      cases runs
  | ok session =>
      rw [outcome] at runs
      have noTunnel : session.linker.tunneler = false := Option.some.inj runs
      exact ⟨session, rfl, pipelining _ _ session outcome (by decide +kernel) noTunnel⟩

end ALinker
end GnyProxy
