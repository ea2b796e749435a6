import GnyProxy.Streams

/-!
# Requests are conveyed in their order

The requests at the beginning of the stream of a client are those that are sent upstream, the first
for the first pair of messages, the second for the second one, and so on.
-/

namespace GnyProxy

open Transfer (EncodesRequest EncodesMessage)

/-! ## A stream of messages -/

/-- Complete encodings of messages that the protocol can carry. -/
def Protocol.Encodes (protocol : Protocol) (isRequest : Bool) (msgs : List HttpMessage)
    (encodings : List Str) : Prop :=
  List.Forall₂ (fun msg encoding => msg.isRequest = isRequest ∧ protocol.Carries msg ∧
    EncodesMessage protocol.writerCreator msg encoding) msgs encodings

/-- Each encoding is awaited as what is made of its message. -/
theorem Protocol.Encodes.awaits {protocol : Protocol} {isRequest : Bool} {msgs : List HttpMessage}
    {encodings : List Str} (encodes : protocol.Encodes isRequest msgs encodings) :
    ∃ requests : List (Str × HttpMessage), requests.map (·.1) = encodings ∧
      List.Forall₂ (fun msg request => msg.Conveyed request.2) msgs requests ∧
      ∀ request ∈ requests,
        (protocol.reader isRequest).Awaits (.fresh isRequest) request.1 request.2 := by
  induction encodes with
  | nil => exact ⟨[], rfl, .nil, fun _ none => (nomatch none)⟩
  | @cons msg encoding msgs encodings here _ ih =>
      obtain ⟨rfl, carries, encodes⟩ := here
      obtain ⟨requests, rfl, conveyed, awaits⟩ := ih
      obtain ⟨decoded, same, awaited⟩ := encodes.awaits carries
      refine ⟨(encoding, decoded) :: requests, rfl, .cons same conveyed, fun request member => ?_⟩
      rcases List.mem_cons.mp member with rfl | later
      · exact awaited
      · exact awaits request later

namespace World

variable {config : Config} {world : World} {ledger : Ledger} {id : ClientId}
  {requests : List (Str × HttpMessage)} {tail stream : Str} {completed : List MessageId}

/-- A copier that is done has sent the request upstream that comes at its place in the stream. -/
theorem Follows.conveys (follows : Follows config world ledger id requests tail stream completed)
    (accounts : world.Accounts config ledger) (invariant : world.Invariant config)
    {gen : MessageCopier} (done : gen ∈ world.requester.finished) (client : gen.client = id)
    {count : Nat} (place : (world.shared.pairs id)[count]? = some gen.pair)
    {request : Str × HttpMessage} (here : requests[count]? = some request) :
    EncodesRequest config.requester.writer.writerCreator { request.2 with status := -1 }
      (ledger id gen.msgReq).sent := by
  subst client
  obtain ⟨source, decoded, all, -, encodes⟩ := (accounts.relayed invariant done).1
  obtain ⟨source', reads⟩ :=
    follows.reads place here ((HttpMessage.isSent_iff _).mp
      (invariant.working.relayed gen done).request).1
  cases all.symm.trans reads
  exact encodes

/-- The client sends one request after the other.  However the stream is cut, whatever follows the
requests in it and whatever the other clients and the objects upstream do meanwhile: what the copier
of the pair at some place has sent upstream when it is done is a complete encoding of the request at
that place in the stream. -/
theorem conveyed_in_order (config : Config) (id : ClientId) (requests : List HttpMessage)
    (encodings : List Str) (tail : Str) (events : List Event) (last : World)
    (encodes : config.proxy.aReader.Encodes true requests encodings)
    (feeds : Feeds config id (start config) (encodings.flatten ++ tail) events)
    (sent : Throughout config (SentUpstream config) (start config) events)
    (outcome : run config (start config) events = .ok last) (gen : MessageCopier)
    (done : gen ∈ last.requester.finished) (client : gen.client = id) (count : Nat)
    (place : (last.shared.pairs id)[count]? = some gen.pair) (request : HttpMessage)
    (here : requests[count]? = some request) :
    ∃ decoded, request.Conveyed decoded ∧
      EncodesRequest config.requester.writer.writerCreator { decoded with status := -1 }
        (transits config events id gen.msgReq).sent := by
  obtain ⟨invariant, accounts, -⟩ := (accounts_start config).run (invariant_start config)
    (gensQueued_start config) sent outcome
  obtain ⟨stream, rfl, conveyed, awaits⟩ := encodes.awaits
  obtain ⟨_, _, follows⟩ := (follows_start config id stream tail awaits).run
    (invariant_start config) awaits feeds outcome
  obtain ⟨inside, rfl⟩ := List.getElem?_eq_some_iff.mp here
  have inside' : count < stream.length := conveyed.length_eq ▸ inside
  refine ⟨stream[count].2, conveyed.get inside inside', ?_⟩
  exact follows.conveys accounts invariant done client place (List.getElem?_eq_getElem inside')

/-! ### Two requests in one piece -/

/-- The request of `getRequest`. -/
def getMessage : HttpMessage :=
  { isRequest := true, verb := 2, url := ascii "/", headers := [(ascii "Host", ascii "a")],
    state := .done }

theorem encodes_getMessage : EncodesMessage Protocol.v11.writerCreator getMessage getRequest := by
  have fresh := Protocol.v11.isFresh_writerCreator
  have begins : Transfer.Begins Protocol.v11.writerCreator (ascii "GET / HTTP/1.1\r\n")
      getMessage := rfl
  have handed := Transfer.requesting_handed fresh begins
    ⟨fun other => (nomatch other), fun _ => rfl⟩
  have step_eq : (Transfer.handed Protocol.v11.writerCreator getMessage).step (.write 100 100) =
      .ok ⟨{ getMessage with headers := [] }, .v11 ⟨true, [], .done, entityUnknown⟩, getMessage,
        getRequest⟩ := by decide +kernel
  have size_eq : (MessageSink.v11 ⟨true, [], .done, entityUnknown⟩).getWriteSize
      { getMessage with headers := [] } = .ok ((.v11 ⟨true, [], .done, entityUnknown⟩,
        { getMessage with headers := [] }), 0) := by decide +kernel
  exact (handed.call (Event.write_ne 100 100) step_eq).encodes fresh size_eq rfl rfl

theorem carries_getMessage : Protocol.v11.Carries getMessage := by
  refine ⟨⟨by decide, ?_, ?_, ?_, ?_⟩, Or.inl ⟨by decide, by decide, fun _ => rfl⟩, by decide⟩
  · rintro field (_ | ⟨_, ⟨⟩⟩)
    exact ⟨by decide, by decide, by decide, by decide, by decide⟩
  · decide
  · decide
  · rintro field ⟨⟩

/-- The pieces that arrive do not begin and end where the requests do.  The second request is
answered first, and then the pair of the first one is deleted. -/
def twoCut : List Event :=
  [.read 0 (getRequest.take 10) true, .read 0 (getRequest.drop 10 ++ getRequest) true,
    .read 0 getRequest true, .call 2 .getWriteSize, .call 2 (.write 100 100),
    .call 2 (.read emptyResponse), .getWriteSize 0, .call 0 .getWriteSize,
    .call 0 (.write 100 100), .call 0 (.read emptyResponse), .getWriteSize 0, .write 0 100 100,
    .getWriteSize 0]

/-- The second copier has sent the second request. -/
theorem conveyed_in_order_two : ∃ decoded, getMessage.Conveyed decoded ∧
    EncodesRequest Protocol.v11.writerCreator { decoded with status := -1 }
      (transits plain twoCut 0 2).sent := by
  obtain ⟨last, outcome, done, place⟩ : ∃ last, run plain (start plain) twoCut = .ok last ∧
      ⟨0, 2, 3⟩ ∈ last.requester.finished ∧ (last.shared.pairs 0)[1]? = some (2, 3) :=
    exists_run (by decide +kernel)
  have sent : Throughout plain (SentUpstream plain) (start plain) twoCut :=
    (invariant_start plain).throughout_of_checks (fun _ _ => sentUpstream_of_check)
      (by decide +kernel)
  have here : true = true ∧ Protocol.v11.Carries getMessage ∧
      EncodesMessage Protocol.v11.writerCreator getMessage getRequest :=
    ⟨rfl, carries_getMessage, encodes_getMessage⟩
  have feeds : Feeds plain 0 (start plain) ([getRequest, getRequest].flatten ++ []) twoCut := by
    decide +kernel
  exact conveyed_in_order plain 0 [getMessage, getMessage] [getRequest, getRequest] [] twoCut last
    (.cons here (.cons here .nil)) feeds sent outcome ⟨0, 2, 3⟩ done rfl 1 place getMessage rfl

end World
end GnyProxy
