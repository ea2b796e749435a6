import GnyProxy.FileCalls

/-!
# The responses of the file server

A request is answered over several calls of `process`, and the response is drained between them.
Whatever their order is, the whole file is handed out and closed once.  A request whose url begins
with its query is never answered.
-/

namespace GnyProxy
namespace MyHttpServer

/-- What may happen to the two messages: the reader fills the request, `process` is called, and the
writer takes a part of the response. -/
inductive Action where
  | receive (update : Update)
  | process (fs : FileSystem)
  | drain (part : ALinker.Part)

/-- What happens once the request has arrived. -/
def Action.Later : Action → Prop
  | .receive _ => False
  | _ => True

/-- The bytes of the entity that a drain hands out. -/
def handsOut (outMsg : HttpMessage) : ALinker.Part → Str
  | .entity => outMsg.entity
  | _ => []

/-- A server, with the calls that it made and the bytes of its entity that were handed out. -/
structure Session where
  server : MyHttpServer
  calls : List Call := []
  handedOut : Str := []

namespace Session

def start (basePath : CanonicalPath) : Session where
  server := { inMsg := .fresh true, outMsg := .fresh false, basePath }

def step (session : Session) : Action → Except Fault Session
  | .receive update => do
      let inMsg ← session.server.inMsg.update update
      .ok { session with server := { session.server with inMsg } }
  | .process fs => do
      let (server, _) ← process fs session.server
      let calls ← processCalls fs session.server
      .ok { session with server, calls := session.calls ++ calls }
  | .drain part => .ok { session with
      server := { session.server with outMsg := part.clear session.server.outMsg }
      handedOut := session.handedOut ++ handsOut session.server.outMsg part }

def run (session : Session) (actions : List Action) : Except Fault Session :=
  actions.foldlM step session

/-- The response stands where its calls have led, and it was begun behind the headers. -/
structure Ongoing (session : Session) : Prop where
  history : History session.server.outMsg.state session.server.fd session.calls
    (session.handedOut ++ session.server.outMsg.entity)
  status : session.server.outMsg.state ≠ .header → session.server.outMsg.status = 200
  taken : session.server.outMsg.state ≠ .header →
    session.server.inMsg.headers = [] ∧ MessageState.rank .header < session.server.inMsg.state.rank

/-- Between two calls, the response is not left in its footer section. -/
structure Consistent (session : Session) : Prop extends Ongoing session where
  settled : session.server.outMsg.state ≠ .footer

theorem consistent_start (basePath : CanonicalPath) : (start basePath).Consistent where
  history := History.waiting
  status begun := absurd rfl begun
  taken begun := absurd rfl begun
  settled footer := MessageState.noConfusion footer

/-- Behind the headers no update adds one. -/
theorem taken_update {msg next : HttpMessage} {update : Update}
    (taken : msg.headers = [] ∧ MessageState.rank .header < msg.state.rank)
    (updated : msg.update update = .ok next) :
    next.headers = [] ∧ MessageState.rank .header < next.state.rank := by
  cases update with
  | setUrl url | setVerb verb | setStatus status =>
      cases updated
      exact taken
  | addHeader key value =>
      obtain ⟨header, rfl⟩ := HttpMessage.addHeader_eq_ok.mp updated
      have behind := taken.2
      rw [header] at behind
      exact absurd behind (lt_irrefl _)
  | appendEntity entity =>
      obtain ⟨-, rfl⟩ := HttpMessage.appendEntity_eq_ok.mp updated
      exact taken
  | addFooter key value =>
      obtain ⟨-, rfl⟩ := HttpMessage.addFooter_eq_ok.mp updated
      exact taken
  | endHeader =>
      obtain ⟨-, rfl⟩ := HttpMessage.endHeader_eq_ok.mp updated
      exact ⟨taken.1, by simp⟩
  | endEntity =>
      obtain ⟨-, rfl⟩ := HttpMessage.endEntity_eq_ok.mp updated
      exact ⟨taken.1, by simp⟩
  | endFooter =>
      obtain ⟨-, rfl⟩ := HttpMessage.endFooter_eq_ok.mp updated
      exact ⟨taken.1, by simp⟩

/-- A drain moves bytes from the response to those that were handed out. -/
theorem handsOut_append (outMsg : HttpMessage) (part : ALinker.Part) :
    handsOut outMsg part ++ (part.clear outMsg).entity = outMsg.entity := by
  cases part with
  | headers => rfl
  | entity => exact List.append_nil _
  | footers => rfl

theorem clear_fields (outMsg : HttpMessage) (part : ALinker.Part) :
    (part.clear outMsg).state = outMsg.state ∧ (part.clear outMsg).status = outMsg.status := by
  cases part with
  | headers | entity | footers => exact ⟨rfl, rfl⟩

/-- The session with another server, which has made further calls. -/
def goOn (session : Session) (server : MyHttpServer) (made : List Call) : Session :=
  { session with server, calls := session.calls ++ made }

/-- The first part of `process`. -/
theorem Consistent.begin {session : Session} (consistent : session.Consistent)
    (fs : FileSystem) :
    ∃ begun accesses made,
      (if session.server.Answers then answer fs session.server else .ok (session.server, [])) =
        .ok (begun, accesses) ∧
      (if session.server.Answers then answerCalls fs session.server else .ok []) = .ok made ∧
      (session.goOn begun made).Ongoing ∧ begun.inMsg.state = session.server.inMsg.state ∧
      (begun.outMsg.state = .header ↔
        session.server.outMsg.state = .header ∧ ¬ session.server.Answers) := by
  by_cases answers : session.server.Answers
  · have header := answers.2.2
    have history := consistent.history
    rw [header] at history
    generalize isFd : session.server.fd = fd at history
    generalize isCalls : session.calls = calls at history
    generalize isBytes : session.handedOut ++ session.server.outMsg.entity = bytes at history
    cases history
    rcases History.of_answer fs header isFd with ⟨begun, accesses, made, added, outcome,
      madeCalls, history, entity, status, state, inMsg⟩
    refine ⟨begun, accesses, made, by rw [if_pos answers, outcome],
      by rw [if_pos answers, madeCalls], ?_, by rw [inMsg]; rfl, ?_⟩
    · constructor
      · simp only [goOn, isCalls, List.nil_append, entity, ← List.append_assoc, isBytes]
        exact history
      · intro _
        exact status
      · intro _
        simp only [goOn, inMsg]
        exact ⟨rfl, answers.2.1⟩
    · exact ⟨fun header => absurd header state, fun waits => absurd answers waits.2⟩
  · refine ⟨session.server, [], [], if_neg answers, if_neg answers, ?_, rfl, by simp [answers]⟩
    simpa [goOn] using consistent.toOngoing

/-- The session with another response and descriptor. -/
def respond (session : Session) (outMsg : HttpMessage) (fd : Option (List Str))
    (made : List Call) : Session :=
  session.goOn { session.server with outMsg, fd } made

theorem Ongoing.respond {session : Session} {outMsg : HttpMessage} {fd : Option (List Str)}
    {made : List Call} {added : Str} (ongoing : session.Ongoing)
    (extended : Extends session.server.outMsg outMsg added)
    (history : History outMsg.state fd (session.calls ++ made)
      (session.handedOut ++ session.server.outMsg.entity ++ added)) :
    (session.respond outMsg fd made).Ongoing where
  history := by
    simp only [Session.respond, goOn, extended.entity, ← List.append_assoc]
    exact history
  status begun := extended.status.trans (ongoing.status (extended.header.not.mp begun))
  taken begun := ongoing.taken (extended.header.not.mp begun)

/-- A call of `process` begins the response if it can, and goes on with it. -/
theorem Consistent.process {session : Session} (consistent : session.Consistent)
    (fs : FileSystem) :
    ∃ next, session.step (.process fs) = .ok next ∧ next.Consistent ∧
      next.server.inMsg.state = session.server.inMsg.state ∧
      next.server.inMsg.entity = [] ∧ next.server.inMsg.footers = [] ∧
      (next.server.outMsg.state = .header ↔
        session.server.outMsg.state = .header ∧ ¬ session.server.Answers) := by
  rcases consistent.begin fs with ⟨begun, accesses, made, begins, beginsCalls, ongoing, inState,
    header⟩
  rcases ongoing.history.of_readEntity with ⟨read, fd, added, reads, extended, history⟩
  have reading := ongoing.respond extended history
  change readEntity begun.fd begun.outMsg = _ at reads
  rcases reading.history.of_endFooter with ⟨outMsg, added, ends, ended, settled, history⟩
  have finished := reading.respond ended history
  change (if read.state = .footer then read.endFooter else .ok read) = _ at ends
  refine ⟨session.goOn { begun with outMsg, fd, inMsg := begun.inMsg.clearEntity.clearFooters }
    (made ++ readEntityCalls begun.fd begun.outMsg ++ endCalls read), ?_, ?_, inState, rfl, rfl, ?_⟩
  · have outcome : MyHttpServer.process fs session.server = .ok
        ({ begun with outMsg, fd, inMsg := begun.inMsg.clearEntity.clearFooters }, accesses) := by
      rw [MyHttpServer.process, begins]
      simp only [ok_bind, reads, ends]
    have outcomeCalls : processCalls fs session.server = .ok
        (made ++ readEntityCalls begun.fd begun.outMsg ++ endCalls read) := by
      rw [processCalls, begins, beginsCalls]
      simp only [ok_bind, reads]
    rw [step, outcome, outcomeCalls]
    rfl
  · refine ⟨⟨?_, finished.status, finished.taken⟩, settled⟩
    simpa [Session.respond, goOn, List.append_assoc] using finished.history
  · exact (ended.header.trans extended.header).trans header

theorem Consistent.receive {session next : Session} {update : Update}
    (consistent : session.Consistent) (outcome : session.step (.receive update) = .ok next) :
    next.Consistent := by
  rcases bind_eq_ok.mp outcome with ⟨inMsg, updated, same⟩
  cases same
  refine ⟨⟨consistent.history, consistent.status, fun begun => ?_⟩, consistent.settled⟩
  exact taken_update (consistent.taken begun) updated

theorem Consistent.drain {session : Session} (consistent : session.Consistent)
    (part : ALinker.Part) :
    ∃ next, session.step (.drain part) = .ok next ∧ next.Consistent ∧
      next.server.inMsg = session.server.inMsg ∧
      next.server.outMsg.state = session.server.outMsg.state := by
  rcases clear_fields session.server.outMsg part with ⟨state, status⟩
  refine ⟨_, rfl, ⟨⟨?_, ?_, ?_⟩, ?_⟩, rfl, state⟩
  · simp only [List.append_assoc, handsOut_append, state]
    exact consistent.history
  · simp only [state, status]
    exact consistent.status
  · simp only [state]
    exact consistent.taken
  · simp only [state]
    exact consistent.settled

/-- Whatever happens, the response stands where its calls have led. -/
theorem Consistent.run {session next : Session} {actions : List Action}
    (consistent : session.Consistent) (outcome : session.run actions = .ok next) :
    next.Consistent := by
  induction actions generalizing session with
  | nil =>
      cases outcome
      exact consistent
  | cons action actions ih =>
      rcases bind_eq_ok.mp outcome with ⟨middle, stepped, later⟩
      refine ih ?_ later
      cases action with
      | receive update => exact consistent.receive stepped
      | process fs =>
          rcases consistent.process fs with ⟨other, outcome, kept, -⟩
          rw [stepped] at outcome
          cases outcome
          exact kept
      | drain part =>
          rcases consistent.drain part with ⟨other, outcome, kept, -⟩
          rw [stepped] at outcome
          cases outcome
          exact kept

/-! ## Answering -/

/-- A request that has arrived is answered: its response has begun and will be ended as a whole. -/
structure Served (session : Session) : Prop where
  status : session.server.outMsg.status = 200
  begun : MessageState.rank .header < session.server.outMsg.state.rank
  headerEnds : session.calls.count (.update .endHeader) = 1
  entityEnds : session.calls.count (.update .endEntity) =
    if session.server.outMsg.state = .entity then 0 else 1
  footerEnds : session.calls.count (.update .endFooter) =
    if session.server.outMsg.state = .entity then 0 else 1
  /-- What was appended to the entity is what the reads of the file returned. -/
  entity : ∀ reads ∈ files session.calls,
    session.handedOut ++ session.server.outMsg.entity = (returned session.calls).flatten ∧
      returned session.calls <+: reads ++ [[]]
  opens : (files session.calls).length ≤ 1
  closes : (session.calls ++ destroyCalls session.server).count .close =
    (files session.calls).length
  closesAtEnd : [] ∈ returned session.calls → session.calls.count .close = 1
  /-- At the end of the file, or without one, a drained response is done. -/
  done : (files session.calls ≠ [] → [] ∈ returned session.calls) →
    session.server.outMsg.state = .done ∧
      (session.server.outMsg.headers = [] → session.server.outMsg.entity = [] →
        session.server.outMsg.footers = [] → session.server.isDone = true)

/-- The next call of `process` answers the request, whatever is called afterwards. -/
def Answered (fs : FileSystem) (session : Session) : Prop :=
  ∃ next, session.step (.process fs) = .ok next ∧
    ∀ later : List Action, (∀ action ∈ later, action.Later) →
      ∃ last, next.run later = .ok last ∧ last.Served

/-- The response was begun to a request that has arrived and was taken as a whole. -/
structure Finishing (session : Session) : Prop extends Consistent session where
  begun : session.server.outMsg.state ≠ .header
  sent : session.server.inMsg.isSent = true

/-- The response is in its entity section, or it is done. -/
theorem Finishing.state {session : Session} (finishing : session.Finishing) :
    session.server.outMsg.state = .entity ∨ session.server.outMsg.state = .done := by
  have begun := finishing.begun
  have settled := finishing.settled
  cases isState : session.server.outMsg.state with
  | header => exact absurd isState begun
  | entity => exact Or.inl rfl
  | footer => exact absurd isState settled
  | done => exact Or.inr rfl

/-- Without a descriptor, a response that was begun is done. -/
theorem Finishing.done {session : Session} (finishing : session.Finishing)
    (closed : session.server.fd = none) : session.server.outMsg.state = .done := by
  rcases finishing.state with entity | done
  · have history := finishing.history
    rw [entity] at history
    rcases history.isOpen with ⟨reads, isOpen⟩
    rw [closed] at isOpen
    cases isOpen
  · exact done

theorem Finishing.isDone {session : Session} (finishing : session.Finishing)
    (done : session.server.outMsg.state = .done) (headers : session.server.outMsg.headers = [])
    (entity : session.server.outMsg.entity = []) (footers : session.server.outMsg.footers = []) :
    session.server.isDone = true := by
  have sent : session.server.outMsg.isSent = true :=
    (HttpMessage.isSent_iff _).mpr ⟨done, headers, entity, footers⟩
  rw [MyHttpServer.isDone, finishing.sent, sent]
  rfl

theorem Finishing.served {session : Session} (finishing : session.Finishing) : session.Served := by
  rcases finishing.history.count_ends with ⟨headerEnds, entityEnds, footerEnds⟩
  have begun : MessageState.rank .header < session.server.outMsg.state.rank ∧
      (MessageState.rank .entity < session.server.outMsg.state.rank ↔
        session.server.outMsg.state ≠ .entity) ∧
      (MessageState.rank .footer < session.server.outMsg.state.rank ↔
        session.server.outMsg.state ≠ .entity) := by
    rcases finishing.state with entity | done
    · simp [entity]
    · simp [done]
  simp only [begun, if_true, ite_not] at headerEnds entityEnds footerEnds
  have use := finishing.history.fileUse
  refine ⟨finishing.status finishing.begun, begun.1, headerEnds, entityEnds, footerEnds, ?_,
    use.opens, ?_, use.closes_of_atEnd, ?_⟩
  · intro reads member
    exact use.entity member
  · rw [destroyCalls, List.count_append, ← use.closes]
    cases session.server.fd with
    | none => rfl
    | some reads => rfl
  · intro atEnd
    have done := finishing.done (use.fd_of_atEnd atEnd)
    exact ⟨done, finishing.isDone done⟩

theorem Finishing.later {session : Session} (finishing : session.Finishing) {action : Action}
    (isLater : action.Later) : ∃ next, session.step action = .ok next ∧ next.Finishing := by
  cases action with
  | receive update => exact isLater.elim
  | process fs =>
      rcases finishing.process fs with ⟨next, outcome, consistent, state, entity, footers, header⟩
      have begun : next.server.outMsg.state ≠ .header :=
        fun waits => finishing.begun (header.mp waits).1
      refine ⟨next, outcome, consistent, begun, ?_⟩
      have done := ((HttpMessage.isSent_iff _).mp finishing.sent).1
      exact (HttpMessage.isSent_iff _).mpr
        ⟨state.trans done, (consistent.taken begun).1, entity, footers⟩
  | drain part =>
      rcases finishing.drain part with ⟨next, outcome, consistent, inMsg, state⟩
      refine ⟨next, outcome, consistent, ?_, ?_⟩
      · rw [state]
        exact finishing.begun
      · rw [inMsg]
        exact finishing.sent

/-- Calls of `process` and drains of the response, in any order, finish it without a fault. -/
theorem Finishing.run {session : Session} (finishing : session.Finishing) {later : List Action}
    (areLater : ∀ action ∈ later, action.Later) :
    ∃ last, session.run later = .ok last ∧ last.Finishing := by
  induction later generalizing session with
  | nil => exact ⟨session, rfl, finishing⟩
  | cons action later ih =>
      rcases finishing.later (areLater action List.mem_cons_self) with ⟨next, outcome, goesOn⟩
      rcases ih goesOn fun action member => areLater action (List.mem_cons_of_mem _ member)
        with ⟨last, ran, finished⟩
      refine ⟨last, ?_, finished⟩
      rw [Session.run, List.foldlM_cons, outcome, ok_bind]
      exact ran

/-- A request that has arrived is left waiting if there is nothing in front of its query. -/
theorem Consistent.process_arrived {session : Session} (consistent : session.Consistent)
    (arrived : session.server.inMsg.state = .done) (fs : FileSystem) :
    ∃ next, session.step (.process fs) = .ok next ∧ next.Consistent ∧
      (next.server.outMsg.state ≠ .header → next.server.inMsg.isSent = true) ∧
      (next.server.outMsg.state ≠ .header ↔
        withoutQuery session.server.inMsg.url ≠ [] ∨ session.server.outMsg.state ≠ .header) := by
  rcases consistent.process fs with ⟨next, outcome, kept, state, entity, footers, header⟩
  refine ⟨next, outcome, kept, fun begun => (HttpMessage.isSent_iff _).mpr ?_, ?_⟩
  · exact ⟨state.trans arrived, (kept.taken begun).1, entity, footers⟩
  · have answers_iff : session.server.Answers ↔
        withoutQuery session.server.inMsg.url ≠ [] ∧ session.server.outMsg.state = .header := by
      simp [Answers, arrived]
    rw [Ne, header, answers_iff]
    tauto

/-- For every request that has arrived, whatever was called before and whatever the file system
holds: it is answered exactly when there is something in front of the query of its url, unless the
response was begun before. -/
theorem answered_iff {basePath : CanonicalPath} {actions : List Action} {session : Session}
    (reached : (start basePath).run actions = .ok session)
    (arrived : session.server.inMsg.state = .done) (fs : FileSystem) :
    Answered fs session ↔
      withoutQuery session.server.inMsg.url ≠ [] ∨ session.server.outMsg.state ≠ .header := by
  have consistent := (consistent_start basePath).run reached
  rcases consistent.process_arrived arrived fs with ⟨next, outcome, kept, sent, begun_iff⟩
  rw [← begun_iff]
  constructor
  · rintro ⟨next', outcome', later⟩ waits
    rw [outcome] at outcome'
    cases outcome'
    rcases later [] (by simp) with ⟨last, ran, served⟩
    cases ran
    have begun := served.begun
    rw [waits] at begun
    exact lt_irrefl _ begun
  · intro begun
    have finishing : next.Finishing := ⟨kept, begun, sent begun⟩
    refine ⟨next, outcome, fun later areLater => ?_⟩
    rcases finishing.run areLater with ⟨last, ran, finished⟩
    exact ⟨last, ran, finished.served⟩

/-- A request without headers arrives. -/
def arrival (url : Str) : List Action :=
  [.receive (.setUrl url), .receive .endHeader, .receive .endEntity, .receive .endFooter]

def arrived (basePath : CanonicalPath) (url : Str) : Session where
  server := {
    inMsg := { HttpMessage.fresh true with url, state := .done }
    outMsg := .fresh false
    basePath }

/-- A file that comes in two reads. -/
def indexFile : FileSystem where
  realpath path := if path = ascii "/srv/www/index" then
      some ⟨[ascii "srv", ascii "www", ascii "index"], by decide⟩
    else
      none
  opendir _ := none
  openFile _ := some [ascii "Hello", ascii "!"]
  mimeType _ := ascii "text/html"

theorem answered_index : Answered indexFile (arrived served (ascii "index")) :=
  (@answered_iff served (arrival (ascii "index")) (arrived served (ascii "index")) rfl rfl
    indexFile).mpr (Or.inl (by decide))

/-- The url `?x` has nothing in front of its query, and nothing is answered. -/
theorem not_answered_query :
    ¬ ∀ (basePath : CanonicalPath) (actions : List Action) (session : Session) (fs : FileSystem),
      (start basePath).run actions = .ok session → session.server.inMsg.state = .done →
      session.server.inMsg.url ≠ [] → Answered fs session := by
  intro all
  rcases all served (arrival (ascii "?x")) (arrived served (ascii "?x")) indexFile rfl rfl
    (by decide) with ⟨next, outcome, later⟩
  rcases later [] (by simp) with ⟨last, ran, answer⟩
  cases ran
  have waits : ((arrived served (ascii "?x")).step (.process indexFile)).map
      (fun next => next.server.outMsg.state) = .ok .header := rfl
  rw [outcome] at waits
  have begun := answer.begun
  have header : next.server.outMsg.state = .header := Except.ok.inj waits
  rw [header] at begun
  exact lt_irrefl _ begun

end Session
end MyHttpServer
end GnyProxy
