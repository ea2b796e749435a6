import GnyProxy.FileServer
import GnyProxy.Reading

/-!
# The calls of the file server

What `process` calls on its response and on the descriptor of the file, and how far a response is
when such calls were made: each section was ended once, and the entity is what the reads returned.
-/

namespace GnyProxy
namespace MyHttpServer

/-- `is_done`. -/
def isDone (server : MyHttpServer) : Bool := server.inMsg.isSent && server.outMsg.isSent

/-! ## The calls that are made -/

/-- A call on the response or on the descriptor. -/
inductive Call where
  | update (update : Update)
  /-- `open`, which fails or gives what the reads will return. -/
  | opened (file : Option (List Str))
  /-- `read`, which returns nothing at the end of the file and when it fails. -/
  | read (piece : Str)
  | close
  deriving DecidableEq

namespace Call

def updated : Call → Option Update
  | .update made => some made
  | _ => none

def returned : Call → Option Str
  | .read piece => some piece
  | _ => none

/-- The file that a call has opened. -/
def file : Call → Option (List Str)
  | .opened file => file
  | _ => none

/-- What a call makes of the descriptor, unless the read would not return that. -/
def act (fd : Option (List Str)) : Call → Option (Option (List Str))
  | .update _ => some fd
  | .opened file => some file
  | .read piece => if piece = (fd.getD []).head?.getD [] then some (fd.map List.tail) else none
  | .close => some none

end Call

/-- What was returned by the reads. -/
def returned (calls : List Call) : List Str := calls.filterMap Call.returned

/-- The files that were opened. -/
def files (calls : List Call) : List (List Str) := calls.filterMap Call.file

/-- What was put into the response. -/
def updated (calls : List Call) : List Update := calls.filterMap Call.updated

/-- The descriptor after the calls. -/
def replay (fd : Option (List Str)) (calls : List Call) : Option (Option (List Str)) :=
  calls.foldlM Call.act fd

def openCalls (fs : FileSystem) (canonPath : Str) : List Call :=
  match fs.opendir canonPath with
  | some _ => []
  | none => [.opened (fs.openFile canonPath)]

def findCalls (fs : FileSystem) (basePath : CanonicalPath) (url : Str) : List Call :=
  match fs.realpath (requestedPath basePath url) with
  | some canonPath =>
      if comparePrefix basePath.text (canonPath.text ++ [0]) = .ok true then
        openCalls fs canonPath.text
      else
        []
  | none => []

/-- The beginning of a response, up to the end of its header section. -/
def beginning (found : List Call) (contentType : Str) : List Call :=
  .update (.setStatus 200) :: found ++
    [.update (.addHeader (ascii "Server") (ascii "Test Server")),
      .update (.addHeader (ascii "Content-Type") contentType),
      .update (.addHeader (ascii "Cache-Control") (ascii "private")),
      .update .endHeader]

def answerCalls (fs : FileSystem) (server : MyHttpServer) : Except Fault (List Call) := do
  let server := { server with
    headerMp := storeHeaders server.headerMp server.inMsg.headers
    inMsg := server.inMsg.clearHeaders }
  let url := withoutSlashes (withoutQuery server.inMsg.url)
  let found ← findPath fs server url
  .ok (beginning (findCalls fs server.basePath url) found.contentType ++
    if found.fd.isNone then [.update (.appendEntity found.entity), .update .endEntity] else [])

/-- A read that returns nothing, and what follows on it. -/
def ending : List Call := [.read [], .update .endEntity, .close]

def readFileCalls : List Str → HttpMessage → List Call
  | reads, outMsg =>
      if outMsg.state = .entity ∧ outMsg.entity.length < 1024 then
        match reads with
        | [] => ending
        | piece :: reads =>
            if piece.isEmpty then
              ending
            else
              .read piece :: .update (.appendEntity piece) ::
                readFileCalls reads { outMsg with entity := outMsg.entity ++ piece }
      else
        []

/-- Without a file, the first read fails. -/
def readEntityCalls : Option (List Str) → HttpMessage → List Call
  | some reads, outMsg => readFileCalls reads outMsg
  | none, outMsg => readFileCalls [] outMsg

def endCalls (outMsg : HttpMessage) : List Call :=
  if outMsg.state = .footer then [.update .endFooter] else []

def processCalls (fs : FileSystem) (server : MyHttpServer) : Except Fault (List Call) := do
  let begun ← (if server.Answers then answerCalls fs server else .ok [])
  let (server, _) ← (if server.Answers then answer fs server else .ok (server, []))
  let (outMsg, _) ← readEntity server.fd server.outMsg
  .ok (begun ++ readEntityCalls server.fd server.outMsg ++ endCalls outMsg)

/-- The destructor. -/
def destroyCalls (server : MyHttpServer) : List Call :=
  if server.fd.isSome then [.close] else []

/-! ## The calls do what the model does -/

@[simp] theorem replay_nil (fd : Option (List Str)) : replay fd [] = some fd := rfl

@[simp] theorem replay_cons (fd : Option (List Str)) (call : Call) (calls : List Call) :
    replay fd (call :: calls) = (call.act fd).bind fun next => replay next calls := by
  rw [replay, List.foldlM_cons]
  rfl

theorem replay_append (fd : Option (List Str)) (front back : List Call) :
    replay fd (front ++ back) = (replay fd front).bind fun next => replay next back := by
  rw [replay, List.foldlM_append]
  rfl

@[simp] theorem updated_nil : updated [] = [] := rfl

@[simp] theorem updated_update (update : Update) (calls : List Call) :
    updated (.update update :: calls) = update :: updated calls := rfl

@[simp] theorem updated_opened (file : Option (List Str)) (calls : List Call) :
    updated (.opened file :: calls) = updated calls := rfl

@[simp] theorem updated_read (piece : Str) (calls : List Call) :
    updated (.read piece :: calls) = updated calls := rfl

@[simp] theorem updated_close (calls : List Call) : updated (.close :: calls) = updated calls := rfl

theorem updated_append (front back : List Call) :
    updated (front ++ back) = updated front ++ updated back := List.filterMap_append

/-- The calls lead from one descriptor and response to others. -/
def Leads (fd : Option (List Str)) (outMsg : HttpMessage) (calls : List Call)
    (next : HttpMessage × Option (List Str)) : Prop :=
  outMsg.fill (updated calls) = .ok next.1 ∧ replay fd calls = some next.2

theorem Leads.trans {fd : Option (List Str)} {outMsg : HttpMessage} {front back : List Call}
    {middle next : HttpMessage × Option (List Str)} (left : Leads fd outMsg front middle)
    (right : Leads middle.2 middle.1 back next) : Leads fd outMsg (front ++ back) next := by
  constructor
  · rw [updated_append, HttpMessage.fill_append, left.1, ok_bind]
    exact right.1
  · rw [replay_append, left.2]
    exact right.2

theorem Leads.refl (fd : Option (List Str)) (outMsg : HttpMessage) :
    Leads fd outMsg [] (outMsg, fd) := ⟨rfl, rfl⟩

theorem ending_leads {fd : Option (List Str)} {outMsg ended : HttpMessage}
    (atEnd : (fd.getD []).head?.getD [] = []) (ends : outMsg.endEntity = .ok ended) :
    Leads fd outMsg ending (ended, none) := by
  constructor
  · simp [ending, HttpMessage.fill_cons, HttpMessage.update, ends]
  · simp [ending, Call.act, atEnd]

theorem readFile_leads {reads : List Str} {outMsg : HttpMessage}
    {next : HttpMessage × Option (List Str)} (outcome : readFile reads outMsg = .ok next) :
    Leads (some reads) outMsg (readFileCalls reads outMsg) next := by
  induction reads generalizing outMsg with
  | nil =>
      rw [readFile] at outcome
      rw [readFileCalls]
      by_cases more : outMsg.state = .entity ∧ outMsg.entity.length < 1024
      · simp only [if_pos more] at outcome ⊢
        rcases bind_eq_ok.mp outcome with ⟨ended, ends, closed⟩
        cases closed
        exact ending_leads rfl ends
      · rw [if_neg more] at outcome ⊢
        cases outcome
        exact Leads.refl _ _
  | cons piece reads ih =>
      rw [readFile] at outcome
      rw [readFileCalls]
      by_cases more : outMsg.state = .entity ∧ outMsg.entity.length < 1024
      · simp only [if_pos more] at outcome ⊢
        by_cases ended : piece = []
        · simp only [ended, List.isEmpty_nil, if_true] at outcome ⊢
          rcases bind_eq_ok.mp outcome with ⟨ended, ends, closed⟩
          cases closed
          exact ending_leads rfl ends
        · have goesOn : piece.isEmpty = false := by simpa using ended
          simp only [goesOn, Bool.false_eq_true, if_false] at outcome ⊢
          rcases bind_eq_ok.mp outcome with ⟨appended, appends, later⟩
          obtain ⟨-, rfl⟩ := HttpMessage.appendEntity_eq_ok.mp appends
          rcases ih later with ⟨fills, replays⟩
          constructor
          · simp only [updated_read, updated_update, HttpMessage.fill_cons, HttpMessage.update,
              appends, ok_bind]
            exact fills
          · simpa [Call.act] using replays
      · rw [if_neg more] at outcome ⊢
        cases outcome
        exact Leads.refl _ _

theorem readEntity_leads {fd : Option (List Str)} {outMsg : HttpMessage}
    {next : HttpMessage × Option (List Str)} (outcome : readEntity fd outMsg = .ok next) :
    Leads fd outMsg (readEntityCalls fd outMsg) next := by
  cases fd with
  | some reads => exact readFile_leads outcome
  | none =>
      rcases bind_eq_ok.mp outcome with ⟨⟨filled, left⟩, read, same⟩
      cases same
      have leads := readFile_leads read
      rw [readFile] at read
      rw [readEntityCalls]
      rw [readFileCalls] at leads ⊢
      by_cases more : outMsg.state = .entity ∧ outMsg.entity.length < 1024
      · simp only [if_pos more] at read ⊢
        rcases bind_eq_ok.mp read with ⟨ended, ends, closed⟩
        cases closed
        exact ending_leads rfl ends
      · rw [if_neg more] at read ⊢
        cases read
        exact Leads.refl _ _

theorem endCalls_leads {fd : Option (List Str)} {outMsg next : HttpMessage}
    (outcome : (if outMsg.state = .footer then outMsg.endFooter else .ok outMsg) = .ok next) :
    Leads fd outMsg (endCalls outMsg) (next, fd) := by
  unfold endCalls
  by_cases footer : outMsg.state = .footer
  · rw [if_pos footer] at outcome ⊢
    constructor
    · simp [HttpMessage.fill_cons, HttpMessage.update, outcome]
    · rfl
  · rw [if_neg footer] at outcome ⊢
    cases outcome
    exact Leads.refl _ _

/-- Looking a path up makes no call on the response. -/
theorem findPath_leads {fs : FileSystem} {server : MyHttpServer} {url : Str} {found : Found}
    (looked : findPath fs server url = .ok found) (outMsg : HttpMessage) :
    Leads server.fd outMsg (findCalls fs server.basePath url) (outMsg, found.fd) := by
  unfold findPath at looked
  unfold findCalls
  cases resolved : fs.realpath (requestedPath server.basePath url) with
  | none =>
      simp only [resolved] at looked ⊢
      cases looked
      exact Leads.refl _ _
  | some canonPath =>
      simp only [resolved] at looked ⊢
      rcases bind_eq_ok.mp looked with ⟨ok, compared, looked⟩
      cases ok with
      | false =>
          rw [compared]
          cases looked
          exact Leads.refl _ _
      | true =>
          rw [if_pos compared]
          cases looked
          unfold openPath openCalls
          cases listing : fs.opendir canonPath.text with
          | some entries => exact Leads.refl _ _
          | none =>
              cases file : fs.openFile canonPath.text with
              | none => exact ⟨rfl, rfl⟩
              | some reads => exact ⟨rfl, rfl⟩

theorem answer_leads {fs : FileSystem} {server next : MyHttpServer} {accesses : List Access}
    (outcome : answer fs server = .ok (next, accesses)) :
    ∃ calls, answerCalls fs server = .ok calls ∧
      Leads server.fd server.outMsg calls (next.outMsg, next.fd) := by
  unfold answer at outcome
  rcases bind_eq_ok.mp outcome with ⟨found, looked, outcome⟩
  rcases bind_eq_ok.mp outcome with ⟨named, adds, outcome⟩
  rcases bind_eq_ok.mp outcome with ⟨typed, addsType, outcome⟩
  rcases bind_eq_ok.mp outcome with ⟨controlled, addsControl, outcome⟩
  rcases bind_eq_ok.mp outcome with ⟨ended, ends, outcome⟩
  refine ⟨_, by rw [answerCalls, looked, ok_bind], ?_⟩
  have begins : Leads server.fd server.outMsg (beginning (findCalls fs server.basePath
      (withoutSlashes (withoutQuery server.inMsg.url))) found.contentType) (ended, found.fd) := by
    have finds := findPath_leads looked (server.outMsg.setStatus 200)
    have setsStatus : Leads server.fd server.outMsg [.update (.setStatus 200)]
        (server.outMsg.setStatus 200, server.fd) := ⟨rfl, rfl⟩
    refine (setsStatus.trans finds).trans ⟨?_, rfl⟩
    simp [HttpMessage.fill_cons, HttpMessage.update, adds, addsType, addsControl, ends]
  apply begins.trans
  by_cases file : found.fd.isNone
  · rw [if_pos file] at outcome ⊢
    rcases bind_eq_ok.mp outcome with ⟨filled, appends, outcome⟩
    rcases bind_eq_ok.mp outcome with ⟨last, endsEntity, same⟩
    cases same
    constructor
    · simp [HttpMessage.fill_cons, HttpMessage.update, appends, endsEntity]
    · rfl
  · rw [if_neg file] at outcome ⊢
    rcases bind_eq_ok.mp outcome with ⟨last, appended, same⟩
    cases appended
    cases same
    exact Leads.refl _ _

/-- What is recorded of `process` leads to what it computes. -/
theorem process_leads {fs : FileSystem} {server next : MyHttpServer} {accesses : List Access}
    (outcome : process fs server = .ok (next, accesses)) :
    ∃ calls, processCalls fs server = .ok calls ∧
      Leads server.fd server.outMsg calls (next.outMsg, next.fd) := by
  unfold process at outcome
  rcases bind_eq_ok.mp outcome with ⟨⟨begun, found⟩, begins, outcome⟩
  rcases bind_eq_ok.mp outcome with ⟨⟨read, fd⟩, reads, outcome⟩
  rcases bind_eq_ok.mp outcome with ⟨last, ends, same⟩
  cases same
  have later := (readEntity_leads reads).trans (endCalls_leads ends)
  unfold processCalls
  rw [begins]
  by_cases answers : server.Answers
  · rw [if_pos answers] at begins ⊢
    rcases answer_leads begins with ⟨calls, made, leads⟩
    simp only [made, ok_bind, reads]
    refine ⟨_, rfl, ?_⟩
    rw [List.append_assoc]
    exact leads.trans later
  · rw [if_neg answers] at begins ⊢
    cases begins
    simp only [ok_bind, reads]
    exact ⟨_, rfl, later⟩

/-! ## Where a response stands -/

/-- The calls that move pieces of the file into the response. -/
def transfers (pieces : List Str) : List Call :=
  pieces.flatMap fun piece => [.read piece, .update (.appendEntity piece)]

/-- The section of the response, the descriptor, the calls so far and the bytes that they have
appended to the entity. -/
inductive History : MessageState → Option (List Str) → List Call → Str → Prop
  | waiting : History .header none [] []
  | reading (contentType : Str) (pieces rest : List Str) (nonempty : [] ∉ pieces) :
      History .entity (some rest)
        (beginning [.opened (some (pieces ++ rest))] contentType ++ transfers pieces)
        pieces.flatten
  | read (contentType : Str) (reads pieces : List Str) (nonempty : [] ∉ pieces)
      (file : pieces ++ [[]] <+: reads ++ [[]]) :
      History .footer none
        (beginning [.opened (some reads)] contentType ++ transfers pieces ++ ending)
        pieces.flatten
  | noFile (contentType entity : Str) (found : List Call)
      (unopened : found = [] ∨ found = [.opened none]) :
      History .footer none
        (beginning found contentType ++ [.update (.appendEntity entity), .update .endEntity])
        entity
  | done {fd : Option (List Str)} {calls : List Call} {bytes : Str}
      (footer : History .footer fd calls bytes) :
      History .done fd (calls ++ [.update .endFooter]) bytes

/-- What a part of `process` leaves alone, and the bytes that it appends. -/
structure Extends (outMsg next : HttpMessage) (added : Str) : Prop where
  entity : next.entity = outMsg.entity ++ added
  status : next.status = outMsg.status
  header : next.state = .header ↔ outMsg.state = .header

theorem Extends.refl (outMsg : HttpMessage) : Extends outMsg outMsg [] :=
  ⟨(List.append_nil _).symm, rfl, Iff.rfl⟩

theorem Extends.trans {first middle last : HttpMessage} {left right : Str}
    (one : Extends first middle left) (two : Extends middle last right) :
    Extends first last (left ++ right) := by
  constructor
  · rw [two.entity, one.entity, List.append_assoc]
  · exact two.status.trans one.status
  · exact two.header.trans one.header

theorem readFile_of_ne (reads : List Str) {outMsg : HttpMessage}
    (other : ¬ (outMsg.state = .entity ∧ outMsg.entity.length < 1024)) :
    readFile reads outMsg = .ok (outMsg, some reads) ∧ readFileCalls reads outMsg = [] := by
  cases reads with
  | nil =>
      rw [readFile, readFileCalls, if_neg other, if_neg other]
      exact ⟨rfl, rfl⟩
  | cons piece reads =>
      rw [readFile, readFileCalls, if_neg other, if_neg other]
      exact ⟨rfl, rfl⟩

theorem readFile_ending (reads : List Str) {outMsg : HttpMessage}
    (more : outMsg.state = .entity ∧ outMsg.entity.length < 1024)
    (atEnd : reads.head?.getD [] = []) :
    readFile reads outMsg = .ok ({ outMsg with state := .footer }, none) ∧
      readFileCalls reads outMsg = ending := by
  have ends : outMsg.endEntity = .ok { outMsg with state := .footer } := by
    rw [HttpMessage.endEntity, more.1, if_pos le_rfl]
  cases reads with
  | nil =>
      rw [readFile, readFileCalls, if_pos more, if_pos more]
      simp only [ends, ok_bind, and_self]
  | cons piece reads =>
      have empty : piece.isEmpty = true := by simpa using atEnd
      rw [readFile, readFileCalls, if_pos more, if_pos more]
      simp only [empty, if_true, ends, ok_bind, and_self]

/-- In the entity section there is a file. -/
theorem History.isOpen {fd : Option (List Str)} {calls : List Call} {bytes : Str}
    (history : History .entity fd calls bytes) : ∃ reads, fd = some reads := by
  cases history with
  | reading contentType pieces rest nonempty => exact ⟨rest, rfl⟩

/-- A read that returns nothing ends the entity. -/
theorem History.ended {reads : List Str} {calls : List Call} {bytes : Str}
    (history : History .entity (some reads) calls bytes) (atEnd : reads.head?.getD [] = []) :
    History .footer none (calls ++ ending) bytes := by
  cases history with
  | reading contentType pieces rest nonempty =>
      apply History.read contentType _ pieces nonempty
      rw [List.append_assoc, List.prefix_append_right_inj]
      cases reads with
      | nil => exact List.prefix_refl _
      | cons piece reads =>
          have empty : piece = [] := atEnd
          rw [empty]
          exact ⟨reads ++ [[]], rfl⟩

/-- A read that returns a piece moves it into the response. -/
theorem History.moved {piece : Str} {reads : List Str} {calls : List Call} {bytes : Str}
    (history : History .entity (some (piece :: reads)) calls bytes) (some : piece ≠ []) :
    History .entity (.some reads) (calls ++ [.read piece, .update (.appendEntity piece)])
      (bytes ++ piece) := by
  cases history with
  | reading contentType pieces rest nonempty =>
      have longer := History.reading contentType (pieces ++ [piece]) reads
        (by simpa [nonempty] using some.symm)
      simpa [transfers, List.append_assoc] using longer

/-- The file is read to its end or until enough is in the response. -/
theorem History.of_readFile {reads : List Str} {outMsg : HttpMessage} {calls : List Call}
    {bytes : Str} (entity : outMsg.state = .entity)
    (history : History .entity (some reads) calls bytes) :
    ∃ next fd added, readFile reads outMsg = .ok (next, fd) ∧
      Extends outMsg next added ∧
      History next.state fd (calls ++ readFileCalls reads outMsg) (bytes ++ added) := by
  induction reads generalizing outMsg calls bytes with
  | nil =>
      by_cases more : outMsg.state = .entity ∧ outMsg.entity.length < 1024
      · rcases readFile_ending [] more rfl with ⟨outcome, made⟩
        refine ⟨_, _, [], outcome, ⟨by simp, rfl, by simp [entity]⟩, ?_⟩
        rw [made, List.append_nil]
        exact history.ended rfl
      · rcases readFile_of_ne [] more with ⟨outcome, made⟩
        refine ⟨_, _, [], outcome, Extends.refl _, ?_⟩
        rw [made, List.append_nil, List.append_nil, entity]
        exact history
  | cons piece reads ih =>
      by_cases more : outMsg.state = .entity ∧ outMsg.entity.length < 1024
      · by_cases empty : piece = []
        · rcases readFile_ending (piece :: reads) more empty with ⟨outcome, made⟩
          refine ⟨_, _, [], outcome, ⟨by simp, rfl, by simp [entity]⟩, ?_⟩
          rw [made, List.append_nil]
          exact history.ended empty
        · have goesOn : piece.isEmpty = false := by simpa using empty
          have appends : outMsg.appendEntity piece =
              .ok { outMsg with entity := outMsg.entity ++ piece } := if_pos entity
          let longer : HttpMessage := { outMsg with entity := outMsg.entity ++ piece }
          have still : longer.state = .entity := entity
          rcases ih still (history.moved empty) with ⟨next, fd, added, outcome, extended, later⟩
          refine ⟨next, fd, piece ++ added, ?_, ⟨?_, extended.status, extended.header⟩, ?_⟩
          · rw [readFile, if_pos more]
            simp only [goesOn, Bool.false_eq_true, if_false, appends, ok_bind]
            exact outcome
          · rw [extended.entity, List.append_assoc]
          · rw [readFileCalls, if_pos more]
            simp only [goesOn, Bool.false_eq_true, if_false]
            simpa [List.append_assoc] using later
      · rcases readFile_of_ne (piece :: reads) more with ⟨outcome, made⟩
        refine ⟨_, _, [], outcome, Extends.refl _, ?_⟩
        rw [made, List.append_nil, List.append_nil, entity]
        exact history

theorem History.of_readEntity {fd : Option (List Str)} {outMsg : HttpMessage} {calls : List Call}
    {bytes : Str} (history : History outMsg.state fd calls bytes) :
    ∃ next fd' added, readEntity fd outMsg = .ok (next, fd') ∧ Extends outMsg next added ∧
      History next.state fd' (calls ++ readEntityCalls fd outMsg) (bytes ++ added) := by
  by_cases entity : outMsg.state = .entity
  · rw [entity] at history
    rcases history.isOpen with ⟨reads, rfl⟩
    exact history.of_readFile entity
  · have other : ¬ (outMsg.state = .entity ∧ outMsg.entity.length < 1024) :=
      fun more => entity more.1
    refine ⟨outMsg, fd, [], ?_, Extends.refl outMsg, ?_⟩
    · cases fd with
      | some reads => exact (readFile_of_ne reads other).1
      | none => rw [readEntity, (readFile_of_ne [] other).1, ok_bind]
    · have noCalls : readEntityCalls fd outMsg = [] := by
        cases fd with
        | some reads => exact (readFile_of_ne reads other).2
        | none => exact (readFile_of_ne [] other).2
      rw [noCalls, List.append_nil, List.append_nil]
      exact history

theorem History.of_endFooter {fd : Option (List Str)} {outMsg : HttpMessage} {calls : List Call}
    {bytes : Str} (history : History outMsg.state fd calls bytes) :
    ∃ next added,
      (if outMsg.state = .footer then outMsg.endFooter else .ok outMsg) = .ok next ∧
      Extends outMsg next added ∧ next.state ≠ .footer ∧
      History next.state fd (calls ++ endCalls outMsg) (bytes ++ added) := by
  unfold endCalls
  by_cases footer : outMsg.state = .footer
  · rw [footer] at history
    refine ⟨{ outMsg with state := .done }, [], ?_, ⟨by simp, rfl, by simp [footer]⟩, by simp, ?_⟩
    · simp [footer, HttpMessage.endFooter]
    · rw [if_pos footer, List.append_nil]
      exact .done history
  · refine ⟨outMsg, [], if_neg footer, Extends.refl outMsg, footer, ?_⟩
    rw [if_neg footer, List.append_nil, List.append_nil]
    exact history

theorem findCalls_cases (fs : FileSystem) (basePath : CanonicalPath) (url : Str) :
    findCalls fs basePath url = [] ∨ ∃ file, findCalls fs basePath url = [.opened file] := by
  unfold findCalls
  cases fs.realpath (requestedPath basePath url) with
  | none => exact Or.inl rfl
  | some canonPath =>
      simp only
      split
      · unfold openCalls
        cases fs.opendir canonPath.text with
        | some entries => exact Or.inl rfl
        | none => exact Or.inr ⟨_, rfl⟩
      · exact Or.inl rfl

/-- A response that is begun is begun with what was found, or given as a whole. -/
theorem History.of_answer (fs : FileSystem) {server : MyHttpServer}
    (header : server.outMsg.state = .header) (closed : server.fd = none) :
    ∃ next accesses calls added, answer fs server = .ok (next, accesses) ∧
      answerCalls fs server = .ok calls ∧ History next.outMsg.state next.fd calls added ∧
      next.outMsg.entity = server.outMsg.entity ++ added ∧ next.outMsg.status = 200 ∧
      next.outMsg.state ≠ .header ∧ next.inMsg = server.inMsg.clearHeaders := by
  rcases findPath_ok fs { server with
    headerMp := storeHeaders server.headerMp server.inMsg.headers
    inMsg := server.inMsg.clearHeaders } (withoutSlashes (withoutQuery server.inMsg.url))
    with ⟨found, looked, -⟩
  have leads := (findPath_leads looked server.outMsg).2
  have url : server.inMsg.clearHeaders.url = server.inMsg.url := rfl
  simp only [answer, answerCalls, url, looked, ok_bind, HttpMessage.addHeader,
    HttpMessage.setStatus, header, HttpMessage.endHeader, if_true, MessageState.rank_header,
    le_refl]
  cases file : found.fd with
  | none =>
      refine ⟨_, _, _, found.entity, rfl, rfl, ?_, rfl, rfl, by simp, rfl⟩
      apply History.noFile
      rcases findCalls_cases fs server.basePath (withoutSlashes (withoutQuery server.inMsg.url))
        with nothing | ⟨opened, made⟩
      · exact Or.inl nothing
      · rw [made, file] at leads
        cases leads
        exact Or.inr made
  | some reads =>
      refine ⟨_, _, _, [], rfl, rfl, ?_, by simp, rfl, by simp, rfl⟩
      rcases findCalls_cases fs server.basePath (withoutSlashes (withoutQuery server.inMsg.url))
        with nothing | ⟨opened, made⟩
      · rw [nothing, file, closed] at leads
        cases leads
      · rw [made, file] at leads
        cases leads
        rw [made]
        exact History.reading found.contentType [] reads (by simp)

/-! ## What the calls amount to -/

theorem returned_append (front back : List Call) :
    returned (front ++ back) = returned front ++ returned back := List.filterMap_append

theorem files_append (front back : List Call) :
    files (front ++ back) = files front ++ files back := List.filterMap_append

theorem returned_transfers (pieces : List Str) : returned (transfers pieces) = pieces := by
  induction pieces with
  | nil => rfl
  | cons piece pieces ih =>
      have split : transfers (piece :: pieces) =
        .read piece :: .update (.appendEntity piece) :: transfers pieces := rfl
      rw [split]
      exact congrArg (piece :: ·) ih

theorem files_transfers (pieces : List Str) : files (transfers pieces) = [] := by
  induction pieces with
  | nil => rfl
  | cons piece pieces ih => exact ih

/-- Moving a piece is neither the end of a section nor the end of the file. -/
theorem count_transfers {call : Call} (noRead : ∀ piece, call ≠ .read piece)
    (noAppend : ∀ piece, call ≠ .update (.appendEntity piece)) (pieces : List Str) :
    (transfers pieces).count call = 0 := by
  rw [List.count_eq_zero]
  intro member
  rcases List.mem_flatMap.mp member with ⟨piece, -, moved⟩
  rcases List.mem_cons.mp moved with same | moved
  · exact noRead piece same
  · exact noAppend piece (List.mem_singleton.mp moved)

section Begun

variable (found : List Call) (contentType : Str) (pieces : List Str)

theorem returned_beginning : returned (beginning found contentType) = returned found := by
  rw [beginning, List.cons_append]
  change returned (found ++ _) = _
  rw [returned_append]
  exact List.append_nil _

theorem files_beginning : files (beginning found contentType) = files found := by
  rw [beginning, List.cons_append]
  change files (found ++ _) = _
  rw [files_append]
  exact List.append_nil _

theorem returned_begun : returned (beginning found contentType ++ transfers pieces) =
    returned found ++ pieces := by
  rw [returned_append, returned_beginning, returned_transfers]

theorem files_begun : files (beginning found contentType ++ transfers pieces) = files found := by
  rw [files_append, files_beginning, files_transfers, List.append_nil]

end Begun

/-- Each section that the response has left was ended once. -/
theorem History.count_ends {state : MessageState} {fd : Option (List Str)} {calls : List Call}
    {bytes : Str} (history : History state fd calls bytes) :
    calls.count (.update .endHeader) = (if MessageState.rank .header < state.rank then 1 else 0) ∧
      calls.count (.update .endEntity) =
        (if MessageState.rank .entity < state.rank then 1 else 0) ∧
      calls.count (.update .endFooter) =
        (if MessageState.rank .footer < state.rank then 1 else 0) := by
  induction history with
  | waiting => exact ⟨rfl, rfl, rfl⟩
  | reading contentType pieces rest nonempty =>
      simp [beginning, count_transfers]
  | read contentType reads pieces nonempty file =>
      simp [beginning, ending, count_transfers]
  | noFile contentType entity found unopened =>
      rcases unopened with rfl | rfl
      · simp [beginning]
      · simp [beginning]
  | done footer ih =>
      rcases ih with ⟨header, entity, footer⟩
      simp [header, entity, footer]

/-- How far the file of a response was read. -/
inductive FileUse (fd : Option (List Str)) (calls : List Call) (bytes : Str) : Prop
  | unused (fd : fd = none) (files : files calls = []) (returns : returned calls = [])
      (closes : calls.count .close = 0)
  | reading (reads : List Str) (fd : fd.isSome) (files : files calls = [reads])
      (returns : returned calls <+: reads ++ [[]]) (bytes : bytes = (returned calls).flatten)
      (goesOn : [] ∉ returned calls) (closes : calls.count .close = 0)
  | closed (reads : List Str) (fd : fd = none) (files : files calls = [reads])
      (returns : returned calls <+: reads ++ [[]])
      (bytes : bytes = (returned calls).flatten) (atEnd : [] ∈ returned calls)
      (closes : calls.count .close = 1)

/-- An update of the response is no use of the file. -/
theorem FileUse.update {fd : Option (List Str)} {calls : List Call} {bytes : Str}
    (use : FileUse fd calls bytes) (update : Update) :
    FileUse fd (calls ++ [.update update]) bytes := by
  have returns : returned (calls ++ [.update update]) = returned calls := by
    rw [returned_append]
    exact List.append_nil _
  have opened : files (calls ++ [.update update]) = files calls := by
    rw [files_append]
    exact List.append_nil _
  have closes : (calls ++ [Call.update update]).count .close = calls.count .close := by simp
  cases use with
  | unused isFd noFile nothing noClose =>
      exact .unused isFd (opened.trans noFile) (returns.trans nothing) (closes.trans noClose)
  | reading reads isFd file returned bytes goesOn noClose =>
      exact .reading reads isFd (opened.trans file) (returns ▸ returned) (returns ▸ bytes)
        (returns ▸ goesOn) (closes.trans noClose)
  | closed reads isFd file returned bytes atEnd close =>
      exact .closed reads isFd (opened.trans file) (returns ▸ returned) (returns ▸ bytes)
        (returns ▸ atEnd) (closes.trans close)

/-- The bytes that were appended are those that the reads of the file returned, and the file is
closed at its end. -/
theorem History.fileUse {state : MessageState} {fd : Option (List Str)} {calls : List Call}
    {bytes : Str} (history : History state fd calls bytes) : FileUse fd calls bytes := by
  induction history with
  | waiting => exact .unused rfl rfl rfl rfl
  | reading contentType pieces rest nonempty =>
      have returns := returned_begun [.opened (some (pieces ++ rest))] contentType pieces
      apply FileUse.reading (pieces ++ rest)
      · rfl
      · exact files_begun _ _ _
      · rw [returns, List.append_assoc]
        exact List.prefix_append _ _
      · rw [returns]
        rfl
      · rw [returns]
        exact nonempty
      · simp [beginning, count_transfers]
  | read contentType reads pieces nonempty file =>
      have returns : returned (beginning [.opened (some reads)] contentType ++ transfers pieces ++
          ending) = pieces ++ [[]] := by
        rw [returned_append, returned_begun]
        rfl
      apply FileUse.closed reads
      · rfl
      · rw [files_append, files_begun]
        rfl
      · rw [returns]
        exact file
      · rw [returns]
        simp
      · rw [returns]
        simp
      · simp [beginning, ending, count_transfers]
  | noFile contentType entity found unopened =>
      have unused : FileUse none (beginning found contentType) entity := by
        apply FileUse.unused
        · rfl
        · rw [files_beginning]
          rcases unopened with rfl | rfl
          · rfl
          · rfl
        · rw [returned_beginning]
          rcases unopened with rfl | rfl
          · rfl
          · rfl
        · rcases unopened with rfl | rfl
          · simp [beginning]
          · simp [beginning]
      have ended := (unused.update (.appendEntity entity)).update .endEntity
      rwa [List.append_assoc] at ended
  | done footer ih => exact ih.update .endFooter

section FileUse

variable {fd : Option (List Str)} {calls : List Call} {bytes : Str}

theorem FileUse.entity (use : FileUse fd calls bytes) {reads : List Str}
    (member : reads ∈ files calls) :
    bytes = (returned calls).flatten ∧ returned calls <+: reads ++ [[]] := by
  cases use with
  | unused isFd noFile returns closes =>
      rw [noFile] at member
      cases member
  | reading file isFd isFile returns isBytes goesOn closes =>
      rw [isFile, List.mem_singleton] at member
      rw [member]
      exact ⟨isBytes, returns⟩
  | closed file isFd isFile returns isBytes atEnd closes =>
      rw [isFile, List.mem_singleton] at member
      rw [member]
      exact ⟨isBytes, returns⟩

theorem FileUse.opens (use : FileUse fd calls bytes) : (files calls).length ≤ 1 := by
  cases use with
  | unused isFd noFile returns closes => simp [noFile]
  | reading file isFd isFile returns isBytes goesOn closes => simp [isFile]
  | closed file isFd isFile returns isBytes atEnd closes => simp [isFile]

/-- Of the files that were opened, all but that of the descriptor were closed. -/
theorem FileUse.closes (use : FileUse fd calls bytes) :
    calls.count .close + (if fd.isSome then 1 else 0) = (files calls).length := by
  cases use with
  | unused isFd noFile returns closes => simp [isFd, noFile, closes]
  | reading file isFd isFile returns isBytes goesOn closes => simp [isFd, isFile, closes]
  | closed file isFd isFile returns isBytes atEnd closes => simp [isFd, isFile, closes]

theorem FileUse.closes_of_atEnd (use : FileUse fd calls bytes) (atEnd : [] ∈ returned calls) :
    calls.count .close = 1 := by
  cases use with
  | unused isFd noFile returns closes =>
      rw [returns] at atEnd
      cases atEnd
  | reading file isFd isFile returns isBytes goesOn closes => exact absurd atEnd goesOn
  | closed file isFd isFile returns isBytes atEnd closes => exact closes

/-- The descriptor is gone when its file was read to the end, or when there is none. -/
theorem FileUse.fd_of_atEnd (use : FileUse fd calls bytes)
    (atEnd : files calls ≠ [] → [] ∈ returned calls) : fd = none := by
  cases use with
  | unused isFd noFile returns closes => exact isFd
  | reading file isFd isFile returns isBytes goesOn closes =>
      have some : files calls ≠ [] := by simp [isFile]
      exact absurd (atEnd some) goesOn
  | closed file isFd isFile returns isBytes atEnd closes => exact isFd

end FileUse

end MyHttpServer
end GnyProxy
