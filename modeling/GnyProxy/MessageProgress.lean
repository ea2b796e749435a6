import GnyProxy.HttpMessage

/-!
# How far a message has been written

The calls by which a message is filled, and an account of what a sink has taken out of it so far.
The account belongs to no wire format: it says which parts of the whole message were handed out,
and in which pieces the entity was.
-/

namespace GnyProxy

/-- One call of the source interface of a message. -/
inductive Update where
  | setUrl (url : Str)
  | setVerb (verb : UInt8)
  | setStatus (status : Int)
  | addHeader (key value : Str)
  | appendEntity (entity : Str)
  | addFooter (key value : Str)
  | endHeader
  | endEntity
  | endFooter
  deriving DecidableEq

theorem Update.status_cases (update : Update) :
    (∃ status, update = setStatus status) ∨ ∀ status, update ≠ setStatus status := by
  cases update <;> simp

namespace HttpMessage

def update (msg : HttpMessage) : Update → Except Fault HttpMessage
  | .setUrl url => .ok (msg.setUrl url)
  | .setVerb verb => .ok (msg.setVerb verb)
  | .setStatus status => .ok (msg.setStatus status)
  | .addHeader key value => msg.addHeader key value
  | .appendEntity entity => msg.appendEntity entity
  | .addFooter key value => msg.addFooter key value
  | .endHeader => msg.endHeader
  | .endEntity => msg.endEntity
  | .endFooter => msg.endFooter

/-- Once the first line is complete an update does not change it. -/
def Admits (msg : HttpMessage) : Update → Prop
  | .setUrl url => msg.FirstLineSet → url = msg.url
  | .setVerb verb => msg.FirstLineSet → verb = msg.verb
  | .setStatus status => msg.FirstLineSet → status = msg.status
  | _ => True

instance (msg : HttpMessage) (update : Update) : Decidable (msg.Admits update) := by
  cases update <;> unfold Admits <;> infer_instance

/-- The parts of a message that make up its first line. -/
def SameFirstLine (msg whole : HttpMessage) : Prop :=
  msg.isRequest = whole.isRequest ∧ msg.url = whole.url ∧ msg.verb = whole.verb ∧
    msg.status = whole.status

/-- An admitted update keeps a complete first line. -/
theorem sameFirstLine_of_update {msg next : HttpMessage} {update : Update}
    (complete : msg.FirstLineSet) (admitted : msg.Admits update)
    (updated : msg.update update = .ok next) : next.SameFirstLine msg := by
  cases update with
  | setUrl url =>
      cases updated
      exact ⟨rfl, admitted complete, rfl, rfl⟩
  | setVerb verb =>
      cases updated
      exact ⟨rfl, rfl, admitted complete, rfl⟩
  | setStatus status =>
      cases updated
      exact ⟨rfl, rfl, rfl, admitted complete⟩
  | addHeader key value =>
      obtain ⟨-, rfl⟩ := addHeader_eq_ok.mp updated
      exact ⟨rfl, rfl, rfl, rfl⟩
  | appendEntity entity =>
      obtain ⟨-, rfl⟩ := appendEntity_eq_ok.mp updated
      exact ⟨rfl, rfl, rfl, rfl⟩
  | addFooter key value =>
      obtain ⟨-, rfl⟩ := addFooter_eq_ok.mp updated
      exact ⟨rfl, rfl, rfl, rfl⟩
  | endHeader =>
      obtain ⟨-, rfl⟩ := endHeader_eq_ok.mp updated
      exact ⟨rfl, rfl, rfl, rfl⟩
  | endEntity =>
      obtain ⟨-, rfl⟩ := endEntity_eq_ok.mp updated
      exact ⟨rfl, rfl, rfl, rfl⟩
  | endFooter =>
      obtain ⟨-, rfl⟩ := endFooter_eq_ok.mp updated
      exact ⟨rfl, rfl, rfl, rfl⟩

theorem status_of_update {msg next : HttpMessage} {update : Update}
    (other : ∀ status, update ≠ .setStatus status) (updated : msg.update update = .ok next) :
    next.status = msg.status := by
  cases update with
  | setStatus status => exact absurd rfl (other status)
  | setUrl url | setVerb verb =>
      cases updated
      rfl
  | addHeader key value =>
      obtain ⟨-, rfl⟩ := addHeader_eq_ok.mp updated
      rfl
  | appendEntity entity =>
      obtain ⟨-, rfl⟩ := appendEntity_eq_ok.mp updated
      rfl
  | addFooter key value =>
      obtain ⟨-, rfl⟩ := addFooter_eq_ok.mp updated
      rfl
  | endHeader =>
      obtain ⟨-, rfl⟩ := endHeader_eq_ok.mp updated
      rfl
  | endEntity =>
      obtain ⟨-, rfl⟩ := endEntity_eq_ok.mp updated
      rfl
  | endFooter =>
      obtain ⟨-, rfl⟩ := endFooter_eq_ok.mp updated
      rfl

end HttpMessage

/-- What a sink has taken out of a message: the section it is in, the headers and footers, and the
pieces of the entity. -/
structure Progress where
  writeState : MessageState := .header
  headers : Fields := []
  pieces : List Str := []
  footers : Fields := []
  deriving DecidableEq

namespace Progress

/-- Take the headers, and leave the section if the message has. -/
def headerRound (progress : Progress) (msg : HttpMessage) : Progress × HttpMessage :=
  if progress.writeState = .header then
    ({ progress with
      headers := progress.headers ++ msg.headers
      writeState := if msg.state = .header then .header else .entity }, msg.clearHeaders)
  else
    (progress, msg)

/-- Take the entity, split into pieces, and leave the section if the message has. -/
def entityRound (split : Str → List Str) (progress : Progress) (msg : HttpMessage) :
    Progress × HttpMessage :=
  if progress.writeState = .entity then
    ({ progress with
      pieces := progress.pieces ++ split msg.entity
      writeState := if msg.state = .entity then .entity else .footer }, msg.clearEntity)
  else
    (progress, msg)

/-- Take the footers, and leave the section if the message has. -/
def footerRound (progress : Progress) (msg : HttpMessage) : Progress × HttpMessage :=
  if progress.writeState = .footer then
    ({ progress with
      footers := progress.footers ++ msg.footers
      writeState := if msg.state = .footer then .footer else .done }, msg.clearFooters)
  else
    (progress, msg)

/-- What one update check of a sink takes. -/
def round (split : Str → List Str) (progress : Progress) (msg : HttpMessage) :
    Progress × HttpMessage :=
  let (progress, msg) := progress.headerRound msg
  let (progress, msg) := progress.entityRound split msg
  progress.footerRound msg

end Progress

/-- Nothing of the whole message is lost: what was taken and what is still in the message make it
up, and sections that the sink has left are empty. -/
structure Accounts (progress : Progress) (msg whole : HttpMessage) : Prop where
  firstLine : msg.SameFirstLine whole
  state : msg.state = whole.state
  headers : progress.headers ++ msg.headers = whole.headers
  entity : progress.pieces.flatten ++ msg.entity = whole.entity
  footers : progress.footers ++ msg.footers = whole.footers
  behind : progress.writeState.rank ≤ msg.state.rank
  noHeaders : 0 < progress.writeState.rank → msg.headers = []
  noEntity : 1 < progress.writeState.rank → msg.entity = []
  noFooters : 2 < progress.writeState.rank → msg.footers = []
  noPieces : progress.writeState.rank < 1 → progress.pieces = []
  noneTaken : progress.writeState.rank < 2 → progress.footers = []

namespace Accounts

variable {progress : Progress} {msg whole : HttpMessage} {split : Str → List Str}

theorem start (msg : HttpMessage) : Accounts {} msg msg where
  firstLine := ⟨rfl, rfl, rfl, rfl⟩
  state := rfl
  headers := rfl
  entity := rfl
  footers := rfl
  behind := Nat.zero_le _
  noHeaders := by simp
  noEntity := by simp
  noFooters := by simp
  noPieces := by simp
  noneTaken := by simp

/-- A message of which nothing was taken is the whole message. -/
theorem eq_whole (accounts : Accounts {} msg whole) : msg = whole := by
  obtain ⟨⟨isRequest, url, verb, status⟩, state, headers, entity, footers, -⟩ := accounts
  cases msg
  cases whole
  simp_all

/-- An update of the whole message is one of the message that is being written. -/
theorem update {next : HttpMessage} {update : Update} (accounts : Accounts progress msg whole)
    (updated : whole.update update = .ok next) :
    ∃ msg', msg.update update = .ok msg' ∧ Accounts progress msg' next := by
  obtain ⟨⟨isRequest, url, verb, status⟩, state, headers, entity, footers, behind, noHeaders,
    noEntity, noFooters, noPieces, noneTaken⟩ := accounts
  cases update with
  | setUrl url' =>
      cases updated
      exact ⟨_, rfl, ⟨isRequest, rfl, verb, status⟩, state, headers, entity, footers, behind,
        noHeaders, noEntity, noFooters, noPieces, noneTaken⟩
  | setVerb verb' =>
      cases updated
      exact ⟨_, rfl, ⟨isRequest, url, rfl, status⟩, state, headers, entity, footers, behind,
        noHeaders, noEntity, noFooters, noPieces, noneTaken⟩
  | setStatus status' =>
      cases updated
      exact ⟨_, rfl, ⟨isRequest, url, verb, rfl⟩, state, headers, entity, footers, behind,
        noHeaders, noEntity, noFooters, noPieces, noneTaken⟩
  | addHeader key value =>
      obtain ⟨header, rfl⟩ := HttpMessage.addHeader_eq_ok.mp updated
      have here : msg.state = .header := state.trans header
      refine ⟨_, HttpMessage.addHeader_eq_ok.mpr ⟨here, rfl⟩,
        ⟨isRequest, url, verb, status⟩, state, ?_, entity, footers, behind, ?_, noEntity,
        noFooters, noPieces, noneTaken⟩
      · simp [← headers]
      · intro left
        rw [here] at behind
        simp at behind
        omega
  | appendEntity piece =>
      obtain ⟨header, rfl⟩ := HttpMessage.appendEntity_eq_ok.mp updated
      have here : msg.state = .entity := state.trans header
      refine ⟨_, HttpMessage.appendEntity_eq_ok.mpr ⟨here, rfl⟩,
        ⟨isRequest, url, verb, status⟩, state, headers, ?_, footers, behind, noHeaders, ?_,
        noFooters, noPieces, noneTaken⟩
      · simp [← entity]
      · intro left
        rw [here] at behind
        simp at behind
        omega
  | addFooter key value =>
      obtain ⟨header, rfl⟩ := HttpMessage.addFooter_eq_ok.mp updated
      have here : msg.state = .footer := state.trans header
      refine ⟨_, HttpMessage.addFooter_eq_ok.mpr ⟨here, rfl⟩,
        ⟨isRequest, url, verb, status⟩, state, headers, entity, ?_, behind, noHeaders, noEntity,
        ?_, noPieces, noneTaken⟩
      · simp [← footers]
      · intro left
        rw [here] at behind
        simp at behind
        omega
  | endHeader =>
      obtain ⟨below, rfl⟩ := HttpMessage.endHeader_eq_ok.mp updated
      rw [← state] at below
      exact ⟨_, HttpMessage.endHeader_eq_ok.mpr ⟨below, rfl⟩, ⟨isRequest, url, verb, status⟩, rfl,
        headers, entity, footers, by simp; omega, noHeaders, noEntity, noFooters, noPieces,
        noneTaken⟩
  | endEntity =>
      obtain ⟨below, rfl⟩ := HttpMessage.endEntity_eq_ok.mp updated
      rw [← state] at below
      exact ⟨_, HttpMessage.endEntity_eq_ok.mpr ⟨below, rfl⟩, ⟨isRequest, url, verb, status⟩, rfl,
        headers, entity, footers, by simp; omega, noHeaders, noEntity, noFooters, noPieces,
        noneTaken⟩
  | endFooter =>
      obtain ⟨below, rfl⟩ := HttpMessage.endFooter_eq_ok.mp updated
      rw [← state] at below
      exact ⟨_, HttpMessage.endFooter_eq_ok.mpr ⟨below, rfl⟩, ⟨isRequest, url, verb, status⟩, rfl,
        headers, entity, footers, by simp; omega, noHeaders, noEntity, noFooters, noPieces,
        noneTaken⟩

theorem headerRound (accounts : Accounts progress msg whole) :
    Accounts (progress.headerRound msg).1 (progress.headerRound msg).2 whole := by
  by_cases here : progress.writeState = .header
  · simp only [Progress.headerRound, here, if_true]
    have pieces := accounts.noPieces (by simp [here])
    have footers := accounts.noneTaken (by simp [here])
    refine ⟨accounts.firstLine, accounts.state, ?_, accounts.entity, accounts.footers, ?_,
      fun _ => rfl, ?_, ?_, fun _ => pieces, fun _ => footers⟩
    · simpa [HttpMessage.clearHeaders] using accounts.headers
    · cases state : msg.state <;> simp [HttpMessage.clearHeaders, state]
    · cases state : msg.state <;> simp
    · cases state : msg.state <;> simp
  · simpa only [Progress.headerRound, here, if_false] using accounts

theorem entityRound (whole_split : ∀ text, (split text).flatten = text)
    (accounts : Accounts progress msg whole) :
    Accounts (progress.entityRound split msg).1 (progress.entityRound split msg).2 whole := by
  by_cases here : progress.writeState = .entity
  · simp only [Progress.entityRound, here, if_true]
    have headers := accounts.noHeaders (by simp [here])
    have footers := accounts.noneTaken (by simp [here])
    have behind := accounts.behind
    rw [here] at behind
    refine ⟨accounts.firstLine, accounts.state, accounts.headers, ?_, accounts.footers, ?_,
      fun _ => headers, fun _ => rfl, ?_, ?_, fun _ => footers⟩
    · simpa [HttpMessage.clearEntity, whole_split] using accounts.entity
    · cases state : msg.state <;> simp [HttpMessage.clearEntity, state] at behind ⊢
    · cases state : msg.state <;> simp
    · cases state : msg.state <;> simp
  · simpa only [Progress.entityRound, here, if_false] using accounts

theorem footerRound (accounts : Accounts progress msg whole) :
    Accounts (progress.footerRound msg).1 (progress.footerRound msg).2 whole := by
  by_cases here : progress.writeState = .footer
  · simp only [Progress.footerRound, here, if_true]
    have headers := accounts.noHeaders (by simp [here])
    have entity := accounts.noEntity (by simp [here])
    have behind := accounts.behind
    rw [here] at behind
    refine ⟨accounts.firstLine, accounts.state, accounts.headers, accounts.entity, ?_, ?_,
      fun _ => headers, fun _ => entity, fun _ => rfl, ?_, ?_⟩
    · simpa [HttpMessage.clearFooters] using accounts.footers
    · cases state : msg.state <;> simp [HttpMessage.clearFooters, state] at behind ⊢
    · cases state : msg.state <;> simp
    · cases state : msg.state <;> simp
  · simpa only [Progress.footerRound, here, if_false] using accounts

theorem round (whole_split : ∀ text, (split text).flatten = text)
    (accounts : Accounts progress msg whole) :
    Accounts (progress.round split msg).1 (progress.round split msg).2 whole :=
  (accounts.headerRound.entityRound whole_split).footerRound

/-- A sink whose first line is written catches up with the message. -/
theorem round_writeState (accounts : Accounts progress msg whole) :
    (progress.round split msg).1.writeState = whole.state := by
  have behind := accounts.behind
  rw [← accounts.state]
  cases writeState : progress.writeState <;> cases state : msg.state <;>
    simp_all [Progress.round, Progress.headerRound, Progress.entityRound, Progress.footerRound,
      HttpMessage.clearHeaders, HttpMessage.clearEntity]

/-- A round takes no other pieces than those of the entity that is there. -/
theorem mem_round_pieces {piece : Str} (member : piece ∈ (progress.round split msg).1.pieces) :
    piece ∈ progress.pieces ∨ piece ∈ split msg.entity := by
  cases writeState : progress.writeState <;> cases state : msg.state <;>
    simp_all [Progress.round, Progress.headerRound, Progress.entityRound, Progress.footerRound,
      HttpMessage.clearHeaders, HttpMessage.clearEntity]

/-- A round takes all of the entity that has arrived. -/
theorem round_entity (accounts : Accounts progress msg whole) (behind : whole.state ≠ .header) :
    (progress.round split msg).2.entity = [] := by
  have noEntity := accounts.noEntity
  rw [← accounts.state] at behind
  cases writeState : progress.writeState <;> cases state : msg.state <;>
    simp_all [Progress.round, Progress.headerRound, Progress.entityRound, Progress.footerRound,
      HttpMessage.clearHeaders, HttpMessage.clearEntity, HttpMessage.clearFooters]

/-- A sink that has finished has taken the whole message. -/
theorem finished (accounts : Accounts progress msg whole) (done : progress.writeState = .done) :
    progress.headers = whole.headers ∧ progress.pieces.flatten = whole.entity ∧
      progress.footers = whole.footers ∧ msg.headers = [] ∧ msg.entity = [] ∧ msg.footers = [] := by
  have headers := accounts.noHeaders (by simp [done])
  have entity := accounts.noEntity (by simp [done])
  have footers := accounts.noFooters (by simp [done])
  refine ⟨?_, ?_, ?_, headers, entity, footers⟩
  · simpa [headers] using accounts.headers
  · simpa [entity] using accounts.entity
  · simpa [footers] using accounts.footers

end Accounts
end GnyProxy
