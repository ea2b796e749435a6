import GnyProxy.MessageSinkGny
import GnyProxy.MessageSink11

/-!
# A message and its writer

A message that is still being filled, with a writer of either kind that takes from it what there
is and sends it in parts of any size.  Whatever the schedule, what was sent and what is still
buffered is the layout of the part that was taken.
-/

namespace GnyProxy

/-- A writer behind the `ConnectionWriter` interface. -/
inductive MessageSink where
  | gny (sink : MessageSinkGny)
  | v11 (sink : MessageSink11)
  deriving DecidableEq

namespace MessageSink

/-- What waits to be sent. -/
def buffer : MessageSink → Str
  | .gny sink => sink.dataStream
  | .v11 sink => sink.packetStr

def getWriteSize : MessageSink → HttpMessage → Except Fault ((MessageSink × HttpMessage) × Nat)
  | .gny sink, msg => do
      let ((sink, msg), size) ← sink.getWriteSize msg
      .ok ((.gny sink, msg), size)
  | .v11 sink, msg => do
      let ((sink, msg), size) ← sink.getWriteSize msg
      .ok ((.v11 sink, msg), size)

def write : MessageSink → HttpMessage → Nat → Nat →
    Except Fault ((MessageSink × HttpMessage) × Str)
  | .gny sink, msg, maxWrite, amount => do
      let ((sink, msg), sent) ← sink.write msg maxWrite amount
      .ok ((.gny sink, msg), sent)
  | .v11 sink, msg, maxWrite, amount => do
      let ((sink, msg), sent) ← sink.write msg maxWrite amount
      .ok ((.v11 sink, msg), sent)

/-- The first line that the writer puts out, once it is known. -/
def firstLine : MessageSink → HttpMessage → Except Fault (Option Str)
  | .gny _, msg => .ok (MessageSinkGny.firstLine msg)
  | .v11 _, msg => MessageSink11.firstLine msg

/-- A GNY writer takes entities below two gigabytes only. -/
def Takes : MessageSink → HttpMessage → Prop
  | .gny _, msg => msg.entity.length < 2 ^ 31
  | .v11 _, _ => True

/-- The stream of a message of which `progress` has been taken. -/
def stream : MessageSink → Str → Progress → Str
  | .gny _ => MessageSinkGny.stream
  | .v11 _ => MessageSink11.stream

/-- What the pieces of an entity satisfy. -/
def Splits : MessageSink → List Str → Prop
  | .gny _ => MessageSinkGny.Splits
  | .v11 _ => MessageSink11.Splits

/-- The pieces in which the writer sends an entity that is there at once. -/
def pieces : MessageSink → Str → List Str
  | .gny _ => MessageSinkGny.pieces
  | .v11 _ => MessageSink11.pieces

/-- What the writer has put out of a message, and what it keeps for the rest. -/
def Represents (sent : Str) : MessageSink → Progress → HttpMessage → Prop
  | .gny sink => MessageSinkGny.Represents sent sink
  | .v11 sink => MessageSink11.Represents sent sink

/-- The writers are of one kind. -/
def SameKind : MessageSink → MessageSink → Prop
  | .gny _, .gny _ => True
  | .v11 _, .v11 _ => True
  | _, _ => False

/-- A writer that has done nothing. -/
def IsFresh (sink : MessageSink) : Prop := sink = .gny {} ∨ sink = .v11 {}

@[simp] theorem SameKind.refl (sink : MessageSink) : sink.SameKind sink := by
  cases sink <;> trivial

theorem SameKind.trans {first middle last : MessageSink} (left : first.SameKind middle)
    (right : middle.SameKind last) : first.SameKind last := by
  cases first <;> cases middle <;> cases last <;> simp_all [SameKind]

theorem SameKind.firstLine {sink sink' : MessageSink} (same : sink.SameKind sink')
    (msg : HttpMessage) : sink.firstLine msg = sink'.firstLine msg := by
  cases sink <;> cases sink' <;> simp_all [SameKind, MessageSink.firstLine]

theorem SameKind.stream {sink sink' : MessageSink} (same : sink.SameKind sink') :
    sink.stream = sink'.stream := by
  cases sink <;> cases sink' <;> simp_all [SameKind, MessageSink.stream]

theorem SameKind.splits {sink sink' : MessageSink} (same : sink.SameKind sink') :
    sink.Splits = sink'.Splits := by
  cases sink <;> cases sink' <;> simp_all [SameKind, MessageSink.Splits]

theorem SameKind.pieces {sink sink' : MessageSink} (same : sink.SameKind sink') :
    sink.pieces = sink'.pieces := by
  cases sink <;> cases sink' <;> simp_all [SameKind, MessageSink.pieces]

/-- Both writers know the first line of a message only when it is complete. -/
theorem firstLineSet_of_firstLine {sink : MessageSink} {msg : HttpMessage} {first : Str}
    (known : sink.firstLine msg = .ok (some first)) : msg.FirstLineSet := by
  cases sink with
  | gny sink =>
      simp only [firstLine, Except.ok.injEq, MessageSinkGny.firstLine] at known
      rw [HttpMessage.FirstLineSet]
      split at known
      · rename_i request
        rw [if_pos request]
        split at known
        · cases known
        · rename_i complete
          rwa [not_or] at complete
      · rename_i response
        rw [if_neg response]
        intro unset
        simp [unset, toInt16] at known
  | v11 sink =>
      simp only [firstLine, MessageSink11.firstLine] at known
      rw [HttpMessage.FirstLineSet]
      split at known
      · rename_i request
        rw [if_pos request]
        split at known
        · cases known
        · rename_i complete
          rwa [not_or] at complete
      · rename_i response
        rw [if_neg response]
        intro unset
        simp [unset] at known

/-- The first line is made from the verb and url, or the status. -/
theorem firstLine_congr {msg whole : HttpMessage} (same : msg.SameFirstLine whole)
    (sink : MessageSink) : sink.firstLine msg = sink.firstLine whole := by
  obtain ⟨isRequest, url, verb, status⟩ := same
  cases sink with
  | gny sink => simp only [firstLine, MessageSinkGny.firstLine, isRequest, url, verb, status]
  | v11 sink => simp only [firstLine, MessageSink11.firstLine, isRequest, url, verb, status]

/-- Either nothing was written, or the first line is known and the stream of the progress was. -/
theorem Represents.cases {sent : Str} {sink : MessageSink} {progress : Progress}
    {whole : HttpMessage} (represents : sink.Represents sent progress whole) :
    (sent = [] ∧ sink.IsFresh ∧ progress = {}) ∨
      ∃ first, sink.firstLine whole = .ok (some first) ∧
        sent ++ sink.buffer = sink.stream first progress ∧ sink.Splits progress.pieces := by
  cases sink with
  | gny sink =>
      obtain ⟨empty, rfl, start⟩ | ⟨first, known, written⟩ := represents
      · exact Or.inl ⟨empty, Or.inl rfl, start⟩
      · exact Or.inr ⟨first, by rw [firstLine, known], written.stream, written.splits⟩
  | v11 sink =>
      obtain ⟨empty, rfl, start⟩ | ⟨first, known, written⟩ := represents
      · exact Or.inl ⟨empty, Or.inr rfl, start⟩
      · exact Or.inr ⟨first, known, written.stream, written.splits⟩

theorem Represents.fresh {sink : MessageSink} (fresh : sink.IsFresh) (whole : HttpMessage) :
    sink.Represents [] {} whole := by
  obtain rfl | rfl := fresh <;> exact Or.inl ⟨rfl, rfl, rfl⟩

/-- A writer is not disturbed by updates of the message. -/
theorem Represents.update {sent : Str} {sink : MessageSink} {progress : Progress}
    {whole next : HttpMessage} {update : Update} (represents : sink.Represents sent progress whole)
    (admitted : whole.Admits update) (updated : whole.update update = .ok next) :
    sink.Represents sent progress next := by
  have keeps {first : Str} (known : sink.firstLine whole = .ok (some first)) :
      sink.firstLine next = .ok (some first) := by
    rw [← known]
    exact firstLine_congr (HttpMessage.sameFirstLine_of_update (firstLineSet_of_firstLine known)
      admitted updated) sink
  cases sink with
  | gny sink =>
      obtain start | ⟨first, known, written⟩ := represents
      · exact Or.inl start
      · have known' := keeps (by rw [firstLine, known])
        exact Or.inr ⟨first, Except.ok.inj known', written⟩
  | v11 sink =>
      obtain start | ⟨first, known, written⟩ := represents
      · exact Or.inl start
      · exact Or.inr ⟨first, keeps known, written⟩

/-- A call of `get_write_size` catches up with the message. -/
theorem Represents.getWriteSize {sent : Str} {sink : MessageSink} {progress : Progress}
    {msg whole : HttpMessage} {line : Option Str}
    (represents : sink.Represents sent progress whole) (accounts : Accounts progress msg whole)
    (takes : sink.Takes msg) (known : sink.firstLine whole = .ok line) :
    ∃ sink' progress' msg', sink.getWriteSize msg = .ok ((sink', msg'), sink'.buffer.length) ∧
      sink.SameKind sink' ∧ sink'.Represents sent progress' whole ∧
      Accounts progress' msg' whole ∧ (line ≠ none → progress'.writeState = whole.state) ∧
      ∀ piece ∈ progress'.pieces, piece ∈ progress.pieces ∨ piece ∈ sink.pieces msg.entity := by
  cases sink with
  | gny sink =>
      obtain ⟨sink', progress', msg', check_eq, represents', accounts', caught, taken⟩ :=
        MessageSinkGny.Represents.checkForUpdate represents accounts takes
      refine ⟨.gny sink', progress', msg', ?_, trivial, represents', accounts', ?_, taken⟩
      · simp [MessageSink.getWriteSize, MessageSinkGny.getWriteSize, check_eq, buffer]
      · rw [← Except.ok.inj known]
        exact caught
  | v11 sink =>
      obtain ⟨sink', progress', msg', check_eq, represents', accounts', caught, taken⟩ :=
        MessageSink11.Represents.checkForUpdate represents accounts known
      refine ⟨.v11 sink', progress', msg', ?_, trivial, represents', accounts', caught, taken⟩
      simp [MessageSink.getWriteSize, MessageSink11.getWriteSize, check_eq, buffer]

/-- The writer behind a partial send. -/
def drop : MessageSink → Nat → MessageSink
  | .gny sink, amount => .gny { sink with dataStream := sink.dataStream.drop amount }
  | .v11 sink, amount => .v11 { sink with packetStr := sink.packetStr.drop amount }

theorem sameKind_drop (sink : MessageSink) (amount : Nat) : sink.SameKind (sink.drop amount) := by
  cases sink <;> trivial

theorem buffer_drop (sink : MessageSink) (amount : Nat) :
    (sink.drop amount).buffer = sink.buffer.drop amount := by
  cases sink <;> rfl

/-- A call of `write` is a call of `get_write_size` and a partial send. -/
theorem write_eq {sink sink' : MessageSink} {msg msg' : HttpMessage} {size : Nat}
    (size_eq : sink.getWriteSize msg = .ok ((sink', msg'), size)) (maxWrite amount : Nat) :
    sink.write msg maxWrite amount =
      .ok ((sink'.drop (min amount (min size maxWrite)), msg'),
        sink'.buffer.take (min amount (min size maxWrite))) := by
  cases sink with
  | gny sink =>
      obtain ⟨⟨⟨sink₁, msg₁⟩, size₁⟩, inner, outer⟩ := bind_eq_ok.mp size_eq
      cases outer
      simp [MessageSink.write, MessageSinkGny.write, inner, drop, buffer]
  | v11 sink =>
      obtain ⟨⟨⟨sink₁, msg₁⟩, size₁⟩, inner, outer⟩ := bind_eq_ok.mp size_eq
      cases outer
      simp [MessageSink.write, MessageSink11.write, inner, drop, buffer]

/-- A partial send moves bytes from the buffer behind those that were sent. -/
theorem Represents.drop {sent : Str} {sink : MessageSink} {progress : Progress}
    {whole : HttpMessage} (represents : sink.Represents sent progress whole) (amount : Nat) :
    (sink.drop amount).Represents (sent ++ sink.buffer.take amount) progress whole := by
  cases sink with
  | gny sink =>
      obtain ⟨rfl, rfl, rfl⟩ | ⟨first, known, written⟩ := represents
      · exact Or.inl ⟨by simp [buffer], by simp, rfl⟩
      · refine Or.inr ⟨first, known, written.init, written.writeState, ?_, written.splits⟩
        simp [buffer, written.stream]
  | v11 sink =>
      obtain ⟨rfl, rfl, rfl⟩ | ⟨first, known, written⟩ := represents
      · exact Or.inl ⟨by simp [buffer], by simp, rfl⟩
      · refine Or.inr ⟨first, known, written.isInit, written.writeState, ?_, written.undecided,
          written.frames, written.splits⟩
        simp [buffer, written.stream]

end MessageSink

/-! ## Schedules -/

/-- What may happen to a message that is being written. -/
inductive Event where
  | update (update : Update)
  | getWriteSize
  | write (maxWrite amount : Nat)

theorem Event.getWriteSize_ne (update : Update) : getWriteSize ≠ .update update := by simp

theorem Event.write_ne (maxWrite amount : Nat) (update : Update) :
    write maxWrite amount ≠ .update update := by
  simp

/-- A message, its writer, what the message would be if nothing had been taken from it, and the
bytes that were sent. -/
structure Transfer where
  msg : HttpMessage
  sink : MessageSink
  whole : HttpMessage
  sent : Str := []
  deriving DecidableEq

namespace Transfer

/-- A fresh message with a writer. -/
def start (sink : MessageSink) (isRequest : Bool) : Transfer :=
  { msg := .fresh isRequest, sink, whole := .fresh isRequest }

/-- A message as it stands, which is handed to a writer. -/
def handed (sink : MessageSink) (msg : HttpMessage) : Transfer := { msg, sink, whole := msg }

def step (transfer : Transfer) : Event → Except Fault Transfer
  | .update update => do
      let msg ← transfer.msg.update update
      let whole ← transfer.whole.update update
      .ok { transfer with msg, whole }
  | .getWriteSize => do
      let ((sink, msg), _) ← transfer.sink.getWriteSize transfer.msg
      .ok { transfer with sink, msg }
  | .write maxWrite amount => do
      let ((sink, msg), sent) ← transfer.sink.write transfer.msg maxWrite amount
      .ok { transfer with sink, msg, sent := transfer.sent ++ sent }

def run : Transfer → List Event → Except Fault Transfer
  | transfer, [] => .ok transfer
  | transfer, event :: events => do
      let transfer ← transfer.step event
      run transfer events

theorem run_append (transfer : Transfer) (front back : List Event) :
    transfer.run (front ++ back) = (do
      let transfer ← transfer.run front
      transfer.run back) := by
  induction front generalizing transfer with
  | nil => rfl
  | cons event front ih =>
      rw [List.cons_append, run, run]
      cases transfer.step event with
      | error fault => rfl
      | ok next => exact ih next

end Transfer

/-- The updates among the events lead from one message to another; all are accepted, and none
changes a first line that is complete. -/
inductive Delivers : HttpMessage → List Event → HttpMessage → Prop
  | nil (whole : HttpMessage) : Delivers whole [] whole
  | update {whole next last : HttpMessage} {update : Update} {events : List Event}
      (admitted : whole.Admits update) (updated : whole.update update = .ok next)
      (rest : Delivers next events last) : Delivers whole (.update update :: events) last
  | getWriteSize {whole last : HttpMessage} {events : List Event}
      (rest : Delivers whole events last) : Delivers whole (.getWriteSize :: events) last
  | write {whole last : HttpMessage} {events : List Event} {maxWrite amount : Nat}
      (rest : Delivers whole events last) : Delivers whole (.write maxWrite amount :: events) last

theorem Delivers.append {first middle last : HttpMessage} {front back : List Event}
    (before : Delivers first front middle) (after : Delivers middle back last) :
    Delivers first (front ++ back) last := by
  induction before with
  | nil => exact after
  | update admitted updated _ ih => exact .update admitted updated (ih after)
  | getWriteSize _ ih => exact .getWriteSize (ih after)
  | write _ ih => exact .write (ih after)

/-- No event updates the message. -/
def OnlyCalls (events : List Event) : Prop := ∀ event ∈ events, ∀ update, event ≠ .update update

/-- Calls of the writer leave the whole message as it is. -/
theorem OnlyCalls.delivers {events : List Event} (calls : OnlyCalls events) (whole : HttpMessage) :
    Delivers whole events whole := by
  induction events with
  | nil => exact .nil whole
  | cons event events ih =>
      obtain ⟨here, later⟩ := List.forall_mem_cons.mp calls
      cases event with
      | update update => exact absurd rfl (here update)
      | getWriteSize => exact .getWriteSize (ih later)
      | write maxWrite amount => exact .write (ih later)

theorem HttpMessage.isRequest_of_update {msg next : HttpMessage} {update : Update}
    (updated : msg.update update = .ok next) : next.isRequest = msg.isRequest := by
  cases update with
  | setUrl url | setVerb verb | setStatus status =>
      cases updated
      rfl
  | addHeader key value =>
      obtain ⟨-, rfl⟩ := addHeader_eq_ok.mp updated
      rfl
  | appendEntity entity =>
      obtain ⟨-, rfl⟩ := appendEntity_eq_ok.mp updated
      rfl
  | addFooter key value =>
      obtain ⟨-, rfl⟩ := addFooter_eq_ok.mp updated
      rfl
  | endHeader =>
      obtain ⟨-, rfl⟩ := endHeader_eq_ok.mp updated
      rfl
  | endEntity =>
      obtain ⟨-, rfl⟩ := endEntity_eq_ok.mp updated
      rfl
  | endFooter =>
      obtain ⟨-, rfl⟩ := endFooter_eq_ok.mp updated
      rfl

theorem Delivers.isRequest {first last : HttpMessage} {events : List Event}
    (delivers : Delivers first events last) : last.isRequest = first.isRequest := by
  induction delivers with
  | nil => rfl
  | update _ updated _ ih => exact ih.trans (HttpMessage.isRequest_of_update updated)
  | getWriteSize _ ih | write _ ih => exact ih

/-- The entity only grows. -/
theorem Delivers.entity_le {first last : HttpMessage} {events : List Event}
    (delivers : Delivers first events last) : first.entity.length ≤ last.entity.length := by
  induction delivers with
  | nil => exact le_rfl
  | @update whole next last update events _ updated _ ih =>
      refine le_trans ?_ ih
      cases update with
      | setUrl url | setVerb verb | setStatus status =>
          cases updated
          exact le_rfl
      | addHeader key value =>
          obtain ⟨-, rfl⟩ := HttpMessage.addHeader_eq_ok.mp updated
          exact le_rfl
      | appendEntity entity =>
          obtain ⟨-, rfl⟩ := HttpMessage.appendEntity_eq_ok.mp updated
          simp
      | addFooter key value =>
          obtain ⟨-, rfl⟩ := HttpMessage.addFooter_eq_ok.mp updated
          exact le_rfl
      | endHeader =>
          obtain ⟨-, rfl⟩ := HttpMessage.endHeader_eq_ok.mp updated
          exact le_rfl
      | endEntity =>
          obtain ⟨-, rfl⟩ := HttpMessage.endEntity_eq_ok.mp updated
          exact le_rfl
      | endFooter =>
          obtain ⟨-, rfl⟩ := HttpMessage.endFooter_eq_ok.mp updated
          exact le_rfl
  | getWriteSize _ ih | write _ ih => exact ih

/-- A complete first line is that of the message in the end. -/
theorem Delivers.sameFirstLine {first last : HttpMessage} {events : List Event}
    (delivers : Delivers first events last) (complete : first.FirstLineSet) :
    last.SameFirstLine first := by
  induction delivers with
  | nil => exact ⟨rfl, rfl, rfl, rfl⟩
  | @update whole next last update events admitted updated _ ih =>
      obtain ⟨isRequest, url, verb, status⟩ :=
        HttpMessage.sameFirstLine_of_update complete admitted updated
      have still : next.FirstLineSet := by
        simpa only [HttpMessage.FirstLineSet, isRequest, url, verb, status] using complete
      obtain ⟨isRequest', url', verb', status'⟩ := ih still
      exact ⟨isRequest'.trans isRequest, url'.trans url, verb'.trans verb, status'.trans status⟩
  | getWriteSize _ ih => exact ih complete
  | write _ ih => exact ih complete

namespace Transfer

/-- The property holds wherever one of the events calls the writer. -/
def EveryCall (P : Transfer → Prop) (transfer : Transfer) (events : List Event) : Prop :=
  ∀ front event back reached, events = front ++ event :: back →
    (∀ update, event ≠ .update update) → transfer.run front = .ok reached → P reached

theorem EveryCall.head {P : Transfer → Prop} {transfer : Transfer} {event : Event}
    {events : List Event} (every : EveryCall P transfer (event :: events))
    (call : ∀ update, event ≠ .update update) : P transfer :=
  every [] event events transfer rfl call rfl

theorem everyCall_nil (P : Transfer → Prop) (transfer : Transfer) : EveryCall P transfer [] := by
  intro front event back reached shape
  cases front <;> cases shape

/-- A call that finds the property, and later calls that find it. -/
theorem EveryCall.cons {P : Transfer → Prop} {transfer : Transfer} {event : Event}
    {events : List Event} (here : (∀ update, event ≠ .update update) → P transfer)
    (later : ∀ next, transfer.step event = .ok next → EveryCall P next events) :
    EveryCall P transfer (event :: events) := by
  intro front event' back reached shape call outcome
  cases front with
  | nil =>
      cases outcome
      obtain ⟨rfl, -⟩ := List.cons.inj shape
      exact here call
  | cons first front =>
      obtain ⟨rfl, rfl⟩ := List.cons.inj shape
      obtain ⟨next, step_eq, rest⟩ := bind_eq_ok.mp outcome
      exact later next step_eq front event' back reached rfl call rest

theorem EveryCall.left {P : Transfer → Prop} {transfer : Transfer} {events more : List Event}
    (every : EveryCall P transfer (events ++ more)) : EveryCall P transfer events := by
  intro front event back reached shape call outcome
  exact every front event (back ++ more) reached (by rw [shape, List.append_assoc]; rfl) call
    outcome

theorem EveryCall.tail {P : Transfer → Prop} {transfer next : Transfer} {event : Event}
    {events : List Event} (every : EveryCall P transfer (event :: events))
    (step : transfer.step event = .ok next) : EveryCall P next events := by
  intro front event' back reached shape call outcome
  refine every (event :: front) event' back reached (by rw [shape]; rfl) call ?_
  rw [run, step]
  exact outcome

theorem sameKind_of_step {transfer next : Transfer} {event : Event}
    (step_eq : transfer.step event = .ok next) : transfer.sink.SameKind next.sink := by
  obtain ⟨msg, sink, whole, sent⟩ := transfer
  cases event with
  | update update =>
      obtain ⟨msg', -, step_eq⟩ := bind_eq_ok.mp step_eq
      obtain ⟨whole', -, step_eq⟩ := bind_eq_ok.mp step_eq
      cases step_eq
      exact .refl _
  | getWriteSize =>
      obtain ⟨⟨⟨sink', msg'⟩, size⟩, size_eq, step_eq⟩ := bind_eq_ok.mp step_eq
      cases step_eq
      cases sink <;>
      · obtain ⟨_, -, outer⟩ := bind_eq_ok.mp size_eq
        cases outer
        trivial
  | write maxWrite amount =>
      obtain ⟨⟨⟨sink', msg'⟩, bytes⟩, write_eq, step_eq⟩ := bind_eq_ok.mp step_eq
      cases step_eq
      cases sink <;>
      · obtain ⟨_, -, outer⟩ := bind_eq_ok.mp write_eq
        cases outer
        trivial

theorem sameKind_of_run {transfer final : Transfer} {events : List Event}
    (outcome : transfer.run events = .ok final) : transfer.sink.SameKind final.sink := by
  induction events generalizing transfer with
  | nil =>
      cases outcome
      exact .refl _
  | cons event events ih =>
      obtain ⟨next, step_eq, rest⟩ := bind_eq_ok.mp outcome
      exact (sameKind_of_step step_eq).trans (ih rest)

/-- The writer accounts for the message. -/
def Sound (transfer : Transfer) : Prop :=
  ∃ progress, transfer.sink.Represents transfer.sent progress transfer.whole ∧
    Accounts progress transfer.msg transfer.whole

/-- The writer accounts for the message, and has taken the entity in pieces of a kind. -/
def SoundFor (Q : Str → Prop) (transfer : Transfer) : Prop :=
  ∃ progress, transfer.sink.Represents transfer.sent progress transfer.whole ∧
    Accounts progress transfer.msg transfer.whole ∧ ∀ piece ∈ progress.pieces, Q piece

theorem soundFor_true {transfer : Transfer} :
    transfer.SoundFor (fun _ => True) ↔ transfer.Sound := by
  simp [SoundFor, Sound]

theorem SoundFor.sound {Q : Str → Prop} {transfer : Transfer} (sound : transfer.SoundFor Q) :
    transfer.Sound := by
  obtain ⟨progress, represents, accounts, -⟩ := sound
  exact ⟨progress, represents, accounts⟩

/-- What is in the message would be sent in pieces of the kind. -/
def Serves (Q : Str → Prop) (transfer : Transfer) : Prop :=
  ∀ piece ∈ transfer.sink.pieces transfer.msg.entity, Q piece

/-- The writer can be called without a fault. -/
def Callable (transfer : Transfer) : Prop :=
  transfer.sink.Takes transfer.msg ∧ ∃ line, transfer.sink.firstLine transfer.whole = .ok line

theorem sound_start {sink : MessageSink} (fresh : sink.IsFresh) (isRequest : Bool) :
    (start sink isRequest).Sound :=
  ⟨{}, .fresh fresh _, .start _⟩

theorem sound_handed {sink : MessageSink} (fresh : sink.IsFresh) (msg : HttpMessage) :
    (handed sink msg).Sound :=
  ⟨{}, .fresh fresh _, .start _⟩

theorem soundFor_handed (Q : Str → Prop) {sink : MessageSink} (fresh : sink.IsFresh)
    (msg : HttpMessage) : (handed sink msg).SoundFor Q :=
  ⟨{}, .fresh fresh _, .start _, by simp⟩

variable {transfer : Transfer} {Q : Str → Prop}

theorem SoundFor.update {next : HttpMessage} {update : Update} (sound : transfer.SoundFor Q)
    (admitted : transfer.whole.Admits update) (updated : transfer.whole.update update = .ok next) :
    ∃ msg, transfer.step (.update update) = .ok { transfer with msg, whole := next } ∧
      SoundFor Q { transfer with msg, whole := next } := by
  obtain ⟨progress, represents, accounts, pieces⟩ := sound
  obtain ⟨msg, msg_eq, accounts'⟩ := accounts.update updated
  exact ⟨msg, by simp [step, msg_eq, updated], progress, represents.update admitted updated,
    accounts', pieces⟩

theorem Sound.update {next : HttpMessage} {update : Update} (sound : transfer.Sound)
    (admitted : transfer.whole.Admits update) (updated : transfer.whole.update update = .ok next) :
    ∃ msg, transfer.step (.update update) = .ok { transfer with msg, whole := next } ∧
      Sound { transfer with msg, whole := next } := by
  obtain ⟨msg, step_eq, sound'⟩ := (soundFor_true.mpr sound).update admitted updated
  exact ⟨msg, step_eq, soundFor_true.mp sound'⟩

/-- A call of `get_write_size` catches up with the message. -/
theorem SoundFor.getWriteSize (sound : transfer.SoundFor Q)
    (takes : transfer.sink.Takes transfer.msg) (serves : transfer.Serves Q) {line : Option Str}
    (known : transfer.sink.firstLine transfer.whole = .ok line) :
    ∃ sink msg, transfer.sink.getWriteSize transfer.msg = .ok ((sink, msg), sink.buffer.length) ∧
      transfer.sink.SameKind sink ∧
      ∃ progress, sink.Represents transfer.sent progress transfer.whole ∧
        Accounts progress msg transfer.whole ∧
        (line ≠ none → progress.writeState = transfer.whole.state) ∧
        ∀ piece ∈ progress.pieces, Q piece := by
  obtain ⟨progress, represents, accounts, pieces⟩ := sound
  obtain ⟨sink, progress', msg, size_eq, same, represents', accounts', caught, taken⟩ :=
    represents.getWriteSize accounts takes known
  refine ⟨sink, msg, size_eq, same, progress', represents', accounts', caught, ?_⟩
  intro piece member
  rcases taken piece member with before | now
  · exact pieces piece before
  · exact serves piece now

/-- A call of the writer keeps it sound. -/
theorem SoundFor.call (sound : transfer.SoundFor Q) (callable : transfer.Callable)
    (serves : transfer.Serves Q) {event : Event} (call : ∀ update, event ≠ .update update) :
    ∃ next, transfer.step event = .ok next ∧ next.SoundFor Q ∧ next.whole = transfer.whole ∧
      transfer.sink.SameKind next.sink := by
  obtain ⟨takes, line, known⟩ := callable
  obtain ⟨sink, msg, size_eq, same, progress, represents, accounts, -, pieces⟩ :=
    sound.getWriteSize takes serves known
  cases event with
  | update update => exact absurd rfl (call update)
  | getWriteSize =>
      exact ⟨{ transfer with sink, msg }, by simp [step, size_eq],
        ⟨progress, represents, accounts, pieces⟩, rfl, same⟩
  | write maxWrite amount =>
      have write_eq := MessageSink.write_eq size_eq maxWrite amount
      simp only [step, write_eq, ok_bind]
      exact ⟨_, rfl, ⟨progress, represents.drop _, accounts, pieces⟩, rfl,
        same.trans (sink.sameKind_drop _)⟩

theorem Sound.call (sound : transfer.Sound) (callable : transfer.Callable) {event : Event}
    (call : ∀ update, event ≠ .update update) :
    ∃ next, transfer.step event = .ok next ∧ next.Sound ∧ next.whole = transfer.whole ∧
      transfer.sink.SameKind next.sink := by
  obtain ⟨next, step_eq, sound', whole_eq, same⟩ :=
    (soundFor_true.mpr sound).call callable (fun _ _ => trivial) call
  exact ⟨next, step_eq, soundFor_true.mp sound', whole_eq, same⟩

/-- In every schedule whose calls find the writer callable and pieces of the kind nothing fails, and
the writer accounts for the message in the end. -/
theorem SoundFor.run {last : HttpMessage} {events : List Event}
    (delivers : Delivers transfer.whole events last) (sound : transfer.SoundFor Q)
    (every : EveryCall Callable transfer events) (serves : EveryCall (Serves Q) transfer events) :
    ∃ final, transfer.run events = .ok final ∧ final.SoundFor Q ∧ final.whole = last ∧
      transfer.sink.SameKind final.sink := by
  induction events generalizing transfer with
  | nil =>
      cases delivers
      exact ⟨transfer, rfl, sound, rfl, .refl _⟩
  | cons event events ih =>
      have call_case (call : ∀ update, event ≠ .update update)
          (rest : Delivers transfer.whole events last) :
          ∃ final, transfer.run (event :: events) = .ok final ∧ final.SoundFor Q ∧
            final.whole = last ∧ transfer.sink.SameKind final.sink := by
        obtain ⟨next, step_eq, next_sound, whole_eq, same⟩ :=
          sound.call (every.head call) (serves.head call) call
        obtain ⟨final, run_eq, final_sound, final_whole, same'⟩ :=
          ih (by rwa [whole_eq]) next_sound (every.tail step_eq) (serves.tail step_eq)
        exact ⟨final, by rw [Transfer.run, step_eq]; exact run_eq, final_sound, final_whole,
          same.trans same'⟩
      cases delivers with
      | update admitted updated rest =>
          obtain ⟨msg, step_eq, next_sound⟩ := sound.update admitted updated
          obtain ⟨final, run_eq, final_sound, final_whole, same⟩ :=
            ih rest next_sound (every.tail step_eq) (serves.tail step_eq)
          exact ⟨final, by rw [Transfer.run, step_eq]; exact run_eq, final_sound, final_whole,
            same⟩
      | getWriteSize rest => exact call_case (by simp) rest
      | write rest => exact call_case (by simp) rest

theorem Sound.run {last : HttpMessage} {events : List Event}
    (delivers : Delivers transfer.whole events last) (sound : transfer.Sound)
    (every : EveryCall Callable transfer events) :
    ∃ final, transfer.run events = .ok final ∧ final.Sound ∧ final.whole = last ∧
      transfer.sink.SameKind final.sink := by
  have serves : EveryCall (Serves fun _ => True) transfer events :=
    fun _ _ _ _ _ _ _ _ _ => trivial
  obtain ⟨final, run_eq, sound', whole_eq, same⟩ :=
    (soundFor_true.mpr sound).run delivers every serves
  exact ⟨final, run_eq, soundFor_true.mp sound', whole_eq, same⟩

/-- A property of sound transfers that makes the writer callable holds at every call. -/
theorem Sound.everyCall {P : Transfer → Prop} {last : HttpMessage} {sink : MessageSink}
    (callable : ∀ reached : Transfer, sink.SameKind reached.sink → P reached → reached.Callable)
    (holds : ∀ (reached : Transfer) (events : List Event), sink.SameKind reached.sink →
      reached.Sound → Delivers reached.whole events last → P reached)
    {events : List Event} (kind : sink.SameKind transfer.sink) (sound : transfer.Sound)
    (delivers : Delivers transfer.whole events last) : EveryCall P transfer events := by
  induction events generalizing transfer with
  | nil => exact everyCall_nil _ _
  | cons event events ih =>
      have here := holds transfer (event :: events) kind sound delivers
      have call_case (call : ∀ update, event ≠ .update update)
          (rest : Delivers transfer.whole events last) :
          EveryCall P transfer (event :: events) := by
        refine .cons (fun _ => here) fun next step_eq => ?_
        obtain ⟨next', step_eq', sound', whole_eq, same⟩ :=
          sound.call (callable transfer kind here) call
        obtain rfl := Except.ok.inj (step_eq.symm.trans step_eq')
        exact ih (kind.trans same) sound' (by rwa [whole_eq])
      cases delivers with
      | update admitted updated rest =>
          refine .cons (fun _ => here) fun next step_eq => ?_
          obtain ⟨msg, step_eq', sound'⟩ := sound.update admitted updated
          obtain rfl := Except.ok.inj (step_eq.symm.trans step_eq')
          exact ih kind sound' rest
      | getWriteSize rest => exact call_case (by simp) rest
      | write rest => exact call_case (by simp) rest

/-- What was sent so far and what waits to be sent. -/
def encoding (transfer : Transfer) : Str := transfer.sent ++ transfer.sink.buffer

/-- When the message is done, a last call leaves the writer with the layout of the whole message:
sent so far, or waiting to be sent. -/
theorem SoundFor.encoding {first : Str} (sound : transfer.SoundFor Q)
    (takes : transfer.sink.Takes transfer.msg) (serves : transfer.Serves Q)
    (known : transfer.sink.firstLine transfer.whole = .ok (some first))
    (done : transfer.whole.state = .done) :
    ∃ final, transfer.step .getWriteSize = .ok final ∧
      ∃ progress, progress.writeState = .done ∧ final.encoding =
          transfer.sink.stream first progress ∧ transfer.sink.Splits progress.pieces ∧
        progress.headers = transfer.whole.headers ∧
        progress.pieces.flatten = transfer.whole.entity ∧
        progress.footers = transfer.whole.footers ∧ ∀ piece ∈ progress.pieces, Q piece := by
  obtain ⟨sink, msg, size_eq, same, progress, represents, accounts, caught, pieces⟩ :=
    sound.getWriteSize takes serves known
  have writeState : progress.writeState = .done := (caught (by simp)).trans done
  obtain ⟨-, -, rfl⟩ | ⟨first', known', stream_eq, splits⟩ := represents.cases
  · cases writeState
  · rw [← same.firstLine, known] at known'
    cases known'
    obtain ⟨headers, entity, footers, -⟩ := accounts.finished writeState
    refine ⟨{ transfer with sink, msg }, by simp [step, size_eq], progress, writeState, ?_,
      by rwa [same.splits], headers, entity, footers, pieces⟩
    rw [Transfer.encoding, stream_eq, same.stream]

theorem Sound.encoding {first : Str} (sound : transfer.Sound)
    (takes : transfer.sink.Takes transfer.msg)
    (known : transfer.sink.firstLine transfer.whole = .ok (some first))
    (done : transfer.whole.state = .done) :
    ∃ final, transfer.step .getWriteSize = .ok final ∧
      ∃ progress, progress.writeState = .done ∧ final.encoding =
          transfer.sink.stream first progress ∧ transfer.sink.Splits progress.pieces ∧
        progress.headers = transfer.whole.headers ∧
        progress.pieces.flatten = transfer.whole.entity ∧
        progress.footers = transfer.whole.footers := by
  obtain ⟨final, step_eq, progress, writeState, encoding_eq, splits, headers, entity, footers, -⟩ :=
    (soundFor_true.mpr sound).encoding takes (fun _ _ => trivial) known done
  exact ⟨final, step_eq, progress, writeState, encoding_eq, splits, headers, entity, footers⟩

end Transfer
end GnyProxy
