import GnyProxy.Reading
import GnyProxy.Relay11

/-!
# Copying a message that is still being filled

`MessageCopier` moves what has arrived of one message to another, again and again.  The copy is
never ahead of its source, and what it is past of has been taken from the source.
-/

namespace GnyProxy

namespace HttpMessage

/-- What updates do to a message: a section behind which it is stays as it is, and one that it has
not reached as well. -/
structure Extends (msg next : HttpMessage) : Prop where
  isRequest : next.isRequest = msg.isRequest
  state : msg.state.rank ≤ next.state.rank
  headers : 1 ≤ msg.state.rank → next.headers = msg.headers
  entity : 2 ≤ msg.state.rank → next.entity = msg.entity
  footers : 3 ≤ msg.state.rank → next.footers = msg.footers
  noEntity : next.state.rank = 0 → next.entity = msg.entity
  noFooters : next.state.rank ≤ 1 → next.footers = msg.footers

namespace Extends

variable {msg next last : HttpMessage}

theorem refl (msg : HttpMessage) : Extends msg msg :=
  ⟨rfl, le_rfl, fun _ => rfl, fun _ => rfl, fun _ => rfl, fun _ => rfl, fun _ => rfl⟩

theorem trans (first : Extends msg next) (second : Extends next last) : Extends msg last where
  isRequest := second.isRequest.trans first.isRequest
  state := first.state.trans second.state
  headers behind := (second.headers (behind.trans first.state)).trans (first.headers behind)
  entity behind := (second.entity (behind.trans first.state)).trans (first.entity behind)
  footers behind := (second.footers (behind.trans first.state)).trans (first.footers behind)
  noEntity before := by
    have before' : next.state.rank = 0 := Nat.le_zero.mp (second.state.trans before.le)
    exact (second.noEntity before).trans (first.noEntity before')
  noFooters before := (second.noFooters before).trans (first.noFooters (second.state.trans before))

/-- A call of the source interface. -/
theorem update {update : Update} (updated : msg.update update = .ok next) : Extends msg next := by
  cases update with
  | setUrl url | setVerb verb | setStatus status =>
      cases updated
      exact ⟨rfl, le_rfl, fun _ => rfl, fun _ => rfl, fun _ => rfl, fun _ => rfl, fun _ => rfl⟩
  | addHeader key value =>
      obtain ⟨here, rfl⟩ := addHeader_eq_ok.mp updated
      exact ⟨rfl, le_rfl, fun behind => by simp [here] at behind, fun _ => rfl, fun _ => rfl,
        fun _ => rfl, fun _ => rfl⟩
  | appendEntity entity =>
      obtain ⟨here, rfl⟩ := appendEntity_eq_ok.mp updated
      exact ⟨rfl, le_rfl, fun _ => rfl, fun behind => by simp [here] at behind, fun _ => rfl,
        fun before => by simp [here] at before, fun _ => rfl⟩
  | addFooter key value =>
      obtain ⟨here, rfl⟩ := addFooter_eq_ok.mp updated
      exact ⟨rfl, le_rfl, fun _ => rfl, fun _ => rfl, fun behind => by simp [here] at behind,
        fun _ => rfl, fun before => by simp [here] at before⟩
  | endHeader =>
      obtain ⟨here, rfl⟩ := endHeader_eq_ok.mp updated
      exact ⟨rfl, by simp; omega, fun _ => rfl, fun _ => rfl, fun _ => rfl, fun _ => rfl,
        fun _ => rfl⟩
  | endEntity =>
      obtain ⟨here, rfl⟩ := endEntity_eq_ok.mp updated
      exact ⟨rfl, by simp; omega, fun _ => rfl, fun _ => rfl, fun _ => rfl, fun _ => rfl,
        fun _ => rfl⟩
  | endFooter =>
      obtain ⟨here, rfl⟩ := endFooter_eq_ok.mp updated
      exact ⟨rfl, by simp; omega, fun _ => rfl, fun _ => rfl, fun _ => rfl, fun _ => rfl,
        fun _ => rfl⟩

theorem fill {updates : List Update} (filled : msg.fill updates = .ok next) :
    Extends msg next := by
  induction updates generalizing msg with
  | nil =>
      cases filled
      exact refl _
  | cons first updates ih =>
      rw [fill_cons] at filled
      obtain ⟨middle, updated, filled⟩ := bind_eq_ok.mp filled
      exact (update updated).trans (ih filled)

end Extends

/-- Nothing has arrived of the sections that are not reached. -/
structure InStep (msg : HttpMessage) : Prop where
  entity : msg.state.rank = 0 → msg.entity = []
  footers : msg.state.rank ≤ 1 → msg.footers = []

theorem InStep.fresh (isRequest : Bool) : InStep (.fresh isRequest) := ⟨fun _ => rfl, fun _ => rfl⟩

theorem InStep.extends {msg next : HttpMessage} (inStep : InStep msg) (longer : Extends msg next) :
    InStep next where
  entity before := by
    have before' : msg.state.rank = 0 := Nat.le_zero.mp (longer.state.trans before.le)
    rw [longer.noEntity before, inStep.entity before']
  footers before := by
    rw [longer.noFooters before, inStep.footers (longer.state.trans before)]

end HttpMessage

open HttpMessage (Extends InStep)

/-! ## The copier -/

/-- The copy is not ahead of its source, and of the sections that it is past of nothing is left in
the source. -/
structure Copying (src dst : HttpMessage) : Prop where
  behind : dst.state.rank ≤ src.state.rank
  headers : 1 ≤ dst.state.rank → src.headers = []
  entity : 2 ≤ dst.state.rank → src.entity = []
  footers : 3 ≤ dst.state.rank → src.footers = []
  inStep : InStep src

/-- All that has arrived is in the copy. -/
structure Copied (src dst : HttpMessage) : Prop where
  state : dst.state = src.state
  headers : src.headers = []
  entity : src.entity = []
  footers : src.footers = []

theorem Copied.copying {src dst : HttpMessage} (copied : Copied src dst) : Copying src dst where
  behind := by rw [copied.state]
  headers _ := copied.headers
  entity _ := copied.entity
  footers _ := copied.footers
  inStep := ⟨fun _ => copied.entity, fun _ => copied.footers⟩

/-- The source of a copy that is done is drained. -/
theorem Copied.isSent {src dst : HttpMessage} (copied : Copied src dst) (done : dst.state = .done) :
    src.isSent = true :=
  (HttpMessage.isSent_iff src).mpr
    ⟨copied.state.symm.trans done, copied.headers, copied.entity, copied.footers⟩

theorem Copying.extends {src src' dst : HttpMessage} (copying : Copying src dst)
    (longer : Extends src src') : Copying src' dst where
  behind := copying.behind.trans longer.state
  headers past := by
    rw [longer.headers (past.trans copying.behind), copying.headers past]
  entity past := by
    rw [longer.entity (past.trans copying.behind), copying.entity past]
  footers past := by
    rw [longer.footers (past.trans copying.behind), copying.footers past]
  inStep := copying.inStep.extends longer

/-- Of the copy only the section matters. -/
theorem Copying.congr {src dst dst' : HttpMessage} (copying : Copying src dst)
    (same : dst'.state = dst.state) : Copying src dst' :=
  ⟨by rw [same]; exact copying.behind, by rw [same]; exact copying.headers,
    by rw [same]; exact copying.entity, by rw [same]; exact copying.footers, copying.inStep⟩

theorem Copying.fresh {src : HttpMessage} (inStep : InStep src) (isRequest : Bool) :
    Copying src (.fresh isRequest) :=
  ⟨Nat.zero_le _, fun past => by simp [HttpMessage.fresh] at past,
    fun past => by simp [HttpMessage.fresh] at past,
    fun past => by simp [HttpMessage.fresh] at past, inStep⟩

/-- The message without the parts that were taken. -/
def HttpMessage.drained (msg : HttpMessage) : HttpMessage :=
  { msg with headers := [], entity := [], footers := [] }

theorem dumpFirstLine_state (src dst : HttpMessage) :
    (dumpFirstLine src dst).state = dst.state := by
  unfold dumpFirstLine
  split
  · simp only
    split <;> rfl
  · rfl

/-- The copier never fails, and takes all that has arrived. -/
theorem Copying.dump {src dst : HttpMessage} (copying : Copying src dst) :
    dumpMessage src dst = .ok (src.drained, { dumpFirstLine src dst with
      headers := (dumpFirstLine src dst).headers ++ src.headers
      entity := (dumpFirstLine src dst).entity ++ src.entity
      footers := (dumpFirstLine src dst).footers ++ src.footers
      state := src.state }) := by
  obtain ⟨behind, headers, entity, footers, noEntity, noFooters⟩ := copying
  rw [dumpMessage]
  rw [← dumpFirstLine_state src dst] at behind headers entity footers
  generalize dumpFirstLine src dst = dst' at behind headers entity footers
  -- from the section of the copy on, each section is moved, up to the one of the source
  obtain ⟨_, _, _, _, _, _, _, reached⟩ := dst'
  obtain ⟨_, _, _, _, _, _, _, arrived⟩ := src
  cases reached <;> cases arrived <;>
    simp_all [dumpHeaders, dumpEntity, dumpFooters, foldlM_addHeader, foldlM_addFooter,
      HttpMessage.endHeader, HttpMessage.appendEntity, HttpMessage.endEntity,
      HttpMessage.endFooter, HttpMessage.drained, HttpMessage.clearHeaders,
      HttpMessage.clearEntity, HttpMessage.clearFooters]

/-- Behind a call all that had arrived is in the copy. -/
theorem Copying.dump_copied {src dst : HttpMessage} (copying : Copying src dst) :
    ∃ dst', dumpMessage src dst = .ok (src.drained, dst') ∧ dst'.isRequest = dst.isRequest ∧
      Copied src.drained dst' := by
  refine ⟨_, copying.dump, ?_, rfl, rfl, rfl, rfl⟩
  unfold dumpFirstLine
  split
  · simp only
    split <;> rfl
  · rfl

/-! ## Schedules -/

/-- The parts of a message that are handed on bit by bit. -/
structure Contents where
  headers : Fields := []
  entity : Str := []
  footers : Fields := []
  deriving DecidableEq

namespace Contents

def append (first second : Contents) : Contents :=
  ⟨first.headers ++ second.headers, first.entity ++ second.entity, first.footers ++ second.footers⟩

/-- What a call of the source interface adds. -/
def add (contents : Contents) : Update → Contents
  | .addHeader key value => { contents with headers := contents.headers ++ [(key, value)] }
  | .appendEntity entity => { contents with entity := contents.entity ++ entity }
  | .addFooter key value => { contents with footers := contents.footers ++ [(key, value)] }
  | _ => contents

theorem append_assoc (first second third : Contents) :
    (first.append second).append third = first.append (second.append third) := by
  simp [append]

@[simp] theorem empty_append (contents : Contents) : append {} contents = contents := by
  simp [append]

@[simp] theorem append_empty (contents : Contents) : contents.append {} = contents := by
  simp [append]

theorem append_add (first second : Contents) (update : Update) :
    (first.append second).add update = first.append (second.add update) := by
  cases update <;> simp [append, add]

end Contents

/-- What a message holds. -/
def HttpMessage.contents (msg : HttpMessage) : Contents := ⟨msg.headers, msg.entity, msg.footers⟩

/-- A legal call adds to the message what it adds to its contents. -/
theorem HttpMessage.contents_update {msg next : HttpMessage} {update : Update}
    (updated : msg.update update = .ok next) : next.contents = msg.contents.add update := by
  cases update with
  | setUrl url | setVerb verb | setStatus status =>
      cases updated
      rfl
  | addHeader key value =>
      obtain ⟨-, rfl⟩ := addHeader_eq_ok.mp updated
      rfl
  | appendEntity entity =>
      obtain ⟨-, rfl⟩ := appendEntity_eq_ok.mp updated
      rfl
  | addFooter key value =>
      obtain ⟨-, rfl⟩ := addFooter_eq_ok.mp updated
      rfl
  | endHeader =>
      obtain ⟨-, rfl⟩ := endHeader_eq_ok.mp updated
      rfl
  | endEntity =>
      obtain ⟨-, rfl⟩ := endEntity_eq_ok.mp updated
      rfl
  | endFooter =>
      obtain ⟨-, rfl⟩ := endFooter_eq_ok.mp updated
      rfl

/-- A source and its copy, with all that was ever added to the one and taken out of the other. -/
structure Copier where
  src : HttpMessage
  dst : HttpMessage
  added : Contents := {}
  taken : Contents := {}

namespace Copier

/-- Two messages of which nothing has arrived. -/
def fresh (srcRequest dstRequest : Bool) : Copier :=
  { src := .fresh srcRequest, dst := .fresh dstRequest }

/-- What may happen to the two messages. -/
inductive Event where
  /-- The source is filled through its source interface. -/
  | update (update : Update)
  | dump
  /-- A sink empties the headers, the entity or the footers of the copy. -/
  | drainHeaders
  | drainEntity
  | drainFooters

def step (copier : Copier) : Event → Except Fault Copier
  | .update update => do
      let src ← copier.src.update update
      .ok { copier with src, added := copier.added.add update }
  | .dump => do
      let (src, dst) ← dumpMessage copier.src copier.dst
      .ok { copier with src, dst }
  | .drainHeaders => .ok { copier with
      dst := copier.dst.clearHeaders
      taken := { copier.taken with headers := copier.taken.headers ++ copier.dst.headers } }
  | .drainEntity => .ok { copier with
      dst := copier.dst.clearEntity
      taken := { copier.taken with entity := copier.taken.entity ++ copier.dst.entity } }
  | .drainFooters => .ok { copier with
      dst := copier.dst.clearFooters
      taken := { copier.taken with footers := copier.taken.footers ++ copier.dst.footers } }

/-- A whole schedule. -/
def run (copier : Copier) (events : List Event) : Except Fault Copier :=
  events.foldlM step copier

theorem run_cons (copier : Copier) (event : Event) (events : List Event) :
    copier.run (event :: events) = copier.step event >>= fun next => next.run events :=
  List.foldlM_cons

/-- Nothing is lost, nothing comes twice, and the copy is not ahead of its source. -/
structure Intact (copier : Copier) : Prop where
  copying : Copying copier.src copier.dst
  contents : (copier.taken.append copier.dst.contents).append copier.src.contents = copier.added

theorem Intact.fresh (srcRequest dstRequest : Bool) : (fresh srcRequest dstRequest).Intact :=
  ⟨.fresh (.fresh srcRequest) dstRequest, rfl⟩

variable {copier next : Copier}

theorem Intact.update (intact : copier.Intact) {update : Update} {src : HttpMessage}
    (updated : copier.src.update update = .ok src) :
    Intact { copier with src, added := copier.added.add update } where
  copying := intact.copying.extends (.update updated)
  contents := by
    rw [HttpMessage.contents_update updated, ← Contents.append_add, intact.contents]

/-- A dump moves what the source holds behind what the copy holds. -/
theorem Intact.dump (intact : copier.Intact) :
    ∃ src dst, dumpMessage copier.src copier.dst = .ok (src, dst) ∧
      Intact { copier with src, dst } ∧ dst.state = src.state := by
  have moved := intact.copying.dump
  refine ⟨_, _, moved, ⟨Copied.copying ⟨rfl, rfl, rfl, rfl⟩, ?_⟩, rfl⟩
  have first : (dumpFirstLine copier.src copier.dst).contents = copier.dst.contents := by
    unfold dumpFirstLine
    split
    · simp only
      split <;> rfl
    · rfl
  have held : HttpMessage.contents { dumpFirstLine copier.src copier.dst with
      headers := (dumpFirstLine copier.src copier.dst).headers ++ copier.src.headers
      entity := (dumpFirstLine copier.src copier.dst).entity ++ copier.src.entity
      footers := (dumpFirstLine copier.src copier.dst).footers ++ copier.src.footers
      state := copier.src.state } = copier.dst.contents.append copier.src.contents := by
    rw [← first]
    rfl
  have nothing : copier.src.drained.contents = {} := rfl
  rw [held, nothing, Contents.append_empty, ← Contents.append_assoc, intact.contents]

/-- What is taken out of the copy was there. -/
theorem Intact.drain (intact : copier.Intact) {dst : HttpMessage} {taken : Contents}
    (state : dst.state = copier.dst.state)
    (contents : taken.append dst.contents = copier.taken.append copier.dst.contents) :
    Intact { copier with dst, taken } where
  copying := intact.copying.congr state
  contents := by rw [contents, intact.contents]

/-- An event that happens leaves the two messages intact. -/
theorem Intact.step (intact : copier.Intact) {event : Event}
    (outcome : copier.step event = .ok next) : next.Intact := by
  cases event with
  | update update =>
      obtain ⟨src, updated, outcome⟩ := bind_eq_ok.mp outcome
      cases outcome
      exact intact.update updated
  | dump =>
      rcases intact.dump with ⟨src, dst, moved, intact', -⟩
      simp only [Copier.step, moved, ok_bind] at outcome
      cases outcome
      exact intact'
  | drainHeaders =>
      cases outcome
      have drained := @Intact.drain copier intact copier.dst.clearHeaders
        { copier.taken with headers := copier.taken.headers ++ copier.dst.headers } rfl
      exact drained (by simp [Contents.append, HttpMessage.contents, HttpMessage.clearHeaders])
  | drainEntity =>
      cases outcome
      have drained := @Intact.drain copier intact copier.dst.clearEntity
        { copier.taken with entity := copier.taken.entity ++ copier.dst.entity } rfl
      exact drained (by simp [Contents.append, HttpMessage.contents, HttpMessage.clearEntity])
  | drainFooters =>
      cases outcome
      have drained := @Intact.drain copier intact copier.dst.clearFooters
        { copier.taken with footers := copier.taken.footers ++ copier.dst.footers } rfl
      exact drained (by simp [Contents.append, HttpMessage.contents, HttpMessage.clearFooters])

/-- Only a call of the source interface that is out of order can fail. -/
theorem Intact.step_ok (intact : copier.Intact) {event : Event}
    (legal : ∀ update, event = .update update → ∃ src, copier.src.update update = .ok src) :
    ∃ next, copier.step event = .ok next := by
  cases event with
  | update update =>
      rcases legal update rfl with ⟨src, updated⟩
      simp only [Copier.step, updated, ok_bind]
      exact ⟨_, rfl⟩
  | dump =>
      rcases intact.dump with ⟨src, dst, moved, -⟩
      simp only [Copier.step, moved, ok_bind]
      exact ⟨_, rfl⟩
  | drainHeaders | drainEntity | drainFooters => exact ⟨_, rfl⟩

theorem Intact.run (intact : copier.Intact) {events : List Event}
    (outcome : copier.run events = .ok next) : next.Intact := by
  induction events generalizing copier with
  | nil =>
      cases outcome
      exact intact
  | cons event events ih =>
      rw [run_cons] at outcome
      obtain ⟨middle, happened, outcome⟩ := bind_eq_ok.mp outcome
      exact ih (intact.step happened) outcome

/-- In every schedule in which the source is filled in a legal order, copied and the copy drained,
what was taken out of the copy, what it holds and what the source holds are all that was added to
the source; the copy is not ahead of the source, has caught up behind each dump, and no assertion
fails. -/
theorem conserves (srcRequest dstRequest : Bool) (events : List Event) (copier : Copier)
    (outcome : (fresh srcRequest dstRequest).run events = .ok copier) :
    copier.taken.headers ++ copier.dst.headers ++ copier.src.headers = copier.added.headers ∧
      copier.taken.entity ++ copier.dst.entity ++ copier.src.entity = copier.added.entity ∧
      copier.taken.footers ++ copier.dst.footers ++ copier.src.footers = copier.added.footers ∧
      copier.dst.state.rank ≤ copier.src.state.rank ∧
      (∃ next, copier.step .dump = .ok next ∧ next.dst.state = next.src.state) ∧
      ∀ event, (∀ update, event = .update update → ∃ src, copier.src.update update = .ok src) →
        ∃ next, copier.step event = .ok next := by
  have intact := (Intact.fresh srcRequest dstRequest).run outcome
  have contents := intact.contents
  simp only [Contents.append, HttpMessage.contents] at contents
  refine ⟨congrArg Contents.headers contents, congrArg Contents.entity contents,
    congrArg Contents.footers contents, intact.copying.behind, ?_, fun event legal =>
      intact.step_ok legal⟩
  rcases intact.dump with ⟨src, dst, moved, -, caughtUp⟩
  simp only [Copier.step, moved, ok_bind]
  exact ⟨_, rfl, caughtUp⟩

/-- A response whose entity comes in two pieces, copied in between and drained. -/
theorem conserves_response :
    ∃ copier, (fresh false false).run [.update (.setStatus 200),
        .update (.addHeader (ascii "a") (ascii "b")), .dump, .update .endHeader,
        .update (.appendEntity (ascii "x")), .dump, .drainEntity,
        .update (.appendEntity (ascii "y"))] = .ok copier ∧
      copier.taken.entity ++ copier.dst.entity ++ copier.src.entity = copier.added.entity := by
  have outcome : ∃ copier, (fresh false false).run [.update (.setStatus 200),
        .update (.addHeader (ascii "a") (ascii "b")), .dump, .update .endHeader,
        .update (.appendEntity (ascii "x")), .dump, .drainEntity,
        .update (.appendEntity (ascii "y"))] = .ok copier := ⟨_, rfl⟩
  rcases outcome with ⟨copier, outcome⟩
  exact ⟨copier, outcome, (conserves false false _ copier outcome).2.1⟩

end Copier
end GnyProxy
