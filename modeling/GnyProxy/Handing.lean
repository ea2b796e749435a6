import GnyProxy.Replying

/-!
# What a copier hands on

A message that is read piece by piece, the copy that a copier makes of it in between, and the
writer of the copy.  At any time the copy, with what is left in its source, is what the copier would
make of all that was read at once.
-/

namespace GnyProxy

open HttpMessage (SameStage SameFirstLine InStep)
open Transfer (Asking Replying)

/-! ## A reader by itself -/

/-- What a reader makes of the pieces that it is given. -/
def MessageSource.readAll : MessageSource → HttpMessage → List Str →
    Except Fault (MessageSource × HttpMessage)
  | source, msg, [] => .ok (source, msg)
  | source, msg, rbuf :: given => do
      let ((source, msg), _) ← source.read msg rbuf
      readAll source msg given

theorem MessageSource.readAll_append {source last : MessageSource} {msg whole : HttpMessage}
    {given : List Str} (rbuf : Str) (all : source.readAll msg given = .ok (last, whole)) :
    source.readAll msg (given ++ [rbuf]) =
      last.read whole rbuf >>= fun read => .ok (read.1.1, read.1.2) := by
  induction given generalizing source msg with
  | nil =>
      cases all
      rfl
  | cons first given ih =>
      obtain ⟨⟨⟨source', msg'⟩, amount⟩, read_eq, rest⟩ := bind_eq_ok.mp all
      rw [List.cons_append, readAll, read_eq]
      exact ih rest

theorem MessageSource.extends_readAll {source last : MessageSource} {msg whole : HttpMessage}
    {given : List Str} (all : source.readAll msg given = .ok (last, whole)) :
    HttpMessage.Extends msg whole := by
  induction given generalizing source msg with
  | nil =>
      cases all
      exact .refl _
  | cons first given ih =>
      obtain ⟨⟨⟨source', msg'⟩, amount⟩, read_eq, rest⟩ := bind_eq_ok.mp all
      obtain ⟨updates, -, filled, -⟩ := MessageSource.read_fills read_eq
      exact (HttpMessage.Extends.fill filled).trans (ih rest)

namespace HttpMessage

/-! ## First lines -/

theorem SameFirstLine.refl (msg : HttpMessage) : msg.SameFirstLine msg := ⟨rfl, rfl, rfl, rfl⟩

theorem SameFirstLine.trans {msg middle last : HttpMessage} (first : msg.SameFirstLine middle)
    (second : middle.SameFirstLine last) : msg.SameFirstLine last :=
  ⟨first.1.trans second.1, first.2.1.trans second.2.1, first.2.2.1.trans second.2.2.1,
    first.2.2.2.trans second.2.2.2⟩

theorem SameFirstLine.symm {msg other : HttpMessage} (same : msg.SameFirstLine other) :
    other.SameFirstLine msg := ⟨same.1.symm, same.2.1.symm, same.2.2.1.symm, same.2.2.2.symm⟩

/-- An update makes the same of the same first line. -/
theorem SameFirstLine.update {msg msg' other other' : HttpMessage} {update : Update}
    (same : msg.SameFirstLine other) (updated : msg.update update = .ok msg')
    (updated' : other.update update = .ok other') : msg'.SameFirstLine other' := by
  obtain ⟨isRequest, url, verb, status⟩ := same
  cases update with
  | setUrl url' =>
      cases updated
      cases updated'
      exact ⟨isRequest, rfl, verb, status⟩
  | setVerb verb' =>
      cases updated
      cases updated'
      exact ⟨isRequest, url, rfl, status⟩
  | setStatus status' =>
      cases updated
      cases updated'
      exact ⟨isRequest, url, verb, rfl⟩
  | addHeader key value =>
      obtain ⟨-, rfl⟩ := addHeader_eq_ok.mp updated
      obtain ⟨-, rfl⟩ := addHeader_eq_ok.mp updated'
      exact ⟨isRequest, url, verb, status⟩
  | appendEntity entity =>
      obtain ⟨-, rfl⟩ := appendEntity_eq_ok.mp updated
      obtain ⟨-, rfl⟩ := appendEntity_eq_ok.mp updated'
      exact ⟨isRequest, url, verb, status⟩
  | addFooter key value =>
      obtain ⟨-, rfl⟩ := addFooter_eq_ok.mp updated
      obtain ⟨-, rfl⟩ := addFooter_eq_ok.mp updated'
      exact ⟨isRequest, url, verb, status⟩
  | endHeader =>
      obtain ⟨-, rfl⟩ := endHeader_eq_ok.mp updated
      obtain ⟨-, rfl⟩ := endHeader_eq_ok.mp updated'
      exact ⟨isRequest, url, verb, status⟩
  | endEntity =>
      obtain ⟨-, rfl⟩ := endEntity_eq_ok.mp updated
      obtain ⟨-, rfl⟩ := endEntity_eq_ok.mp updated'
      exact ⟨isRequest, url, verb, status⟩
  | endFooter =>
      obtain ⟨-, rfl⟩ := endFooter_eq_ok.mp updated
      obtain ⟨-, rfl⟩ := endFooter_eq_ok.mp updated'
      exact ⟨isRequest, url, verb, status⟩

/-- An update behind the first line leaves it alone. -/
theorem sameFirstLine_of_inSection {msg msg' : HttpMessage} {update : Update}
    (inSection : update.InSection) (updated : msg.update update = .ok msg') :
    msg'.SameFirstLine msg := by
  cases update with
  | setUrl url | setVerb verb | setStatus status => exact inSection.elim
  | addHeader key value =>
      obtain ⟨-, rfl⟩ := addHeader_eq_ok.mp updated
      exact .refl _
  | appendEntity entity =>
      obtain ⟨-, rfl⟩ := appendEntity_eq_ok.mp updated
      exact .refl _
  | addFooter key value =>
      obtain ⟨-, rfl⟩ := addFooter_eq_ok.mp updated
      exact .refl _
  | endHeader =>
      obtain ⟨-, rfl⟩ := endHeader_eq_ok.mp updated
      exact .refl _
  | endEntity =>
      obtain ⟨-, rfl⟩ := endEntity_eq_ok.mp updated
      exact .refl _
  | endFooter =>
      obtain ⟨-, rfl⟩ := endFooter_eq_ok.mp updated
      exact .refl _

theorem sameFirstLine_of_fill {msg msg' : HttpMessage} {updates : List Update}
    (inSection : ∀ update ∈ updates, update.InSection) (filled : msg.fill updates = .ok msg') :
    msg'.SameFirstLine msg := by
  induction updates generalizing msg with
  | nil =>
      cases filled
      exact .refl _
  | cons update updates ih =>
      rw [fill_cons] at filled
      obtain ⟨middle, updated, filled⟩ := bind_eq_ok.mp filled
      have later := ih (fun other member => inSection other (List.mem_cons_of_mem _ member)) filled
      exact later.trans (sameFirstLine_of_inSection (inSection update List.mem_cons_self) updated)

/-- What a copier makes of the first line depends on the first line. -/
theorem dumpFirstLine_congr {src src' : HttpMessage} (same : src.SameFirstLine src')
    (dst : HttpMessage) : dumpFirstLine src dst = dumpFirstLine src' dst := by
  obtain ⟨-, url, verb, status⟩ := same
  rw [dumpFirstLine, dumpFirstLine, url, verb, status]

/-! ## A dump as updates of the copy -/

/-- The copy behind a dump. -/
def copied (src dst : HttpMessage) : HttpMessage :=
  { dumpFirstLine src dst with
    headers := (dumpFirstLine src dst).headers ++ src.headers
    entity := (dumpFirstLine src dst).entity ++ src.entity
    footers := (dumpFirstLine src dst).footers ++ src.footers
    state := src.state }

/-- A copier leaves out the status of a request, and the url and the verb of a response. -/
theorem copied_request {src : HttpMessage} (request : src.isRequest = true) :
    src.copied (.fresh true) = { src with status := -1 } := by
  obtain ⟨isRequest, url, verb, status, headers, footers, entity, state⟩ := src
  cases request
  rfl

theorem copied_response {src : HttpMessage} (response : src.isRequest = false) :
    src.copied (.fresh false) = { src with url := [], verb := verbUnknown } := by
  obtain ⟨isRequest, url, verb, status, headers, footers, entity, state⟩ := src
  cases response
  rfl

/-- What is put into the first line of a copy. -/
def line (src dst : HttpMessage) : List Update :=
  if dst.isRequest then
    .setVerb src.verb :: if dst.url = [] then [.setUrl src.url] else []
  else
    [.setStatus src.status]

/-- What is put into a copy that has come to a section. -/
def rest (src : HttpMessage) : MessageState → List Update
  | .header => src.sections
  | .entity => .appendEntity src.entity ::
      ((if 2 ≤ src.state.rank then
        .endEntity :: src.footers.map fun field => .addFooter field.1 field.2 else []) ++
      if 3 ≤ src.state.rank then [.endFooter] else [])
  | .footer => (src.footers.map fun field => .addFooter field.1 field.2) ++
      if 3 ≤ src.state.rank then [.endFooter] else []
  | .done => []

theorem inSection_rest (src : HttpMessage) (reached : MessageState) :
    ∀ update ∈ src.rest reached, update.InSection := by
  have whole := inSection_sections src
  intro update member
  cases reached with
  | header => exact whole update member
  | entity =>
      rcases List.mem_cons.mp member with rfl | member
      · trivial
      rcases List.mem_append.mp member with inside | inside
      · exact whole update (by simp [sections, inside])
      · exact whole update (by simp [sections, inside])
  | footer =>
      rcases List.mem_append.mp member with inside | inside
      · obtain ⟨field, -, rfl⟩ := List.mem_map.mp inside
        trivial
      · exact whole update (by simp [sections, inside])
  | done => cases member

theorem fill_line (src dst : HttpMessage) :
    dst.fill (src.line dst) = .ok (dumpFirstLine src dst) := by
  unfold line dumpFirstLine
  split
  · by_cases url : dst.url = []
    · have still : (dst.setVerb src.verb).url = [] := url
      simp only [url, still, if_true]
      rfl
    · have still : (dst.setVerb src.verb).url ≠ [] := url
      simp only [url, still, if_false]
      rfl
  · rfl

/-- A section behind which the copy is stays, and the others are filled up to the section of the
source. -/
theorem fill_rest {src dst : HttpMessage} (copying : Copying src dst) :
    dst.fill (src.rest dst.state) = .ok { dst with
      headers := dst.headers ++ src.headers
      entity := dst.entity ++ src.entity
      footers := dst.footers ++ src.footers
      state := src.state } := by
  obtain ⟨behind, headers, entity, footers, noEntity, noFooters⟩ := copying
  obtain ⟨_, _, _, _, _, _, _, reached⟩ := dst
  obtain ⟨_, _, _, _, _, _, _, arrived⟩ := src
  cases reached <;> cases arrived <;>
    simp_all [rest, sections, fill_append, fill_addHeader, fill_addFooter, fill_cons, update,
      endHeader, appendEntity, endEntity, endFooter]

theorem admitted_append {msg : HttpMessage} {front back : List Update}
    (admitted : msg.Admitted front)
    (later : ∀ next, msg.fill front = .ok next → next.Admitted back) :
    msg.Admitted (front ++ back) := by
  induction front generalizing msg with
  | nil => exact later msg rfl
  | cons update front ih =>
      refine ⟨admitted.1, ?_⟩
      have rest := admitted.2
      cases updated : msg.update update with
      | error fault => trivial
      | ok next =>
          rw [updated] at rest
          refine ih rest fun last filled => later last ?_
          rw [fill_cons, updated]
          exact filled

theorem admitted_of_inSection {updates : List Update}
    (inSection : ∀ update ∈ updates, update.InSection) (msg : HttpMessage) :
    msg.Admitted updates := by
  induction updates generalizing msg with
  | nil => trivial
  | cons update updates ih =>
      refine ⟨?_, ?_⟩
      · have here := inSection update List.mem_cons_self
        cases update <;> first | exact here.elim | trivial
      · cases msg.update update with
        | error fault => trivial
        | ok next =>
            exact ih (fun other member => inSection other (List.mem_cons_of_mem _ member)) next

theorem isRequest_dumpFirstLine (src dst : HttpMessage) :
    (dumpFirstLine src dst).isRequest = dst.isRequest := by
  unfold dumpFirstLine
  split
  · simp only
    split <;> rfl
  · rfl

end HttpMessage

open HttpMessage (dumpFirstLine_congr fill_line fill_rest)

/-- A dump in terms of the updates that it makes. -/
theorem Copying.fill {src dst : HttpMessage} (copying : Copying src dst) :
    dst.fill (src.line dst ++ src.rest dst.state) = .ok (src.copied dst) := by
  have state := dumpFirstLine_state src dst
  have behind : Copying src (dumpFirstLine src dst) := copying.congr state
  rw [HttpMessage.fill_append, fill_line, ok_bind, ← state, fill_rest behind]
  rfl

namespace Transfer

variable {fresh sink : MessageSink} {src msg whole : HttpMessage} {sent : Str}

theorem Asking.sameFirstLine {transfer : Transfer} (isFresh : fresh.IsFresh)
    (asking : Asking fresh transfer) : transfer.msg.SameFirstLine transfer.whole := by
  rcases asking with unasked | ⟨first, requesting⟩
  · rw [unasked.handed]
    exact .refl _
  · rcases (requesting.kept isFresh).1.account with ⟨progress, accounts, -⟩
    exact accounts.firstLine

/-- A request goes on with a dump, whose first line is the one that was known. -/
theorem Asking.dump (isFresh : fresh.IsFresh) (asking : Asking fresh ⟨msg, sink, whole, sent⟩)
    (copying : Copying src msg) (request : msg.isRequest = true)
    (verb : whole.FirstLineSet → src.verb = whole.verb) :
    Asking fresh ⟨src.copied msg, sink, src.copied whole, sent⟩ := by
  have stage := asking.sameStage isFresh
  have firstLine := asking.sameFirstLine isFresh
  have isRequest : whole.isRequest = true := stage.1.trans request
  have copying' : Copying src whole := copying.congr stage.2
  have same : src.line msg = src.line whole := by
    rw [HttpMessage.line, HttpMessage.line, firstLine.1, firstLine.2.1]
  have filled := copying'.fill
  rw [← same, stage.2] at filled
  -- the verb stays as it is, and the url is set where there was none
  have admitted : whole.Admitted (src.line whole ++ src.rest msg.state) := by
    refine HttpMessage.admitted_append ?_ fun next _ =>
      HttpMessage.admitted_of_inSection (src.inSection_rest msg.state) next
    rw [HttpMessage.line, if_pos isRequest]
    refine ⟨verb, ?_⟩
    change (whole.setVerb src.verb).Admitted _
    split
    · rename_i none
      refine ⟨fun set => ?_, trivial⟩
      rw [HttpMessage.FirstLineSet, if_pos (show (whole.setVerb src.verb).isRequest = true from
        isRequest)] at set
      exact absurd none set.1
    · trivial
  rw [← same] at admitted
  obtain ⟨whole', whole_eq, later⟩ := asking.fill isFresh admitted copying.fill
  obtain rfl : whole' = src.copied whole := Except.ok.inj (whole_eq.symm.trans filled)
  exact later

/-- A response goes on with a dump, whose status is the one that was known. -/
theorem Replying.dump (isFresh : fresh.IsFresh)
    (replying : Replying fresh ⟨msg, sink, whole, sent⟩) (copying : Copying src msg)
    (response : msg.isRequest = false) (status : whole.status ≠ -1 → src.status = whole.status) :
    Replying fresh ⟨src.copied msg, sink, src.copied whole, sent⟩ := by
  obtain ⟨stage, firstLine⟩ := replying.same isFresh
  have isRequest : whole.isRequest = false := stage.1.trans response
  have filled := (copying.congr stage.2).fill
  have same : src.line msg = src.line whole := by
    rw [HttpMessage.line, HttpMessage.line, firstLine.1, firstLine.2.1]
  rw [← same, stage.2] at filled
  have admitted : whole.Admitted (src.line whole ++ src.rest msg.state) := by
    refine HttpMessage.admitted_append ?_ fun next _ =>
      HttpMessage.admitted_of_inSection (src.inSection_rest msg.state) next
    rw [HttpMessage.line, if_neg (by simp [isRequest])]
    refine ⟨fun set => status ?_, trivial⟩
    rwa [HttpMessage.FirstLineSet, if_neg (by simp [isRequest])] at set
  rw [← same] at admitted
  obtain ⟨whole', whole_eq, later⟩ := replying.fill isFresh admitted copying.fill
  obtain rfl : whole' = src.copied whole := Except.ok.inj (whole_eq.symm.trans filled)
  exact later

end Transfer

/-! ## All that was read, and its copy -/

/-- What is left of a message in its source, and its copy, are all that was read of it. -/
structure Handing (whole src copy : HttpMessage) : Prop where
  stage : SameStage src whole
  firstLine : src.SameFirstLine whole
  line : (dumpFirstLine src copy).SameFirstLine (dumpFirstLine whole (.fresh copy.isRequest))
  contents : copy.contents.append src.contents = whole.contents

namespace Handing

variable {whole whole' src src' copy : HttpMessage}

theorem start (whole : HttpMessage) (isRequest : Bool) :
    Handing whole whole (.fresh isRequest) :=
  ⟨.refl _, .refl _, .refl _, Contents.empty_append _⟩

theorem contents_dumpFirstLine (src dst : HttpMessage) :
    (dumpFirstLine src dst).contents = dst.contents := by
  unfold dumpFirstLine
  split
  · simp only
    split <;> rfl
  · rfl

theorem contents_copied (src dst : HttpMessage) :
    (src.copied dst).contents = dst.contents.append src.contents := by
  rw [← contents_dumpFirstLine src dst]
  rfl

/-- If the rest were copied now, the copy would be that of the whole at once. -/
theorem copied (handing : Handing whole src copy) :
    src.copied copy = whole.copied (.fresh copy.isRequest) := by
  have contents := contents_copied src copy
  rw [handing.contents] at contents
  have contents' := contents_copied whole (.fresh copy.isRequest)
  have nothing : (HttpMessage.fresh copy.isRequest).contents = {} := rfl
  rw [nothing, Contents.empty_append] at contents'
  have parts := contents.trans contents'.symm
  simp only [HttpMessage.contents, Contents.mk.injEq] at parts
  obtain ⟨isRequest, url, verb, status⟩ := handing.line
  obtain ⟨headers, entity, footers⟩ := parts
  have state : src.state = whole.state := handing.stage.2.symm
  simp only [HttpMessage.copied, HttpMessage.mk.injEq] at headers entity footers ⊢
  exact ⟨isRequest, url, verb, status, headers, footers, entity, state⟩

theorem dumpFirstLine_copied (src dst : HttpMessage) :
    dumpFirstLine src (src.copied dst) = src.copied dst := by
  unfold HttpMessage.copied dumpFirstLine
  by_cases request : dst.isRequest
  · by_cases none : dst.url = []
    · simp [request, none, HttpMessage.setVerb, HttpMessage.setUrl]
    · simp [request, none, HttpMessage.setVerb]
  · simp [request, HttpMessage.setStatus]

/-- A dump moves what is left. -/
theorem dump (handing : Handing whole src copy) :
    Handing whole src.drained (src.copied copy) where
  stage := handing.stage
  firstLine := handing.firstLine
  line := by
    have again : dumpFirstLine src.drained (src.copied copy) = src.copied copy :=
      (dumpFirstLine_congr ⟨rfl, rfl, rfl, rfl⟩ _).trans (dumpFirstLine_copied src copy)
    have isRequest : (src.copied copy).isRequest = copy.isRequest :=
      HttpMessage.isRequest_dumpFirstLine src copy
    rw [again, isRequest]
    exact handing.line
  contents := by
    have nothing : src.drained.contents = {} := rfl
    rw [contents_copied, nothing, Contents.append_empty, handing.contents]

/-- More is read, of the first line of a request only before it is copied. -/
theorem update {update : Update} (handing : Handing whole src copy)
    (inSection : copy.isRequest = true → update.InSection)
    (updated : src.update update = .ok src') (updated' : whole.update update = .ok whole') :
    Handing whole' src' copy where
  stage := by
    obtain ⟨other, other_eq, stage⟩ := handing.stage.update updated
    obtain rfl := Except.ok.inj (updated'.symm.trans other_eq)
    exact stage
  firstLine := handing.firstLine.update updated updated'
  line := by
    by_cases request : copy.isRequest = true
    · rw [dumpFirstLine_congr (HttpMessage.sameFirstLine_of_inSection (inSection request) updated),
        dumpFirstLine_congr (HttpMessage.sameFirstLine_of_inSection (inSection request) updated')]
      exact handing.line
    · have response : copy.isRequest = false := by simpa using request
      obtain ⟨isRequest, url, verb, -⟩ := handing.line
      have status := (handing.firstLine.update updated updated').2.2.2
      simp only [dumpFirstLine, response, Bool.false_eq_true, if_false,
        HttpMessage.setStatus] at isRequest url verb ⊢
      exact ⟨isRequest, url, verb, status⟩
  contents := by
    rw [HttpMessage.contents_update updated, HttpMessage.contents_update updated',
      ← Contents.append_add, handing.contents]

theorem fill {updates : List Update} (handing : Handing whole src copy)
    (inSection : copy.isRequest = true → ∀ update ∈ updates, update.InSection)
    (filled : src.fill updates = .ok src') (filled' : whole.fill updates = .ok whole') :
    Handing whole' src' copy := by
  induction updates generalizing src whole with
  | nil =>
      cases filled
      cases filled'
      exact handing
  | cons update updates ih =>
      rw [HttpMessage.fill_cons] at filled filled'
      obtain ⟨middle, updated, filled⟩ := bind_eq_ok.mp filled
      obtain ⟨middle', updated', filled'⟩ := bind_eq_ok.mp filled'
      have first := handing.update
        (fun request => inSection request update List.mem_cons_self) updated updated'
      exact ih first
        (fun request other member => inSection request other (List.mem_cons_of_mem _ member))
        filled filled'

end Handing

/-! ## The status of a response that is read -/

namespace MessageSourceGny

variable {src src' : MessageSourceGny} {msg msg' : HttpMessage}

/-- The status is all of the first line of a response. -/
theorem status_readChar {i : Nat} {ch : UInt8}
    (outcome : src.readChar msg i ch = .ok (src', msg')) :
    src'.state.Past ∨ msg'.status = msg.status := by
  by_cases past : src.state.Past
  · exact Or.inl (past_readChar past outcome)
  · unfold readChar at outcome
    cases state : src.state with
    | initVerb =>
        simp only [state] at outcome
        cases outcome
        exact Or.inr rfl
    | initUrl | initStatus =>
        simp only [state] at outcome
        split at outcome
        · first
            | obtain ⟨_, -, outcome⟩ := bind_eq_ok.mp outcome
              cases outcome
            | cases outcome
          exact Or.inl trivial
        · cases outcome
          exact Or.inr rfl
    | _ =>
        rw [state] at past
        exact absurd trivial past

theorem status_readLoop {i j : Nat} {rbuf : Str}
    (outcome : readLoop src msg i rbuf = .ok (j, src', msg')) :
    src'.state.Past ∨ msg'.status = msg.status := by
  induction rbuf generalizing src msg i with
  | nil =>
      cases outcome
      exact Or.inr rfl
  | cons ch rest ih =>
      rw [readLoop_cons] at outcome
      split at outcome
      · cases outcome
        exact Or.inr rfl
      · obtain ⟨next, step, outcome⟩ := bind_eq_ok.mp outcome
        rcases status_readChar step with past | same
        · exact Or.inl (past_readLoop past outcome)
        · exact (ih outcome).imp_right fun behind => behind.trans same

theorem status_flushEntity (outcome : src.flushEntity msg = .ok (src', msg')) :
    msg'.status = msg.status := by
  unfold flushEntity at outcome
  split at outcome
  · obtain ⟨_, appended, outcome⟩ := bind_eq_ok.mp outcome
    cases outcome
    obtain ⟨-, rfl⟩ := HttpMessage.appendEntity_eq_ok.mp appended
    rfl
  · cases outcome
    rfl

end MessageSourceGny

/-- A reader that has not come to the end of the first line has not set the status. -/
theorem MessageSource.read_status {source source' : MessageSource} {msg msg' : HttpMessage}
    {rbuf : Str} {amount : Nat}
    (outcome : source.read msg rbuf = .ok ((source', msg'), amount)) :
    source'.Past ∨ msg'.status = msg.status := by
  cases source with
  | gny source =>
      obtain ⟨done, inner, same⟩ := bind_eq_ok.mp outcome
      cases same
      unfold MessageSourceGny.read at inner
      split at inner
      · cases inner
        exact Or.inr rfl
      · obtain ⟨⟨i, src, msg₁⟩, loop, inner⟩ := bind_eq_ok.mp inner
        obtain ⟨⟨src₁, msg₂⟩, flush, inner⟩ := bind_eq_ok.mp inner
        cases inner
        have state_eq := (MessageSourceGny.flushEntity_keeps flush).1
        rcases MessageSourceGny.status_readLoop loop with past | same
        · refine Or.inl ?_
          change src₁.rebase.state.Past
          rw [MessageSourceGny.state_rebase, state_eq]
          exact past
        · exact Or.inr ((MessageSourceGny.status_flushEntity flush).trans same)
  | v11 source =>
      obtain ⟨done, inner, same⟩ := bind_eq_ok.mp outcome
      cases same
      unfold MessageSource11.read at inner
      split at inner
      · cases inner
        exact Or.inr rfl
      · obtain ⟨⟨i, pass⟩, loop, inner⟩ := bind_eq_ok.mp inner
        obtain ⟨msg₁, flush, inner⟩ := bind_eq_ok.mp inner
        cases inner
        rcases MessageSource11.msg_readLoop loop with past | same
        · refine Or.inl ?_
          change pass.rebase.state ≠ .firstLine
          rw [MessageSource11.state_rebase]
          exact past
        · have flushed : msg₁.status = pass.msg.status := by
            unfold MessageSource11.Pass.flushEntity at flush
            split at flush
            · obtain ⟨-, rfl⟩ := HttpMessage.appendEntity_eq_ok.mp flush
              rfl
            · cases flush
              rfl
          exact Or.inr (flushed.trans (congrArg HttpMessage.status same))

end GnyProxy
