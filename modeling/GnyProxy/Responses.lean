import GnyProxy.Transfer

/-!
# What a writer puts out for a message

The runs of a writer over a message that is filled meanwhile, with entities of any size: what was
put out so far can always be completed, and when the writer and the message are done all of it was
sent.  Nothing here depends on the layout.
-/

namespace GnyProxy

/-! ## What a call does to the writer and the message -/

namespace MessageSinkGny

/-- The writer went on: more in its buffer, and in the section of the progress. -/
structure Follows (sink sink' : MessageSinkGny) (progress : Progress) : Prop where
  init : sink'.init = sink.init
  dataStream : sink.dataStream <+: sink'.dataStream
  writeState : sink'.writeState = progress.writeState

variable {sink sink' : MessageSinkGny} {progress : Progress}

theorem follows_sendHeaders (same : sink.writeState = progress.writeState) (msg : HttpMessage) :
    (sink.sendHeaders msg).2 = (progress.headerRound msg).2 ∧
      Follows sink (sink.sendHeaders msg).1 (progress.headerRound msg).1 := by
  by_cases here : progress.writeState = .header
  · simp only [sendHeaders, Progress.headerRound, same, here, if_true, foldl_addKeyValuePair,
      true_and]
    by_cases stays : msg.state = .header
    · exact ⟨by simp [stays], by simp [stays], by simp [stays]⟩
    · exact ⟨by simp [stays], by simp [stays], by simp [stays]⟩
  · simp only [sendHeaders, Progress.headerRound, same, here, if_false, true_and]
    exact ⟨rfl, List.prefix_rfl, same⟩

theorem splitEntityLoop_prefix {moreEntity dataStream result : Str} {fuel : Nat} {i : Int}
    (outcome : splitEntityLoop moreEntity fuel i dataStream = .ok result) :
    dataStream <+: result := by
  induction fuel generalizing i dataStream with
  | zero => cases outcome
  | succ fuel ih =>
      rw [splitEntityLoop] at outcome
      split at outcome
      · refine List.IsPrefix.trans ?_ (ih outcome)
        rw [writeShort, List.append_assoc]
        exact List.prefix_append _ _
      · cases outcome
        exact List.prefix_rfl

theorem follows_sendEntity {msg msg' : HttpMessage} (same : sink.writeState = progress.writeState)
    (outcome : sink.sendEntity msg = .ok (sink', msg')) :
    msg' = (progress.entityRound pieces msg).2 ∧
      Follows sink sink' (progress.entityRound pieces msg).1 := by
  by_cases here : progress.writeState = .entity
  · simp only [sendEntity, Progress.entityRound, same, here, if_true] at outcome ⊢
    obtain ⟨dataStream, split_eq, outcome⟩ := bind_eq_ok.mp outcome
    have longer := splitEntityLoop_prefix split_eq
    by_cases stays : msg.state = .entity
    · simp only [stays, ne_eq, not_true_eq_false, if_false, Except.ok.injEq, Prod.mk.injEq]
        at outcome
      obtain ⟨rfl, rfl⟩ := outcome
      exact ⟨rfl, rfl, longer, by simp [stays]⟩
    · simp only [stays, ne_eq, not_false_iff, if_true, Except.ok.injEq, Prod.mk.injEq] at outcome
      obtain ⟨rfl, rfl⟩ := outcome
      exact ⟨rfl, rfl, longer.trans (List.prefix_append _ _), by simp [stays]⟩
  · simp only [sendEntity, Progress.entityRound, same, here, if_false, Except.ok.injEq,
      Prod.mk.injEq] at outcome ⊢
    obtain ⟨rfl, rfl⟩ := outcome
    exact ⟨rfl, rfl, List.prefix_rfl, same⟩

theorem follows_sendFooters (same : sink.writeState = progress.writeState) (msg : HttpMessage) :
    (sink.sendFooters msg).2 = (progress.footerRound msg).2 ∧
      Follows sink (sink.sendFooters msg).1 (progress.footerRound msg).1 := by
  by_cases here : progress.writeState = .footer
  · simp only [sendFooters, Progress.footerRound, same, here, if_true, foldl_addKeyValuePair,
      true_and]
    by_cases stays : msg.state = .footer
    · exact ⟨by simp [stays], by simp [stays], by simp [stays]⟩
    · exact ⟨by simp [stays], by simp [stays], by simp [stays]⟩
  · simp only [sendFooters, Progress.footerRound, same, here, if_false, true_and]
    exact ⟨rfl, List.prefix_rfl, same⟩

theorem follows_sendAvailable {msg msg' : HttpMessage}
    (same : sink.writeState = progress.writeState)
    (outcome : sink.sendAvailable msg = .ok (sink', msg')) :
    msg' = (progress.round pieces msg).2 ∧ Follows sink sink' (progress.round pieces msg).1 := by
  have sections : ((sink.sendHeaders msg).1.sendEntity (sink.sendHeaders msg).2 >>=
      fun taken => Except.ok (taken.1.sendFooters taken.2)) = .ok (sink', msg') := outcome
  obtain ⟨⟨sink₂, msg₂⟩, entity_eq, outcome⟩ := bind_eq_ok.mp sections
  have footers_eq : sink₂.sendFooters msg₂ = (sink', msg') := Except.ok.inj outcome
  obtain ⟨msg₁_eq, first⟩ := follows_sendHeaders same msg
  rw [msg₁_eq] at entity_eq
  obtain ⟨rfl, second⟩ := follows_sendEntity first.writeState entity_eq
  obtain ⟨msg₃_eq, third⟩ := follows_sendFooters second.writeState
    ((progress.headerRound msg).1.entityRound pieces (progress.headerRound msg).2).2
  rw [footers_eq] at msg₃_eq third
  exact ⟨msg₃_eq, third.init.trans (second.init.trans first.init),
    (first.dataStream.trans second.dataStream).trans third.dataStream, third.writeState⟩

/-- A check does nothing before the first line is known, and takes a round from then on. -/
theorem checkForUpdate_cases {msg msg' : HttpMessage} (same : sink.writeState = progress.writeState)
    (fresh : sink.init = false → sink = {})
    (outcome : sink.checkForUpdate msg = .ok (sink', msg')) :
    sink.init = false ∧ firstLine msg = none ∧ sink' = sink ∧ msg' = msg ∨
      sink'.init = true ∧ sink.dataStream <+: sink'.dataStream ∧
        msg' = (progress.round pieces msg).2 ∧
        sink'.writeState = (progress.round pieces msg).1.writeState := by
  unfold checkForUpdate at outcome
  split at outcome
  · cases init : sink.init with
    | true =>
        rw [begin, if_neg (by simp [init])] at outcome
        obtain ⟨msg_eq, follows⟩ := follows_sendAvailable same outcome
        exact Or.inr ⟨follows.init.trans init, follows.dataStream, msg_eq, follows.writeState⟩
    | false =>
        obtain rfl := fresh init
        cases line : firstLine msg with
        | none =>
            simp only [begin, line, and_self, if_true] at outcome
            cases outcome
            exact Or.inl ⟨rfl, rfl, rfl, rfl⟩
        | some first =>
            simp only [begin, line, and_self, if_true] at outcome
            have begun : ({ dataStream := first, init := true } : MessageSinkGny).writeState =
                progress.writeState := same
            obtain ⟨msg_eq, follows⟩ := follows_sendAvailable begun outcome
            exact Or.inr ⟨follows.init, List.nil_prefix, msg_eq, follows.writeState⟩
  · cases outcome

/-- Nothing goes wrong where the entity is small. -/
theorem sendAvailable_ok {msg : HttpMessage} (small : msg.entity.length < 2 ^ 31) :
    ∃ taken, sink.sendAvailable msg = .ok taken := by
  have kept : (sink.sendHeaders msg).2.entity = msg.entity := by
    unfold sendHeaders
    split <;> rfl
  have entity_ok : ∃ taken, (sink.sendHeaders msg).1.sendEntity (sink.sendHeaders msg).2 =
      .ok taken := by
    unfold sendEntity
    split
    · rw [kept, splitEntity_eq small]
      exact ⟨_, rfl⟩
    · exact ⟨_, rfl⟩
  obtain ⟨taken, entity_eq⟩ := entity_ok
  exact ⟨taken.1.sendFooters taken.2, by simp only [sendAvailable, entity_eq, ok_bind]⟩

theorem checkForUpdate_ok {msg : HttpMessage} (behind : sink.writeState.rank ≤ msg.state.rank)
    (small : msg.entity.length < 2 ^ 31) : ∃ taken, sink.checkForUpdate msg = .ok taken := by
  rw [checkForUpdate, if_pos behind]
  cases sink.begin msg with
  | none => exact ⟨_, rfl⟩
  | some begun => exact sendAvailable_ok small

end MessageSinkGny

namespace MessageSink11

/-- The writer went on: more in its packet, and in the section of the progress. -/
structure Follows (sink sink' : MessageSink11) (progress : Progress) : Prop where
  isInit : sink'.isInit = sink.isInit
  packetStr : sink.packetStr <+: sink'.packetStr
  writeState : sink'.writeState = progress.writeState

variable {sink : MessageSink11} {progress : Progress}

theorem follows_sendHeaders (same : sink.writeState = progress.writeState) (msg : HttpMessage) :
    (sink.sendHeaders msg).2 = (progress.headerRound msg).2 ∧
      Follows sink (sink.sendHeaders msg).1 (progress.headerRound msg).1 := by
  by_cases here : progress.writeState = .header
  · simp only [sendHeaders, Progress.headerRound, same, here, if_true, foldl_sendHeader]
    by_cases stays : msg.state = .header
    · exact ⟨by simp [stays], by simp [stays], by simp [stays], by simp [stays]⟩
    · exact ⟨by simp [stays], by simp [stays], by simp [stays], by simp [stays]⟩
  · simp only [sendHeaders, Progress.headerRound, same, here, if_false, true_and]
    exact ⟨rfl, List.prefix_rfl, same⟩

theorem follows_sendPiece (same : sink.writeState = progress.writeState) (entity : Str) :
    Follows sink (sink.sendPiece entity) progress := by
  unfold sendPiece
  by_cases unknown : sink.entityMode = entityUnknown
  · simp only [unknown, if_true]
    exact ⟨rfl, by simp, same⟩
  · by_cases chunked : sink.entityMode = entityChunked
    · simp only [if_neg unknown, if_pos chunked]
      exact ⟨rfl, by simp, same⟩
    · simp only [if_neg unknown, if_neg chunked]
      split
      · exact ⟨rfl, by simp, same⟩
      · exact ⟨rfl, List.prefix_rfl, same⟩

theorem follows_sendEntity (same : sink.writeState = progress.writeState) (msg : HttpMessage) :
    (sink.sendEntity msg).2 = (progress.entityRound pieces msg).2 ∧
      Follows sink (sink.sendEntity msg).1 (progress.entityRound pieces msg).1 := by
  by_cases here : progress.writeState = .entity
  · simp only [sendEntity, Progress.entityRound, same, here, if_true]
    have piece : Follows sink (if msg.entity ≠ [] then sink.sendPiece msg.entity else sink)
        progress := by
      split
      · exact follows_sendPiece same _
      · exact ⟨rfl, List.prefix_rfl, same⟩
    by_cases stays : msg.state = .entity
    · simp only [stays, ne_eq, not_true_eq_false, if_false, if_true, true_and]
      exact ⟨piece.isInit, piece.packetStr, piece.writeState.trans here⟩
    · simp only [stays, ne_eq, not_false_iff, if_false, if_true, true_and]
      exact ⟨piece.isInit, piece.packetStr.trans (List.prefix_append _ _), rfl⟩
  · simp only [sendEntity, Progress.entityRound, same, here, if_false, true_and]
    exact ⟨rfl, List.prefix_rfl, same⟩

theorem follows_sendFooters (same : sink.writeState = progress.writeState) {msg : HttpMessage}
    (behind : progress.writeState.rank ≤ msg.state.rank) :
    (sink.sendFooters msg).2 = (progress.footerRound msg).2 ∧
      Follows sink (sink.sendFooters msg).1 (progress.footerRound msg).1 := by
  by_cases here : progress.writeState = .footer
  · rw [here] at behind
    simp only [sendFooters, Progress.footerRound, same, here, if_true, foldl_fieldLine]
    have longer : sink.packetStr <+: (if sink.entityMode = entityChunked then
        sink.packetStr ++ fieldLines msg.footers else sink.packetStr) := by
      split
      · exact List.prefix_append _ _
      · exact List.prefix_rfl
    by_cases ended : msg.state = .done
    · simp only [ended, reduceCtorEq, if_true, if_false, true_and]
      exact ⟨rfl, longer.trans (List.prefix_append _ _), rfl⟩
    · have stays : msg.state = .footer := by
        cases state : msg.state <;> simp_all
      simp only [stays, reduceCtorEq, if_true, if_false, true_and]
      exact ⟨rfl, longer, rfl⟩
  · simp only [sendFooters, Progress.footerRound, same, here, if_false, true_and]
    exact ⟨rfl, List.prefix_rfl, same⟩

theorem follows_sendAvailable {msg whole : HttpMessage}
    (same : sink.writeState = progress.writeState) (accounts : Accounts progress msg whole) :
    (sink.sendAvailable msg).2 = (progress.round pieces msg).2 ∧
      Follows sink (sink.sendAvailable msg).1 (progress.round pieces msg).1 := by
  obtain ⟨header_eq, first⟩ := follows_sendHeaders same msg
  obtain ⟨entity_eq, second⟩ := follows_sendEntity first.writeState (sink.sendHeaders msg).2
  rw [header_eq] at entity_eq second
  obtain ⟨footer_eq, third⟩ := follows_sendFooters second.writeState
    (accounts.headerRound.entityRound flatten_pieces).behind
  simp only [MessageSink11.sendAvailable, header_eq, entity_eq]
  exact ⟨footer_eq, third.isInit.trans (second.isInit.trans first.isInit),
    (first.packetStr.trans second.packetStr).trans third.packetStr, third.writeState⟩

/-- A check does nothing before the first line is known, and takes a round from then on. -/
theorem checkForUpdate_cases {sink' : MessageSink11} {msg msg' whole : HttpMessage}
    (same : sink.writeState = progress.writeState) (fresh : sink.isInit = false → sink = {})
    (accounts : Accounts progress msg whole)
    (outcome : sink.checkForUpdate msg = .ok (sink', msg')) :
    sink.isInit = false ∧ firstLine msg = .ok none ∧ sink' = sink ∧ msg' = msg ∨
      sink'.isInit = true ∧ sink.packetStr <+: sink'.packetStr ∧
        msg' = (progress.round pieces msg).2 ∧
        sink'.writeState = (progress.round pieces msg).1.writeState := by
  obtain ⟨start, begin_eq, outcome⟩ := bind_eq_ok.mp outcome
  cases init : sink.isInit with
  | true =>
      rw [begin, if_neg (by simp [init])] at begin_eq
      cases begin_eq
      obtain ⟨msg_eq, follows⟩ := follows_sendAvailable same accounts
      have sent : sink.sendAvailable msg = (sink', msg') := Except.ok.inj outcome
      rw [sent] at msg_eq follows
      exact Or.inr ⟨follows.isInit.trans init, follows.packetStr, msg_eq, follows.writeState⟩
  | false =>
      obtain rfl := fresh init
      rw [begin, if_pos ⟨rfl, rfl⟩] at begin_eq
      obtain ⟨line, line_eq, begin_eq⟩ := bind_eq_ok.mp begin_eq
      cases line with
      | none =>
          cases begin_eq
          cases outcome
          exact Or.inl ⟨rfl, line_eq, rfl, rfl⟩
      | some first =>
          cases begin_eq
          have begun : ({ packetStr := first, isInit := true } : MessageSink11).writeState =
              progress.writeState := same
          obtain ⟨msg_eq, follows⟩ := follows_sendAvailable begun accounts
          have sent : ({ packetStr := first, isInit := true } : MessageSink11).sendAvailable msg =
              (sink', msg') := Except.ok.inj outcome
          rw [sent] at msg_eq follows
          exact Or.inr ⟨follows.isInit, List.nil_prefix, msg_eq, follows.writeState⟩

end MessageSink11

namespace MessageSink

def writeState : MessageSink → MessageState
  | .gny sink => sink.writeState
  | .v11 sink => sink.writeState

/-- The first line was written. -/
def begun : MessageSink → Bool
  | .gny sink => sink.init
  | .v11 sink => sink.isInit

/-- How the entity of a message is split. -/
def split : MessageSink → Str → List Str
  | .gny _ => MessageSinkGny.pieces
  | .v11 _ => MessageSink11.pieces

theorem flatten_split (sink : MessageSink) (text : Str) : (sink.split text).flatten = text := by
  cases sink with
  | gny sink => exact MessageSinkGny.flatten_pieces text
  | v11 sink => exact MessageSink11.flatten_pieces text

/-- What a writer does not forget: it is fresh until the first line is written, and in the section
of the progress. -/
structure Keeps (sink : MessageSink) (progress : Progress) : Prop where
  fresh : sink.begun = false → sink.IsFresh ∧ progress = {}
  writeState : sink.writeState = progress.writeState

variable {sink sink' : MessageSink} {progress : Progress} {msg msg' whole : HttpMessage}

theorem keeps_fresh (fresh : sink.IsFresh) : sink.Keeps {} := by
  obtain rfl | rfl := fresh
  · exact ⟨fun _ => ⟨Or.inl rfl, rfl⟩, rfl⟩
  · exact ⟨fun _ => ⟨Or.inr rfl, rfl⟩, rfl⟩

theorem keeps_of_begun (begun : sink.begun = true)
    (writeState : sink.writeState = progress.writeState) :
    sink.Keeps progress :=
  ⟨fun unset => absurd (begun.symm.trans unset) (by simp), writeState⟩

/-- A call does nothing before the first line is known.  From then on it takes a round of the
message and puts it into the buffer. -/
theorem Keeps.getWriteSize {size : Nat} (keeps : sink.Keeps progress)
    (accounts : Accounts progress msg whole)
    (outcome : sink.getWriteSize msg = .ok ((sink', msg'), size)) :
    size = sink'.buffer.length ∧
      (sink.begun = false ∧ sink.firstLine msg = .ok none ∧ sink' = sink ∧ msg' = msg ∨
        sink'.begun = true ∧ sink.SameKind sink' ∧ sink.buffer <+: sink'.buffer ∧
          msg' = (progress.round sink.split msg).2 ∧
          sink'.Keeps (progress.round sink.split msg).1) := by
  cases sink with
  | gny sink =>
      obtain ⟨⟨⟨inner, taken⟩, count⟩, inner_eq, outcome⟩ := bind_eq_ok.mp outcome
      cases outcome
      obtain ⟨⟨checked, left⟩, check_eq, outcome⟩ := bind_eq_ok.mp inner_eq
      cases outcome
      refine ⟨rfl, ?_⟩
      have fresh (init : sink.init = false) : sink = {} := by
        obtain ⟨is_fresh | is_fresh, -⟩ := keeps.fresh init
        · exact MessageSink.gny.inj is_fresh
        · cases is_fresh
      obtain ⟨init, line, rfl, rfl⟩ | ⟨init, longer, taken_eq, writeState⟩ :=
        MessageSinkGny.checkForUpdate_cases keeps.writeState fresh check_eq
      · exact Or.inl ⟨init, by rw [firstLine, line], rfl, rfl⟩
      · exact Or.inr ⟨init, trivial, longer, taken_eq, keeps_of_begun init writeState⟩
  | v11 sink =>
      obtain ⟨⟨⟨inner, taken⟩, count⟩, inner_eq, outcome⟩ := bind_eq_ok.mp outcome
      cases outcome
      obtain ⟨⟨checked, left⟩, check_eq, outcome⟩ := bind_eq_ok.mp inner_eq
      cases outcome
      refine ⟨rfl, ?_⟩
      have fresh (init : sink.isInit = false) : sink = {} := by
        obtain ⟨is_fresh | is_fresh, -⟩ := keeps.fresh init
        · cases is_fresh
        · exact MessageSink.v11.inj is_fresh
      obtain ⟨init, line, rfl, rfl⟩ | ⟨init, longer, taken_eq, writeState⟩ :=
        MessageSink11.checkForUpdate_cases keeps.writeState fresh accounts check_eq
      · exact Or.inl ⟨init, line, rfl, rfl⟩
      · exact Or.inr ⟨init, trivial, longer, taken_eq, keeps_of_begun init writeState⟩

theorem Keeps.drop (keeps : sink.Keeps progress) (amount : Nat) :
    (sink.drop amount).Keeps progress := by
  have fresh := keeps.fresh
  have writeState := keeps.writeState
  cases sink with
  | gny sink =>
      refine ⟨fun unset => ?_, writeState⟩
      obtain ⟨is_fresh | is_fresh, start⟩ := fresh unset
      · cases is_fresh
        exact ⟨Or.inl (by simp [MessageSink.drop]), start⟩
      · cases is_fresh
  | v11 sink =>
      refine ⟨fun unset => ?_, writeState⟩
      obtain ⟨is_fresh | is_fresh, start⟩ := fresh unset
      · cases is_fresh
      · cases is_fresh
        exact ⟨Or.inr (by simp [MessageSink.drop]), start⟩

/-- The first line of a response is known when its status is. -/
theorem firstLine_of_status (sink : MessageSink) (response : msg.isRequest = false)
    (low : 0 ≤ msg.status) (high : msg.status ≤ 65534) :
    ∃ first, sink.firstLine msg = .ok (some first) := by
  cases sink with
  | gny sink =>
      have set : toInt16 msg.status ≠ -1 := by
        intro unset
        have wraps := toInt16_emod msg.status
        rw [unset] at wraps
        omega
      exact ⟨writeShort [] (toInt16 msg.status), by
        simp [firstLine, MessageSinkGny.firstLine, response, set]⟩
  | v11 sink =>
      have set : msg.status ≠ -1 := by omega
      exact ⟨ascii "HTTP/1.1 " ++ printInt msg.status ++ ascii " FIXME" ++ crlf, by
        simp [firstLine, MessageSink11.firstLine, response, set]⟩

/-- A writer can be called for a message whose entity is small. -/
theorem Keeps.getWriteSize_ok {line : Option Str} (keeps : sink.Keeps progress)
    (accounts : Accounts progress msg whole) (known : sink.firstLine msg = .ok line)
    (small : msg.entity.length < 2 ^ 31) : ∃ taken, sink.getWriteSize msg = .ok taken := by
  cases sink with
  | gny sink =>
      have behind : sink.writeState.rank ≤ msg.state.rank := by
        rw [show sink.writeState = progress.writeState from keeps.writeState]
        exact accounts.behind
      obtain ⟨taken, check_eq⟩ := MessageSinkGny.checkForUpdate_ok behind small
      simp only [MessageSink.getWriteSize, MessageSinkGny.getWriteSize, check_eq, ok_bind]
      exact ⟨_, rfl⟩
  | v11 sink =>
      have begins : ∃ start, sink.begin msg = .ok start := by
        have known : MessageSink11.firstLine msg = .ok line := known
        unfold MessageSink11.begin
        split
        · rw [known, ok_bind]
          cases line <;> exact ⟨_, rfl⟩
        · exact ⟨_, rfl⟩
      obtain ⟨start, begin_eq⟩ := begins
      simp only [MessageSink.getWriteSize, MessageSink11.getWriteSize,
        MessageSink11.checkForUpdate, begin_eq, ok_bind]
      cases start <;> exact ⟨_, rfl⟩

theorem drop_zero (sink : MessageSink) : sink.drop 0 = sink := by
  cases sink <;> rfl

theorem writeState_drop (sink : MessageSink) (amount : Nat) :
    (sink.drop amount).writeState = sink.writeState := by
  cases sink <;> rfl

end MessageSink

/-! ## Runs -/

namespace HttpMessage

/-- The entity begins behind the headers. -/
def EntityBehind (msg : HttpMessage) : Prop := msg.state = .header → msg.entity = []

theorem EntityBehind.update {msg next : HttpMessage} {update : Update} (behind : msg.EntityBehind)
    (updated : msg.update update = .ok next) : next.EntityBehind := by
  cases update with
  | setUrl url | setVerb verb | setStatus status =>
      cases updated
      exact behind
  | addHeader key value =>
      obtain ⟨-, rfl⟩ := addHeader_eq_ok.mp updated
      exact behind
  | appendEntity entity =>
      obtain ⟨inside, rfl⟩ := appendEntity_eq_ok.mp updated
      intro header
      exact absurd (inside.symm.trans header) (by simp)
  | addFooter key value =>
      obtain ⟨-, rfl⟩ := addFooter_eq_ok.mp updated
      exact behind
  | endHeader =>
      obtain ⟨-, rfl⟩ := endHeader_eq_ok.mp updated
      exact nofun
  | endEntity =>
      obtain ⟨-, rfl⟩ := endEntity_eq_ok.mp updated
      exact nofun
  | endFooter =>
      obtain ⟨-, rfl⟩ := endFooter_eq_ok.mp updated
      exact nofun

end HttpMessage

namespace Transfer

/-- A call of the writer is a call of `get_write_size`, and perhaps a partial send. -/
theorem step_call {transfer next : Transfer} {event : Event}
    (call : ∀ update, event ≠ .update update) (step_eq : transfer.step event = .ok next) :
    ∃ sink msg size amount, transfer.sink.getWriteSize transfer.msg = .ok ((sink, msg), size) ∧
      next = { transfer with
        sink := sink.drop amount
        msg
        sent := transfer.sent ++ sink.buffer.take amount } := by
  cases event with
  | update update => exact absurd rfl (call update)
  | getWriteSize =>
      obtain ⟨⟨⟨sink, msg⟩, size⟩, size_eq, step_eq⟩ := bind_eq_ok.mp step_eq
      cases step_eq
      exact ⟨sink, msg, size, 0, size_eq, by simp [MessageSink.drop_zero]⟩
  | write maxWrite amount =>
      obtain ⟨⟨⟨sink', msg'⟩, bytes⟩, write_eq, step_eq⟩ := bind_eq_ok.mp step_eq
      cases step_eq
      have called : ∃ taken, transfer.sink.getWriteSize transfer.msg = .ok taken := by
        cases kind : transfer.sink with
        | gny sink =>
            rw [kind] at write_eq
            obtain ⟨inner, inner_eq, -⟩ := bind_eq_ok.mp write_eq
            obtain ⟨taken, taken_eq, -⟩ := bind_eq_ok.mp inner_eq
            exact ⟨_, by simp only [MessageSink.getWriteSize, taken_eq, ok_bind]; rfl⟩
        | v11 sink =>
            rw [kind] at write_eq
            obtain ⟨inner, inner_eq, -⟩ := bind_eq_ok.mp write_eq
            obtain ⟨taken, taken_eq, -⟩ := bind_eq_ok.mp inner_eq
            exact ⟨_, by simp only [MessageSink.getWriteSize, taken_eq, ok_bind]; rfl⟩
      obtain ⟨⟨⟨sink, msg⟩, size⟩, size_eq⟩ := called
      have sent := write_eq.symm.trans (MessageSink.write_eq size_eq maxWrite amount)
      simp only [Except.ok.injEq, Prod.mk.injEq] at sent
      obtain ⟨⟨rfl, rfl⟩, rfl⟩ := sent
      exact ⟨sink, msg', size, min amount (min size maxWrite), size_eq, rfl⟩

theorem step_update {transfer next : Transfer} {update : Update}
    (step_eq : transfer.step (.update update) = .ok next) :
    ∃ msg whole, transfer.msg.update update = .ok msg ∧ transfer.whole.update update = .ok whole ∧
      next = { transfer with msg, whole } := by
  obtain ⟨msg', msg_eq, step_eq⟩ := bind_eq_ok.mp step_eq
  obtain ⟨whole', whole_eq, step_eq⟩ := bind_eq_ok.mp step_eq
  exact ⟨msg', whole', msg_eq, whole_eq, (Except.ok.inj step_eq).symm⟩

/-- What holds of a message and its writer, whatever the sizes. -/
structure Accounted (transfer : Transfer) : Prop where
  behind : transfer.whole.EntityBehind
  account : ∃ progress, Accounts progress transfer.msg transfer.whole ∧
    transfer.sink.Keeps progress

/-- The message is not known well enough for a first line, and a call does nothing. -/
def Waits (transfer next : Transfer) : Prop :=
  transfer.sink.firstLine transfer.whole = .ok none ∧ next.encoding = transfer.encoding

/-- The call has taken all that there was. -/
def CaughtUp (next : Transfer) : Prop :=
  next.msg.entity = [] ∧ next.sink.writeState = next.whole.state

/-- The message is done, and all of it was taken and sent. -/
structure Finished (transfer : Transfer) : Prop where
  done : transfer.whole.state = .done
  taken : transfer.msg.isSent = true
  written : transfer.sink.writeState = .done
  sent : transfer.sink.buffer = []

variable {transfer next : Transfer}

theorem accounted_handed {sink : MessageSink} {msg : HttpMessage} (fresh : sink.IsFresh)
    (behind : msg.EntityBehind) : (handed sink msg).Accounted :=
  ⟨behind, {}, .start _, MessageSink.keeps_fresh fresh⟩

/-- An update that does not fail on the message does not fail on what is left of it. -/
theorem Accounted.step_update {update : Update} {whole : HttpMessage}
    (accounted : transfer.Accounted) (whole_eq : transfer.whole.update update = .ok whole) :
    ∃ msg, transfer.msg.update update = .ok msg ∧
      transfer.step (.update update) = .ok { transfer with msg, whole } := by
  obtain ⟨progress, accounts, -⟩ := accounted.account
  obtain ⟨msg, msg_eq, -⟩ := accounts.update whole_eq
  exact ⟨msg, msg_eq, by simp only [step, msg_eq, whole_eq, ok_bind]⟩

theorem Accounted.update {update : Update} (accounted : transfer.Accounted)
    (step_eq : transfer.step (.update update) = .ok next) : next.Accounted := by
  obtain ⟨progress, accounts, keeps⟩ := accounted.account
  obtain ⟨msg, whole, msg_eq, whole_eq, rfl⟩ := Transfer.step_update step_eq
  obtain ⟨msg', msg_eq', accounts'⟩ := accounts.update whole_eq
  obtain rfl := Except.ok.inj (msg_eq.symm.trans msg_eq')
  exact ⟨accounted.behind.update whole_eq, progress, accounts', keeps⟩

theorem Accounted.call {event : Event} (accounted : transfer.Accounted)
    (call : ∀ update, event ≠ .update update) (step_eq : transfer.step event = .ok next) :
    next.whole = transfer.whole ∧ next.Accounted ∧ transfer.encoding <+: next.encoding ∧
      (Waits transfer next ∨ next.CaughtUp) := by
  obtain ⟨progress, accounts, keeps⟩ := accounted.account
  obtain ⟨sink, msg, size, amount, size_eq, rfl⟩ := step_call call step_eq
  have encoding : transfer.sent ++ sink.buffer.take amount ++ (sink.drop amount).buffer =
      transfer.sent ++ sink.buffer := by
    rw [MessageSink.buffer_drop, List.append_assoc, List.take_append_drop]
  obtain ⟨-, ⟨-, unknown, rfl, rfl⟩ | ⟨-, -, longer, msg_eq, keeps'⟩⟩ :=
    keeps.getWriteSize accounts size_eq
  · have same : transfer.sink.firstLine transfer.msg = transfer.sink.firstLine transfer.whole :=
      MessageSink.firstLine_congr accounts.firstLine _
    refine ⟨rfl, ⟨accounted.behind, progress, accounts, keeps.drop _⟩, ?_,
      Or.inl ⟨same ▸ unknown, encoding⟩⟩
    rw [Transfer.encoding, Transfer.encoding, encoding]
  · have accounts' := accounts.round transfer.sink.flatten_split
    rw [← msg_eq] at accounts'
    refine ⟨rfl, ⟨accounted.behind, _, accounts', keeps'.drop _⟩, ?_, Or.inr ⟨?_, ?_⟩⟩
    · rw [Transfer.encoding, Transfer.encoding, encoding]
      exact List.prefix_append_right_inj _ |>.mpr longer
    · by_cases header : transfer.whole.state = .header
      · have entity := accounts'.entity
        rw [accounted.behind header, List.append_eq_nil_iff] at entity
        exact entity.2
      · rw [msg_eq]
        exact accounts.round_entity header
    · rw [MessageSink.writeState_drop, keeps'.writeState]
      exact accounts.round_writeState

/-- A message that is done, with a writer that has nothing left, is finished. -/
theorem Accounted.finished (accounted : transfer.Accounted) (taken : transfer.msg.isSent = true)
    (written : transfer.sink.writeState = transfer.whole.state)
    (sent : transfer.sink.buffer = []) : transfer.Finished := by
  obtain ⟨progress, accounts, -⟩ := accounted.account
  have done : transfer.whole.state = .done := by
    rw [← accounts.state]
    exact ((HttpMessage.isSent_iff _).mp taken).1
  exact ⟨done, taken, written.trans done, sent⟩

/-- The writer can be called when all of the entity was taken. -/
theorem Accounted.getWriteSize_ok {line : Option Str} (accounted : transfer.Accounted)
    (known : transfer.sink.firstLine transfer.whole = .ok line)
    (small : transfer.msg.entity.length < 2 ^ 31) :
    ∃ sink msg, transfer.sink.getWriteSize transfer.msg = .ok ((sink, msg), sink.buffer.length) ∧
      transfer.step .getWriteSize = .ok { transfer with sink, msg } := by
  obtain ⟨progress, accounts, keeps⟩ := accounted.account
  rw [← MessageSink.firstLine_congr accounts.firstLine] at known
  obtain ⟨⟨⟨sink, msg⟩, size⟩, size_eq⟩ := keeps.getWriteSize_ok accounts known small
  obtain rfl := (keeps.getWriteSize accounts size_eq).1
  exact ⟨sink, msg, size_eq, by simp only [step, size_eq, ok_bind]⟩

/-- A message that is done, and whose entity was taken, can be sent to the end. -/
theorem Accounted.finish {first : Str} (accounted : transfer.Accounted)
    (known : transfer.sink.firstLine transfer.whole = .ok (some first))
    (done : transfer.whole.state = .done) (taken : transfer.msg.entity = []) :
    ∃ event next, (∀ update, event ≠ .update update) ∧ transfer.step event = .ok next ∧
      next.Finished ∧ next.whole = transfer.whole ∧ transfer.encoding <+: next.sent := by
  obtain ⟨sink, msg, size_eq, -⟩ := accounted.getWriteSize_ok known (by simp [taken])
  have write_eq := MessageSink.write_eq size_eq sink.buffer.length sink.buffer.length
  simp only [min_self, List.take_length] at write_eq
  have step_eq : transfer.step (.write sink.buffer.length sink.buffer.length) =
      .ok { transfer with
        sink := sink.drop sink.buffer.length
        msg
        sent := transfer.sent ++ sink.buffer } := by
    simp only [step, write_eq, ok_bind]
  obtain ⟨-, accounted', longer, ⟨unknown, -⟩ | ⟨-, written⟩⟩ :=
    accounted.call (Event.write_ne _ _) step_eq
  · exact absurd (known.symm.trans unknown) (by simp)
  · have all_sent : (sink.drop sink.buffer.length).buffer = [] := by
      simp [MessageSink.buffer_drop]
    obtain ⟨progress', accounts', keeps'⟩ := accounted'.account
    have finished := accounts'.finished (keeps'.writeState.symm.trans (written.trans done))
    have isSent : msg.isSent = true :=
      (HttpMessage.isSent_iff _).mpr ⟨accounts'.state.trans done, finished.2.2.2⟩
    refine ⟨_, _, Event.write_ne _ _, step_eq, accounted'.finished isSent written all_sent, rfl, ?_⟩
    simpa [Transfer.encoding, all_sent] using longer

/-- Where the writer accounts for the message, a complete encoding is its layout. -/
theorem Sound.layout (sound : transfer.Sound) (finished : transfer.Finished) :
    ∃ first progress, transfer.sink.firstLine transfer.whole = .ok (some first) ∧
      transfer.sent = transfer.sink.stream first progress ∧ progress.writeState = .done ∧
      transfer.sink.Splits progress.pieces ∧ progress.headers = transfer.whole.headers ∧
      progress.pieces.flatten = transfer.whole.entity ∧
      progress.footers = transfer.whole.footers := by
  obtain ⟨progress, represents, accounts⟩ := sound
  have section_eq : transfer.sink.writeState = progress.writeState := by
    cases kind : transfer.sink with
    | gny sink =>
        rw [kind] at represents
        obtain ⟨-, rfl, rfl⟩ | ⟨first, -, written⟩ := represents
        · rfl
        · exact written.writeState
    | v11 sink =>
        rw [kind] at represents
        obtain ⟨-, rfl, rfl⟩ | ⟨first, -, written⟩ := represents
        · rfl
        · exact written.writeState
  have done : progress.writeState = .done := section_eq.symm.trans finished.written
  obtain ⟨headers, entity, footers, -⟩ := accounts.finished done
  obtain ⟨-, -, rfl⟩ | ⟨first, known, stream_eq, splits⟩ := represents.cases
  · cases done
  · rw [finished.sent, List.append_nil] at stream_eq
    exact ⟨first, progress, known, stream_eq, done, splits, headers, entity, footers⟩

/-! ### Messages of a kind -/

/-- The runs of a writer over messages of a kind, from where it was handed one. -/
inductive Writing (origin kind : HttpMessage → Prop) (sink : MessageSink) : Transfer → Prop
  | handed {msg : HttpMessage} (begins : origin msg) : Writing origin kind sink (handed sink msg)
  | update {transfer next : Transfer} {update : Update}
      (before : Writing origin kind sink transfer)
      (step_eq : transfer.step (.update update) = .ok next) (known : kind next.whole) :
      Writing origin kind sink next
  | call {transfer next : Transfer} {event : Event} (before : Writing origin kind sink transfer)
      (call : ∀ update, event ≠ .update update) (step_eq : transfer.step event = .ok next) :
      Writing origin kind sink next

/-- What a writer needs of the messages of a kind: behind the header section it knows the first
line, and the entity does not matter. -/
structure Writable (origin kind : HttpMessage → Prop) (sink : MessageSink) : Prop where
  fresh : sink.IsFresh
  origin : ∀ msg, origin msg → kind msg ∧ msg.EntityBehind
  line : ∀ msg, kind msg → msg.state ≠ .header → ∃ first, sink.firstLine msg = .ok (some first)
  entity : ∀ msg entity, kind msg → kind { msg with entity }

variable {origin kind : HttpMessage → Prop} {sink : MessageSink}

/-- The message is of its kind, and the writer is still the one that it was. -/
theorem Writing.kept (writable : Writable origin kind sink)
    (writing : Writing origin kind sink transfer) :
    transfer.Accounted ∧ kind transfer.whole ∧ sink.SameKind transfer.sink := by
  induction writing with
  | handed begins =>
      obtain ⟨known, behind⟩ := writable.origin _ begins
      exact ⟨accounted_handed writable.fresh behind, known, .refl _⟩
  | update _ step_eq known ih =>
      exact ⟨ih.1.update step_eq, known, ih.2.2.trans (sameKind_of_step step_eq)⟩
  | call _ call step_eq ih =>
      obtain ⟨accounted, known, same⟩ := ih
      obtain ⟨whole_eq, accounted', -⟩ := accounted.call call step_eq
      exact ⟨accounted', whole_eq ▸ known, same.trans (sameKind_of_step step_eq)⟩

theorem Writing.firstLine (writable : Writable origin kind sink)
    (writing : Writing origin kind sink transfer) (behind : transfer.whole.state ≠ .header) :
    ∃ first, transfer.sink.firstLine transfer.whole = .ok (some first) := by
  obtain ⟨-, known, same⟩ := writing.kept writable
  rw [← same.firstLine]
  exact writable.line _ known behind

/-- An entity of any size can arrive in bytes that are taken one by one. -/
theorem Writing.appendEntity (writable : Writable origin kind sink)
    (writing : Writing origin kind sink transfer) (inside : transfer.whole.state = .entity)
    (taken : transfer.msg.entity = []) (entity : Str) :
    ∃ next, Writing origin kind sink next ∧
      next.whole = { transfer.whole with entity := transfer.whole.entity ++ entity } ∧
      transfer.encoding <+: next.encoding ∧ next.msg.entity = [] := by
  induction entity generalizing transfer with
  | nil => exact ⟨transfer, writing, by simp, List.prefix_rfl, taken⟩
  | cons byte entity ih =>
      obtain ⟨accounted, kind_eq, -⟩ := writing.kept writable
      -- the byte arrives
      have whole_eq : transfer.whole.update (.appendEntity [byte]) =
          .ok { transfer.whole with entity := transfer.whole.entity ++ [byte] } :=
        HttpMessage.appendEntity_eq_ok.mpr ⟨inside, rfl⟩
      obtain ⟨msg, msg_eq, step_eq⟩ := accounted.step_update whole_eq
      have arrived := writing.update step_eq (writable.entity _ _ kind_eq)
      have small : msg.entity.length < 2 ^ 31 := by
        obtain ⟨-, rfl⟩ := HttpMessage.appendEntity_eq_ok.mp msg_eq
        simp [taken]
      -- and is taken
      obtain ⟨first, known⟩ := arrived.firstLine writable (by simp [inside])
      have accounted' := (arrived.kept writable).1
      obtain ⟨sink', msg', -, call_eq⟩ := accounted'.getWriteSize_ok known small
      obtain ⟨-, -, longer, ⟨unknown, -⟩ | ⟨taken', -⟩⟩ :=
        accounted'.call Event.getWriteSize_ne call_eq
      · exact absurd (known.symm.trans unknown) (by simp)
      · obtain ⟨next, writing', whole', longer', taken''⟩ :=
          ih (arrived.call Event.getWriteSize_ne call_eq) inside taken'
        exact ⟨next, writing', by simp [whole'], longer.trans longer', taken''⟩

/-- Other updates leave the entity alone. -/
theorem entity_update {msg next : HttpMessage} {update : Update}
    (other : ∀ entity, update ≠ .appendEntity entity) (updated : msg.update update = .ok next) :
    next.entity = msg.entity := by
  cases update with
  | setUrl url | setVerb verb | setStatus status =>
      cases updated
      rfl
  | addHeader key value =>
      obtain ⟨-, rfl⟩ := HttpMessage.addHeader_eq_ok.mp updated
      rfl
  | appendEntity entity => exact absurd rfl (other entity)
  | addFooter key value =>
      obtain ⟨-, rfl⟩ := HttpMessage.addFooter_eq_ok.mp updated
      rfl
  | endHeader =>
      obtain ⟨-, rfl⟩ := HttpMessage.endHeader_eq_ok.mp updated
      rfl
  | endEntity =>
      obtain ⟨-, rfl⟩ := HttpMessage.endEntity_eq_ok.mp updated
      rfl
  | endFooter =>
      obtain ⟨-, rfl⟩ := HttpMessage.endFooter_eq_ok.mp updated
      rfl

/-- A run over the same message, all of whose entity was taken, has put out at least as much, when
the writer was handed messages whose entity can be taken. -/
theorem Writing.resumes (writable : Writable origin kind sink)
    (begins : ∀ msg, origin msg → ∃ other, Writing origin kind sink other ∧ other.whole = msg ∧
      other.msg.entity = [])
    (writing : Writing origin kind sink transfer) :
    ∃ other, Writing origin kind sink other ∧ other.whole = transfer.whole ∧
      transfer.encoding <+: other.encoding ∧ other.msg.entity = [] := by
  induction writing with
  | @handed msg here =>
      obtain ⟨other, writing, same, taken⟩ := begins msg here
      obtain rfl | rfl := writable.fresh <;> exact ⟨other, writing, same, List.nil_prefix, taken⟩
  | @update transfer next update _ step_eq known ih =>
      obtain ⟨other, writing, same, longer, taken⟩ := ih
      obtain ⟨msg, whole, -, whole_eq, rfl⟩ := Transfer.step_update step_eq
      rw [← same] at whole_eq
      by_cases append : ∃ entity, update = .appendEntity entity
      · obtain ⟨entity, rfl⟩ := append
        obtain ⟨inside, rfl⟩ := HttpMessage.appendEntity_eq_ok.mp whole_eq
        obtain ⟨next, writing', whole', longer', taken'⟩ :=
          writing.appendEntity writable inside taken entity
        exact ⟨next, writing', whole', longer.trans longer', taken'⟩
      · have other_update (entity : Str) : update ≠ .appendEntity entity :=
          fun same_update => append ⟨entity, same_update⟩
        obtain ⟨msg', msg_eq, step_eq'⟩ := (writing.kept writable).1.step_update whole_eq
        refine ⟨_, writing.update step_eq' known, rfl, longer, ?_⟩
        rw [entity_update other_update msg_eq, taken]
  | @call transfer next event before call step_eq ih =>
      obtain ⟨whole_eq, -, -, ⟨-, encoding_eq⟩ | ⟨taken, -⟩⟩ :=
        (before.kept writable).1.call call step_eq
      · obtain ⟨other, writing, same, longer, taken⟩ := ih
        exact ⟨other, writing, same.trans whole_eq.symm, encoding_eq ▸ longer, taken⟩
      · exact ⟨next, before.call call step_eq, rfl, List.prefix_rfl, taken⟩

end Transfer
end GnyProxy
