import GnyProxy.Copying
import GnyProxy.Reading
import GnyProxy.Responses

/-!
# What a writer puts out for a request

A writer may be handed a request when its first line is known, with whatever else of it has arrived.
What it puts out until the request is done and sent is a complete encoding of it, and what was put
out earlier is how one begins.
-/

namespace GnyProxy

open HttpMessage (InStep)

/-! ## Filling a message -/

namespace HttpMessage

/-- The first line alone. -/
def blank (msg : HttpMessage) : HttpMessage :=
  { msg with headers := [], entity := [], footers := [], state := .header }

theorem fill_addHeader {msg : HttpMessage} (header : msg.state = .header) (fields : Fields) :
    msg.fill (fields.map fun field => .addHeader field.1 field.2) =
      .ok { msg with headers := msg.headers ++ fields } := by
  rw [fill, List.foldlM_map]
  exact foldlM_addHeader header fields

theorem fill_addFooter {msg : HttpMessage} (footer : msg.state = .footer) (fields : Fields) :
    msg.fill (fields.map fun field => .addFooter field.1 field.2) =
      .ok { msg with footers := msg.footers ++ fields } := by
  rw [fill, List.foldlM_map]
  exact foldlM_addFooter footer fields

/-- The calls that fill a message behind its first line, up to its section. -/
def sections (msg : HttpMessage) : List Update :=
  (msg.headers.map fun field => .addHeader field.1 field.2) ++
    (if 1 ≤ msg.state.rank then [.endHeader, .appendEntity msg.entity] else []) ++
    (if 2 ≤ msg.state.rank then
      .endEntity :: msg.footers.map fun field => .addFooter field.1 field.2 else []) ++
    if 3 ≤ msg.state.rank then [.endFooter] else []

theorem inSection_sections (msg : HttpMessage) : ∀ update ∈ msg.sections, update.InSection := by
  intro update member
  simp only [sections, List.mem_append, List.mem_map] at member
  rcases member with ((⟨field, -, rfl⟩ | inside) | inside) | inside
  · trivial
  · split at inside
    · rcases List.mem_pair.mp inside with rfl | rfl <;> trivial
    · cases inside
  · split at inside
    · rcases List.mem_cons.mp inside with rfl | inside
      · trivial
      · obtain ⟨field, -, rfl⟩ := List.mem_map.mp inside
        trivial
    · cases inside
  · split at inside
    · rw [List.mem_singleton.mp inside]
      trivial
    · cases inside

/-- Every message is its first line, filled section by section. -/
theorem fill_sections {msg : HttpMessage} (inStep : InStep msg) :
    msg.blank.fill msg.sections = .ok msg := by
  have headers : msg.blank.fill (msg.headers.map fun field => .addHeader field.1 field.2) =
      .ok { msg with entity := [], footers := [], state := .header } :=
    fill_addHeader rfl msg.headers
  have entity : ({ msg with entity := [], footers := [], state := .header } : HttpMessage).fill
      [.endHeader, .appendEntity msg.entity] = .ok { msg with footers := [], state := .entity } :=
        rfl
  have footers : ({ msg with footers := [], state := .entity } : HttpMessage).fill
      (.endEntity :: msg.footers.map fun field => .addFooter field.1 field.2) =
        .ok { msg with state := .footer } :=
    @fill_addFooter { msg with footers := [], state := .footer } rfl msg.footers
  have ended : ({ msg with state := .footer } : HttpMessage).fill [.endFooter] =
      .ok { msg with state := .done } := rfl
  cases state : msg.state with
  | header =>
      have noEntity := inStep.entity (by simp [state])
      have noFooters := inStep.footers (by simp [state])
      have same :
          ({ msg with entity := [], footers := [], state := .header } : HttpMessage) = msg := by
        rw [← noEntity, ← noFooters, ← state]
      rw [same] at headers
      simpa [sections, state] using headers
  | entity =>
      have noFooters := inStep.footers (by simp [state])
      have same : ({ msg with footers := [], state := .entity } : HttpMessage) = msg := by
        rw [← noFooters, ← state]
      rw [same] at entity
      have split : msg.sections = (msg.headers.map fun field => .addHeader field.1 field.2) ++
          [.endHeader, .appendEntity msg.entity] := by simp [sections, state]
      rw [split, fill_append, headers, ok_bind, entity]
  | footer =>
      have split : msg.sections = (msg.headers.map fun field => .addHeader field.1 field.2) ++
          [.endHeader, .appendEntity msg.entity] ++
          (.endEntity :: msg.footers.map fun field => .addFooter field.1 field.2) := by
        simp [sections, state]
      rw [← state] at footers
      rw [split, fill_append, fill_append, headers, ok_bind, entity, ok_bind, footers]
  | done =>
      have split : msg.sections = (msg.headers.map fun field => .addHeader field.1 field.2) ++
          [.endHeader, .appendEntity msg.entity] ++
          (.endEntity :: msg.footers.map fun field => .addFooter field.1 field.2) ++
          [.endFooter] := by
        simp [sections, state]
      rw [← state] at ended
      rw [split, fill_append, fill_append, fill_append, headers, ok_bind, entity, ok_bind, footers,
        ok_bind, ended]

end HttpMessage

/-! ## Requests -/

/-- The first line of a request is known with a verb that has a name and a url. -/
theorem MessageSink.firstLine_of_request {msg : HttpMessage} {verb : Str} (sink : MessageSink)
    (request : msg.isRequest = true) (named : verbtoa msg.verb = some verb)
    (known : msg.verb ≠ verbUnknown) (url : msg.url ≠ []) :
    ∃ first, sink.firstLine msg = .ok (some first) := by
  cases sink with
  | gny sink =>
      exact ⟨writeString [msg.verb] msg.url, by
        simp [MessageSink.firstLine, MessageSinkGny.firstLine, request, url, known]⟩
  | v11 sink =>
      exact ⟨verb ++ [32] ++ urlEncode msg.url ++ ascii " HTTP/1.1" ++ crlf, by
        simp [MessageSink.firstLine, MessageSink11.firstLine, request, url, known, named]⟩

namespace Transfer

/-- The first line of the message is this one. -/
def Begins (sink : MessageSink) (first : Str) (msg : HttpMessage) : Prop :=
  sink.firstLine msg = .ok (some first)

/-- There is nothing behind the first line. -/
def Opens (sink : MessageSink) (first : Str) (msg : HttpMessage) : Prop :=
  Begins sink first msg ∧ msg.blank = msg

/-- The runs of a writer over a request that keeps its first line. -/
def Requesting (sink : MessageSink) (first : Str) : Transfer → Prop :=
  Writing (Opens sink first) (Begins sink first) sink

/-- A complete encoding of a request: what such a writer sends in a run to the end. -/
def EncodesRequest (sink : MessageSink) (request : HttpMessage) (encoding : Str) : Prop :=
  ∃ first final, Requesting sink first final ∧ final.Finished ∧ final.whole = request ∧
    final.sent = encoding

variable {sink : MessageSink} {first : Str} {transfer next : Transfer}

theorem writable_request (fresh : sink.IsFresh) (first : Str) :
    Writable (Opens sink first) (Begins sink first) sink where
  fresh := fresh
  origin := by
    rintro msg ⟨begins, blank⟩
    refine ⟨begins, fun _ => ?_⟩
    rw [← blank]
    rfl
  line _ begins _ := ⟨first, begins⟩
  entity msg entity begins := by
    have same : HttpMessage.SameFirstLine { msg with entity } msg := ⟨rfl, rfl, rfl, rfl⟩
    exact (MessageSink.firstLine_congr same sink).trans begins

theorem Requesting.kept (fresh : sink.IsFresh) (requesting : Requesting sink first transfer) :
    transfer.Accounted ∧ Begins sink first transfer.whole ∧ sink.SameKind transfer.sink :=
  Writing.kept (writable_request fresh first) requesting

/-- An update behind the first line. -/
theorem begins_update {msg next : HttpMessage} {update : Update} (begins : Begins sink first msg)
    (inSection : update.InSection) (updated : msg.update update = .ok next) :
    Begins sink first next := by
  have admitted : msg.Admits update := by
    cases update with
    | setUrl url | setVerb verb | setStatus status => exact inSection.elim
    | _ => trivial
  rw [Begins, ← begins]
  exact MessageSink.firstLine_congr (HttpMessage.sameFirstLine_of_update
    (MessageSink.firstLineSet_of_firstLine begins) admitted updated) sink

/-- More of the request arrives. -/
theorem Requesting.fill {updates : List Update} {whole : HttpMessage} (fresh : sink.IsFresh)
    (requesting : Requesting sink first transfer)
    (inSection : ∀ update ∈ updates, update.InSection)
    (filled : transfer.whole.fill updates = .ok whole) :
    ∃ msg, transfer.msg.fill updates = .ok msg ∧
      Requesting sink first { transfer with msg, whole } := by
  induction updates generalizing transfer with
  | nil =>
      cases filled
      exact ⟨transfer.msg, rfl, requesting⟩
  | cons update updates ih =>
      rw [HttpMessage.fill_cons] at filled
      obtain ⟨middle, updated, filled⟩ := bind_eq_ok.mp filled
      obtain ⟨accounted, begins, -⟩ := requesting.kept fresh
      obtain ⟨msg, msg_eq, step_eq⟩ := accounted.step_update updated
      have arrived : Requesting sink first { transfer with msg, whole := middle } :=
        Writing.update requesting step_eq
          (begins_update begins (inSection update (List.mem_cons_self ..)) updated)
      obtain ⟨last, last_eq, later⟩ := ih arrived
        (fun other member => inSection other (List.mem_cons_of_mem _ member)) filled
      exact ⟨last, by rw [HttpMessage.fill_cons, msg_eq, ok_bind, last_eq], later⟩

/-- A writer may be handed whatever has arrived when the first line is known. -/
theorem requesting_handed {msg : HttpMessage} (fresh : sink.IsFresh)
    (begins : Begins sink first msg) (inStep : InStep msg) :
    Requesting sink first (handed sink msg) := by
  have same : msg.blank.SameFirstLine msg := ⟨rfl, rfl, rfl, rfl⟩
  have opens : Opens sink first msg.blank :=
    ⟨(MessageSink.firstLine_congr same sink).trans begins, rfl⟩
  have blank : Requesting sink first (handed sink msg.blank) := Writing.handed opens
  obtain ⟨last, last_eq, later⟩ := blank.fill fresh (HttpMessage.inSection_sections msg)
    (HttpMessage.fill_sections inStep)
  obtain rfl := Except.ok.inj ((HttpMessage.fill_sections inStep).symm.trans last_eq)
  exact later

theorem Requesting.call {event : Event} (requesting : Requesting sink first transfer)
    (call : ∀ update, event ≠ .update update) (step_eq : transfer.step event = .ok next) :
    Requesting sink first next :=
  Writing.call requesting call step_eq

/-- With nothing left to write, a request that is sent was sent to the last byte. -/
theorem Requesting.encodes {msg msg' whole : HttpMessage} {current current' : MessageSink}
    {sent : Str} {size : Nat} (fresh : sink.IsFresh)
    (requesting : Requesting sink first ⟨msg, current, whole, sent⟩)
    (size_eq : current.getWriteSize msg = .ok ((current', msg'), size)) (none_left : size = 0)
    (isSent : msg'.isSent = true) : EncodesRequest sink whole sent := by
  have step_eq : (⟨msg, current, whole, sent⟩ : Transfer).step .getWriteSize =
      .ok ⟨msg', current', whole, sent⟩ := by
    simp only [step, size_eq, ok_bind]
  obtain ⟨accounted, begins, kind⟩ := requesting.kept fresh
  obtain ⟨progress, accounts, keeps⟩ := accounted.account
  have empty : current'.buffer = [] := by
    rw [← List.length_eq_zero_iff, ← (keeps.getWriteSize accounts size_eq).1, none_left]
  obtain ⟨-, accounted', -, ⟨unknown, -⟩ | ⟨-, written⟩⟩ :=
    accounted.call Event.getWriteSize_ne step_eq
  · rw [← kind.firstLine] at unknown
    cases unknown.symm.trans begins
  · exact ⟨first, _, requesting.call Event.getWriteSize_ne step_eq,
      accounted'.finished isSent written empty, rfl,
      rfl⟩

/-- Whatever was sent of a request so far is how a complete encoding of it begins, if no more of it
comes. -/
theorem Requesting.completes (fresh : sink.IsFresh)
    (requesting : Requesting sink first transfer) :
    ∃ encoding, EncodesRequest sink { transfer.whole with state := .done } encoding ∧
      transfer.sent <+: encoding := by
  have writable := writable_request fresh first
  obtain ⟨other, resumed, same, longer, taken⟩ := Writing.resumes writable (fun msg opens => by
    refine ⟨_, .handed opens, rfl, ?_⟩
    rw [handed, ← opens.2]
    rfl) requesting
  have sent : transfer.sent <+: other.encoding := (List.prefix_append _ _).trans longer
  obtain ⟨accounted, begins, kind⟩ := resumed.kept writable
  -- the end of the request
  obtain ⟨ended, writing, whole_eq, encoding_eq, taken'⟩ : ∃ ended, Requesting sink first ended ∧
      ended.whole = { transfer.whole with state := .done } ∧ ended.encoding = other.encoding ∧
      ended.msg.entity = [] := by
    by_cases done : other.whole.state = .done
    · refine ⟨other, resumed, ?_, rfl, taken⟩
      rw [← same, ← done]
    · have below : other.whole.state.rank ≤ 2 := by
        cases state : other.whole.state <;> simp_all
      have ends : other.whole.update .endFooter = .ok { other.whole with state := .done } :=
        HttpMessage.endFooter_eq_ok.mpr ⟨below, rfl⟩
      obtain ⟨msg, msg_eq, step_eq⟩ := accounted.step_update ends
      obtain ⟨-, rfl⟩ := HttpMessage.endFooter_eq_ok.mp msg_eq
      have behind : Update.endFooter.InSection := trivial
      exact ⟨_, Writing.update resumed step_eq (begins_update begins behind ends), by rw [same],
        rfl, taken⟩
  have done : ended.whole.state = .done := by
    rw [whole_eq]
  obtain ⟨accounted', begins', kind'⟩ := writing.kept fresh
  have known : ended.sink.firstLine ended.whole = .ok (some first) := by
    rw [← kind'.firstLine]
    exact begins'
  obtain ⟨event, final, call, step_eq, finished, final_whole, longer'⟩ :=
    accounted'.finish known done taken'
  refine ⟨final.sent, ⟨first, final, writing.call call step_eq, finished, ?_, rfl⟩, ?_⟩
  · rw [final_whole, whole_eq]
  · exact (encoding_eq ▸ sent).trans longer'

end Transfer
end GnyProxy
