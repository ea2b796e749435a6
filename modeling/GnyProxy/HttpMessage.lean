import GnyProxy.Http

/-!
# The message between a source and a sink

`http_message` with its source interface, whose assertions fix the order of the parts of a
message, and its sink interface, which hands out what has arrived and forgets it.
-/

namespace GnyProxy

/-- What ends a computation of the program: a failed assertion, a read outside a buffer, a loop
that never ends, or a position that does not fit its `int`. -/
inductive Fault where
  | assertion
  | outOfBounds
  | nonTermination
  | overflow
  deriving DecidableEq, Repr

@[simp] theorem ok_bind {ε α β : Type} (value : α) (next : α → Except ε β) :
    (Except.ok value >>= next) = next value := rfl

@[simp] theorem error_bind {ε α β : Type} (fault : ε) (next : α → Except ε β) :
    (Except.error fault >>= next) = .error fault := rfl

/-- A sequence of two computations succeeds exactly when both do. -/
theorem bind_eq_ok {ε α β : Type} {first : Except ε α} {next : α → Except ε β} {result : β} :
    (first >>= next) = .ok result ↔ ∃ value, first = .ok value ∧ next value = .ok result := by
  cases first with
  | error fault => simp
  | ok value => simp

/-- An asserted computation succeeds exactly when its assertion holds. -/
theorem asserted_eq_ok {α : Type*} {condition : Prop} [Decidable condition] {value result : α} :
    (if condition then (Except.ok value : Except Fault α) else .error .assertion) = .ok result ↔
      condition ∧ value = result := by
  by_cases holds : condition <;> simp [holds]

/-- `http_message_state_e`. -/
inductive MessageState where
  | header
  | entity
  | footer
  | done
  deriving DecidableEq, Repr

namespace MessageState

/-- The position of a state in its enumeration, by which the sources compare states. -/
def rank : MessageState → Nat
  | header => 0
  | entity => 1
  | footer => 2
  | done => 3

theorem rank_injective {left right : MessageState} (equality : left.rank = right.rank) :
    left = right := by
  cases left <;> cases right <;> simp [rank] at equality <;> rfl

@[simp] theorem rank_header : rank .header = 0 := rfl
@[simp] theorem rank_entity : rank .entity = 1 := rfl
@[simp] theorem rank_footer : rank .footer = 2 := rfl
@[simp] theorem rank_done : rank .done = 3 := rfl

theorem rank_le_three (state : MessageState) : state.rank ≤ 3 := by
  cases state <;> decide

end MessageState

/-- A list of header or footer lines, `vector<key_value_t>`. -/
abbrev Fields := List (Str × Str)

structure HttpMessage where
  isRequest : Bool
  url : Str := []
  verb : UInt8 := verbUnknown
  status : Int := -1
  headers : Fields := []
  footers : Fields := []
  entity : Str := []
  state : MessageState := .header
  deriving DecidableEq

namespace HttpMessage

/-- The constructor `http_message(is_request)`. -/
def fresh (isRequest : Bool) : HttpMessage := { isRequest }

/-! ## Source interface -/

def setUrl (msg : HttpMessage) (url : Str) : HttpMessage := { msg with url }

def setVerb (msg : HttpMessage) (verb : UInt8) : HttpMessage := { msg with verb }

def setStatus (msg : HttpMessage) (status : Int) : HttpMessage := { msg with status }

def addHeader (msg : HttpMessage) (key value : Str) : Except Fault HttpMessage :=
  if msg.state = .header then
    .ok { msg with headers := msg.headers ++ [(key, value)] }
  else
    .error .assertion

def appendEntity (msg : HttpMessage) (entity : Str) : Except Fault HttpMessage :=
  if msg.state = .entity then
    .ok { msg with entity := msg.entity ++ entity }
  else
    .error .assertion

def addFooter (msg : HttpMessage) (key value : Str) : Except Fault HttpMessage :=
  if msg.state = .footer then
    .ok { msg with footers := msg.footers ++ [(key, value)] }
  else
    .error .assertion

def endHeader (msg : HttpMessage) : Except Fault HttpMessage :=
  if msg.state.rank ≤ MessageState.rank .header then
    .ok { msg with state := .entity }
  else
    .error .assertion

def endEntity (msg : HttpMessage) : Except Fault HttpMessage :=
  if msg.state.rank ≤ MessageState.rank .entity then
    .ok { msg with state := .footer }
  else
    .error .assertion

def endFooter (msg : HttpMessage) : Except Fault HttpMessage :=
  if msg.state.rank ≤ MessageState.rank .footer then
    .ok { msg with state := .done }
  else
    .error .assertion

/-! ## Sink interface -/

/-- `get_headers` as seen by the message; the caller receives `msg.headers`. -/
def clearHeaders (msg : HttpMessage) : HttpMessage := { msg with headers := [] }

/-- `get_entity` as seen by the message; the caller receives `msg.entity`. -/
def clearEntity (msg : HttpMessage) : HttpMessage := { msg with entity := [] }

/-- `get_footers` as seen by the message; the caller receives `msg.footers`. -/
def clearFooters (msg : HttpMessage) : HttpMessage := { msg with footers := [] }

def isSent (msg : HttpMessage) : Bool :=
  msg.state = .done && msg.headers.isEmpty && msg.entity.isEmpty && msg.footers.isEmpty

theorem isSent_iff (msg : HttpMessage) :
    msg.isSent = true ↔
      msg.state = .done ∧ msg.headers = [] ∧ msg.entity = [] ∧ msg.footers = [] := by
  simp [isSent, and_assoc]

/-- The first line of the message has been set: a verb of the table's range and an url, or a
status. -/
def FirstLineSet (msg : HttpMessage) : Prop :=
  if msg.isRequest then msg.url ≠ [] ∧ msg.verb ≠ verbUnknown else msg.status ≠ -1

instance (msg : HttpMessage) : Decidable msg.FirstLineSet :=
  inferInstanceAs (Decidable (ite ..))

/-! ## What each update does -/

theorem addHeader_eq_ok {msg next : HttpMessage} {key value : Str} :
    msg.addHeader key value = .ok next ↔
      msg.state = .header ∧ { msg with headers := msg.headers ++ [(key, value)] } = next :=
  asserted_eq_ok

theorem appendEntity_eq_ok {msg next : HttpMessage} {entity : Str} :
    msg.appendEntity entity = .ok next ↔
      msg.state = .entity ∧ { msg with entity := msg.entity ++ entity } = next :=
  asserted_eq_ok

theorem addFooter_eq_ok {msg next : HttpMessage} {key value : Str} :
    msg.addFooter key value = .ok next ↔
      msg.state = .footer ∧ { msg with footers := msg.footers ++ [(key, value)] } = next :=
  asserted_eq_ok

theorem endHeader_eq_ok {msg next : HttpMessage} :
    msg.endHeader = .ok next ↔ msg.state.rank ≤ 0 ∧ { msg with state := .entity } = next :=
  asserted_eq_ok

theorem endEntity_eq_ok {msg next : HttpMessage} :
    msg.endEntity = .ok next ↔ msg.state.rank ≤ 1 ∧ { msg with state := .footer } = next :=
  asserted_eq_ok

theorem endFooter_eq_ok {msg next : HttpMessage} :
    msg.endFooter = .ok next ↔ msg.state.rank ≤ 2 ∧ { msg with state := .done } = next :=
  asserted_eq_ok

/-! ## Growth -/

/-- The header and footer lists of a message are extended, and nothing in them is changed. -/
def Grows (msg next : HttpMessage) : Prop :=
  msg.headers <+: next.headers ∧ msg.footers <+: next.footers

theorem Grows.refl (msg : HttpMessage) : msg.Grows msg := ⟨List.prefix_refl _, List.prefix_refl _⟩

theorem Grows.trans {first middle last : HttpMessage} (left : first.Grows middle)
    (right : middle.Grows last) : first.Grows last :=
  ⟨left.1.trans right.1, left.2.trans right.2⟩

end HttpMessage
end GnyProxy
