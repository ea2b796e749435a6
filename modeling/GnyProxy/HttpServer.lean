import GnyProxy.Reading

/-!
# The HTTP server

`EntityLinker`: a connection whose requests are read one after the other, each with a processor
that makes its response.  A processor owns the two messages that it works on and deletes them with
itself, so that what was deleted is gone from the memory of the connection.
-/

namespace GnyProxy

/-- A generator: what `process` takes out of its request and puts into its response. -/
class EntityGenerator (γ : Type) where
  process : γ → HttpMessage → HttpMessage → γ × List ALinker.Part × List Update

/-- What ends a call: the use of something that is not there, or a fault of a reader, a writer or a
generator. -/
inductive Failure where
  | absent
  | fault (fault : Fault)
  deriving DecidableEq

def Failure.attempt {α : Type} : Except Fault α → Except Failure α
  | .ok value => .ok value
  | .error cause => .error (.fault cause)

/-- Where a message was allocated: on which side of which processor. -/
inductive Address where
  | inMsg (processor : Nat)
  | outMsg (processor : Nat)
  deriving DecidableEq

structure Processor (γ : Type) where
  generator : γ
  inMsg : Address
  outMsg : Address
  /-- All that was put into the response. -/
  appended : List Update := []

namespace Processor

variable {γ : Type}

/-- The response with all that was put into it. -/
def response (processor : Processor γ) : Except Fault HttpMessage :=
  (HttpMessage.fresh false).fill processor.appended

end Processor

/-- `entity_linker_data`. -/
structure EntityLinkerData (γ : Type) where
  readerCreator : Protocol
  writerCreator : Protocol
  entityGenCreator : Nat → γ

structure EntityLinker (γ : Type) where
  messages : Address → Option HttpMessage := fun _ => none
  processors : Nat → Option (Processor γ) := fun _ => none
  /-- Where the next processor will be. -/
  next : Nat := 0
  reader : MessageSource
  readerMsg : Address := .inMsg 0
  readerProcessor : Nat := 0
  /-- The writer with the message it was created for. -/
  writer : Option (MessageSink × Address) := none
  writerMsgs : List (Address × Nat) := []
  /-- The processors that were deleted, as they were. -/
  deleted : List (Nat × Processor γ) := []

namespace EntityLinker

open Failure (attempt)

section Operations

variable {γ : Type}

/-! ## Memory -/

def message (linker : EntityLinker γ) (address : Address) : Except Failure HttpMessage :=
  match linker.messages address with
  | some msg => .ok msg
  | none => .error .absent

def processor (linker : EntityLinker γ) (id : Nat) : Except Failure (Processor γ) :=
  match linker.processors id with
  | some processor => .ok processor
  | none => .error .absent

/-- `writer_msgs.front()`. -/
def front (linker : EntityLinker γ) : Except Failure (Address × Nat) :=
  match linker.writerMsgs with
  | entry :: _ => .ok entry
  | [] => .error .absent

def setMessage (linker : EntityLinker γ) (address : Address) (msg : HttpMessage) :
    EntityLinker γ :=
  { linker with messages := Function.update linker.messages address (some msg) }

/-- A request with a reader, and a processor with its messages that is queued. -/
def nextRequest (data : EntityLinkerData γ) (linker : EntityLinker γ) : EntityLinker γ :=
  { linker with
    messages := Function.update
      (Function.update linker.messages (.inMsg linker.next) (some (.fresh true)))
      (.outMsg linker.next) (some (.fresh false))
    processors := Function.update linker.processors linker.next (some
      { generator := data.entityGenCreator linker.next
        inMsg := .inMsg linker.next
        outMsg := .outMsg linker.next })
    next := linker.next + 1
    reader := data.readerCreator.readerCreator
    readerMsg := .inMsg linker.next
    readerProcessor := linker.next
    writerMsgs := linker.writerMsgs ++ [(.outMsg linker.next, linker.next)] }

/-- The constructor. -/
def create (data : EntityLinkerData γ) : EntityLinker γ :=
  { nextRequest data { reader := data.readerCreator.readerCreator } with
    writer := some (data.writerCreator.writerCreator, .outMsg 0) }

/-- The processor and its messages are deleted. -/
def delete (linker : EntityLinker γ) (id : Nat) : Except Failure (EntityLinker γ) := do
  let processor ← linker.processor id
  .ok { linker with
    messages := Function.update (Function.update linker.messages processor.inMsg none)
      processor.outMsg none
    processors := Function.update linker.processors id none
    deleted := linker.deleted ++ [(id, processor)] }

/-! ## Processors -/

/-- `process`. -/
def process [EntityGenerator γ] (linker : EntityLinker γ) (id : Nat) :
    Except Failure (EntityLinker γ) := do
  let processor ← linker.processor id
  let inMsg ← linker.message processor.inMsg
  let outMsg ← linker.message processor.outMsg
  let (generator, parts, updates) := EntityGenerator.process processor.generator inMsg outMsg
  let outMsg ← attempt (outMsg.fill updates)
  .ok { (linker.setMessage processor.inMsg (parts.foldl (fun msg part => part.clear msg) inMsg)
      ).setMessage processor.outMsg outMsg with
    processors := Function.update linker.processors id
      (some { processor with generator, appended := processor.appended ++ updates }) }

/-- `is_done`. -/
def isDone (linker : EntityLinker γ) (id : Nat) : Except Failure Bool := do
  let processor ← linker.processor id
  let inMsg ← linker.message processor.inMsg
  let outMsg ← linker.message processor.outMsg
  .ok (inMsg.isSent && outMsg.isSent)

/-! ## Writing -/

/-- `writer->get_write_size()`. -/
def writerSize (linker : EntityLinker γ) : Except Failure (EntityLinker γ × Nat) :=
  match linker.writer with
  | none => .error .absent
  | some (sink, own) => do
      let msg ← linker.message own
      let ((sink, msg), size) ← attempt (sink.getWriteSize msg)
      .ok ({ linker.setMessage own msg with writer := some (sink, own) }, size)

/-- Delete the first processor and the writer of its response when they are done. -/
def retire (linker : EntityLinker γ) : Except Failure (EntityLinker γ) :=
  match linker.writer with
  | none => .ok linker
  | some _ => do
      let (linker, size) ← linker.writerSize
      if size = 0 then do
        let (_, id) ← linker.front
        let done ← linker.isDone id
        if done then do
          let linker ← linker.delete id
          .ok { linker with writer := none, writerMsgs := linker.writerMsgs.tail }
        else
          .ok linker
      else
        .ok linker

/-- A writer for the first response, unless there is one. -/
def createWriter (data : EntityLinkerData γ) (linker : EntityLinker γ) : EntityLinker γ :=
  match linker.writer, linker.writerMsgs with
  | none, (msg, _) :: _ => { linker with writer := some (data.writerCreator.writerCreator, msg) }
  | _, _ => linker

variable [EntityGenerator γ]

def getWriteSize (data : EntityLinkerData γ) (linker : EntityLinker γ) :
    Except Failure (EntityLinker γ × Nat) := do
  let linker ← linker.retire
  let linker := createWriter data linker
  if linker.writer.isSome then do
    let (_, id) ← linker.front
    let linker ← linker.process id
    linker.writerSize
  else
    .ok (linker, 0)

/-- `EntityLinker::write`, where `send` takes at most `amount` bytes; the answer has the bytes that
were sent. -/
def write (linker : EntityLinker γ) (maxWrite amount : Nat) :
    Except Failure (EntityLinker γ × Str) :=
  match linker.writer with
  | none => .error .absent
  | some (sink, own) => do
      let msg ← linker.message own
      let ((sink, msg), sent) ← attempt (sink.write msg maxWrite amount)
      let linker := { linker.setMessage own msg with writer := some (sink, own) }
      let (_, id) ← linker.front
      let linker ← linker.process id
      .ok (linker, sent)

/-! ## Reading -/

/-- `EntityLinker::read`, where `rbuf` is what `recv` returned. -/
def read (data : EntityLinkerData γ) (linker : EntityLinker γ) (rbuf : Str) :
    Except Failure (EntityLinker γ × Nat) := do
  let msg ← linker.message linker.readerMsg
  let ((reader, msg), ret) ← attempt (linker.reader.read msg rbuf)
  let linker := { linker.setMessage linker.readerMsg msg with reader }
  let linker ← linker.process linker.readerProcessor
  let msg ← linker.message linker.readerMsg
  if msg.state = .done then
    .ok (nextRequest data linker, ret)
  else
    .ok (linker, ret)

/-! ## Runs -/

/-- What may happen to the connection. -/
inductive Action where
  | read (rbuf : Str)
  | getWriteSize
  | write (maxWrite amount : Nat)

/-- The connection, with the bytes that were sent so far. -/
structure Session (γ : Type) where
  linker : EntityLinker γ
  sent : Str := []

namespace Session

def start (data : EntityLinkerData γ) : Session γ := { linker := create data }

def step (data : EntityLinkerData γ) (session : Session γ) :
    Action → Except Failure (Session γ)
  | .read rbuf => do
      let (linker, _) ← session.linker.read data rbuf
      .ok { session with linker }
  | .getWriteSize => do
      let (linker, _) ← session.linker.getWriteSize data
      .ok { session with linker }
  | .write maxWrite amount => do
      let (linker, sent) ← session.linker.write maxWrite amount
      .ok { linker, sent := session.sent ++ sent }

def run (data : EntityLinkerData γ) : Session γ → List Action → Except Failure (Session γ)
  | session, [] => .ok session
  | session, action :: actions => do
      let session ← session.step data action
      run data session actions

end Session
end Operations
end EntityLinker
end GnyProxy
