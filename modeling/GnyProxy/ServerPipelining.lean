import GnyProxy.HttpServer
import GnyProxy.Pipelining

/-!
# Pipelining in the HTTP server

The queue of the server is never empty and ends with the processor whose request is read, every
call finds what it uses, and responses are sent whole and in the order of their requests.
-/

namespace GnyProxy

open Transfer (EncodesMessage Replying)

namespace Failure

variable {α β : Type}

/-- Nothing was missing, and the result is as it should be. -/
def Safely (call : Except Failure α) (post : α → Prop) : Prop :=
  match call with
  | .ok value => post value
  | .error failure => failure ≠ .absent

theorem safely_ok {value : α} {post : α → Prop} (holds : post value) :
    Safely (.ok value) post := holds

theorem Safely.imp {call : Except Failure α} {post other : α → Prop} (safely : Safely call post)
    (imp : ∀ value, post value → other value) : Safely call other := by
  cases call with
  | ok value => exact imp value safely
  | error failure => exact safely

theorem Safely.bind {call : Except Failure α} {next : α → Except Failure β} {mid : α → Prop}
    {post : β → Prop} (first : Safely call mid)
    (second : ∀ value, mid value → Safely (next value) post) : Safely (call >>= next) post := by
  cases call with
  | ok value => exact second value first
  | error failure => exact first

/-- A fault of a component is not about something missing. -/
theorem safely_attempt {computation : Except Fault α} {post : α → Prop}
    (holds : ∀ value, computation = .ok value → post value) :
    Safely (attempt computation) post := by
  cases computation with
  | ok value => exact holds value rfl
  | error fault => exact nofun

end Failure

namespace Processor

variable {γ : Type}

/-- A status that is set stays. -/
def KeepsStatus (processor : Processor γ) : Prop :=
  (HttpMessage.fresh false).Admitted processor.appended

/-- And a response that is done has one in its range. -/
def InRange (processor : Processor γ) : Prop :=
  processor.KeepsStatus ∧
    match processor.response with
    | .ok whole => whole.state = .done → 0 ≤ whole.status ∧ whole.status ≤ 65534
    | .error _ => True

instance (processor : Processor γ) : Decidable processor.InRange := by
  unfold InRange KeepsStatus
  cases processor.response <;> infer_instance

/-- What was sent is a complete encoding of the response. -/
def Encoded (fresh : MessageSink) (processor : Processor γ) (encoding : Str) : Prop :=
  processor.InRange → ∃ whole, processor.response = .ok whole ∧
    EncodesMessage fresh whole encoding

end Processor

namespace EntityLinker

open Failure (attempt Safely safely_ok safely_attempt)

section Invariants

variable {γ : Type}

/-! ## The queue -/

/-- How a processor is queued. -/
def entry (id : Nat) : Address × Nat := (.outMsg id, id)

/-- The processors are queued in order, and the last one is the one whose request is read. -/
structure Queue (linker : EntityLinker γ) (ids : List Nat) : Prop where
  entries : linker.writerMsgs = ids.map entry
  order : linker.deleted.map (·.1) ++ ids = List.range linker.next
  last : linker.readerProcessor + 1 = linker.next
  readerMsg : linker.readerMsg = .inMsg linker.readerProcessor

/-- Nothing happens to the queue and the reader's place in it. -/
structure SameQueue (linker linker' : EntityLinker γ) : Prop where
  writerMsgs : linker'.writerMsgs = linker.writerMsgs
  deleted : linker'.deleted = linker.deleted
  next : linker'.next = linker.next
  readerProcessor : linker'.readerProcessor = linker.readerProcessor
  readerMsg : linker'.readerMsg = linker.readerMsg

/-- A processor is there with its messages. -/
structure Holds (linker : EntityLinker γ) (id : Nat) (processor : Processor γ)
    (inMsg outMsg : HttpMessage) : Prop where
  processor_eq : linker.processors id = some processor
  inMsg_address : processor.inMsg = .inMsg id
  outMsg_address : processor.outMsg = .outMsg id
  inMsg_eq : linker.messages (.inMsg id) = some inMsg
  outMsg_eq : linker.messages (.outMsg id) = some outMsg

/-- A processor with its response on its way. -/
def Works (fresh : MessageSink) (linker : EntityLinker γ) (id : Nat) (sink : MessageSink)
    (current : Str) : Prop :=
  ∃ processor inMsg outMsg, Holds linker id processor inMsg outMsg ∧
    (processor.KeepsStatus → ∃ whole, processor.response = .ok whole ∧
      Replying fresh ⟨outMsg, sink, whole, current⟩)

/-- The first response has a writer, and the others wait for one. -/
structure Serves (fresh : MessageSink) (linker : EntityLinker γ) (first : Nat) (rest : List Nat)
    (sink : MessageSink) (encodings : List Str) (current : Str) : Prop where
  queue : Queue linker (first :: rest)
  writer : linker.writer = some (sink, .outMsg first)
  head : Works fresh linker first sink current
  waiting : ∀ id ∈ rest, Works fresh linker id fresh []
  encoded : List.Forall₂ (fun gone encoding => gone.2.Encoded fresh encoding) linker.deleted
    encodings

/-- The request that is read is not finished. -/
def Reads (linker : EntityLinker γ) : Prop :=
  ∀ msg, linker.messages linker.readerMsg = some msg → msg.state ≠ .done

/-- The invariant of the runs. -/
structure Invariant (data : EntityLinkerData γ) (linker : EntityLinker γ) (sent : Str) : Prop where
  reads : Reads linker
  serves : ∃ first rest sink encodings current,
    Serves data.writerCreator.writerCreator linker first rest sink encodings current ∧
      sent = encodings.flatten ++ current

section Queue

variable {linker linker' : EntityLinker γ} {ids rest : List Nat} {first id : Nat}

theorem Queue.congr (queue : Queue linker ids) (same : SameQueue linker linker') :
    Queue linker' ids where
  entries := same.writerMsgs.trans queue.entries
  order := by
    rw [same.deleted, same.next]
    exact queue.order
  last := by
    rw [same.readerProcessor, same.next]
    exact queue.last
  readerMsg := by
    rw [same.readerMsg, same.readerProcessor]
    exact queue.readerMsg

theorem Queue.below (queue : Queue linker ids) (member : id ∈ ids) : id < linker.next := by
  have inside : id ∈ linker.deleted.map (·.1) ++ ids := List.mem_append_right _ member
  rw [queue.order] at inside
  exact List.mem_range.mp inside

theorem Queue.nodup (queue : Queue linker ids) : (linker.deleted.map (·.1) ++ ids).Nodup := by
  rw [queue.order]
  exact List.nodup_range

/-- The processor whose request is read comes last. -/
theorem Queue.getLast (queue : Queue linker (first :: rest)) :
    (first :: rest).getLast? = some linker.readerProcessor := by
  have whole := congrArg List.getLast? queue.order
  rw [List.getLast?_append, ← queue.last, List.range_succ, List.getLast?_concat] at whole
  cases last : (first :: rest).getLast? with
  | none => simp at last
  | some id => simpa [last] using whole

theorem Queue.reader_mem (queue : Queue linker (first :: rest)) :
    linker.readerProcessor ∈ first :: rest :=
  List.mem_of_getLast? queue.getLast

theorem Queue.front (queue : Queue linker (first :: rest)) :
    linker.front = .ok (.outMsg first, first) := by
  rw [EntityLinker.front, queue.entries]
  rfl

/-- The first processor may leave the queue, unless its request is the one that is read. -/
theorem Queue.pop (queue : Queue linker (first :: rest)) (other : first ≠ linker.readerProcessor) :
    ∃ second later, rest = second :: later := by
  cases rest with
  | nil =>
      have only := queue.reader_mem
      rw [List.mem_singleton] at only
      exact absurd only.symm other
  | cons second later => exact ⟨second, later, rfl⟩

end Queue

/-! ## Processors -/

section Processors

variable {fresh sink sink' : MessageSink} {linker linker' : EntityLinker γ} {id : Nat}
  {processor : Processor γ} {inMsg outMsg : HttpMessage} {current : Str}

theorem Holds.processor_ok (holds : Holds linker id processor inMsg outMsg) :
    linker.processor id = .ok processor := by
  rw [EntityLinker.processor, holds.processor_eq]

theorem Holds.inMsg_ok (holds : Holds linker id processor inMsg outMsg) :
    linker.message processor.inMsg = .ok inMsg := by
  rw [message, holds.inMsg_address, holds.inMsg_eq]

theorem Holds.outMsg_ok (holds : Holds linker id processor inMsg outMsg) :
    linker.message processor.outMsg = .ok outMsg := by
  rw [message, holds.outMsg_address, holds.outMsg_eq]

theorem Holds.unique {processor' : Processor γ} {inMsg' outMsg' : HttpMessage}
    (holds : Holds linker id processor inMsg outMsg)
    (other : Holds linker id processor' inMsg' outMsg') :
    processor' = processor ∧ inMsg' = inMsg ∧ outMsg' = outMsg := by
  refine ⟨?_, ?_, ?_⟩
  · exact Option.some.inj (other.processor_eq.symm.trans holds.processor_eq)
  · exact Option.some.inj (other.inMsg_eq.symm.trans holds.inMsg_eq)
  · exact Option.some.inj (other.outMsg_eq.symm.trans holds.outMsg_eq)

/-- Whatever arrives of the request, the response stays as it is. -/
theorem Works.congr (works : Works fresh linker id sink current)
    (processors : linker'.processors id = linker.processors id)
    (request : (linker.messages (.inMsg id)).isSome → (linker'.messages (.inMsg id)).isSome)
    (response : linker'.messages (.outMsg id) = linker.messages (.outMsg id)) :
    Works fresh linker' id sink current := by
  rcases works with ⟨processor, inMsg, outMsg, holds, answers⟩
  have there : (linker.messages (.inMsg id)).isSome := by simp [holds.inMsg_eq]
  rcases Option.isSome_iff_exists.mp (request there) with ⟨inMsg', inMsg_eq⟩
  exact ⟨processor, inMsg', outMsg, ⟨processors.trans holds.processor_eq, holds.inMsg_address,
    holds.outMsg_address, inMsg_eq, response.trans holds.outMsg_eq⟩, answers⟩

/-- What a call of `process` does: the response grows, and parts of the request may be gone. -/
structure Processed (linker : EntityLinker γ) (id : Nat) (linker' : EntityLinker γ) : Prop where
  queue : SameQueue linker linker'
  writer : linker'.writer = linker.writer
  other : ∀ other, other ≠ id → linker'.processors other = linker.processors other ∧
    linker'.messages (.inMsg other) = linker.messages (.inMsg other) ∧
    linker'.messages (.outMsg other) = linker.messages (.outMsg other)
  grows : ∀ processor inMsg outMsg, Holds linker id processor inMsg outMsg →
    ∃ processor' inMsg' outMsg' updates, Holds linker' id processor' inMsg' outMsg' ∧
      processor'.appended = processor.appended ++ updates ∧ outMsg.fill updates = .ok outMsg' ∧
      inMsg'.state = inMsg.state

theorem state_clear (part : ALinker.Part) (msg : HttpMessage) :
    (part.clear msg).state = msg.state := by
  cases part <;> rfl

theorem state_foldl_clear (parts : List ALinker.Part) (msg : HttpMessage) :
    (parts.foldl (fun msg part => part.clear msg) msg).state = msg.state := by
  induction parts generalizing msg with
  | nil => rfl
  | cons part parts ih =>
      rw [List.foldl_cons, ih]
      exact state_clear part msg

theorem safely_process [EntityGenerator γ] (holds : Holds linker id processor inMsg outMsg) :
    Safely (linker.process id) (Processed linker id) := by
  rcases made : EntityGenerator.process processor.generator inMsg outMsg with
    ⟨generator, parts, updates⟩
  simp only [process, holds.processor_ok, holds.inMsg_ok, holds.outMsg_ok, ok_bind, made]
  have filling : Safely (attempt (outMsg.fill updates)) fun outMsg' =>
      outMsg.fill updates = .ok outMsg' := safely_attempt fun _ filled => filled
  apply filling.bind
  intro outMsg' filled
  refine safely_ok ⟨⟨rfl, rfl, rfl, rfl, rfl⟩, rfl, ?_, ?_⟩
  · intro other differs
    simp [setMessage, holds.inMsg_address, holds.outMsg_address, differs]
  · intro processor' inMsg' outMsg' holds'
    rcases holds.unique holds' with ⟨rfl, rfl, rfl⟩
    refine ⟨_, _, _, updates, ⟨Function.update_self _ _ _, holds.inMsg_address,
      holds.outMsg_address, ?_, ?_⟩, rfl, filled, state_foldl_clear parts _⟩
    · simp [setMessage, holds.inMsg_address, holds.outMsg_address]
    · simp [setMessage, holds.inMsg_address, holds.outMsg_address]

/-- A response that grows is still on its way. -/
theorem Works.processed (isFresh : fresh.IsFresh) (works : Works fresh linker id sink current)
    (processed : Processed linker id linker') : Works fresh linker' id sink current := by
  rcases works with ⟨processor, inMsg, outMsg, holds, answers⟩
  rcases processed.grows processor inMsg outMsg holds with
    ⟨processor', inMsg', outMsg', updates, holds', appended, filled, -⟩
  refine ⟨processor', inMsg', outMsg', holds', fun keeps => ?_⟩
  rw [Processor.KeepsStatus, appended] at keeps
  rcases keeps.split with ⟨kept, later⟩
  rcases answers kept with ⟨whole, response, replying⟩
  have before : (HttpMessage.fresh false).fill processor.appended = .ok whole := response
  rcases replying.fill isFresh (later whole before) filled with ⟨whole', whole_eq, replying'⟩
  refine ⟨whole', ?_, replying'⟩
  rw [Processor.response, appended, HttpMessage.fill_append, before, ok_bind]
  exact whole_eq

end Processors

/-! ## What a call does -/

section Calls

variable {data : EntityLinkerData γ} {fresh sink sink' : MessageSink}
  {linker linker' : EntityLinker γ} {first id : Nat} {rest : List Nat} {encodings : List Str}
  {current current' sent : Str}

/-- The processors in the queue are there. -/
theorem Serves.works (serves : Serves fresh linker first rest sink encodings current)
    (member : id ∈ first :: rest) :
    ∃ processor inMsg outMsg, Holds linker id processor inMsg outMsg := by
  have works : ∃ sink current, Works fresh linker id sink current := by
    rcases List.mem_cons.mp member with rfl | later
    · exact ⟨sink, current, serves.head⟩
    · exact ⟨fresh, [], serves.waiting id later⟩
  rcases works with ⟨_, _, processor, inMsg, outMsg, holds, -⟩
  exact ⟨processor, inMsg, outMsg, holds⟩

/-- The rest of the queue has other processors than the first. -/
theorem Serves.ne (serves : Serves fresh linker first rest sink encodings current)
    (later : id ∈ rest) : id ≠ first := by
  rintro rfl
  exact (List.nodup_cons.mp serves.queue.nodup.of_append_right).1 later

/-- More arrives of the request that is read. -/
theorem Serves.reading (serves : Serves fresh linker first rest sink encodings current)
    (reader : MessageSource) (msg : HttpMessage) :
    Serves fresh { linker.setMessage linker.readerMsg msg with reader } first rest sink encodings
      current := by
  have kept {id : Nat} {sink : MessageSink} {current : Str}
      (works : Works fresh linker id sink current) :
      Works fresh { linker.setMessage linker.readerMsg msg with reader } id sink current := by
    refine works.congr rfl ?_ ?_
    · intro there
      by_cases same : id = linker.readerProcessor
      · simp [setMessage, serves.queue.readerMsg, same]
      · simpa [setMessage, serves.queue.readerMsg, same] using there
    · simp [setMessage, serves.queue.readerMsg]
  exact ⟨serves.queue.congr ⟨rfl, rfl, rfl, rfl, rfl⟩, serves.writer, kept serves.head,
    fun id later => kept (serves.waiting id later), serves.encoded⟩

/-- A processor in the queue is called. -/
theorem Serves.process (isFresh : fresh.IsFresh)
    (serves : Serves fresh linker first rest sink encodings current)
    (processed : Processed linker id linker') :
    Serves fresh linker' first rest sink encodings current := by
  have kept {other : Nat} {sink : MessageSink} {current : Str}
      (works : Works fresh linker other sink current) :
      Works fresh linker' other sink current := by
    by_cases same : other = id
    · rw [same] at works ⊢
      exact works.processed isFresh processed
    · rcases processed.other other same with ⟨processors, request, response⟩
      exact works.congr processors (fun there => request ▸ there) response
  refine ⟨serves.queue.congr processed.queue, processed.writer.trans serves.writer,
    kept serves.head, fun other later => kept (serves.waiting other later), ?_⟩
  rw [processed.queue.deleted]
  exact serves.encoded

/-- The writer of the first response is called. -/
theorem Serves.call (serves : Serves fresh linker first rest sink encodings current)
    {outMsg outMsg' : HttpMessage} (outMsg_eq : linker.messages (.outMsg first) = some outMsg)
    (replying : ∀ whole, Replying fresh ⟨outMsg, sink, whole, current⟩ →
      Replying fresh ⟨outMsg', sink', whole, current'⟩) :
    Serves fresh
      { linker.setMessage (.outMsg first) outMsg' with writer := some (sink', .outMsg first) }
      first rest sink' encodings current' := by
  refine ⟨serves.queue.congr ⟨rfl, rfl, rfl, rfl, rfl⟩, rfl, ?_, fun id later => ?_,
    serves.encoded⟩
  · rcases serves.head with ⟨processor, inMsg, own, holds, answers⟩
    obtain rfl : own = outMsg := Option.some.inj (holds.outMsg_eq.symm.trans outMsg_eq)
    refine ⟨processor, inMsg, outMsg', ⟨holds.processor_eq, holds.inMsg_address,
      holds.outMsg_address, ?_, ?_⟩, fun keeps => ?_⟩
    · simpa [setMessage] using holds.inMsg_eq
    · simp [setMessage]
    · rcases answers keeps with ⟨whole, response, before⟩
      exact ⟨whole, response, replying whole before⟩
  · refine (serves.waiting id later).congr rfl ?_ ?_
    · intro there
      simpa [setMessage] using there
    · simp [setMessage, serves.ne later]

/-- With nothing left to write, what was sent of the first response is all of it when the response
is sent. -/
def Written (fresh : MessageSink) (linker : EntityLinker γ) (first : Nat) (current : Str) : Prop :=
  ∀ processor inMsg outMsg, Holds linker first processor inMsg outMsg → outMsg.isSent = true →
    processor.Encoded fresh current

theorem Serves.writerSize (isFresh : fresh.IsFresh)
    (serves : Serves fresh linker first rest sink encodings current) :
    Safely linker.writerSize fun result => ∃ sink' outMsg',
      result.1 = { linker.setMessage (.outMsg first) outMsg' with
        writer := some (sink', .outMsg first) } ∧
      Serves fresh result.1 first rest sink' encodings current ∧
      (result.2 = 0 → Written fresh result.1 first current) := by
  rcases serves.head with ⟨processor, inMsg, outMsg, holds, answers⟩
  have found : linker.message (.outMsg first) = .ok outMsg := by
    rw [message, holds.outMsg_eq]
  simp only [EntityLinker.writerSize, serves.writer, found, ok_bind]
  have calling : Safely (attempt (sink.getWriteSize outMsg)) fun result =>
      sink.getWriteSize outMsg = .ok result := safely_attempt fun _ size_eq => size_eq
  apply calling.bind
  rintro ⟨⟨sink', outMsg'⟩, size⟩ size_eq
  have called := serves.call holds.outMsg_eq fun _ replying =>
    replying.getWriteSize isFresh size_eq
  refine safely_ok ⟨sink', outMsg', rfl, called, fun none_left => ?_⟩
  intro processor' inMsg' own holds' isSent inRange
  obtain rfl : processor' = processor :=
    Option.some.inj (holds'.processor_eq.symm.trans holds.processor_eq)
  obtain rfl : own = outMsg' := by
    have own_eq := holds'.outMsg_eq
    simpa [setMessage, eq_comm] using own_eq
  rcases answers inRange.1 with ⟨whole, response, replying⟩
  have set := inRange.2
  rw [response] at set
  have stage := ((replying.getWriteSize isFresh size_eq).same isFresh).1
  rcases set (stage.2.trans ((HttpMessage.isSent_iff _).mp isSent).1) with ⟨low, high⟩
  exact ⟨whole, response, replying.encodes isFresh size_eq none_left isSent low high⟩

/-- The writer of a response is no other than that of the request that is read. -/
theorem Reads.written (reads : Reads linker) (queue : Queue linker (first :: rest))
    (outMsg : HttpMessage) (writer : Option (MessageSink × Address)) :
    Reads { linker.setMessage (.outMsg first) outMsg with writer } := by
  intro msg found
  apply reads msg
  simpa [setMessage, queue.readerMsg] using found

theorem Reads.processed (reads : Reads linker) (queue : Queue linker (first :: rest))
    {processor : Processor γ} {inMsg outMsg : HttpMessage}
    (holds : Holds linker id processor inMsg outMsg) (processed : Processed linker id linker') :
    Reads linker' := by
  intro msg found
  rw [processed.queue.readerMsg, queue.readerMsg] at found
  by_cases same : id = linker.readerProcessor
  · rcases processed.grows processor inMsg outMsg holds with
      ⟨processor', inMsg', outMsg', updates, holds', -, -, state⟩
    rw [← same, holds'.inMsg_eq] at found
    obtain rfl := Option.some.inj found
    rw [state]
    apply reads
    rw [queue.readerMsg, ← same]
    exact holds.inMsg_eq
  · rw [(processed.other _ (Ne.symm same)).2.1] at found
    apply reads
    rw [queue.readerMsg]
    exact found

/-- The connection when the first processor and its writer are gone. -/
def popped (linker : EntityLinker γ) (first : Nat) (processor : Processor γ) : EntityLinker γ :=
  { linker with
    messages := Function.update (Function.update linker.messages (.inMsg first) none)
      (.outMsg first) none
    processors := Function.update linker.processors first none
    deleted := linker.deleted ++ [(first, processor)]
    writer := none
    writerMsgs := linker.writerMsgs.tail }

/-- Behind a response that was sent to the last byte comes the next one. -/
theorem Serves.popped {processor : Processor γ}
    (serves : Serves fresh linker first rest sink encodings current)
    (encoded : processor.Encoded fresh current) (other : first ≠ linker.readerProcessor) :
    ∃ second later, (linker.popped first processor).writerMsgs = (second :: later).map entry ∧
      Serves fresh { linker.popped first processor with writer := some (fresh, .outMsg second) }
        second later fresh (encodings ++ [current]) [] := by
  rcases serves.queue.pop other with ⟨second, later, rfl⟩
  have tail : linker.writerMsgs.tail = (second :: later).map entry := by
    rw [serves.queue.entries]
    rfl
  have kept : ∀ id ∈ second :: later, Works fresh
      { linker.popped first processor with writer := some (fresh, .outMsg second) }
      id fresh [] := by
    intro id member
    have differs := serves.ne member
    refine (serves.waiting id member).congr ?_ ?_ ?_
    · simp [EntityLinker.popped, differs]
    · intro there
      simpa [EntityLinker.popped, differs] using there
    · simp [EntityLinker.popped, differs]
  refine ⟨second, later, tail, ⟨tail, ?_, serves.queue.last, serves.queue.readerMsg⟩, rfl,
    kept second List.mem_cons_self, fun id member => kept id (List.mem_cons_of_mem _ member), ?_⟩
  · simpa [EntityLinker.popped] using serves.queue.order
  · exact List.rel_append serves.encoded (.cons encoded .nil)

theorem createWriter_eq {own : Address} {queue : List (Address × Nat)}
    (writer : linker.writer = none) (entries : linker.writerMsgs = (own, id) :: queue) :
    createWriter data linker =
      { linker with writer := some (data.writerCreator.writerCreator, own) } := by
  simp only [createWriter, writer, entries]

theorem Holds.isDone {processor : Processor γ} {inMsg outMsg : HttpMessage}
    (holds : Holds linker id processor inMsg outMsg) :
    linker.isDone id = .ok (inMsg.isSent && outMsg.isSent) := by
  simp only [EntityLinker.isDone, holds.processor_ok, holds.inMsg_ok, holds.outMsg_ok, ok_bind]

theorem Holds.delete {processor : Processor γ} {inMsg outMsg : HttpMessage}
    (holds : Holds linker id processor inMsg outMsg) :
    (linker.delete id >>= fun linker => (.ok { linker with
      writer := none
      writerMsgs := linker.writerMsgs.tail } : Except Failure (EntityLinker γ))) =
      .ok (linker.popped id processor) := by
  simp only [EntityLinker.delete, holds.processor_ok, ok_bind, EntityLinker.popped,
    holds.inMsg_address, holds.outMsg_address]

/-- A call of `get_write_size` first deletes what is done. -/
theorem Serves.retire (reads : Reads linker)
    (serves : Serves data.writerCreator.writerCreator linker first rest sink encodings current) :
    Safely linker.retire fun linker' =>
      Invariant data (createWriter data linker') (encodings.flatten ++ current) := by
  have isFresh := data.writerCreator.isFresh_writerCreator
  simp only [EntityLinker.retire, serves.writer]
  apply (serves.writerSize isFresh).bind
  rintro ⟨linker', size⟩ ⟨sink', outMsg', same, serves', written⟩
  obtain rfl : linker' = _ := same
  have reads' := reads.written serves.queue outMsg' (some (sink', .outMsg first))
  generalize { linker.setMessage (.outMsg first) outMsg' with
    writer := some (sink', .outMsg first) } = linker' at *
  have stays : Invariant data (createWriter data linker') (encodings.flatten ++ current) := by
    rw [createWriter, serves'.writer]
    exact ⟨reads', first, rest, sink', encodings, current, serves', rfl⟩
  by_cases none_left : size = 0
  · rcases serves'.works List.mem_cons_self with ⟨processor, inMsg, outMsg, holds⟩
    simp only [none_left, if_true, serves'.queue.front, holds.isDone, ok_bind, Bool.and_eq_true]
    by_cases done : inMsg.isSent = true ∧ outMsg.isSent = true
    · have other : first ≠ linker'.readerProcessor := by
        rintro rfl
        have finished := ((HttpMessage.isSent_iff _).mp done.1).1
        refine reads' inMsg ?_ finished
        rw [serves'.queue.readerMsg]
        exact holds.inMsg_eq
      rcases serves'.popped (written none_left processor inMsg outMsg holds done.2) other with
        ⟨second, later, tail, serves''⟩
      have created : createWriter data (linker'.popped first processor) =
          { linker'.popped first processor with
            writer := some (data.writerCreator.writerCreator, .outMsg second) } :=
        createWriter_eq rfl tail
      rw [if_pos done, holds.delete]
      refine safely_ok ?_
      rw [created]
      refine ⟨?_, second, later, _, encodings ++ [current], [], serves'', by simp⟩
      intro msg found
      apply reads' msg
      have reader : (linker'.popped first processor).messages linker'.readerMsg = some msg := found
      rw [serves'.queue.readerMsg] at reader ⊢
      simpa [EntityLinker.popped, Ne.symm other] using reader
    · rw [if_neg done]
      exact safely_ok stays
  · rw [if_neg none_left]
    exact safely_ok stays

/-- A new request begins, with a processor that is queued last. -/
theorem Serves.nextRequest (serves : Serves fresh linker first rest sink encodings current) :
    Serves fresh (nextRequest data linker) first (rest ++ [linker.next]) sink
      encodings current := by
  have kept {id : Nat} {sink : MessageSink} {current : Str} (member : id ∈ first :: rest)
      (works : Works fresh linker id sink current) :
      Works fresh (EntityLinker.nextRequest data linker) id sink current := by
    have old : id ≠ linker.next := (serves.queue.below member).ne
    refine works.congr ?_ ?_ ?_
    · simp [EntityLinker.nextRequest, old]
    · intro there
      simpa [EntityLinker.nextRequest, old] using there
    · simp [EntityLinker.nextRequest, old]
  refine ⟨⟨?_, ?_, rfl, rfl⟩, serves.writer, kept List.mem_cons_self serves.head, ?_,
    serves.encoded⟩
  · simp [EntityLinker.nextRequest, serves.queue.entries, entry]
  · simp only [EntityLinker.nextRequest, List.range_succ, ← serves.queue.order, List.append_assoc,
      List.cons_append]
  · intro id member
    rcases List.mem_append.mp member with later | new
    · exact kept (List.mem_cons_of_mem _ later) (serves.waiting id later)
    · rw [List.mem_singleton.mp new]
      refine ⟨⟨data.entityGenCreator linker.next, .inMsg linker.next, .outMsg linker.next, []⟩,
        .fresh true, .fresh false, ⟨?_, rfl, rfl, ?_, ?_⟩,
        fun _ => ⟨.fresh false, rfl, Transfer.replying_start⟩⟩
      · simp [EntityLinker.nextRequest]
      · simp [EntityLinker.nextRequest]
      · simp [EntityLinker.nextRequest]

theorem reads_nextRequest (data : EntityLinkerData γ) (linker : EntityLinker γ) :
    Reads (nextRequest data linker) := by
  intro msg found
  have fresh : some (HttpMessage.fresh true) = some msg := by
    simpa [nextRequest] using found
  rw [← Option.some.inj fresh]
  exact nofun

variable [EntityGenerator γ]

theorem Invariant.getWriteSize (invariant : Invariant data linker sent) :
    Safely (linker.getWriteSize data) fun result => Invariant data result.1 sent := by
  have isFresh := data.writerCreator.isFresh_writerCreator
  rcases invariant with ⟨reads, first, rest, sink, encodings, current, serves, rfl⟩
  apply (serves.retire reads).bind
  intro linker' invariant'
  generalize createWriter data linker' = created at invariant' ⊢
  rcases invariant' with ⟨reads', first', rest', sink', encodings', current', serves', sent_eq⟩
  have writer : created.writer.isSome := by simp [serves'.writer]
  simp only [writer, if_true, serves'.queue.front, ok_bind]
  -- the first processor is called
  rcases serves'.works List.mem_cons_self with ⟨processor, inMsg, outMsg, holds⟩
  apply (safely_process holds).bind
  intro called processed
  have served := serves'.process isFresh processed
  have still := reads'.processed serves'.queue holds processed
  -- and the writer of its response
  apply (served.writerSize isFresh).imp
  rintro ⟨last, size⟩ ⟨sink'', outMsg', same, serves'', -⟩
  obtain rfl : last = _ := same
  exact ⟨still.written served.queue outMsg' _, first', rest', sink'', encodings',
    current', serves'',
    sent_eq⟩

theorem Invariant.write {maxWrite amount : Nat} (invariant : Invariant data linker sent) :
    Safely (linker.write maxWrite amount) fun result =>
      Invariant data result.1 (sent ++ result.2) := by
  have isFresh := data.writerCreator.isFresh_writerCreator
  rcases invariant with ⟨reads, first, rest, sink, encodings, current, serves, rfl⟩
  rcases serves.head with ⟨processor, inMsg, outMsg, holds, -⟩
  have found : linker.message (.outMsg first) = .ok outMsg := by
    rw [message, holds.outMsg_eq]
  simp only [EntityLinker.write, serves.writer, found, ok_bind]
  have writing : Safely (attempt (sink.write outMsg maxWrite amount)) fun result =>
      sink.write outMsg maxWrite amount = .ok result := safely_attempt fun _ write_eq => write_eq
  apply writing.bind
  rintro ⟨⟨sink', outMsg'⟩, bytes⟩ write_eq
  have served := serves.call holds.outMsg_eq fun _ replying => replying.write isFresh write_eq
  have still := reads.written serves.queue outMsg' (some (sink', .outMsg first))
  simp only [served.queue.front, ok_bind]
  rcases served.works List.mem_cons_self with ⟨processor', inMsg', own, holds'⟩
  apply (safely_process holds').bind
  intro called processed
  refine safely_ok ⟨still.processed served.queue holds' processed, first, rest, sink', encodings,
    current ++ bytes, served.process isFresh processed, by simp⟩

theorem Invariant.read {rbuf : Str} (invariant : Invariant data linker sent) :
    Safely (linker.read data rbuf) fun result => Invariant data result.1 sent := by
  have isFresh := data.writerCreator.isFresh_writerCreator
  rcases invariant with ⟨reads, first, rest, sink, encodings, current, serves, sent_eq⟩
  rcases serves.works serves.queue.reader_mem with ⟨processor, inMsg, outMsg, holds⟩
  have found : linker.message linker.readerMsg = .ok inMsg := by
    rw [message, serves.queue.readerMsg, holds.inMsg_eq]
  simp only [EntityLinker.read, found, ok_bind]
  have reading : Safely (attempt (linker.reader.read inMsg rbuf)) fun _ => True :=
    safely_attempt fun _ _ => trivial
  apply reading.bind
  rintro ⟨⟨reader, msg⟩, ret⟩ -
  -- the processor sees what has arrived
  have arrived := serves.reading reader msg
  rcases arrived.works arrived.queue.reader_mem with ⟨processor', inMsg', outMsg', holds'⟩
  apply (safely_process holds').bind
  intro linker' processed
  have served := arrived.process isFresh processed
  rcases served.works served.queue.reader_mem with ⟨processor'', last, outMsg'', holds''⟩
  have found' : linker'.message linker'.readerMsg = .ok last := by
    rw [message, served.queue.readerMsg, holds''.inMsg_eq]
  simp only [found', ok_bind]
  -- and the next request begins when this one is finished
  by_cases done : last.state = .done
  · rw [if_pos done]
    exact safely_ok ⟨reads_nextRequest data linker', first, _, sink, encodings, current,
      served.nextRequest, sent_eq⟩
  · rw [if_neg done]
    refine safely_ok ⟨?_, first, rest, sink, encodings, current, served, sent_eq⟩
    intro msg' same
    rw [served.queue.readerMsg, holds''.inMsg_eq] at same
    rwa [← Option.some.inj same]

end Calls
end Invariants

/-! ## Runs -/

namespace Session

variable {γ : Type}

/-- The statuses of the responses stay, and are in their range. -/
def InRange (session : Session γ) : Prop :=
  (∀ gone ∈ session.linker.deleted, gone.2.InRange) ∧
    ∀ entry ∈ session.linker.writerMsgs, ∀ processor ∈ session.linker.processors entry.2,
      processor.InRange

instance (session : Session γ) : Decidable session.InRange := by
  unfold InRange
  infer_instance

/-- The queue ends with the processor whose request is read, and those that were deleted came
before. -/
structure Queued (session : Session γ) : Prop where
  last : session.linker.writerMsgs.getLast? =
    some (.outMsg session.linker.readerProcessor, session.linker.readerProcessor)
  reads : ∃ processor, session.linker.processors session.linker.readerProcessor = some processor ∧
    processor.inMsg = session.linker.readerMsg
  gone : ∀ gone ∈ session.linker.deleted, gone.1 < session.linker.readerProcessor
  order : session.linker.deleted.map (·.1) ++ session.linker.writerMsgs.map (·.2) =
    List.range session.linker.next

/-- What was sent are complete encodings of the responses of the processors that were deleted, and
the first bytes of one of the response behind those, as it would be if it ended there. -/
def SentInOrder (data : EntityLinkerData γ) (session : Session γ) : Prop :=
  ∃ encodings current, session.sent = encodings.flatten ++ current ∧
    List.Forall₂ (fun gone encoding => ∃ whole, gone.2.response = .ok whole ∧
      EncodesMessage data.writerCreator.writerCreator whole encoding)
        session.linker.deleted encodings ∧
    ∃ front rest processor whole, session.linker.writerMsgs = front :: rest ∧
      session.linker.processors front.2 = some processor ∧ processor.response = .ok whole ∧
      (current = [] ∨ ∃ encoding,
        EncodesMessage data.writerCreator.writerCreator { whole with state := .done } encoding ∧
          current <+: encoding)

variable {data : EntityLinkerData γ} {session : Session γ}

theorem invariant_start (data : EntityLinkerData γ) :
    Invariant data (start data).linker (start data).sent where
  reads := reads_nextRequest data { reader := data.readerCreator.readerCreator }
  serves := by
    refine ⟨0, [], data.writerCreator.writerCreator, [], [], ⟨⟨rfl, rfl, rfl, rfl⟩, rfl, ?_, nofun,
      .nil⟩, rfl⟩
    refine ⟨⟨data.entityGenCreator 0, .inMsg 0, .outMsg 0, []⟩, .fresh true, .fresh false,
      ⟨?_, rfl, rfl, ?_, ?_⟩, fun _ => ⟨.fresh false, rfl, Transfer.replying_start⟩⟩
    · simp [start, create, nextRequest]
    · simp [start, create, nextRequest]
    · simp [start, create, nextRequest]

theorem queued_of_invariant (invariant : Invariant data session.linker session.sent) :
    session.Queued := by
  rcases invariant.serves with ⟨first, rest, sink, encodings, current, serves, -⟩
  have queue := serves.queue
  refine ⟨?_, ?_, ?_, ?_⟩
  · rw [queue.entries, List.getLast?_map, queue.getLast]
    rfl
  · rcases serves.works queue.reader_mem with ⟨processor, inMsg, outMsg, holds⟩
    exact ⟨processor, holds.processor_eq, holds.inMsg_address.trans queue.readerMsg.symm⟩
  · intro gone member
    have before : gone.1 ∈ session.linker.deleted.map (·.1) := List.mem_map_of_mem member
    have inside := List.mem_append_left (first :: rest) before
    rw [queue.order, List.mem_range, ← queue.last] at inside
    have other : gone.1 ≠ session.linker.readerProcessor := fun same =>
      List.disjoint_of_nodup_append queue.nodup before (same ▸ queue.reader_mem)
    omega
  · have ids : session.linker.writerMsgs.map (·.2) = first :: rest := by
      rw [queue.entries, List.map_map]
      exact List.map_id _
    rw [ids]
    exact queue.order

theorem sentInOrder_of_invariant (invariant : Invariant data session.linker session.sent)
    (inRange : session.InRange) : session.SentInOrder data := by
  rcases invariant.serves with ⟨first, rest, sink, encodings, current, serves, sent⟩
  refine ⟨encodings, current, sent, ?_, ?_⟩
  · exact ALinker.Session.forall₂_imp_of_mem serves.encoded fun gone member encoding encoded =>
      encoded (inRange.1 gone member)
  · rcases serves.head with ⟨processor, inMsg, outMsg, holds, answers⟩
    have queued : entry first ∈ session.linker.writerMsgs := by
      rw [serves.queue.entries]
      exact List.mem_cons_self
    rcases answers (inRange.2 _ queued processor holds.processor_eq).1 with
      ⟨whole, response, replying⟩
    exact ⟨entry first, rest.map entry, processor, whole, serves.queue.entries,
      holds.processor_eq, response, replying.begins data.writerCreator.isFresh_writerCreator⟩

variable [EntityGenerator γ]

theorem safely_step {action : Action} (invariant : Invariant data session.linker session.sent) :
    Safely (session.step data action) fun next => Invariant data next.linker next.sent := by
  cases action with
  | read rbuf => exact invariant.read.bind fun _ next => safely_ok next
  | getWriteSize => exact invariant.getWriteSize.bind fun _ next => safely_ok next
  | write maxWrite amount => exact invariant.write.bind fun _ next => safely_ok next

theorem safely_run {actions : List Action}
    (invariant : Invariant data session.linker session.sent) :
    Safely (session.run data actions) fun last => Invariant data last.linker last.sent := by
  induction actions generalizing session with
  | nil => exact safely_ok invariant
  | cons action actions ih => exact (safely_step invariant).bind fun _ next => ih next

end Session

open Session in
/-- In every run the queue ends with the processor whose request is read, nothing that is used is
missing, and responses are sent whole and in the order of their requests. -/
theorem answersInOrder {γ : Type} [EntityGenerator γ] (data : EntityLinkerData γ)
    (actions : List Action) :
    (start data).run data actions ≠ .error .absent ∧
      ∀ session, (start data).run data actions = .ok session →
        session.Queued ∧ (session.InRange → session.SentInOrder data) := by
  have safely := @safely_run γ data (start data) _ actions (invariant_start data)
  constructor
  · intro missing
    rw [missing] at safely
    exact safely rfl
  · intro session outcome
    rw [outcome] at safely
    exact ⟨queued_of_invariant safely, sentInOrder_of_invariant safely⟩

/-- Greets whoever has sent a request. -/
structure Greeter where
  greeted : Bool := false

instance : EntityGenerator Greeter where
  process greeter inMsg _ :=
    if inMsg.state = .done ∧ greeter.greeted = false then
      ({ greeted := true }, [.headers, .entity, .footers],
        [.endHeader, .setStatus 200, .appendEntity (ascii "hello"), .endFooter])
    else
      (greeter, [], [])

/-- Two requests at once, and their responses in pieces. -/
def twoGreetings : List Action :=
  let request := ascii "GET / HTTP/1.1\r\nHost: a\r\n\r\n"
  [.read (request ++ request), .getWriteSize, .read request, .write 10 10, .getWriteSize,
    .write 100 100, .getWriteSize, .write 7 100, .getWriteSize]

def greetingData : EntityLinkerData Greeter := ⟨.v11, .v11, fun _ => {}⟩

open Session in
theorem answersInOrder_two : ∃ session,
    (start greetingData).run greetingData twoGreetings = .ok session ∧
      session.linker.deleted.length = 1 ∧ session.Queued ∧ session.SentInOrder greetingData := by
  have runs : ((start greetingData).run greetingData twoGreetings).toOption.map (fun session =>
      (session.linker.deleted.length, decide session.InRange)) = some (1, true) := by
    decide +kernel
  cases outcome : (start greetingData).run greetingData twoGreetings with
  | error failure =>
      rw [outcome] at runs
      cases runs
  | ok session =>
      rw [outcome] at runs
      simp only [Except.toOption, Option.map_some, Option.some.injEq, Prod.mk.injEq,
        decide_eq_true_eq] at runs
      rcases (answersInOrder greetingData twoGreetings).2 session outcome with ⟨queued, ordered⟩
      exact ⟨session, rfl, runs.1, queued, ordered runs.2⟩

end EntityLinker
end GnyProxy
