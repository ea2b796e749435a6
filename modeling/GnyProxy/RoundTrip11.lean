import GnyProxy.Layout11

/-!
# HTTP/1.1 decoding undoes encoding

Messages whose fields fit on lines and whose framing is left to the writer, or announced as the
exact length, are read back from what the writer sends on any schedule.
-/

namespace GnyProxy

open Incremental

/-- The format can express the message: a first line that can be written, fields that fit on
lines, and no headers that are dropped on the way. -/
structure Representable11 (msg : HttpMessage) : Prop where
  firstLine : if msg.isRequest then msg.verb < verbUnknown ∧ msg.url ≠ []
    else msg.status ≠ -1 ∧ -2 ^ 31 ≤ msg.status ∧ msg.status < 2 ^ 31
  headers : ∀ field ∈ msg.headers, WellFormed field
  nulFree : ∀ field ∈ msg.headers, 0 ∉ field.1
  handedOn : ∀ field ∈ msg.headers, ∀ name ∈ droppedHeaders, ¬SameFolded field.1 name
  footers : ∀ field ∈ msg.footers, WellFormed field

/-- The length of the entity is not announced, or announced exactly once and right. -/
def HttpMessage.Framed (msg : HttpMessage) : Prop :=
  (msg.headers.filter (IsContentLength ·) = [] ∧ msg.entity.length < 2 ^ 32 ∧
    (msg.entity = [] → msg.footers = [])) ∨
  ((∃ key, msg.headers.filter (IsContentLength ·) = [(key, printNat 10 msg.entity.length)]) ∧
    msg.footers = [])

/-- The decoded message is the message; of a request line only the url is asked for. -/
structure SameMessage11 (decoded msg : HttpMessage) : Prop where
  firstLine : if msg.isRequest then decoded.url = msg.url else decoded.status = msg.status
  headers : decoded.headers = msg.headers
  footers : decoded.footers = msg.footers
  entity : decoded.entity = msg.entity

namespace Decoder11

/-- The first line says the url or the status of the message that it was written for. -/
theorem firstLine_headed {msg : HttpMessage} {first text : Str}
    (readable : Readable first msg text)
    (narrow : msg.isRequest = false → -2 ^ 31 ≤ msg.status ∧ msg.status < 2 ^ 31)
    (headers : Fields) :
    if msg.isRequest then (headed msg.isRequest text headers).url = msg.url
    else (headed msg.isRequest text headers).status = msg.status := by
  have token := readable.token
  by_cases request : msg.isRequest = true
  · simp only [request, if_true] at token ⊢
    simp [headed, parseFirstLine, HttpMessage.fresh, parseRequestLine, HttpMessage.setVerb,
      HttpMessage.setUrl, token, urlDecode_urlEncode]
  · rw [Bool.not_eq_true] at request
    obtain ⟨low, high⟩ := narrow request
    simp only [request, Bool.false_eq_true, if_false] at token ⊢
    simp [headed, parseFirstLine, HttpMessage.fresh, parseResponseLine, HttpMessage.setStatus,
      token, toInt32_strtoll_printInt low high]

end Decoder11

theorem Representable11.untransferred {msg : HttpMessage} (representable : Representable11 msg) :
    Untransferred msg.headers := by
  have transferFree : (0 : UInt8) ∉ ascii "Transfer-Encoding" := by decide
  intro field member same
  rw [strcasecmp_eq_zero_of_nulFree (representable.nulFree field member) transferFree] at same
  exact representable.handedOn field member _ (by simp [droppedHeaders]) same

/-- All headers of the message are handed on. -/
theorem Representable11.filter_survives {msg : HttpMessage} (representable : Representable11 msg) :
    msg.headers.filter (survives ·.1) = msg.headers :=
  List.filter_eq_self.mpr fun field member =>
    survives_of_nulFree (representable.nulFree field member) (representable.handedOn field member)

/-- The reader finds the framing of a framed message, and its footers are sent. -/
theorem Representable11.agrees {msg : HttpMessage} (representable : Representable11 msg)
    (framed : msg.Framed) (bounded : msg.entity.length < 2 ^ 63) :
    Agrees msg.headers msg.entity ∧
      (Chunked msg.headers msg.entity → msg.entity.length < 2 ^ 32) ∧
      (if Chunked msg.headers msg.entity then msg.footers else []) = msg.footers := by
  have lengths := contentLengths_eq representable.nulFree
  obtain ⟨none, small, bodyless⟩ | ⟨⟨key, single⟩, footers⟩ := framed
  · have writer : writerLength msg.headers = entityUnknown := by
      rw [writerLength, lengths, none]
      rfl
    have reader : readerLength msg.headers = entityUnknown := by
      rw [readerLength, lengths, none]
      rfl
    by_cases empty : msg.entity = []
    · have chunked : ¬Chunked msg.headers msg.entity := by
        simp [Chunked, writer, empty, entityUnknown, entityChunked]
      refine ⟨?_, fun chunks => absurd chunks chunked, ?_⟩
      · rw [Agrees, if_neg chunked, if_pos empty]
        exact Or.inr reader
      · rw [if_neg chunked, bodyless empty]
    · have chunked : Chunked msg.headers msg.entity := Or.inr ⟨writer, empty⟩
      exact ⟨by rw [Agrees, if_pos chunked]; exact Or.inl writer, fun _ => small, if_pos chunked⟩
  · have value : strtoll (printNat 10 msg.entity.length) = ((msg.entity.length : Int), false) :=
      strtoll_printNat (by rw [llongMax]; omega)
    have known : (msg.entity.length : Int) ≠ entityUnknown := by
      rw [entityUnknown]
      omega
    have writer : writerLength msg.headers = msg.entity.length := by
      rw [writerLength, lengths, single]
      simp [value, announced_cons, known]
    have reader : readerLength msg.headers = msg.entity.length := by
      rw [readerLength, lengths, single]
      simp [value, announced_cons, known]
    have chunked : ¬Chunked msg.headers msg.entity := by
      simp only [Chunked, writer, entityUnknown, entityChunked]
      omega
    refine ⟨?_, fun chunks => absurd chunks chunked, by rw [if_neg chunked, footers]⟩
    rw [Agrees, if_neg chunked]
    by_cases empty : msg.entity = []
    · rw [if_pos empty, reader, empty]
      exact Or.inl rfl
    · rw [if_neg empty, writer]
      exact ⟨by omega, reader⟩

theorem Representable11.readable {msg : HttpMessage} (representable : Representable11 msg) :
    ∃ first text, MessageSink11.firstLine msg = .ok (some first) ∧ Readable first msg text := by
  refine readable_firstLine ?_
  have line := representable.firstLine
  by_cases request : msg.isRequest = true
  · rwa [if_pos request] at line ⊢
  · rw [if_neg request] at line ⊢
    exact line.1

/-- The decoder reads the layout of a representable message up to its end. -/
theorem Representable11.reads_complete {msg : HttpMessage} (representable : Representable11 msg)
    (framed : msg.Framed) (bounded : msg.entity.length < 2 ^ 63) {first : Str}
    {progress : Progress} (known : MessageSink11.firstLine msg = .ok (some first))
    (done : progress.writeState = .done) (splits : MessageSink11.Splits progress.pieces)
    (headers : progress.headers = msg.headers) (entity : progress.pieces.flatten = msg.entity)
    (footers : progress.footers = msg.footers) :
    ∃ text, Readable first msg text ∧
      Decoder11.automaton.Reads (.fresh msg.isRequest) (MessageSink11.stream first progress)
        ⟨.done, Decoder11.complete msg.isRequest text msg.headers msg.entity msg.footers⟩ := by
  obtain ⟨agrees, small, kept⟩ := representable.agrees framed bounded
  obtain ⟨first', text, known', readable⟩ := representable.readable
  obtain rfl : first = first' := Option.some.inj (Except.ok.inj (known.symm.trans known'))
  refine ⟨text, readable, ?_⟩
  have reads := @Decoder11.reads_stream msg.isRequest text msg.entity progress readable.nonempty
    readable.feed (by rw [headers]; exact representable.headers)
    (by rw [headers]; exact representable.untransferred)
    (by rw [footers]; exact representable.footers) done splits entity
    (fun chunked _ => Decoder11.length_lt_of_mem entity (small (by rwa [headers] at chunked)))
    (by rwa [headers])
  rwa [headers, footers, kept, ← readable.line] at reads

/-- What is decoded is the message. -/
theorem Representable11.sameMessage_complete {msg : HttpMessage}
    (representable : Representable11 msg) {first text : Str} (readable : Readable first msg text) :
    SameMessage11
      (Decoder11.complete msg.isRequest text msg.headers msg.entity msg.footers) msg := by
  have narrow : msg.isRequest = false → -2 ^ 31 ≤ msg.status ∧ msg.status < 2 ^ 31 := by
    intro request
    have line := representable.firstLine
    rw [request] at line
    exact line.2
  exact ⟨Decoder11.firstLine_headed readable narrow msg.headers, representable.filter_survives, rfl,
    rfl⟩

/-- The decoder reads the layout of a representable message back. -/
theorem Representable11.reads_stream {msg : HttpMessage} (representable : Representable11 msg)
    (framed : msg.Framed) (bounded : msg.entity.length < 2 ^ 63) {first : Str}
    {progress : Progress} (known : MessageSink11.firstLine msg = .ok (some first))
    (done : progress.writeState = .done) (splits : MessageSink11.Splits progress.pieces)
    (headers : progress.headers = msg.headers) (entity : progress.pieces.flatten = msg.entity)
    (footers : progress.footers = msg.footers) :
    ∃ decoded, SameMessage11 decoded msg ∧
      Decoder11.automaton.Reads (.fresh msg.isRequest) (MessageSink11.stream first progress)
        ⟨.done, decoded⟩ := by
  obtain ⟨text, readable, reads⟩ :=
    representable.reads_complete framed bounded known done splits headers entity footers
  exact ⟨_, representable.sameMessage_complete readable, reads⟩

/-- What was read as a whole message is what a fresh reader makes of every cut. -/
theorem outcome11_of_reads {isRequest : Bool} {stream rest : Str} {msg : HttpMessage}
    {cut : List Str}
    (reads : Decoder11.automaton.Reads (.fresh isRequest) stream ⟨.done, msg⟩)
    (isCut : IsCut (stream ++ rest) cut) :
    outcome11 isRequest cut = .ok (msg, true, stream.length) := by
  have run := reads.run_final rfl rest
  rw [← isCut.whole] at run
  simpa using outcome11_of_run run

/-- A first line that does not fail in the end does not fail on the way. -/
theorem Delivers.firstLine_ok {msg last : HttpMessage} {events : List Event} {line : Option Str}
    (delivers : Delivers msg events last) (known : MessageSink11.firstLine last = .ok line) :
    ∃ line, MessageSink11.firstLine msg = .ok line := by
  by_cases complete : msg.FirstLineSet
  · have same := MessageSink.firstLine_congr (delivers.sameFirstLine complete) (.v11 {})
    exact ⟨line, same.symm.trans known⟩
  · exact ⟨none, firstLine_eq_none complete⟩

namespace Transfer

/-- An HTTP/1.1 writer can be called whenever the first line does not fail in the end. -/
theorem callable_of_firstLine {transfer : Transfer} {last : HttpMessage} {events : List Event}
    {line : Option Str} (kind : (MessageSink.v11 {}).SameKind transfer.sink)
    (delivers : Delivers transfer.whole events last)
    (known : MessageSink11.firstLine last = .ok line) : transfer.Callable := by
  obtain ⟨msg, sink, whole, sent⟩ := transfer
  cases sink with
  | gny sink => exact absurd kind (by simp [MessageSink.SameKind])
  | v11 sink => exact ⟨trivial, delivers.firstLine_ok known⟩

theorem Sound.everyCall11 {transfer : Transfer} {last : HttpMessage} {events : List Event}
    {line : Option Str} (sound : transfer.Sound)
    (kind : (MessageSink.v11 {}).SameKind transfer.sink)
    (delivers : Delivers transfer.whole events last)
    (known : MessageSink11.firstLine last = .ok line) : EveryCall Callable transfer events :=
  sound.everyCall (fun _ _ callable => callable)
    (fun _ _ kind _ delivers => callable_of_firstLine kind delivers known) kind delivers

/-- On any schedule whose calls find pieces of a kind, an HTTP/1.1 writer puts the layout of the
message out in such pieces. -/
theorem SoundFor.encoding11 {Q : Str → Prop} {transfer : Transfer} {last : HttpMessage}
    {events : List Event} {first : Str} (sound : transfer.SoundFor Q)
    (kind : (MessageSink.v11 {}).SameKind transfer.sink)
    (delivers : Delivers transfer.whole events last) (done : last.state = .done)
    (known : MessageSink11.firstLine last = .ok (some first))
    (serves : EveryCall (Serves Q) transfer (events ++ [.getWriteSize])) :
    ∃ final, transfer.run (events ++ [.getWriteSize]) = .ok final ∧
      ∃ progress, progress.writeState = .done ∧
        final.encoding = MessageSink11.stream first progress ∧
        MessageSink11.Splits progress.pieces ∧ progress.headers = last.headers ∧
        progress.pieces.flatten = last.entity ∧ progress.footers = last.footers ∧
        ∀ piece ∈ progress.pieces, Q piece := by
  have callable := sound.sound.everyCall11 kind delivers known
  obtain ⟨caught, run_eq, sound', rfl, same⟩ := sound.run delivers callable serves.left
  have kind' := kind.trans same
  obtain ⟨takes, -⟩ := callable_of_firstLine kind' (.nil caught.whole) known
  have serves' : caught.Serves Q :=
    serves events .getWriteSize [] caught rfl Event.getWriteSize_ne run_eq
  obtain ⟨final, step_eq, progress, writeState, encoding_eq, splits, headers, entity, footers,
    pieces⟩ := sound'.encoding takes serves' (by rw [← kind'.firstLine]; exact known) done
  rw [← kind'.stream] at encoding_eq
  rw [← kind'.splits] at splits
  refine ⟨final, by rw [run_append, run_eq]; simp [Transfer.run, step_eq], progress, writeState,
    encoding_eq, splits, headers, entity, footers, pieces⟩

/-- On any schedule an HTTP/1.1 writer puts the layout of the message out. -/
theorem Sound.encoding11 {transfer : Transfer} {last : HttpMessage} {events : List Event}
    {first : Str} (sound : transfer.Sound) (kind : (MessageSink.v11 {}).SameKind transfer.sink)
    (delivers : Delivers transfer.whole events last) (done : last.state = .done)
    (known : MessageSink11.firstLine last = .ok (some first)) :
    ∃ final, transfer.run (events ++ [.getWriteSize]) = .ok final ∧
      ∃ progress, progress.writeState = .done ∧
        final.encoding = MessageSink11.stream first progress ∧
        MessageSink11.Splits progress.pieces ∧ progress.headers = last.headers ∧
        progress.pieces.flatten = last.entity ∧ progress.footers = last.footers := by
  have serves : EveryCall (Serves fun _ => True) transfer (events ++ [.getWriteSize]) :=
    fun _ _ _ _ _ _ _ _ _ => trivial
  obtain ⟨final, run_eq, progress, writeState, encoding_eq, splits, headers, entity, footers, -⟩ :=
    (soundFor_true.mpr sound).encoding11 kind delivers done known serves
  exact ⟨final, run_eq, progress, writeState, encoding_eq, splits, headers, entity, footers⟩

end Transfer

theorem wellFormed_contentLength (length : Nat) :
    WellFormed (ascii "Content-Length", printNat 10 length) := by
  have plain : ∀ char ∈ printNat 10 length, isspace char = false :=
    forall_mem_printNat (by decide) (fun digit small => (printDigit_decimal digit small).2.1) _
  have key : 10 ∉ ascii "Content-Length" ∧ 58 ∉ ascii "Content-Length" ∧
      trim (ascii "Content-Length") = ascii "Content-Length" := by decide
  refine ⟨key.1, feed_notMem_of_plain plain, key.2.1, key.2.2, ?_⟩
  rw [trim_eq_self_iff]
  exact ⟨fun char member => plain char (List.mem_of_mem_head? member),
    fun char member => plain char (List.mem_of_mem_getLast? member)⟩

/-- A response that announces the length of its entity. -/
def sized (entity : Str) : HttpMessage where
  isRequest := false
  status := 200
  headers := [(ascii "Content-Length", printNat 10 entity.length)]
  entity := entity
  state := .done

theorem representable11_sized (entity : Str) : Representable11 (sized entity) := by
  refine ⟨by simp [sized], ?_, ?_, ?_, by simp [sized]⟩ <;>
    simp only [sized, List.forall_mem_singleton]
  · exact wellFormed_contentLength _
  · decide
  · decide

theorem framed_sized (entity : Str) : (sized entity).Framed := by
  refine Or.inr ⟨⟨ascii "Content-Length", ?_⟩, rfl⟩
  have same : IsContentLength (ascii "Content-Length", printNat 10 entity.length) := by
    have folded : SameFolded (ascii "Content-Length") (ascii "Content-Length") := by decide
    exact folded
  simp [sized, same]

/-- A response that announces an entity of more bytes than `strtoll` can say is sent in chunks, and
the size of a chunk of four gigabytes is printed as zero. -/
theorem encoding_overflow {length : Nat} (overflow : 2 ^ 63 ≤ length) {front back : Str}
    (front_length : front.length = 2 ^ 32) :
    ∃ final more, (Transfer.start (.v11 {}) false).run
        [.update (.setStatus 200),
          .update (.addHeader (ascii "Content-Length") (printNat 10 length)),
          .update .endHeader, .update (.appendEntity front), .getWriteSize,
          .update (.appendEntity back), .update .endEntity, .update .endFooter, .getWriteSize] =
        .ok final ∧
      final.encoding = ascii "HTTP/1.1 200 FIXME" ++ crlf ++
        MessageSink11.fieldLines [(ascii "Content-Length", printNat 10 length),
          Decoder11.chunkedField] ++ crlf ++ (ascii "0" ++ crlf) ++ front ++ more := by
  have nonempty : front ≠ [] := by
    rintro rfl
    simp at front_length
  have transfer : strcasecmp (ascii "Content-Length") (ascii "Transfer-Encoding") ≠ 0 := by decide
  have mode : MessageSink11.modeAfter entityUnknown (ascii "Content-Length", printNat 10 length) =
      entityUnknown := by
    have beyond : llongMax < (length : Int) := by
      rw [llongMax]
      omega
    simp [MessageSink11.modeAfter, transfer, strtoll_numeral, beyond]
  have zero : printHex front.length = ascii "0" := by
    rw [front_length]
    rfl
  have digits : printInt 200 = ascii "200" := by
    norm_num [printInt, printNat_of_le, printNat_of_lt]
    decide
  have line (msg : HttpMessage) (response : msg.isRequest = false) (status : msg.status = 200) :
      MessageSink11.firstLine msg = .ok (some (ascii "HTTP/1.1 200 FIXME" ++ crlf)) := by
    have text : ascii "HTTP/1.1 " ++ ascii "200" ++ ascii " FIXME" =
        ascii "HTTP/1.1 200 FIXME" := by decide
    simp [MessageSink11.firstLine, response, status, digits, ← text]
  have added : Decoder11.chunkedField.1 = ascii "Transfer-Encoding" ∧
      Decoder11.chunkedField.2 = ascii "chunked" := ⟨rfl, rfl⟩
  have text : ascii "Transfer-Encoding: chunked" =
      ascii "Transfer-Encoding" ++ (ascii ": " ++ ascii "chunked") := by decide
  let packet := ascii "HTTP/1.1 200 FIXME" ++ crlf ++
    MessageSink11.fieldLines [(ascii "Content-Length", printNat 10 length),
      Decoder11.chunkedField] ++ crlf ++ (ascii "0" ++ crlf) ++ front ++ crlf
  have first : MessageSink11.getWriteSize {}
      { isRequest := false, status := 200, state := .entity, entity := front,
        headers := [(ascii "Content-Length", printNat 10 length)] } =
      .ok (({ isInit := true, packetStr := packet, writeState := .entity,
              entityMode := entityChunked },
        { isRequest := false, status := 200, state := .entity }), packet.length) := by
    simp [MessageSink11.getWriteSize, MessageSink11.checkForUpdate, MessageSink11.begin, line,
      MessageSink11.sendAvailable, MessageSink11.sendHeaders, MessageSink11.sendEntity,
      MessageSink11.sendHeader, mode, MessageSink11.sendPiece, MessageSink11.sendFooters, nonempty,
      zero, HttpMessage.clearHeaders, HttpMessage.clearEntity, packet, MessageSink11.fieldLines,
      MessageSink11.fieldLine, added, text]
  have last : ∃ more, MessageSink11.getWriteSize
      { isInit := true, packetStr := packet, writeState := .entity, entityMode := entityChunked }
      { isRequest := false, status := 200, state := .done, entity := back } =
      .ok (({ isInit := true, packetStr := packet ++ more, writeState := .done,
              entityMode := entityChunked },
        { isRequest := false, status := 200, state := .done }), (packet ++ more).length) := by
    by_cases empty : back = []
    · refine ⟨ascii "0" ++ crlf ++ crlf, ?_⟩
      simp [MessageSink11.getWriteSize, MessageSink11.checkForUpdate, MessageSink11.begin,
        MessageSink11.sendAvailable, MessageSink11.sendHeaders, MessageSink11.sendEntity,
        MessageSink11.sendFooters, empty, HttpMessage.clearEntity, HttpMessage.clearFooters,
        entityChunked, entityUnknown]
    · refine ⟨MessageSink11.chunk back ++ (ascii "0" ++ crlf ++ crlf), ?_⟩
      simp [MessageSink11.getWriteSize, MessageSink11.checkForUpdate, MessageSink11.begin,
        MessageSink11.sendAvailable, MessageSink11.sendHeaders, MessageSink11.sendEntity,
        MessageSink11.sendPiece, MessageSink11.sendFooters, empty, HttpMessage.clearEntity,
        HttpMessage.clearFooters, entityChunked, entityUnknown, MessageSink11.chunk]
  obtain ⟨more, last⟩ := last
  refine ⟨{ msg := { isRequest := false, status := 200, state := .done }
            sink := .v11 { isInit := true, packetStr := packet ++ more, writeState := .done,
                           entityMode := entityChunked }
            whole := { isRequest := false, status := 200, entity := front ++ back, state := .done,
                       headers := [(ascii "Content-Length", printNat 10 length)] } },
    crlf ++ more, ?_, ?_⟩
  · simp [Transfer.run, Transfer.step, Transfer.start, HttpMessage.update, HttpMessage.fresh,
      HttpMessage.setStatus, HttpMessage.addHeader, HttpMessage.endHeader,
      HttpMessage.appendEntity, HttpMessage.endEntity, HttpMessage.endFooter,
      MessageSink.getWriteSize, first, last]
  · simp [Transfer.encoding, MessageSink.buffer, packet]

/-- Where the size of the first chunk is printed as zero, the trailer ends at a line feed that
begins the chunk. -/
theorem reads_overflow (length : Nat) :
    ∃ decoded, Decoder11.automaton.Reads (.fresh false)
      (ascii "HTTP/1.1 200 FIXME" ++ crlf ++
        MessageSink11.fieldLines [(ascii "Content-Length", printNat 10 length),
          Decoder11.chunkedField] ++ crlf ++ (ascii "0" ++ crlf) ++ [10]) ⟨.done, decoded⟩ := by
  have text : ascii "HTTP/1.1 200 FIXME" ≠ [] ∧ 10 ∉ ascii "HTTP/1.1 200 FIXME" := by decide
  have wellFormed : ∀ field ∈ [(ascii "Content-Length", printNat 10 length)] ++
      [Decoder11.chunkedField], WellFormed field := by
    simp only [List.forall_mem_append, List.forall_mem_singleton]
    exact ⟨wellFormed_contentLength length, Decoder11.wellFormed_chunkedField⟩
  have front := @Decoder11.reads_chunkedFront false _ text.1 text.2 _ wellFormed
    (by rw [Decoder11.modeOf_chunkedField]; decide)
  have ends {msg : HttpMessage} (footer : msg.state = .footer) :
      Decoder11.automaton.Reads ⟨.trailer [], msg⟩ [10] ⟨.done, { msg with state := .done }⟩ := by
    refine .single rfl ?_
    simp [Decoder11.automaton, Decoder11.step, Decoder11.chomp, HttpMessage.endFooter, footer]
  exact ⟨_, (front.append (Decoder11.reads_lastChunk rfl)).append (ends rfl)⟩

end GnyProxy
