import GnyProxy.Decoder11
import GnyProxy.Positions

/-!
# Cuts of an HTTP/1.1 stream

A call of the reader takes at most `sizeof(rbuf)` bytes and walks through them, behind what is kept
of the unfinished line, with an `int`.  All cuts of a stream have the same outcome exactly when no
line of it leads that position out of its range.
-/

namespace GnyProxy

open Incremental MessageSource11

/-! ## What is kept between two calls -/

namespace MessageSource11

variable {reader next : MessageSource11 × HttpMessage} {piece : Str} {count : Nat}

/-- A finished reader piles up what it is handed. -/
theorem read_done (ended : reader.1.state = .done) (piece : Str) :
    read reader piece =
      .ok (({ reader.1 with buf := reader.1.buf ++ piece }, reader.2), 0) := by
  obtain ⟨src, msg⟩ := reader
  cases piece with
  | nil => simp [read]
  | cons ch rest =>
      simp only at ended
      simp [read, readLoop, ended, Pass.flushEntity, Pass.rebase]

/-- A call takes no more than it is handed. -/
theorem count_le_of_read (outcome : read reader piece = .ok (next, count)) :
    count ≤ piece.length := by
  rw [read] at outcome
  split at outcome
  · cases outcome
    exact Nat.zero_le _
  · obtain ⟨⟨j, pass⟩, -, outcome⟩ := bind_eq_ok.mp outcome
    obtain ⟨msg, -, next_eq⟩ := bind_eq_ok.mp outcome
    cases next_eq
    exact Nat.sub_le _ _

/-- A call keeps no more than there was and what it has been handed; and if it finishes the
message, exactly the bytes that it does not take. -/
theorem kept_of_read (outcome : read reader piece = .ok (next, count)) :
    next.1.buf.length ≤ reader.1.buf.length + piece.length ∧
      (reader.1.state ≠ .done → next.1.state = .done →
        next.1.buf.length + count = piece.length) := by
  by_cases finished : reader.1.state = .done
  · rw [read_done finished] at outcome
    cases outcome
    exact ⟨List.length_append.le, fun open_ => absurd finished open_⟩
  · by_cases empty : piece = []
    · simp only [read, empty, if_true, Except.ok.injEq, Prod.mk.injEq] at outcome
      obtain ⟨rfl, rfl⟩ := outcome
      exact ⟨Nat.le_add_right _ _, fun open_ ended => absurd ended open_⟩
    · simp only [read, empty, if_false, place_eq] at outcome
      obtain ⟨⟨j, pass⟩, loop_eq, outcome⟩ := bind_eq_ok.mp outcome
      obtain ⟨msg, -, next_eq⟩ := bind_eq_ok.mp outcome
      cases next_eq
      obtain ⟨lower, upper, -⟩ := readLoop_bounds loop_eq
      obtain ⟨same, stops⟩ := readLoop_moves finished loop_eq
      have rebased : pass.rebase.buf.length = pass.src.buf.length - pass.pos ∧
          pass.rebase.state = pass.src.state := by
        by_cases zero : pass.pos = 0 <;> simp [Pass.rebase, zero]
      have total : pass.src.buf.length = reader.1.buf.length + piece.length := by
        rw [same, List.length_append]
      rw [rebased.1, rebased.2, List.length_append]
      refine ⟨by omega, fun _ ended => ?_⟩
      rw [stops ended]
      omega

end MessageSource11

namespace Decoder11

/-- How many bytes are kept: those of the unfinished line. -/
def held (dec : Decoder11) : Nat :=
  match dec.phase with
  | .firstLine line | .header _ line | .trailer line => line.length
  | .fixed _ | .chunkSize _ | .chunkExtension _ | .chunkData _ | .done => 0

/-- The buffer between two calls holds the unfinished line. -/
theorem Matches.kept {reader : MessageSource11 × HttpMessage} {dec : Decoder11}
    (same : Matches reader dec) (open_ : automaton.final dec = false) :
    reader.1.buf.length = dec.held := by
  obtain ⟨phase, msg⟩ := dec
  obtain ⟨⟨-, -, sim⟩, -⟩ := same
  have within {line : Str} {next : HttpMessage}
      (inLine : Pass.InLine { src := reader.1, msg := reader.2 } reader.1.buf.length line next) :
      reader.1.buf.length = line.length := by
    have text : segment reader.1.buf 0 reader.1.buf.length = line := inLine.1
    rw [← text, length_segment le_rfl, Nat.sub_zero]
  cases phase with
  | firstLine line | header entityMode line => exact within sim.2.2
  | trailer line => exact within sim.2.2.2
  | fixed left => exact sim.2.2.2.1.symm
  | chunkSize size | chunkExtension size | chunkData left => exact sim.2.2.2.2.1.symm
  | done => simp [automaton] at open_

/-- No more is kept than has been read. -/
theorem held_le_of_reads {isRequest : Bool} {word : Str} {dec : Decoder11}
    (reads : automaton.Reads (fresh isRequest) word dec) : dec.held ≤ word.length := by
  by_cases ended : automaton.final dec = true
  · have finished : dec.phase = .done := by simpa [automaton] using ended
    rw [held, finished]
    exact Nat.zero_le _
  · obtain ⟨next, read_eq, same⟩ := simulates (matches_fresh isRequest) reads.run_all
    rw [← same.kept (by simpa using ended)]
    exact (kept_of_read read_eq).1.trans (Nat.zero_add _).le

variable {isRequest : Bool} {word : Str}

theorem handed_fresh (isRequest : Bool) :
    Handed automaton Matches buffered held (fresh isRequest) [] ({}, .fresh isRequest) 0 :=
  ⟨fresh isRequest, rfl, matches_fresh isRequest, rfl⟩

/-- The next piece is read as the decoder reads it. -/
theorem handsOn (bound : Nat) :
    HandsOn automaton Matches buffered held read bound (fresh isRequest) word := by
  rintro handed piece - reader total - - - ⟨dec, run_eq, same, kept⟩
  obtain ⟨last, more, whole⟩ := run_ok (consistent_fresh isRequest) (handed ++ piece)
  obtain ⟨dec', before, count, run_eq', piece_eq, rfl⟩ := automaton.run_split whole
  obtain ⟨rfl, rfl⟩ : dec = dec' ∧ total = before := by simpa using run_eq.symm.trans run_eq'
  obtain ⟨next, read_eq, same'⟩ := simulates same piece_eq
  refine ⟨next, count, read_eq, last, whole, same', ?_⟩
  have taken := automaton.count_le_of_run run_eq
  have finished_iff {reader : MessageSource11 × HttpMessage} {dec : Decoder11}
      (same : Matches reader dec) : reader.1.state = .done ↔ automaton.final dec = true := by
    rw [automaton, decide_eq_true_eq]
    exact same.1.done_iff
  rw [buffered] at kept ⊢
  by_cases ended : automaton.final dec = true
  · rw [if_pos ended] at kept
    have nothing := automaton.run_append_of_final ended piece
    obtain ⟨rfl, rfl⟩ : last = dec ∧ count = 0 := by simpa using piece_eq.symm.trans nothing
    rw [read_done ((finished_iff same).mpr ended)] at read_eq
    cases read_eq
    rw [if_pos ended, List.length_append, List.length_append, kept]
    omega
  · by_cases ended' : automaton.final last = true
    · have all : handed.length = total := by
        obtain ⟨front, back, rfl, rfl, -, rfl | stop⟩ := automaton.reads_of_run run_eq
        · simp
        · exact absurd stop ended
      have open_ : reader.1.state ≠ .done := fun finished =>
        ended ((finished_iff same).mp finished)
      have rest := (kept_of_read read_eq).2 open_ ((finished_iff same').mpr ended')
      rw [if_pos ended', List.length_append]
      omega
    · rw [if_neg ended']
      exact same'.kept (by simpa using ended')

end Decoder11

/-! ## Cuts -/

/-- What a fresh reader, with its positions in `int`, makes of the pieces. -/
def outcome11Int (isRequest : Bool) (pieces : List Str) :
    Except Fault (HttpMessage × Bool × Nat) :=
  match feed readInt ({}, .fresh isRequest) pieces with
  | .error fault => .error fault
  | .ok ((src, msg), count) => .ok (msg, src.state = .done, count)

/-- All ways to cut the stream into pieces that a `recv` can return have the same outcome. -/
def ChunkingIndependent11 (isRequest : Bool) (stream : Str) : Prop :=
  ∃ result, ∀ cut, IsBoundedCut rbufSize stream cut → outcome11Int isRequest cut = .ok result

/-- The positions suffice for all cuts into pieces of a bounded length: an unfinished line together
with a piece of the message behind it, and what lies behind the message up to its last byte, have at
most `intMax` bytes. -/
def Fits11 (bound : Nat) (isRequest : Bool) (stream : Str) : Prop :=
  Fits Decoder11.automaton Decoder11.held intMax bound (.fresh isRequest) stream

/-- Where the positions suffice, every cut is read as the decoder reads the whole. -/
theorem outcome11Int_of_fits {bound : Nat} {isRequest : Bool} {stream : Str} {last : Decoder11}
    {count : Nat} (fits : Fits11 bound isRequest stream)
    (outcome : Decoder11.automaton.run (.fresh isRequest) stream = .ok (last, count))
    {cut : List Str} (isCut : IsBoundedCut bound stream cut) :
    outcome11Int isRequest cut = .ok (last.msg, last.phase = .done, count) := by
  obtain ⟨⟨src, msg⟩, total, feed_eq, dec, run_eq, same, -⟩ :=
    fits.feed narrows (Decoder11.handsOn bound) (Decoder11.handed_fresh isRequest) isCut
  obtain ⟨rfl, rfl⟩ : last = dec ∧ count = total := by simpa using outcome.symm.trans run_eq
  simp only [outcome11Int, feed_eq, same.1.done_iff, ← same.2]

/-- A reader that returns from every call of a cut. -/
theorem feed_of_outcome11Int {isRequest : Bool} {pieces : List Str}
    {result : HttpMessage × Bool × Nat} (outcome : outcome11Int isRequest pieces = .ok result) :
    ∃ last, feed readInt ({}, .fresh isRequest) pieces = .ok last := by
  rw [outcome11Int] at outcome
  split at outcome
  · cases outcome
  · rename_i src msg total feed_eq
    exact ⟨((src, msg), total), feed_eq⟩

/-- All cuts of a stream have the same outcome exactly when the positions suffice for them. -/
theorem chunkingIndependent11_iff (isRequest : Bool) (stream : Str) :
    ChunkingIndependent11 isRequest stream ↔ Fits11 rbufSize isRequest stream := by
  constructor
  · rintro ⟨result, independent⟩
    exact fits_of_feed narrows (by decide) (Decoder11.handsOn rbufSize)
      (Decoder11.handed_fresh isRequest) fun cut isCut =>
        feed_of_outcome11Int (independent cut isCut)
  · intro fits
    obtain ⟨last, count, outcome⟩ :=
      Decoder11.run_ok (Decoder11.consistent_fresh isRequest) stream
    exact ⟨_, fun cut isCut => outcome11Int_of_fits fits outcome isCut⟩

/-- The positions suffice for every stream of fewer than `2 ^ 31` bytes. -/
theorem fits11_of_length {bound : Nat} {isRequest : Bool} {stream : Str}
    (short : stream.length ≤ intMax) : Fits11 bound isRequest stream :=
  .of_length Decoder11.held_le_of_reads short

/-- Pieces of together fewer than `2 ^ 31` bytes, of any lengths, are read as by positions without
width. -/
theorem outcome11Int_of_length {isRequest : Bool} {pieces : List Str}
    {result : HttpMessage × Bool × Nat} (short : pieces.flatten.length ≤ intMax)
    (outcome : outcome11 isRequest pieces = .ok result) :
    outcome11Int isRequest pieces = .ok result := by
  rw [outcome11] at outcome
  split at outcome
  · cases outcome
  · rename_i src msg total feed_eq
    have keeps {reader next : MessageSource11 × HttpMessage} {piece : Str} {count : Nat}
        (read_eq : read reader piece = .ok (next, count)) :
        buffered next ≤ buffered reader + piece.length ∧ count ≤ piece.length :=
      ⟨(kept_of_read read_eq).1, count_le_of_read read_eq⟩
    rw [outcome11Int, narrows.feed_of_length keeps feed_eq (by simpa [buffered] using short)]
    exact outcome

namespace Decoder11

variable {isRequest : Bool}

/-- A first line of `n` letters, of which the line feed has not been read. -/
theorem reads_letters (n : Nat) :
    automaton.Reads (fresh isRequest) (List.replicate n 97)
      ⟨.firstLine (List.replicate n 97), .fresh isRequest⟩ := by
  induction n with
  | zero => exact .nil _
  | succ n ih =>
      rw [List.replicate_succ']
      exact ih.snoc rfl rfl

/-- The end of a first line of letters. -/
theorem reads_lettersFeed {n : Nat} (positive : 0 < n) :
    automaton.Reads ⟨.firstLine (List.replicate n 97), .fresh isRequest⟩ [10]
      ⟨.header entityUnknown [], parseFirstLine (.fresh isRequest) (List.replicate n 97)⟩ := by
  have whole : chomp (List.replicate n 97) = List.replicate n 97 := by
    rw [chomp, List.getLast?_replicate, if_neg (by omega : ¬n = 0), if_neg (by decide)]
  refine .single rfl ?_
  have some : List.replicate n (97 : UInt8) ≠ [] := by
    rw [ne_eq, List.replicate_eq_nil_iff]
    omega
  simp only [automaton, step, whole, if_true, some, if_false]

/-- A blank line behind the first one ends a message. -/
theorem reads_blank {msg : HttpMessage} (header : msg.state = .header) :
    automaton.Reads ⟨.header entityUnknown [], msg⟩ [10] ⟨.done, { msg with state := .done }⟩ := by
  refine .single rfl ?_
  simp [automaton, step, chomp, endHeader, HttpMessage.endHeader, HttpMessage.endEntity,
    HttpMessage.endFooter, header]

end Decoder11

open Decoder11 in
/-- A status line of `2 ^ 31 - 2` bytes and the empty line behind it: they can be read byte by byte,
but not if the last two bytes come together. -/
theorem not_chunkingIndependent11 :
    ∃ cut cut' result,
      IsBoundedCut rbufSize (List.replicate (2 ^ 31 - 2) 97 ++ [10, 10]) cut ∧
      IsBoundedCut rbufSize (List.replicate (2 ^ 31 - 2) 97 ++ [10, 10]) cut' ∧
      outcome11Int false cut = .ok result ∧ outcome11Int false cut' ≠ .ok result := by
  obtain ⟨n, size⟩ : ∃ n, 2 ^ 31 - 2 = n := ⟨_, rfl⟩
  have limit : intMax = n + 1 := by rw [intMax]; omega
  rw [size]
  have letters := @reads_letters false n
  have ending := @reads_lettersFeed false n (by omega)
  have blank := @reads_blank (parseFirstLine (.fresh false) (List.replicate n 97))
    (state_parseFirstLine _ _)
  have line := letters.append ending
  have whole := line.append blank
  -- Byte by byte, what is held of the line is less than what has been read.
  have fits : Fits11 1 false (List.replicate n 97 ++ [10, 10]) := by
    constructor
    · intro front piece back dec last shape some short reads reads'
      have held := held_le_of_reads reads
      have lengths := congrArg List.length shape
      simp only [List.length_append, List.length_replicate, List.length_cons,
        List.length_nil] at lengths
      have one : piece.length = 1 := le_antisymm short (List.length_pos_iff.mpr some)
      by_cases before : front.length ≤ n
      · omega
      · obtain ⟨ends, -⟩ : front = List.replicate n 97 ++ [10] ∧ piece ++ back = [10] := by
          refine List.append_inj' ?_ (by simp; omega)
          simpa using shape.symm
        rw [ends] at reads
        rw [reads.deterministic line, one, limit]
        exact Nat.le_add_left _ _
    · intro front back last shape reads ended
      have lengths := congrArg List.length shape
      simp only [List.length_append, List.length_replicate, List.length_cons,
        List.length_nil] at lengths
      omega
  have shape : List.replicate n (97 : UInt8) ++ [10] ++ [10] = List.replicate n 97 ++ [10, 10] := by
    rw [List.append_assoc]
    rfl
  rw [shape] at whole
  have isCut := isBoundedCut_singles (List.replicate n (97 : UInt8) ++ [10, 10])
  have split : List.replicate n (97 : UInt8) ++ [10, 10] =
      List.replicate n 97 ++ [10, 10] ++ [] := by rw [List.append_nil]
  have isCut' : IsBoundedCut rbufSize (List.replicate n (97 : UInt8) ++ [10, 10])
      (singles (List.replicate n 97) ++ [10, 10] :: singles []) := by
    rw [split]
    exact isBoundedCut_piece (by decide) (List.cons_ne_nil 10 [10]) (by decide)
  have outcome := outcome11Int_of_fits fits whole.run_all isCut
  refine ⟨_, _, _, isCut.weaken (by decide), isCut', outcome, fun outcome' => ?_⟩
  obtain ⟨last, feed_eq⟩ := feed_of_outcome11Int outcome'
  have room := narrows.within_of_piece (by decide) (handsOn rbufSize) (handed_fresh false) split
    (List.cons_ne_nil 10 [10]) (by decide) letters (ending.append blank) feed_eq
  simp only [held, List.length_replicate, List.length_cons, List.length_nil] at room
  omega

end GnyProxy
