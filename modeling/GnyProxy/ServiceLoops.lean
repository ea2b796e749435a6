import GnyProxy.Sweeping
import Mathlib.Data.List.Perm.Basic

/-!
# The service loops

`Server::iterate` and `Client::iterate`: the connections are asked what they wait for, `select`
says which are ready, and those are read and written.  A connection whose call fails is closed and
taken out of the list while the loop goes on.
-/

namespace GnyProxy.ServiceLoops

open Sweeping (sweep visits swapLast copyLast)

/-- A socket with its connection; the pointer to a connection stands for it. -/
abbrev Conn (κ : Type) := Nat × κ

structure FdSets where
  readFds : List Nat := []
  writeFds : List Nat := []

/-- What the loops call, with the results and the effects that the calls have.  `accept` returns a
descriptor that is not in use. -/
structure Network (κ σ : Type) where
  update : κ → σ → σ
  getWriteSize : κ → σ → Nat × σ
  /-- Unless it fails, `select` finds which descriptors can be read and which can be written. -/
  select : σ → Option ((Nat → Bool) × (Nat → Bool)) × σ
  accept : (inUse : List Nat) → σ → Option {fd : Nat // fd ∉ inUse} × σ
  connCreator : σ → κ × σ
  read : κ → Nat → σ → Int × σ
  write : κ → Nat → σ → Int × σ
  close : Nat → σ → σ
  delete : κ → σ → σ

inductive ServiceCall (κ : Type) where
  | read (conn : Conn κ) (ret : Int)
  | write (conn : Conn κ) (ret : Int)
  | close (fd : Nat)
  | delete (conn : κ)

namespace ServiceCall

variable {κ : Type}

def reads : ServiceCall κ → Option (Conn κ)
  | .read conn _ => some conn
  | _ => none

def writes : ServiceCall κ → Option (Conn κ)
  | .write conn _ => some conn
  | _ => none

def failsRead : ServiceCall κ → Option (Conn κ)
  | .read conn ret => if ret ≤ 0 then some conn else none
  | _ => none

def fails : ServiceCall κ → Option (Conn κ)
  | .read conn ret => if ret ≤ 0 then some conn else none
  | .write conn ret => if ret ≤ 0 then some conn else none
  | _ => none

def closes : ServiceCall κ → Option Nat
  | .close fd => some fd
  | _ => none

def deletes : ServiceCall κ → Option κ
  | .delete conn => some conn
  | _ => none

end ServiceCall

section Traces

variable {κ : Type} (calls : List (ServiceCall κ))

/-- The connections that were read. -/
def wereRead : List (Conn κ) := calls.filterMap ServiceCall.reads

/-- The connections that were written. -/
def wereWritten : List (Conn κ) := calls.filterMap ServiceCall.writes

/-- The connections whose read has failed. -/
def readFailed : List (Conn κ) := calls.filterMap ServiceCall.failsRead

/-- The connections whose read or write has failed. -/
def haveFailed : List (Conn κ) := calls.filterMap ServiceCall.fails

def wereClosed : List Nat := calls.filterMap ServiceCall.closes

def wereDeleted : List κ := calls.filterMap ServiceCall.deletes

end Traces

section Loops

variable {κ σ : Type} (network : Network κ σ)

/-! ## Asking -/

/-- A connection is read when it can be, and written if it has something to write. -/
def ask (conn : Conn κ) (sets : FdSets) (state : σ) : FdSets × σ :=
  let state := network.update conn.2 state
  let sets := { sets with readFds := conn.1 :: sets.readFds }
  let (size, state) := network.getWriteSize conn.2 state
  (if size ≠ 0 then { sets with writeFds := conn.1 :: sets.writeFds } else sets, state)

/-- The loop that initializes the descriptor masks, with the bound for `select`. -/
def prepare : List (Conn κ) → Nat → FdSets → σ → Nat × FdSets × σ
  | [], nfds, sets, state => (nfds, sets, state)
  | conn :: conns, nfds, sets, state =>
      let (sets, state) := ask network conn sets state
      prepare conns (max nfds (conn.1 + 1)) sets state

/-- `select` clears the descriptors below the bound that are not ready. -/
def select (nfds : Nat) (sets : FdSets) (state : σ) : Option FdSets × σ :=
  let (found, state) := network.select state
  (found.map fun (readable, writable) =>
    { readFds := sets.readFds.filter fun fd => nfds ≤ fd || readable fd
      writeFds := sets.writeFds.filter fun fd => nfds ≤ fd || writable fd }, state)

/-! ## Serving -/

/-- `read`, if the socket is ready for it. -/
def readReady (ready : FdSets) (conn : Conn κ) (state : σ) : Option Int × σ :=
  if conn.1 ∈ ready.readFds then
    let (ret, state) := network.read conn.2 conn.1 state
    (some ret, state)
  else
    (none, state)

/-- `write`, if the socket is ready for it. -/
def writeReady (ready : FdSets) (conn : Conn κ) (state : σ) : Option Int × σ :=
  if conn.1 ∈ ready.writeFds then
    let (ret, state) := network.write conn.2 conn.1 state
    (some ret, state)
  else
    (none, state)

/-- A call was made and has failed. -/
def failed (ret : Option Int) : Bool := ret.any (· ≤ 0)

/-- The calls of one connection: the write comes only behind a read that has not failed, and after a
failure the connection is closed and deleted. -/
def serve (ready : FdSets) (conn : Conn κ) : List (ServiceCall κ) × σ →
    Bool × List (ServiceCall κ) × σ
  | (calls, state) =>
      let (read, state) := readReady network ready conn state
      let (write, state) :=
        if failed read then (none, state) else writeReady network ready conn state
      let calls := calls ++ read.toList.map (.read conn) ++ write.toList.map (.write conn)
      if failed read || failed write then
        (true, calls ++ [.close conn.1, .delete conn.2],
          network.delete conn.2 (network.close conn.1 state))
      else
        (false, calls, state)

end Loops

/-! ## The server -/

structure Server (κ : Type) where
  s : Nat
  conns : List (Conn κ)

/-- What a pass returns, and leaves. -/
structure Pass (κ σ : Type) where
  ret : Int
  conns : List (Conn κ)
  calls : List (ServiceCall κ)
  state : σ

namespace Server

variable {κ σ : Type} (network : Network κ σ)

/-- The masks that `select` leaves. -/
def poll (server : Server κ) (state : σ) : Option FdSets × σ :=
  let (nfds, sets, state) :=
    prepare network server.conns (server.s + 1) { readFds := [server.s] } state
  select network nfds sets state

/-- `accept_connection`, which adds at most one connection. -/
def acceptConnection (server : Server κ) (state : σ) : List (Conn κ) × σ :=
  match network.accept (server.s :: server.conns.map Prod.fst) state with
  | (none, state) => ([], state)
  | (some fd, state) =>
      let (conn, state) := network.connCreator state
      ([(fd, conn)], state)

def accepted (server : Server κ) (ready : FdSets) (state : σ) : List (Conn κ) × σ :=
  if server.s ∈ ready.readFds then server.acceptConnection network state else ([], state)

def iterate (server : Server κ) (state : σ) : Pass κ σ :=
  match server.poll network state with
  | (none, state) => { ret := -1, conns := server.conns, calls := [], state }
  | (some ready, state) =>
      let (accepted, state) := server.accepted network ready state
      let conns := server.conns ++ accepted
      let (conns, calls, state) :=
        sweep (serve network ready) swapLast conns.length 0 conns ([], state)
      { ret := 0, conns, calls, state }

end Server

/-! ## The client -/

structure Client (κ : Type) where
  conns : List (Conn κ)

namespace Client

variable {κ σ : Type} (network : Network κ σ)

/-- The masks that `select` leaves. -/
def poll (client : Client κ) (state : σ) : Option FdSets × σ :=
  let (nfds, sets, state) := prepare network client.conns 0 {} state
  select network nfds sets state

def iterate (client : Client κ) (state : σ) : Pass κ σ :=
  match client.poll network state with
  | (none, state) => { ret := -1, conns := client.conns, calls := [], state }
  | (some ready, state) =>
      let (conns, calls, state) :=
        sweep (serve network ready) copyLast client.conns.length 0 client.conns ([], state)
      { ret := 0, conns, calls, state }

end Client

/-! ## The masks -/

section Masks

variable {κ σ : Type} (network : Network κ σ)

/-- The descriptors of the masks are below the bound. -/
def FdSets.Below (sets : FdSets) (nfds : Nat) : Prop :=
  (∀ fd ∈ sets.readFds, fd < nfds) ∧ ∀ fd ∈ sets.writeFds, fd < nfds

theorem ask_spec (conn : Conn κ) (sets : FdSets) (state : σ) :
    (ask network conn sets state).1.readFds = conn.1 :: sets.readFds ∧
      ∀ fd ∈ (ask network conn sets state).1.writeFds, fd = conn.1 ∨ fd ∈ sets.writeFds := by
  rcases asked : network.getWriteSize conn.2 (network.update conn.2 state) with ⟨size, next⟩
  simp only [ask, asked]
  split
  · exact ⟨rfl, fun fd member => List.mem_cons.mp member⟩
  · exact ⟨rfl, fun fd member => Or.inr member⟩

theorem FdSets.Below.ask {sets : FdSets} {nfds : Nat} (below : sets.Below nfds) (conn : Conn κ)
    (state : σ) :
    (ServiceLoops.ask network conn sets state).1.Below (max nfds (conn.1 + 1)) := by
  rcases ask_spec network conn sets state with ⟨reads, writes⟩
  have here : conn.1 < max nfds (conn.1 + 1) := by omega
  constructor
  · intro fd member
    rw [reads] at member
    rcases List.mem_cons.mp member with rfl | member
    · exact here
    · have before := below.1 fd member
      omega
  · intro fd member
    rcases writes fd member with rfl | member
    · exact here
    · have before := below.2 fd member
      omega

/-- The masks hold the sockets of the connections, below the bound. -/
theorem prepare_spec (conns : List (Conn κ)) {nfds : Nat} {sets : FdSets} (state : σ)
    (below : sets.Below nfds) :
    (prepare network conns nfds sets state).2.1.Below (prepare network conns nfds sets state).1 ∧
      (∀ fd, fd ∈ (prepare network conns nfds sets state).2.1.readFds ↔
        fd ∈ sets.readFds ∨ fd ∈ conns.map Prod.fst) ∧
      ∀ fd ∈ (prepare network conns nfds sets state).2.1.writeFds,
        fd ∈ sets.writeFds ∨ fd ∈ conns.map Prod.fst := by
  induction conns generalizing nfds sets state with
  | nil =>
      refine ⟨below, ?_, fun fd member => Or.inl member⟩
      simp [prepare]
  | cons conn conns ih =>
      rcases ask_spec network conn sets state with ⟨reads, writes⟩
      have bounded := below.ask network conn state
      rw [prepare]
      rcases asked : ask network conn sets state with ⟨sets', state'⟩
      rw [asked] at reads writes bounded
      rcases ih state' bounded with ⟨bounded, readable, writable⟩
      refine ⟨bounded, ?_, ?_⟩
      · intro fd
        rw [readable fd, reads, List.map_cons, List.mem_cons, List.mem_cons]
        tauto
      · intro fd member
        rw [List.map_cons, List.mem_cons]
        rcases writable fd member with asked | later
        · rcases writes fd asked with here | before
          · exact Or.inr (Or.inl here)
          · exact Or.inl before
        · exact Or.inr (Or.inr later)

/-- `select` leaves those of the masks that it has found ready. -/
theorem select_spec {nfds : Nat} {sets ready : FdSets} {state : σ} (below : sets.Below nfds)
    (selected : (select network nfds sets state).1 = some ready) :
    ∃ readable writable, (network.select state).1 = some (readable, writable) ∧
      ∀ fd, (fd ∈ ready.readFds ↔ fd ∈ sets.readFds ∧ readable fd = true) ∧
        (fd ∈ ready.writeFds ↔ fd ∈ sets.writeFds ∧ writable fd = true) := by
  rw [select] at selected
  rcases found : network.select state with ⟨answer, next⟩
  rw [found] at selected
  rcases Option.map_eq_some_iff.mp selected with ⟨⟨readable, writable⟩, isAnswer, rfl⟩
  refine ⟨readable, writable, isAnswer, fun fd => ⟨?_, ?_⟩⟩
  · rw [List.mem_filter]
    apply and_congr_right
    intro member
    simp [Nat.not_le.mpr (below.1 fd member)]
  · rw [List.mem_filter]
    apply and_congr_right
    intro member
    simp [Nat.not_le.mpr (below.2 fd member)]

end Masks

/-! ## One visit -/

/-- What was done with a connection: the results of the calls that were made. -/
structure Visit (κ : Type) where
  conn : Conn κ
  read : Option Int
  write : Option Int

namespace Visit

variable {κ σ : Type}

def fails (visit : Visit κ) : Bool := failed visit.read || failed visit.write

def calls (visit : Visit κ) : List (ServiceCall κ) :=
  visit.read.toList.map (.read visit.conn) ++ visit.write.toList.map (.write visit.conn) ++
    if visit.fails then [.close visit.conn.1, .delete visit.conn.2] else []

/-- The read was called if the socket was ready, and the write if it was ready and the read was not
called or has succeeded. -/
structure Fits (ready : FdSets) (visit : Visit κ) : Prop where
  read : visit.read.isSome ↔ visit.conn.1 ∈ ready.readFds
  write : visit.write.isSome ↔ visit.conn.1 ∈ ready.writeFds ∧ ∀ ret ∈ visit.read, 0 < ret

end Visit

section Serving

variable {κ σ : Type} (network : Network κ σ) (ready : FdSets)

theorem failed_eq_false {ret : Option Int} : failed ret = false ↔ ∀ value ∈ ret, 0 < value := by
  cases ret with
  | none => simp [failed]
  | some value => simp [failed]

theorem isSome_readReady (conn : Conn κ) (state : σ) :
    (readReady network ready conn state).1.isSome ↔ conn.1 ∈ ready.readFds := by
  unfold readReady
  split
  · rename_i readable
    exact iff_of_true rfl readable
  · rename_i silent
    simp [silent]

theorem isSome_writeReady (conn : Conn κ) (state : σ) :
    (writeReady network ready conn state).1.isSome ↔ conn.1 ∈ ready.writeFds := by
  unfold writeReady
  split
  · rename_i writable
    exact iff_of_true rfl writable
  · rename_i silent
    simp [silent]

theorem serve_spec (conn : Conn κ) (calls : List (ServiceCall κ)) (state : σ) :
    ∃ (visit : Visit κ) (next : σ), visit.conn = conn ∧ visit.Fits ready ∧
      serve network ready conn (calls, state) = (visit.fails, calls ++ visit.calls, next) := by
  have readable := isSome_readReady network ready conn state
  rcases isRead : readReady network ready conn state with ⟨read, middle⟩
  rw [isRead] at readable
  have writable := isSome_writeReady network ready conn middle
  rcases isWrite : (if failed read then (none, middle) else writeReady network ready conn middle)
    with ⟨write, last⟩
  have fits : write.isSome ↔ conn.1 ∈ ready.writeFds ∧ ∀ ret ∈ read, 0 < ret := by
    rw [← failed_eq_false]
    cases fails : failed read with
    | true =>
        rw [if_pos fails] at isWrite
        cases isWrite
        simp
    | false =>
        rw [fails, if_neg Bool.false_ne_true] at isWrite
        rw [isWrite] at writable
        simpa using writable
  cases fails : failed read || failed write with
  | true =>
      refine ⟨⟨conn, read, write⟩, network.delete conn.2 (network.close conn.1 last), rfl,
        ⟨readable, fits⟩, ?_⟩
      simp only [serve, isRead, isWrite, fails, if_true, Visit.fails, Visit.calls,
        List.append_assoc]
  | false =>
      refine ⟨⟨conn, read, write⟩, last, rfl, ⟨readable, fits⟩, ?_⟩
      simp only [serve, isRead, isWrite, fails, if_false, Visit.fails, Visit.calls,
        List.append_assoc, List.append_nil, Bool.false_eq_true]

/-- Connections that are visited one after the other are each visited once. -/
theorem visits_spec (order : List (Conn κ)) (calls : List (ServiceCall κ)) (state : σ) :
    ∃ seen : List (Visit κ), seen.map Visit.conn = order ∧ (∀ visit ∈ seen, visit.Fits ready) ∧
      (visits (serve network ready) order (calls, state)).2.1 =
        calls ++ seen.flatMap Visit.calls ∧
      (visits (serve network ready) order (calls, state)).1 =
        (seen.filter fun visit => !visit.fails).map Visit.conn := by
  induction order generalizing calls state with
  | nil => exact ⟨[], rfl, by simp, by simp [visits], rfl⟩
  | cons conn order ih =>
      rcases serve_spec network ready conn calls state with
        ⟨visit, next, isConn, fits, served⟩
      rcases ih (calls ++ visit.calls) next with ⟨seen, isOrder, fit, called, kept⟩
      refine ⟨visit :: seen, by rw [List.map_cons, isConn, isOrder], ?_, ?_, ?_⟩
      · intro other member
        rcases List.mem_cons.mp member with rfl | member
        · exact fits
        · exact fit other member
      · simp only [visits, served, called, List.flatMap_cons, List.append_assoc]
      · simp only [visits, served, kept]
        cases fails : visit.fails with
        | true => simp [fails]
        | false => simp [fails, isConn]

end Serving

/-! ## What a pass does -/

section Passes

variable {κ σ : Type} {ready : FdSets}

/-- Each connection that was in the list is served once, whatever was moved in between.  The lists
are compared as multisets. -/
structure Serviced (ready : FdSets) (before accepted after : List (Conn κ))
    (calls : List (ServiceCall κ)) : Prop where
  /-- The calls are those of one visit to each connection, in some order. -/
  visits : ∃ seen : List (Visit κ), (∀ visit ∈ seen, visit.Fits ready) ∧
    (seen.map Visit.conn).Perm (before ++ accepted) ∧ calls = seen.flatMap Visit.calls
  /-- Each connection that is ready is read. -/
  reads : (wereRead calls).Perm (before.filter (·.1 ∈ ready.readFds))
  /-- Each connection that is ready is written, except for those whose read has failed. -/
  writes : (wereWritten calls ++ (readFailed calls).filter (·.1 ∈ ready.writeFds)).Perm
    (before.filter (·.1 ∈ ready.writeFds))
  /-- Those with a failed call are closed and deleted. -/
  closes : wereClosed calls = (haveFailed calls).map Prod.fst
  deletes : wereDeleted calls = (haveFailed calls).map Prod.snd
  /-- The others are left. -/
  after : (after ++ haveFailed calls).Perm (before ++ accepted)

namespace Visit

theorem filterMap_calls {β : Type} (visit : Visit κ) (pick : ServiceCall κ → Option β) :
    visit.calls.filterMap pick =
      (visit.read.bind fun ret => pick (.read visit.conn ret)).toList ++
        (visit.write.bind fun ret => pick (.write visit.conn ret)).toList ++
        if visit.fails then
          (pick (.close visit.conn.1)).toList ++ (pick (.delete visit.conn.2)).toList
        else
          [] := by
  have single : ∀ call, [call].filterMap pick = (pick call).toList := by
    intro call
    rw [List.filterMap_cons]
    cases pick call <;> rfl
  have several : ∀ (ret : Option Int) (call : Int → ServiceCall κ),
      (ret.toList.map call).filterMap pick = (ret.bind fun ret => pick (call ret)).toList := by
    intro ret call
    cases ret with
    | none => rfl
    | some ret => exact single (call ret)
  rw [calls, List.filterMap_append, List.filterMap_append, several, several]
  congr 1
  split
  · change ([_] ++ [_]).filterMap pick = _
    rw [List.filterMap_append, single, single]
  · rfl

theorem toList_failed (ret : Option Int) (conn : Conn κ) :
    (ret.bind fun ret => if ret ≤ 0 then some conn else none).toList =
      if failed ret then [conn] else [] := by
  cases ret with
  | none => rfl
  | some ret =>
      rw [Option.bind_some]
      by_cases fails : ret ≤ 0
      · simp [failed, fails]
      · simp [failed, fails]

theorem reads_calls (visit : Visit κ) :
    visit.calls.filterMap ServiceCall.reads = if visit.read.isSome then [visit.conn] else [] := by
  rw [filterMap_calls]
  cases visit.read <;> simp [ServiceCall.reads]

theorem writes_calls (visit : Visit κ) :
    visit.calls.filterMap ServiceCall.writes =
      if visit.write.isSome then [visit.conn] else [] := by
  rw [filterMap_calls]
  cases visit.write <;> simp [ServiceCall.writes]

theorem failsRead_calls (visit : Visit κ) :
    visit.calls.filterMap ServiceCall.failsRead =
      if failed visit.read then [visit.conn] else [] := by
  rw [filterMap_calls]
  simp [ServiceCall.failsRead, toList_failed]

theorem closes_calls (visit : Visit κ) :
    visit.calls.filterMap ServiceCall.closes = if visit.fails then [visit.conn.1] else [] := by
  rw [filterMap_calls]
  simp [ServiceCall.closes]

theorem deletes_calls (visit : Visit κ) :
    visit.calls.filterMap ServiceCall.deletes = if visit.fails then [visit.conn.2] else [] := by
  rw [filterMap_calls]
  simp [ServiceCall.deletes]

/-- Of the two calls of a visit only the last can fail. -/
theorem Fits.fails_calls {visit : Visit κ} (fits : visit.Fits ready) :
    visit.calls.filterMap ServiceCall.fails = if visit.fails then [visit.conn] else [] := by
  rw [filterMap_calls]
  simp only [ServiceCall.fails, toList_failed, Option.toList_none, List.append_nil, ite_self]
  cases read : failed visit.read with
  | false => simp [fails, read]
  | true =>
      have unwritten : visit.write = none := by
        rw [← Option.not_isSome_iff_eq_none, fits.write, ← failed_eq_false, read]
        simp
      have silent : failed none = false := rfl
      simp [fails, read, unwritten, silent]

end Visit

/-- What is picked from the calls of the visits, one visit after the other. -/
theorem filterMap_visits {β : Type} {pick : ServiceCall κ → Option β} {picks : Visit κ → Bool}
    {picked : Visit κ → β} {seen : List (Visit κ)}
    (each : ∀ visit ∈ seen, visit.calls.filterMap pick =
      if picks visit then [picked visit] else []) :
    (seen.flatMap Visit.calls).filterMap pick = (seen.filter picks).map picked := by
  induction seen with
  | nil => rfl
  | cons visit seen ih =>
      rw [List.flatMap_cons, List.filterMap_append, each visit List.mem_cons_self,
        ih fun other member => each other (List.mem_cons_of_mem _ member), List.filter_cons]
      split
      · rfl
      · rfl

section Seen

variable {seen : List (Visit κ)}

theorem wereRead_seen (fits : ∀ visit ∈ seen, visit.Fits ready) :
    wereRead (seen.flatMap Visit.calls) =
      (seen.map Visit.conn).filter (·.1 ∈ ready.readFds) := by
  rw [wereRead, filterMap_visits fun visit _ => visit.reads_calls, List.filter_map]
  congr 1
  apply List.filter_congr
  intro visit member
  rw [Bool.eq_iff_iff, (fits visit member).read]
  simp

theorem haveFailed_seen (fits : ∀ visit ∈ seen, visit.Fits ready) :
    haveFailed (seen.flatMap Visit.calls) = (seen.filter Visit.fails).map Visit.conn :=
  filterMap_visits fun visit member => (fits visit member).fails_calls

/-- A connection that can be written is either written, or its read has failed. -/
theorem wereWritten_seen (fits : ∀ visit ∈ seen, visit.Fits ready) :
    (wereWritten (seen.flatMap Visit.calls) ++
      (readFailed (seen.flatMap Visit.calls)).filter (·.1 ∈ ready.writeFds)).Perm
        ((seen.map Visit.conn).filter (·.1 ∈ ready.writeFds)) := by
  rw [wereWritten, readFailed, filterMap_visits fun visit _ => visit.writes_calls,
    filterMap_visits fun visit _ => visit.failsRead_calls, List.filter_map, List.filter_map,
    List.filter_filter, ← List.map_append]
  apply List.Perm.map
  have split := List.filter_append_perm (fun visit : Visit κ => visit.write.isSome)
    (seen.filter ((fun conn : Conn κ => decide (conn.1 ∈ ready.writeFds)) ∘ Visit.conn))
  rw [List.filter_filter, List.filter_filter] at split
  refine (List.Perm.of_eq ?_).trans split
  congr 1
  · apply List.filter_congr
    intro visit member
    have written := (fits visit member).write
    cases isWritten : visit.write.isSome with
    | false => rfl
    | true => simp [(written.mp isWritten).1]
  · apply List.filter_congr
    intro visit member
    have written := (fits visit member).write
    rw [← failed_eq_false] at written
    by_cases writable : visit.conn.1 ∈ ready.writeFds
    · cases isWritten : visit.write.isSome <;> cases fails : failed visit.read <;>
        simp_all
    · simp [writable]

/-- What visits to each connection amount to. -/
theorem serviced_of_seen {before accepted after : List (Conn κ)}
    (fits : ∀ visit ∈ seen, visit.Fits ready)
    (each : (seen.map Visit.conn).Perm (before ++ accepted))
    (quiet : ∀ conn ∈ accepted, conn.1 ∉ ready.readFds ∧ conn.1 ∉ ready.writeFds)
    (kept : after.Perm ((seen.filter fun visit => !visit.fails).map Visit.conn)) :
    Serviced ready before accepted after (seen.flatMap Visit.calls) := by
  have unread : accepted.filter (·.1 ∈ ready.readFds) = [] :=
    List.filter_eq_nil_iff.mpr fun conn member => by simpa using (quiet conn member).1
  have unwritten : accepted.filter (·.1 ∈ ready.writeFds) = [] :=
    List.filter_eq_nil_iff.mpr fun conn member => by simpa using (quiet conn member).2
  constructor
  · exact ⟨seen, fits, each, rfl⟩
  · rw [wereRead_seen fits]
    have all := each.filter fun conn => decide (conn.1 ∈ ready.readFds)
    rwa [List.filter_append, unread, List.append_nil] at all
  · apply (wereWritten_seen fits).trans
    have all := each.filter fun conn => decide (conn.1 ∈ ready.writeFds)
    rwa [List.filter_append, unwritten, List.append_nil] at all
  · rw [haveFailed_seen fits, List.map_map]
    exact filterMap_visits fun visit _ => visit.closes_calls
  · rw [haveFailed_seen fits, List.map_map]
    exact filterMap_visits fun visit _ => visit.deletes_calls
  · rw [haveFailed_seen fits]
    apply (kept.append_right _).trans
    rw [← List.map_append]
    apply List.Perm.trans _ each
    apply List.Perm.map
    exact List.perm_append_comm.trans (List.filter_append_perm Visit.fails seen)

/-- The loop serves each connection of its list. -/
theorem sweep_serviced (network : Network κ σ) {remove : List (Conn κ) → Nat → List (Conn κ)}
    (compacts : Sweeping.Compacts remove) (before : List (Conn κ)) {accepted : List (Conn κ)}
    (quiet : ∀ conn ∈ accepted, conn.1 ∉ ready.readFds ∧ conn.1 ∉ ready.writeFds) (state : σ) :
    Serviced ready before accepted
      (sweep (serve network ready) remove (before ++ accepted).length 0 (before ++ accepted)
        ([], state)).1
      (sweep (serve network ready) remove (before ++ accepted).length 0 (before ++ accepted)
        ([], state)).2.1 := by
  have enough : (before ++ accepted).length - 0 ≤ (before ++ accepted).length := Nat.le_refl _
  rcases Sweeping.sweep_spec (serve network ready) compacts ([], state) enough with
    ⟨order, each, ends, kept⟩
  rcases visits_spec network ready order [] state with ⟨seen, isOrder, fits, called, left⟩
  rw [ends, called, List.nil_append]
  rw [left] at kept
  apply serviced_of_seen fits
  · rw [isOrder]
    exact each
  · exact quiet
  · exact kept

end Seen

/-- A pass of the server does nothing if `select` fails.  Otherwise each of its connections is
served, and those are left that have not failed, with the one that was accepted. -/
def Server.Serves (network : Network κ σ) (server : Server κ) (state : σ) : Prop :=
  match server.poll network state with
  | (none, polled) => server.iterate network state =
      { ret := -1, conns := server.conns, calls := [], state := polled }
  | (some ready, polled) => (server.iterate network state).ret = 0 ∧
      Serviced ready server.conns (server.accepted network ready polled).1
        (server.iterate network state).conns (server.iterate network state).calls

def Client.Serves (network : Network κ σ) (client : Client κ) (state : σ) : Prop :=
  match client.poll network state with
  | (none, polled) => client.iterate network state =
      { ret := -1, conns := client.conns, calls := [], state := polled }
  | (some ready, _) => (client.iterate network state).ret = 0 ∧
      Serviced ready client.conns [] (client.iterate network state).conns
        (client.iterate network state).calls

variable (network : Network κ σ)

/-- Every socket of the server is waited for, and the descriptors that `select` leaves are those of
its sockets. -/
theorem Server.poll_spec (server : Server κ) {state : σ}
    (polled : (server.poll network state).1 = some ready) :
    (∃ readable : Nat → Bool, ∀ fd, fd ∈ ready.readFds ↔
      fd ∈ server.s :: server.conns.map Prod.fst ∧ readable fd = true) ∧
    ∀ fd ∈ ready.writeFds, fd ∈ server.conns.map Prod.fst := by
  have below : FdSets.Below { readFds := [server.s] } (server.s + 1) := by
    constructor
    · intro fd member
      rw [List.mem_singleton.mp member]
      exact Nat.lt_succ_self _
    · intro fd member
      cases member
  have prepared := prepare_spec network server.conns state below
  rw [Server.poll] at polled
  rcases asked : prepare network server.conns (server.s + 1) { readFds := [server.s] } state with
    ⟨nfds, sets, asked'⟩
  rw [asked] at prepared polled
  rcases prepared with ⟨below, reads, writes⟩
  rcases select_spec network below polled with ⟨readable, writable, -, left⟩
  constructor
  · refine ⟨readable, fun fd => ?_⟩
    rw [(left fd).1, reads fd]
    simp
  · intro fd member
    rcases writes fd ((left fd).2.mp member).1 with none | socket
    · cases none
    · exact socket

/-- A connection that is accepted has a new socket. -/
theorem Server.accepted_fresh (server : Server κ) (ready : FdSets) (polled : σ) :
    ∀ conn ∈ (server.accepted network ready polled).1,
      conn.1 ∉ server.s :: server.conns.map Prod.fst := by
  intro conn member
  unfold Server.accepted Server.acceptConnection at member
  split at member
  · split at member
    · cases member
    · rename_i fd next accepts
      rw [List.mem_singleton.mp member]
      exact fd.2
  · cases member

/-- `select` was not asked about a connection that is accepted. -/
theorem Server.accepted_quiet (server : Server κ) {state : σ} (polled : σ)
    (isReady : (server.poll network state).1 = some ready) :
    ∀ conn ∈ (server.accepted network ready polled).1,
      conn.1 ∉ ready.readFds ∧ conn.1 ∉ ready.writeFds := by
  intro conn member
  rcases server.poll_spec network isReady with ⟨⟨readable, reads⟩, writes⟩
  have fresh := server.accepted_fresh network ready polled conn member
  constructor
  · intro isRead
    exact fresh ((reads conn.1).mp isRead).1
  · intro isWritten
    exact fresh (List.mem_cons_of_mem _ (writes conn.1 isWritten))

theorem Server.serves (server : Server κ) (state : σ) : server.Serves network state := by
  unfold Server.Serves
  rcases isPoll : server.poll network state with ⟨_ | ready, polled⟩
  · simp only [Server.iterate, isPoll]
  · have quiet := server.accepted_quiet network polled (by rw [isPoll])
    rcases isAccepted : server.accepted network ready polled with ⟨accepted, next⟩
    rw [isAccepted] at quiet
    simp only [Server.iterate, isPoll, isAccepted, true_and]
    exact sweep_serviced network Sweeping.compacts_swapLast server.conns quiet next

theorem Client.serves (client : Client κ) (state : σ) : client.Serves network state := by
  unfold Client.Serves
  rcases isPoll : client.poll network state with ⟨_ | ready, polled⟩
  · simp only [Client.iterate, isPoll]
  · simp only [Client.iterate, isPoll, true_and]
    have quiet : ∀ conn ∈ ([] : List (Conn κ)),
        conn.1 ∉ ready.readFds ∧ conn.1 ∉ ready.writeFds := by simp
    have served := sweep_serviced network Sweeping.compacts_copyLast client.conns quiet polled
    rw [List.append_nil] at served
    exact served

/-- For every list of connections, whatever is ready and whatever the calls return: a pass of the
server or of the client serves each connection once. -/
theorem iterate_serves (state : σ) :
    (∀ server : Server κ, server.Serves network state) ∧
      ∀ client : Client κ, client.Serves network state := by
  constructor
  · intro server
    exact server.serves network state
  · intro client
    exact client.serves network state

end Passes

end GnyProxy.ServiceLoops
