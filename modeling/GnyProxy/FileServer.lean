import GnyProxy.HttpMessage
import GnyProxy.SlashPath
import Mathlib.Data.List.DropRight

/-!
# The file server

`MyHttpServer`, the entity generator of `test_http_server.cpp`: it resolves the url of a request
below its base path and answers with the file or the directory found there.  The file system is
given; it does not change during a call.
-/

namespace GnyProxy

open SlashPath

/-- An absolute path as `realpath` returns it: names with neither `.` nor `..` among them. -/
structure CanonicalPath where
  names : List Str
  valid : ∀ name ∈ names, name ≠ [] ∧ 47 ∉ name ∧ 0 ∉ name ∧ name ≠ ascii "." ∧ name ≠ ascii ".."

namespace CanonicalPath

def text (path : CanonicalPath) : Str := SlashPath.text 47 path.names

theorem isName (path : CanonicalPath) : ∀ name ∈ path.names, IsName 47 name :=
  fun name member => ⟨(path.valid name member).1, (path.valid name member).2.1⟩

/-- A canonical path has no NUL. -/
theorem nulFree (path : CanonicalPath) : 0 ∉ path.text := by
  intro member
  by_cases root : path.names = []
  · rw [text, root] at member
    revert member
    decide
  · rw [text, text_eq_body root] at member
    obtain ⟨name, member, inside⟩ := List.mem_flatMap.mp member
    rw [List.mem_cons] at inside
    rcases inside with zero | inside
    · exact absurd zero (by decide)
    · exact (path.valid name member).2.2.1 inside

/-- One canonical path is under another exactly when its names begin with those of the other. -/
theorem under_iff (base path : CanonicalPath) :
    Under 47 base.text path.text ↔ base.names <+: path.names :=
  SlashPath.under_iff base.isName path.isName

end CanonicalPath

/-- What the program asks of the system.  An opened file is what its reads will return, one after
the other; the entries of a directory are those of `readdir`. -/
structure FileSystem where
  realpath : Str → Option CanonicalPath
  opendir : Str → Option (List Str)
  openFile : Str → Option (List Str)
  mimeType : Str → Str

/-- A file or directory that is read on behalf of a request. -/
inductive Access where
  | listed (path : Str)
  | opened (path : Str)
  deriving DecidableEq

def Access.path : Access → Str
  | listed path => path
  | opened path => path

structure MyHttpServer where
  inMsg : HttpMessage
  outMsg : HttpMessage
  basePath : CanonicalPath
  fd : Option (List Str) := none
  headerMp : Fields := []

namespace MyHttpServer

/-- The url in front of its query. -/
def withoutQuery (url : Str) : Str := url.takeWhile (· ≠ 63)

/-- The url without the slashes at its end. -/
def withoutSlashes (url : Str) : Str := url.rdropWhile (· == 47)

/-- `header_mp[key]` -/
def header (headerMp : Fields) (key : Str) : Str := (headerMp.lookup key).getD []

/-- The headers are stored under their lower-case names, later ones over earlier ones. -/
def storeHeaders (headerMp headers : Fields) : Fields :=
  headers.foldl (fun headerMp (key, value) => (key.map tolower, value) :: headerMp) headerMp

/-- The loop that compares the base path with the buffer that `realpath` has filled. -/
def comparePrefix : Str → Str → Except Fault Bool
  | [], _ => .ok true
  | _ :: _, [] => .error .outOfBounds
  | char :: basePath, read :: canonPath =>
      if char = read then comparePrefix basePath canonPath else .ok false

/-- The line that a directory entry adds to the listing. -/
def listingLine (host url name : Str) : Str :=
  ascii "<a href='http://" ++ host ++ url ++ ascii "/" ++ name ++ ascii "'>" ++ name ++
    ascii "</a><br/>"

/-- What was found under a path. -/
structure Found where
  entity : Str := []
  contentType : Str := ascii "text/plain"
  fd : Option (List Str) := none
  accesses : List Access := []

def notFound : Str := ascii "Could not find specified file or path"

/-- The path is listed if it is a directory, and else opened. -/
def openPath (fs : FileSystem) (server : MyHttpServer) (url canonPath : Str) : Found :=
  match fs.opendir canonPath with
  | some entries =>
      let shown := entries.filter fun name => name.head? ≠ some 46
      { entity := shown.flatMap (listingLine (header server.headerMp (ascii "host")) url)
        contentType := if shown.isEmpty then ascii "text/plain" else ascii "text/html"
        fd := server.fd
        accesses := [.listed canonPath] }
  | none =>
      match fs.openFile canonPath with
      | some reads =>
          { contentType := fs.mimeType canonPath
            fd := some reads
            accesses := [.opened canonPath] }
      | none => { entity := notFound }

/-- The path that is resolved for a url. -/
def requestedPath (basePath : CanonicalPath) (url : Str) : Str :=
  cStr (basePath.text ++ ascii "/" ++ url)

def findPath (fs : FileSystem) (server : MyHttpServer) (url : Str) : Except Fault Found :=
  match fs.realpath (requestedPath server.basePath url) with
  | some canonPath => do
      let ok ← comparePrefix server.basePath.text (canonPath.text ++ [0])
      if ok then
        .ok (openPath fs server url canonPath.text)
      else
        .ok { entity := ascii "You do not have permission to access this resource."
              fd := server.fd }
  | none => .ok { entity := notFound, fd := server.fd }

/-- The headers of the request have arrived and nothing has been answered yet. -/
def Answers (server : MyHttpServer) : Prop :=
  withoutQuery server.inMsg.url ≠ [] ∧
    MessageState.rank .header < server.inMsg.state.rank ∧ server.outMsg.state = .header

instance (server : MyHttpServer) : Decidable server.Answers :=
  inferInstanceAs (Decidable (_ ∧ _ ∧ _))

/-- The part of `process` that looks the request up and begins the response. -/
def answer (fs : FileSystem) (server : MyHttpServer) :
    Except Fault (MyHttpServer × List Access) := do
  let server := { server with
    headerMp := storeHeaders server.headerMp server.inMsg.headers
    inMsg := server.inMsg.clearHeaders }
  let outMsg := server.outMsg.setStatus 200
  let found ← findPath fs server (withoutSlashes (withoutQuery server.inMsg.url))
  let outMsg ← outMsg.addHeader (ascii "Server") (ascii "Test Server")
  let outMsg ← outMsg.addHeader (ascii "Content-Type") found.contentType
  let outMsg ← outMsg.addHeader (ascii "Cache-Control") (ascii "private")
  let outMsg ← outMsg.endHeader
  let outMsg ← if found.fd.isNone then do
      let outMsg ← outMsg.appendEntity found.entity
      outMsg.endEntity
    else
      .ok outMsg
  .ok ({ server with outMsg, fd := found.fd }, found.accesses)

/-- The loop that reads the file, and closes it at a read that returns nothing. -/
def readFile : List Str → HttpMessage → Except Fault (HttpMessage × Option (List Str))
  | reads, outMsg =>
      if outMsg.state = .entity ∧ outMsg.entity.length < 1024 then
        match reads with
        | [] => do
            let outMsg ← outMsg.endEntity
            .ok (outMsg, none)
        | piece :: reads => do
            if piece.isEmpty then
              let outMsg ← outMsg.endEntity
              .ok (outMsg, none)
            else
              let outMsg ← outMsg.appendEntity piece
              readFile reads outMsg
      else
        .ok (outMsg, some reads)

/-- Without a file, the first read fails. -/
def readEntity : Option (List Str) → HttpMessage →
    Except Fault (HttpMessage × Option (List Str))
  | some reads, outMsg => readFile reads outMsg
  | none, outMsg => do
      let (outMsg, _) ← readFile [] outMsg
      .ok (outMsg, none)

def process (fs : FileSystem) (server : MyHttpServer) :
    Except Fault (MyHttpServer × List Access) := do
  let (server, accesses) ← (if server.Answers then answer fs server else .ok (server, []))
  let (outMsg, fd) ← readEntity server.fd server.outMsg
  let outMsg ← (if outMsg.state = .footer then outMsg.endFooter else .ok outMsg)
  .ok ({ server with outMsg, fd, inMsg := server.inMsg.clearEntity.clearFooters }, accesses)

/-! ## What a call reads -/

/-- The comparison stops at the end of the resolved path and finds whether it begins with the base
path. -/
theorem comparePrefix_eq {basePath : Str} (nulFree : 0 ∉ basePath) (path : Str) :
    comparePrefix basePath (path ++ [0]) = .ok (decide (basePath <+: path)) := by
  induction basePath generalizing path with
  | nil => simp [comparePrefix]
  | cons char basePath ih =>
      simp only [List.mem_cons, not_or] at nulFree
      cases path with
      | nil =>
          have differ : char ≠ 0 := fun zero => nulFree.1 zero.symm
          simp [comparePrefix, differ]
      | cons read path =>
          by_cases same : char = read
          · simp [comparePrefix, same, ih nulFree.2 path, List.cons_prefix_cons]
          · simp [comparePrefix, same, List.cons_prefix_cons]

/-- The access that opening a path leads to. -/
def Reads (fs : FileSystem) (path : Str) : Access → Prop
  | .listed read => read = path ∧ fs.opendir path ≠ none
  | .opened read => read = path ∧ fs.opendir path = none ∧ fs.openFile path ≠ none

theorem openPath_accesses (fs : FileSystem) (server : MyHttpServer) (url path : Str)
    (access : Access) :
    access ∈ (openPath fs server url path).accesses ↔ Reads fs path access := by
  cases listing : fs.opendir path with
  | some entries => cases access <;> simp [openPath, Reads, listing]
  | none =>
      cases file : fs.openFile path with
      | some reads => cases access <;> simp [openPath, Reads, listing, file]
      | none => cases access <;> simp [openPath, Reads, listing, file]

/-- The path behind a url is read if it resolves to one that begins with the base path. -/
theorem findPath_ok (fs : FileSystem) (server : MyHttpServer) (url : Str) :
    ∃ found, findPath fs server url = .ok found ∧ ∀ access, access ∈ found.accesses ↔
      ∃ canonPath, fs.realpath (requestedPath server.basePath url) = some canonPath ∧
        server.basePath.text <+: canonPath.text ∧ Reads fs canonPath.text access := by
  cases resolved : fs.realpath (requestedPath server.basePath url) with
  | none =>
      refine ⟨{ entity := notFound, fd := server.fd }, by simp only [findPath, resolved], ?_⟩
      intro access
      simp
  | some canonPath =>
      simp only [findPath, resolved, comparePrefix_eq server.basePath.nulFree, ok_bind,
        decide_eq_true_eq]
      by_cases begins : server.basePath.text <+: canonPath.text
      · rw [if_pos begins]
        refine ⟨_, rfl, fun access => ?_⟩
        rw [openPath_accesses]
        constructor
        · intro reads
          exact ⟨canonPath, rfl, begins, reads⟩
        · rintro ⟨other, same, -, reads⟩
          cases same
          exact reads
      · rw [if_neg begins]
        refine ⟨_, rfl, fun access => ?_⟩
        constructor
        · intro member
          cases member
        · rintro ⟨other, same, begins', -⟩
          cases same
          exact absurd begins' begins

/-- A response that has not begun can be begun with what was found. -/
theorem answer_ok (fs : FileSystem) (server : MyHttpServer)
    (header : server.outMsg.state = .header) :
    ∃ next accesses, answer fs server = .ok (next, accesses) ∧ ∀ access, access ∈ accesses ↔
      ∃ canonPath, fs.realpath (requestedPath server.basePath
          (withoutSlashes (withoutQuery server.inMsg.url))) = some canonPath ∧
        server.basePath.text <+: canonPath.text ∧ Reads fs canonPath.text access := by
  rcases findPath_ok fs { server with
    headerMp := storeHeaders server.headerMp server.inMsg.headers
    inMsg := server.inMsg.clearHeaders } (withoutSlashes (withoutQuery server.inMsg.url))
    with ⟨found, looked, accesses⟩
  have url : server.inMsg.clearHeaders.url = server.inMsg.url := rfl
  simp only [answer, url, looked, ok_bind, HttpMessage.addHeader, HttpMessage.setStatus, header,
    HttpMessage.endHeader, if_true, MessageState.rank_header, le_refl]
  cases found.fd with
  | none => exact ⟨_, _, rfl, accesses⟩
  | some reads => exact ⟨_, _, rfl, accesses⟩

/-- Reading goes on to the end of the file or until enough is there. -/
theorem readFile_ok (reads : List Str) (outMsg : HttpMessage) :
    ∃ next, readFile reads outMsg = .ok next := by
  induction reads generalizing outMsg with
  | nil =>
      rw [readFile]
      split
      · rename_i more
        rw [HttpMessage.endEntity, more.1, if_pos le_rfl]
        exact ⟨_, rfl⟩
      · exact ⟨_, rfl⟩
  | cons piece reads ih =>
      rw [readFile]
      split
      · rename_i more
        cases ended : piece.isEmpty with
        | true =>
            simp only [if_true, HttpMessage.endEntity, more.1, le_refl, ok_bind]
            exact ⟨_, rfl⟩
        | false =>
            simp only [if_false, Bool.false_eq_true, HttpMessage.appendEntity, more.1, if_true,
              ok_bind]
            exact ih _
      · exact ⟨_, rfl⟩

theorem readEntity_ok (fd : Option (List Str)) (outMsg : HttpMessage) :
    ∃ next, readEntity fd outMsg = .ok next := by
  cases fd with
  | some reads => exact readFile_ok reads outMsg
  | none =>
      rcases readFile_ok [] outMsg with ⟨next, read⟩
      simp only [readEntity, read, ok_bind]
      exact ⟨_, rfl⟩

/-- A call never fails, and reads at most the path behind the url, once. -/
theorem process_ok (fs : FileSystem) (server : MyHttpServer) :
    ∃ next accesses, process fs server = .ok (next, accesses) ∧ ∀ access, access ∈ accesses ↔
      server.Answers ∧
        ∃ canonPath, fs.realpath (requestedPath server.basePath
            (withoutSlashes (withoutQuery server.inMsg.url))) = some canonPath ∧
          server.basePath.text <+: canonPath.text ∧ Reads fs canonPath.text access := by
  have begun : ∃ next accesses,
      (if server.Answers then answer fs server else .ok (server, [])) = .ok (next, accesses) ∧
        ∀ access, access ∈ accesses ↔ server.Answers ∧
          ∃ canonPath, fs.realpath (requestedPath server.basePath
              (withoutSlashes (withoutQuery server.inMsg.url))) = some canonPath ∧
            server.basePath.text <+: canonPath.text ∧ Reads fs canonPath.text access := by
    by_cases answers : server.Answers
    · rcases answer_ok fs server answers.2.2 with ⟨next, accesses, outcome, reads⟩
      refine ⟨next, accesses, by rw [if_pos answers, outcome], fun access => ?_⟩
      rw [reads access]
      simp [answers]
    · refine ⟨server, [], if_neg answers, fun access => ?_⟩
      simp [answers]
  rcases begun with ⟨next, accesses, outcome, reads⟩
  rcases readEntity_ok next.fd next.outMsg with ⟨⟨outMsg, fd⟩, read⟩
  simp only [process, outcome, ok_bind, read]
  split
  · rename_i footer
    simp only [HttpMessage.endFooter, footer, le_refl, if_true, ok_bind]
    exact ⟨_, _, rfl, reads⟩
  · simp only [ok_bind]
    exact ⟨_, _, rfl, reads⟩

/-! ## The guard -/

/-- Every file or directory that a call reads is the base path or below it. -/
def ServesUnderBase (fs : FileSystem) (server : MyHttpServer) : Prop :=
  ∃ next accesses, process fs server = .ok (next, accesses) ∧
    ∀ access ∈ accesses, Under 47 server.basePath.text access.path

/-- The request resolves to a readable path whose text goes on behind the base path with another
character than a slash. -/
def AsksBeside (fs : FileSystem) (server : MyHttpServer) : Prop :=
  server.Answers ∧
    ∃ canonPath, fs.realpath (requestedPath server.basePath
        (withoutSlashes (withoutQuery server.inMsg.url))) = some canonPath ∧
      Beside 47 server.basePath.text canonPath.text ∧
      (fs.opendir canonPath.text ≠ none ∨ fs.openFile canonPath.text ≠ none)

/-- A path that can be read leads to an access of it. -/
theorem exists_reads {fs : FileSystem} {path : Str}
    (readable : fs.opendir path ≠ none ∨ fs.openFile path ≠ none) :
    ∃ access : Access, access.path = path ∧ Reads fs path access := by
  by_cases listing : fs.opendir path = none
  · exact ⟨.opened path, rfl, rfl, listing, readable.resolve_left (not_not.mpr listing)⟩
  · exact ⟨.listed path, rfl, rfl, listing⟩

theorem Reads.path {fs : FileSystem} {path : Str} {access : Access}
    (reads : Reads fs path access) : access.path = path := by
  cases access with
  | listed read => exact reads.1
  | opened read => exact reads.1

theorem Reads.readable {fs : FileSystem} {path : Str} {access : Access}
    (reads : Reads fs path access) : fs.opendir path ≠ none ∨ fs.openFile path ≠ none := by
  cases access with
  | listed read => exact Or.inl reads.2
  | opened read => exact Or.inr reads.2.2

/-- For every file system and every request, what is read lies under the base path exactly when
the request does not ask for a readable path beside it. -/
theorem servesUnderBase_iff (fs : FileSystem) (server : MyHttpServer) :
    ServesUnderBase fs server ↔ ¬ AsksBeside fs server := by
  rcases process_ok fs server with ⟨next, accesses, outcome, accessed⟩
  constructor
  · rintro ⟨next', accesses', outcome', under⟩ ⟨answers, canonPath, resolved, beside, readable⟩
    rw [outcome] at outcome'
    cases outcome'
    rcases exists_reads readable with ⟨access, path, reads⟩
    have begins : server.basePath.text <+: canonPath.text := by
      rcases beside with ⟨-, char, rest, -, continued⟩
      exact ⟨char :: rest, continued.symm⟩
    have member := (accessed access).mpr ⟨answers, canonPath, resolved, begins, reads⟩
    have inside := under access member
    rw [path] at inside
    exact (under_iff_not_beside server.basePath.isName canonPath.isName begins).mp inside beside
  · intro notBeside
    refine ⟨next, accesses, outcome, fun access member => ?_⟩
    rcases (accessed access).mp member with ⟨answers, canonPath, resolved, begins, reads⟩
    rw [reads.path]
    apply (under_iff_not_beside server.basePath.isName canonPath.isName begins).mpr
    intro beside
    exact notBeside ⟨answers, canonPath, resolved, beside, reads.readable⟩

/-! ## A directory beside the served one -/

/-- `/srv/www`, and beside it `/srv/www-secret` with a file. -/
def served : CanonicalPath := ⟨[ascii "srv", ascii "www"], by decide⟩

def secret : CanonicalPath := ⟨[ascii "srv", ascii "www-secret", ascii "key"], by decide⟩

def siblingFiles : FileSystem where
  realpath path :=
    if path = ascii "/srv/www/../www-secret/key" then some secret
    else if path = ascii "/srv/www/" then some served
    else none
  opendir path := if path = served.text then some [ascii "index"] else none
  openFile path := if path = secret.text then some [ascii "secret"] else none
  mimeType _ := ascii "text/plain"

/-- A request that climbs out of the base path to the directory beside it. -/
def siblingRequest : MyHttpServer where
  inMsg := { HttpMessage.fresh true with url := ascii "../www-secret/key", state := .done }
  outMsg := .fresh false
  basePath := served

/-- The file beside the base path is read. -/
theorem not_servesUnderBase_sibling :
    ¬ ∀ (fs : FileSystem) (server : MyHttpServer), ServesUnderBase fs server := by
  intro all
  rcases all siblingFiles siblingRequest with ⟨next, accesses, outcome, under⟩
  have read : (process siblingFiles siblingRequest).map Prod.snd = .ok [.opened secret.text] := by
    decide +kernel
  rw [outcome] at read
  cases read
  have outside := (CanonicalPath.under_iff served secret).mp
    (under (.opened secret.text) List.mem_cons_self)
  revert outside
  decide

end MyHttpServer
end GnyProxy
