import GnyProxy.CString
import Mathlib.Data.List.GetD

/-!
# Verbs and headers

The two string tables of `http.cpp` and the searches over them.  Verbs and headers are kept as
their enum codes, one byte wide: a code read from the wire is cast without a check and need not
be an enumerator, so that looking one up in a table may miss it.
-/

namespace GnyProxy

/-- `HTTP_REQUEST_CONNECT`. -/
def verbConnect : UInt8 := 0

/-- `HTTP_REQUEST_VERB_UNKNOWN`, one past the last verb. -/
def verbUnknown : UInt8 := 9

/-- `HEADER_UNKNOWN`, one past the last header of the table. -/
def headerUnknown : UInt8 := 53

/-- `HEADER_END`. -/
def headerEnd : UInt8 := 54

/-- `http_request_verb_strings`, in enum order. -/
def httpRequestVerbStrings : List Str :=
  [ascii "CONNECT", ascii "DELETE", ascii "GET", ascii "HEAD", ascii "PATCH", ascii "POST",
    ascii "PUT", ascii "OPTIONS", ascii "TRACE"]

/-- `http_header_strings`, in enum order. -/
def httpHeaderStrings : List Str :=
  [ascii "accept", ascii "accept-charset", ascii "accept-encoding", ascii "accept-language",
    ascii "accept-ranges", ascii "age", ascii "allow", ascii "authorization",
    ascii "cache-control", ascii "connection", ascii "content-disposition",
    ascii "content-encoding", ascii "content-language", ascii "content-length",
    ascii "content-location", ascii "content-md5", ascii "content-range", ascii "content-type",
    ascii "cookie", ascii "date", ascii "etag", ascii "expect", ascii "expires", ascii "from",
    ascii "host", ascii "if-match", ascii "if-modified-since", ascii "if-none-match",
    ascii "if-range", ascii "if-unmodified-since", ascii "keep-alive", ascii "last-modified",
    ascii "location", ascii "max-forwards", ascii "pragma", ascii "proxy-authenticate",
    ascii "proxy-authorization", ascii "range", ascii "referer", ascii "refresh",
    ascii "retry-after", ascii "server", ascii "set-cookie", ascii "te", ascii "trailer",
    ascii "transfer-encoding", ascii "upgrade", ascii "user-agent", ascii "vary", ascii "via",
    ascii "warn", ascii "warning", ascii "www-authenticate"]

/-- The loop of `string_bin_search` on the interval from `low` to `high`; every iteration shortens
the interval, so its length bounds the iterations. -/
def stringBinSearchLoop (key : Str) (strings : List Str) : Nat → Nat → Nat → Option Nat
  | 0, _, _ => none
  | fuel + 1, low, high =>
      if low < high then
        let mid := (high + low) / 2
        let cond := strcasecmp key (strings.getD mid [])
        if cond < 0 then stringBinSearchLoop key strings fuel low mid
        else if 0 < cond then stringBinSearchLoop key strings fuel (mid + 1) high
        else some mid
      else
        none

/-- The index of a string in a sorted table, up to case; `none` is the answer `-1`. -/
def stringBinSearch (key : Str) (strings : List Str) (size : Nat) : Option Nat :=
  stringBinSearchLoop key strings size 0 size

def atoverb (key : Str) : UInt8 :=
  match stringBinSearch key httpRequestVerbStrings verbUnknown.toNat with
  | some index => index.toUInt8
  | none => verbUnknown

def atoheader (key : Str) : UInt8 :=
  match stringBinSearch key httpHeaderStrings headerUnknown.toNat with
  | some index => index.toUInt8
  | none => headerUnknown

/-- The name of a verb; `none` where the table is read out of bounds. -/
def verbtoa (verb : UInt8) : Option Str := httpRequestVerbStrings[verb.toNat]?

/-- The name of a header; `none` where the table is read out of bounds. -/
def headertoa (header : UInt8) : Option Str := httpHeaderStrings[header.toNat]?

/-- An index that the search answers lies in the interval and names the key up to case. -/
theorem stringBinSearchLoop_sound {key : Str} {strings : List Str} {fuel low high index : Nat}
    (found : stringBinSearchLoop key strings fuel low high = some index) :
    index < high ∧ strcasecmp key (strings.getD index []) = 0 := by
  induction fuel generalizing low high with
  | zero => simp [stringBinSearchLoop] at found
  | succ fuel ih =>
      simp only [stringBinSearchLoop] at found
      split at found
      · split at found
        · obtain ⟨below, same⟩ := ih found
          exact ⟨by omega, same⟩
        · split at found
          · exact ih found
          · obtain rfl : (high + low) / 2 = index := Option.some.inj found
            exact ⟨by omega, by omega⟩
      · cases found

@[simp] theorem length_httpHeaderStrings : httpHeaderStrings.length = 53 := rfl

@[simp] theorem length_httpRequestVerbStrings : httpRequestVerbStrings.length = 9 := rfl

/-- A header code below `HEADER_UNKNOWN` has a name. -/
theorem headertoa_of_lt {header : UInt8} (known : header < headerUnknown) :
    ∃ name, headertoa header = some name := by
  have bound : header.toNat < httpHeaderStrings.length := by
    have below := UInt8.lt_iff_toNat_lt.mp known
    simpa [headerUnknown] using below
  exact ⟨httpHeaderStrings[header.toNat], List.getElem?_eq_getElem bound⟩

/-- The code found for a key is that of a table entry equal to the key up to case, or
`HEADER_UNKNOWN`. -/
theorem atoheader_cases (key : Str) :
    atoheader key = headerUnknown ∨
      atoheader key < headerUnknown ∧
        ∃ name, headertoa (atoheader key) = some name ∧ strcasecmp key name = 0 := by
  unfold atoheader
  split
  · rename_i index found
    obtain ⟨below, same⟩ := stringBinSearchLoop_sound found
    have bound : index < 53 := by simpa [headerUnknown] using below
    have code : index.toUInt8.toNat = index := by
      rw [Nat.toUInt8, UInt8.toNat_ofNat']
      omega
    have inside : index < httpHeaderStrings.length := by simpa using bound
    right
    refine ⟨UInt8.lt_iff_toNat_lt.mpr (by rw [code]; simpa [headerUnknown] using bound),
      httpHeaderStrings[index], ?_, ?_⟩
    · rw [headertoa, code, List.getElem?_eq_getElem inside]
    · rwa [List.getD_eq_getElem _ _ inside] at same
  · exact Or.inl rfl

/-- No name of the header table contains a NUL. -/
theorem nul_notMem_headertoa {header : UInt8} {name : Str} (named : headertoa header = some name) :
    0 ∉ name := by
  have clean : ∀ entry ∈ httpHeaderStrings, (0 : UInt8) ∉ entry := by decide
  exact clean name (List.mem_of_getElem? named)

end GnyProxy
