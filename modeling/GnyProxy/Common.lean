import GnyProxy.CString
import Mathlib.Data.List.DropRight

/-!
# Shared text helpers

Trimming, percent-encoding, host splitting and the big-endian shorts of the wire formats, as in
`common.cpp`.
-/

namespace GnyProxy

/-- Strip blanks from both ends. -/
def trim (text : Str) : Str := (text.dropWhile isspace).rdropWhile isspace

/-- The digit test used by the chunk reader and the url decoder.  The last range runs from `'A'`
up to the small `'f'`, exactly as the source has it. -/
def isHex (char : UInt8) : Bool :=
  (48 ≤ char && char ≤ 57) || (97 ≤ char && char ≤ 102) || (65 ≤ char && char ≤ 102)

/-- The value given to a character accepted by `isHex`. -/
def hextoi (char : UInt8) : Nat :=
  if 48 ≤ char ∧ char ≤ 57 then char.toNat - 48
  else if 97 ≤ char ∧ char ≤ 102 then char.toNat - 97 + 10
  else char.toNat - 65 + 10

def itohex (value : Nat) : UInt8 :=
  if value < 10 then (48 + value).toUInt8 else (97 + value - 10).toUInt8

/-- The text `urlEncode` writes for one character. -/
def urlEncodeChar (char : UInt8) : Str :=
  if char = 37 then ascii "%25"
  else if isspace char then [37, itohex (char.toNat / 16), itohex (char.toNat % 16)]
  else [char]

def urlEncode (url : Str) : Str := url.flatMap urlEncodeChar

def urlDecode : Str → Str
  | char :: high :: low :: url =>
      if char = 37 then
        if isHex high && isHex low then
          (hextoi high * 16 ||| hextoi low).toUInt8 :: urlDecode url
        else
          char :: urlDecode (high :: low :: url)
      else
        char :: urlDecode (high :: low :: url)
  | url => url

/-- Split `host:service` at the last colon; the service defaults to `80`. -/
def parseHost (host : Str) : Str × Str :=
  match host.reverse.dropWhile (· ≠ 58) with
  | [] => (host, ascii "80")
  | _ :: front => (front.reverse, (host.reverse.takeWhile (· ≠ 58)).reverse)

/-- Append a NUL-terminated string. -/
def writeString (data text : Str) : Str := data ++ text ++ [0]

/-- The two bytes of an `unsigned short` in network order. -/
def shortBytes (value : Int) : Str :=
  [((value % 65536).toNat / 256).toUInt8, ((value % 65536).toNat % 256).toUInt8]

def writeShort (data : Str) (value : Int) : Str := data ++ shortBytes value

/-- The network-order short at a position of a buffer. -/
def readShort (data : Str) (pos : Nat) : Nat :=
  (data.getD pos 0).toNat * 256 + (data.getD (pos + 1) 0).toNat

@[simp] theorem length_shortBytes (value : Int) : (shortBytes value).length = 2 := rfl

/-- Reading a short back gives its value on sixteen bits. -/
theorem readShort_shortBytes (value : Int) :
    (readShort (shortBytes value) 0 : Int) = value % 65536 := by
  have nonneg : 0 ≤ value % 65536 := Int.emod_nonneg value (by decide)
  have bound : value % 65536 < 65536 := Int.emod_lt_of_pos value (by decide)
  simp only [readShort, shortBytes, List.getD_cons_zero, List.getD_cons_succ, Nat.toUInt8,
    UInt8.toNat_ofNat']
  omega

/-! ## Trimmed text -/

/-- Text that is its own trim neither begins nor ends with a blank. -/
theorem trim_eq_self_iff (text : Str) :
    trim text = text ↔
      (∀ char ∈ text.head?, isspace char = false) ∧
        ∀ char ∈ text.getLast?, isspace char = false := by
  constructor
  · intro equality
    have lengths : (text.dropWhile isspace).length = text.length := by
      have outer : (trim text).length ≤ (text.dropWhile isspace).length :=
        (List.rdropWhile_prefix isspace _).length_le
      have inner := (List.dropWhile_suffix isspace (l := text)).length_le
      rw [equality] at outer
      omega
    have front : text.dropWhile isspace = text :=
      (List.dropWhile_suffix isspace).eq_of_length lengths
    rw [trim, front] at equality
    constructor
    · intro char member
      cases text with
      | nil => simp at member
      | cons head text =>
          obtain rfl : head = char := by simpa using member
          by_contra blank
          rw [List.dropWhile_cons_of_pos (by simpa using blank)] at front
          have shorter := (List.dropWhile_suffix isspace (l := text)).length_le
          rw [front] at shorter
          simp at shorter
    · intro char member
      have nonempty : text ≠ [] := by
        rintro rfl
        simp at member
      have last_eq : text.getLast nonempty = char := by
        rw [List.getLast?_eq_some_getLast nonempty] at member
        simpa using member
      have last := (List.rdropWhile_eq_self_iff.mp equality) nonempty
      rw [last_eq] at last
      simpa using last
  · rintro ⟨front, back⟩
    have front_eq : text.dropWhile isspace = text := by
      cases text with
      | nil => rfl
      | cons head text =>
          rw [List.dropWhile_cons_of_neg]
          simpa using front head rfl
    rw [trim, front_eq, List.rdropWhile_eq_self_iff]
    intro nonempty
    simpa using back _ (List.getLast?_eq_some_getLast nonempty)

/-- A blank written before trimmed text is trimmed away again. -/
theorem trim_cons_blank {text : Str} (trimmed : trim text = text) : trim (32 :: text) = text := by
  have dropped : (32 :: text).dropWhile isspace = text.dropWhile isspace := rfl
  rw [trim, dropped]
  exact trimmed

theorem trim_trim (text : Str) : trim (trim text) = trim text := by
  rw [trim_eq_self_iff]
  constructor
  · intro char member
    have front_prefix : trim text <+: text.dropWhile isspace := List.rdropWhile_prefix isspace _
    have head_eq : (text.dropWhile isspace).head? = some char := by
      obtain ⟨rest, equality⟩ := front_prefix
      rw [← equality]
      cases shape : trim text with
      | nil => simp [shape] at member
      | cons head tail => simpa [shape] using member
    have := List.head?_dropWhile_not isspace text
    rw [head_eq] at this
    simpa using this
  · intro char member
    have nonempty : trim text ≠ [] := by
      intro empty
      simp [empty] at member
    have last := List.rdropWhile_last_not isspace (text.dropWhile isspace) nonempty
    rw [List.getLast?_eq_some_getLast nonempty] at member
    obtain rfl : (trim text).getLast nonempty = char := by simpa using member
    rw [Bool.not_eq_true] at last
    exact last

theorem mem_of_mem_trim {char : UInt8} {text : Str} (member : char ∈ trim text) : char ∈ text :=
  (List.dropWhile_suffix isspace).subset ((List.rdropWhile_prefix isspace _).subset member)

/-! ## Percent-encoding -/

theorem urlDecode_cons_of_ne {char : UInt8} (plain : char ≠ 37) (url : Str) :
    urlDecode (char :: url) = char :: urlDecode url := by
  match url with
  | [] => rfl
  | [_] => simp [urlDecode]
  | _ :: _ :: _ => simp [urlDecode, plain]

/-- The decoder undoes the encoder on one character, whatever follows it. -/
theorem urlDecode_urlEncodeChar (char : UInt8) (url : Str) :
    urlDecode (urlEncodeChar char ++ url) = char :: urlDecode url := by
  by_cases percent : char = 37
  · subst percent
    have digits : urlEncodeChar 37 = [37, 50, 53] := by decide
    have value : (hextoi 50 * 16 ||| hextoi 53).toUInt8 = 37 := by decide
    have hex : (isHex 50 && isHex 53) = true := by decide
    simp [digits, urlDecode, hex, value]
  · by_cases blank : isspace char = true
    · have value : isspace char = true →
          (isHex (itohex (char.toNat / 16)) && isHex (itohex (char.toNat % 16))) = true ∧
            (hextoi (itohex (char.toNat / 16)) * 16 |||
              hextoi (itohex (char.toNat % 16))).toUInt8 = char :=
        forall_char (P := fun char => isspace char = true →
          (isHex (itohex (char.toNat / 16)) && isHex (itohex (char.toNat % 16))) = true ∧
            (hextoi (itohex (char.toNat / 16)) * 16 |||
              hextoi (itohex (char.toNat % 16))).toUInt8 = char) (by decide +kernel) char
      obtain ⟨hex, decoded⟩ := value blank
      have digits : urlEncodeChar char =
          [37, itohex (char.toNat / 16), itohex (char.toNat % 16)] := by
        simp [urlEncodeChar, percent, blank]
      rw [digits]
      simp only [List.cons_append, List.nil_append, urlDecode, if_true, hex, decoded]
    · have plain : urlEncodeChar char = [char] := by simp [urlEncodeChar, percent, blank]
      rw [plain]
      exact urlDecode_cons_of_ne percent url

/-- Url decoding undoes url encoding, for every string. -/
theorem urlDecode_urlEncode (url : Str) : urlDecode (urlEncode url) = url := by
  induction url with
  | nil => rfl
  | cons char url ih =>
      rw [urlEncode, List.flatMap_cons, urlDecode_urlEncodeChar]
      exact congrArg (char :: ·) ih

/-- An encoded url has no blanks, so that it is one token of a request line. -/
theorem isspace_urlEncode {char : UInt8} {url : Str} (member : char ∈ urlEncode url) :
    isspace char = false := by
  obtain ⟨source, -, member⟩ := List.mem_flatMap.mp member
  have clean : ∀ written ∈ urlEncodeChar source, isspace written = false :=
    forall_char (P := fun source => ∀ written ∈ urlEncodeChar source, isspace written = false)
      (by decide +kernel) source
  exact clean char member

theorem urlEncode_ne_nil {url : Str} (nonempty : url ≠ []) : urlEncode url ≠ [] := by
  cases url with
  | nil => exact absurd rfl nonempty
  | cons char url =>
      rw [urlEncode, List.flatMap_cons]
      simp only [ne_eq, List.append_eq_nil_iff, not_and]
      intro empty
      have := congrArg List.length empty
      unfold urlEncodeChar at this
      split at this
      · simp [ascii] at this
      · split at this <;> simp at this

end GnyProxy
