import GnyProxy.Http
import GnyProxy.Layout11

/-!
# Percent-encoded urls

What the two url functions do to a request target on its way through the proxy: a reference
decoding that takes hexadecimal digits only, the escapes on which `urlDecode` departs from it, and
the delimiters of a target that is decoded on reading and encoded again on writing.
-/

namespace GnyProxy

/-! ## One encoded url in a request line -/

/-- Encoding a url is undone by decoding, and the encoded url is one token of the request line. -/
theorem urlEncode_safe (url : Str) :
    urlDecode (urlEncode url) = url ∧
      (∀ char ∈ urlEncode url, isspace char = false) ∧
        ∀ verb name, verbtoa verb = some name → url ≠ [] →
          secondToken (name ++ 32 :: urlEncode url ++ ascii " HTTP/1.1") = urlEncode url := by
  refine ⟨urlDecode_urlEncode url, fun char member => isspace_urlEncode member, ?_⟩
  intro verb name named nonempty
  obtain ⟨name_nonempty, name_plain⟩ := unspaced_verbs (List.mem_of_getElem? named)
  have protocol : ascii " HTTP/1.1" = 32 :: ascii "HTTP/1.1" := by decide
  have line_eq : name ++ 32 :: urlEncode url ++ ascii " HTTP/1.1" =
      name ++ 32 :: (urlEncode url ++ 32 :: ascii "HTTP/1.1") := by
    rw [protocol, List.append_assoc, List.cons_append]
  rw [line_eq]
  exact secondToken_eq _ name_nonempty name_plain (urlEncode_ne_nil nonempty)
    fun char member => isspace_urlEncode member

/-- A url with a blank and with text that looks like an escape. -/
theorem urlEncode_safe_get :
    verbtoa 2 = some (ascii "GET") ∧ ascii "/a b%20" ≠ [] ∧
      secondToken (ascii "GET" ++ 32 :: urlEncode (ascii "/a b%20") ++ ascii " HTTP/1.1") =
        urlEncode (ascii "/a b%20") := by
  have named : verbtoa 2 = some (ascii "GET") := rfl
  have nonempty : ascii "/a b%20" ≠ [] := by decide
  exact ⟨named, nonempty, (urlEncode_safe (ascii "/a b%20")).2.2 2 (ascii "GET") named nonempty⟩

/-! ## The reference decoding -/

/-- The byte that two hexadecimal digits denote. -/
def escapedByte (high low : UInt8) : UInt8 := (16 * hexDigitValue high + hexDigitValue low).toUInt8

/-- Replace, from left to right, each `%` with two hexadecimal digits by the byte they denote. -/
def percentDecode : Str → Str
  | char :: high :: low :: url =>
      if char = 37 ∧ isHexDigit high ∧ isHexDigit low then
        escapedByte high low :: percentDecode url
      else
        char :: percentDecode (high :: low :: url)
  | url => url

/-! ## Escapes -/

/-- Somewhere in the url a `%` is followed by two characters with a given property. -/
def HasEscape (P : UInt8 → UInt8 → Prop) (url : Str) : Prop :=
  ∃ high low, [37, high, low] <:+: url ∧ P high low

section HasEscape

variable {P : UInt8 → UInt8 → Prop} {char high low : UInt8} {url : Str}

theorem not_hasEscape_of_short (short : url.length < 3) : ¬HasEscape P url := by
  rintro ⟨high, low, inside, -⟩
  have := inside.length_le
  simp only [List.length_cons, List.length_nil] at this
  omega

theorem hasEscape_cons_of_ne (plain : char ≠ 37) :
    HasEscape P (char :: url) ↔ HasEscape P url := by
  constructor
  · rintro ⟨high, low, inside, holds⟩
    rcases List.infix_cons_iff.mp inside with front | inside
    · rw [List.cons_prefix_cons] at front
      exact absurd front.1.symm plain
    · exact ⟨high, low, inside, holds⟩
  · rintro ⟨high, low, inside, holds⟩
    exact ⟨high, low, List.infix_cons_iff.mpr (Or.inr inside), holds⟩

theorem hasEscape_percent :
    HasEscape P (37 :: high :: low :: url) ↔ P high low ∨ HasEscape P (high :: low :: url) := by
  constructor
  · rintro ⟨high', low', inside, holds⟩
    rcases List.infix_cons_iff.mp inside with front | inside
    · simp only [List.cons_prefix_cons, List.nil_prefix, and_true, true_and] at front
      obtain ⟨rfl, rfl⟩ := front
      exact Or.inl holds
    · exact Or.inr ⟨high', low', inside, holds⟩
  · rintro (holds | ⟨high', low', inside, holds⟩)
    · exact ⟨high, low, ⟨[], url, rfl⟩, holds⟩
    · exact ⟨high', low', List.infix_cons_iff.mpr (Or.inr inside), holds⟩

end HasEscape

/-! ## Decoding -/

theorem isHex_percent : isHex 37 = false := by decide

theorem ne_percent_of_isHex {char : UInt8} (hex : isHex char = true) : char ≠ 37 := by
  rintro rfl
  rw [isHex_percent] at hex
  cases hex

theorem escapedByte_eq {high low : UInt8} (digit : isHexDigit high = true)
    (digit' : isHexDigit low = true) :
    (hextoi high * 16 ||| hextoi low).toUInt8 = escapedByte high low := by
  obtain ⟨-, value, -⟩ := hextoi_digit high digit
  obtain ⟨-, value', small⟩ := hextoi_digit low digit'
  have shifted := Nat.shiftLeft_add_eq_or_of_lt (i := 4) small (hexDigitValue high)
  rw [Nat.shiftLeft_eq] at shifted
  rw [value, value', escapedByte, ← shifted, Nat.mul_comm 16]

/-- An escape that `urlDecode` takes although it does not consist of hexadecimal digits. -/
def Misread (high low : UInt8) : Prop :=
  isHex high = true ∧ isHex low = true ∧ ¬(isHexDigit high = true ∧ isHexDigit low = true)

theorem percentDecode_cons_of_ne {char : UInt8} (plain : char ≠ 37) (url : Str) :
    percentDecode (char :: url) = char :: percentDecode url := by
  rcases url with _ | ⟨high, _ | ⟨low, rest⟩⟩
  · rfl
  · simp [percentDecode]
  · simp [percentDecode, plain]

section Equations

variable {high low : UInt8} {url : Str}

theorem urlDecode_escape (hex : isHex high = true) (hex' : isHex low = true) :
    urlDecode (37 :: high :: low :: url) =
      (hextoi high * 16 ||| hextoi low).toUInt8 :: urlDecode url := by
  simp [urlDecode, hex, hex']

theorem urlDecode_percent (other : ¬(isHex high = true ∧ isHex low = true)) :
    urlDecode (37 :: high :: low :: url) = 37 :: urlDecode (high :: low :: url) := by
  simp [urlDecode, other]

theorem percentDecode_escape (digit : isHexDigit high = true) (digit' : isHexDigit low = true) :
    percentDecode (37 :: high :: low :: url) = escapedByte high low :: percentDecode url := by
  simp [percentDecode, digit, digit']

theorem percentDecode_percent (other : ¬(isHexDigit high = true ∧ isHexDigit low = true)) :
    percentDecode (37 :: high :: low :: url) = 37 :: percentDecode (high :: low :: url) := by
  simp [percentDecode, other]

theorem length_lt_three (short : ∀ char high low rest, url = char :: high :: low :: rest → False) :
    url.length < 3 := by
  rcases url with _ | ⟨char, _ | ⟨high, _ | ⟨low, rest⟩⟩⟩
  · simp
  · simp
  · simp
  · exact absurd rfl (short char high low rest)

theorem decode_of_short (short : url.length < 3) :
    urlDecode url = url ∧ percentDecode url = url := by
  rcases url with _ | ⟨char, _ | ⟨high, _ | ⟨low, rest⟩⟩⟩
  · exact ⟨rfl, rfl⟩
  · exact ⟨rfl, rfl⟩
  · exact ⟨rfl, rfl⟩
  · simp only [List.length_cons] at short
    omega

/-- After characters taken as digits an escape can only begin behind them. -/
theorem hasEscape_behind {P : UInt8 → UInt8 → Prop} (hex : isHex high = true)
    (hex' : isHex low = true) : HasEscape P (high :: low :: url) ↔ HasEscape P url := by
  rw [hasEscape_cons_of_ne (ne_percent_of_isHex hex),
    hasEscape_cons_of_ne (ne_percent_of_isHex hex')]

end Equations

/-- The two decodings agree up to misread escapes, each of which costs the decoder two bytes. -/
theorem urlDecode_cases (url : Str) :
    (¬HasEscape Misread url ∧ urlDecode url = percentDecode url) ∨
      (HasEscape Misread url ∧ (urlDecode url).length < (percentDecode url).length) := by
  induction url using urlDecode.induct with
  | case1 high low url hex ih =>
      obtain ⟨hex, hex'⟩ := Bool.and_eq_true_iff.mp hex
      rw [hasEscape_percent, hasEscape_behind hex hex', urlDecode_escape hex hex']
      by_cases digits : isHexDigit high = true ∧ isHexDigit low = true
      · have proper : ¬Misread high low := fun misread => misread.2.2 digits
        rw [percentDecode_escape digits.1 digits.2, escapedByte_eq digits.1 digits.2]
        rcases ih with ⟨clean, equal⟩ | ⟨misread, shorter⟩
        · left
          exact ⟨not_or.mpr ⟨proper, clean⟩, congrArg _ equal⟩
        · right
          exact ⟨Or.inr misread, by simpa using shorter⟩
      · right
        constructor
        · exact Or.inl ⟨hex, hex', digits⟩
        · rw [percentDecode_percent digits,
            percentDecode_cons_of_ne (ne_percent_of_isHex hex),
            percentDecode_cons_of_ne (ne_percent_of_isHex hex')]
          have bound : (urlDecode url).length ≤ (percentDecode url).length := by
            rcases ih with ⟨-, equal⟩ | ⟨-, shorter⟩
            · rw [equal]
            · exact shorter.le
          simp only [List.length_cons]
          omega
  | case2 high low url other ih =>
      rw [Bool.and_eq_true_iff] at other
      have proper : ¬Misread high low := fun misread => other ⟨misread.1, misread.2.1⟩
      have digits : ¬(isHexDigit high = true ∧ isHexDigit low = true) := fun digits =>
        other ⟨(hextoi_digit high digits.1).1, (hextoi_digit low digits.2).1⟩
      rw [hasEscape_percent, urlDecode_percent other, percentDecode_percent digits]
      rcases ih with ⟨clean, equal⟩ | ⟨misread, shorter⟩
      · left
        exact ⟨not_or.mpr ⟨proper, clean⟩, congrArg _ equal⟩
      · right
        exact ⟨Or.inr misread, by simpa using shorter⟩
  | case3 char high low url plain ih =>
      rw [hasEscape_cons_of_ne plain, urlDecode_cons_of_ne plain, percentDecode_cons_of_ne plain]
      rcases ih with ⟨clean, equal⟩ | ⟨misread, shorter⟩
      · left
        exact ⟨clean, congrArg _ equal⟩
      · right
        exact ⟨misread, by simpa using shorter⟩
  | case4 url short =>
      have short := length_lt_three short
      obtain ⟨equal, equal'⟩ := decode_of_short short
      left
      exact ⟨not_hasEscape_of_short short, equal.trans equal'.symm⟩

theorem urlDecode_of_clean {url : Str} (clean : ¬HasEscape Misread url) :
    urlDecode url = percentDecode url := by
  rcases urlDecode_cases url with ⟨-, equal⟩ | ⟨misread, -⟩
  · exact equal
  · exact absurd misread clean

theorem clean_of_urlDecode {url : Str} (equal : urlDecode url = percentDecode url) :
    ¬HasEscape Misread url := by
  rcases urlDecode_cases url with ⟨clean, -⟩ | ⟨-, shorter⟩
  · exact clean
  · rw [equal] at shorter
    exact absurd shorter (lt_irrefl _)

/-- The decoder is exact on the urls without a misread escape, and on no others. -/
theorem urlDecode_eq_percentDecode_iff (url : Str) :
    urlDecode url = percentDecode url ↔ ¬HasEscape Misread url := by
  constructor
  · exact clean_of_urlDecode
  · exact urlDecode_of_clean

/-- `G` is no hexadecimal digit, but the last range of `isHex` takes it for one. -/
theorem urlDecode_ne_percentDecode :
    urlDecode (ascii "/%GG") ≠ percentDecode (ascii "/%GG") := by
  decide

/-! ## Delimiters of a relayed target -/

/-- The characters that divide the target of a request. -/
def isDelimiter (char : UInt8) : Bool := char ∈ ascii "/?#&=+;"

/-- The delimiters of a target, in order. -/
def delimiters (target : Str) : Str := target.filter isDelimiter

/-- An escape that denotes a delimiter. -/
def DenotesDelimiter (high low : UInt8) : Prop :=
  isHexDigit high = true ∧ isHexDigit low = true ∧ isDelimiter (escapedByte high low) = true

/-- Encoding escapes blanks and `%` only, so that it writes no delimiter of its own. -/
theorem delimiters_urlEncode (url : Str) : delimiters (urlEncode url) = delimiters url := by
  have one (char : UInt8) : (urlEncodeChar char).filter isDelimiter = [char].filter isDelimiter :=
    forall_char (P := fun char => (urlEncodeChar char).filter isDelimiter =
      [char].filter isDelimiter) (by decide +kernel) char
  induction url with
  | nil => rfl
  | cons char url ih =>
      rw [delimiters, urlEncode, List.flatMap_cons, List.filter_append, one char]
      rw [delimiters, urlEncode] at ih
      rw [ih, delimiters, delimiters, ← List.filter_append, List.singleton_append]

theorem delimiters_cons_of_not {char : UInt8} (other : isDelimiter char = false) (target : Str) :
    delimiters (char :: target) = delimiters target := by
  simp [delimiters, other]

theorem isDelimiter_percent : isDelimiter 37 = false := by decide

theorem isDelimiter_digit (char : UInt8) : isHexDigit char = true → isDelimiter char = false :=
  forall_char (P := fun char => isHexDigit char = true → isDelimiter char = false)
    (by decide +kernel) char

theorem delimiters_cons_of_delimiter {char : UInt8} (delimiter : isDelimiter char = true)
    (target : Str) : delimiters (char :: target) = char :: delimiters target := by
  simp [delimiters, delimiter]

/-- The delimiters of a text stay, and more come to them exactly if some escape of the target
denotes one. -/
def Adds (target decoded : Str) : Prop :=
  (delimiters target).Sublist (delimiters decoded) ∧
    (HasEscape DenotesDelimiter target ↔
      (delimiters target).length < (delimiters decoded).length)

section Adds

variable {char high low : UInt8} {target decoded : Str}

theorem adds_of_short (short : target.length < 3) : Adds target target :=
  ⟨List.Sublist.refl _, iff_of_false (not_hasEscape_of_short short) (lt_irrefl _)⟩

/-- The same character in front changes nothing. -/
theorem Adds.cons (adds : Adds target decoded)
    (escapes : HasEscape DenotesDelimiter (char :: target) ↔ HasEscape DenotesDelimiter target) :
    Adds (char :: target) (char :: decoded) := by
  rw [Adds, escapes, adds.2]
  cases delimiter : isDelimiter char with
  | true =>
      rw [delimiters_cons_of_delimiter delimiter, delimiters_cons_of_delimiter delimiter]
      constructor
      · exact adds.1.cons_cons char
      · simp only [List.length_cons, Nat.add_lt_add_iff_right]
  | false =>
      rw [delimiters_cons_of_not delimiter, delimiters_cons_of_not delimiter]
      exact ⟨adds.1, Iff.rfl⟩

/-- The byte that an escape denotes is new. -/
theorem Adds.escape (adds : Adds target decoded) (digit : isHexDigit high = true)
    (digit' : isHexDigit low = true) :
    Adds (37 :: high :: low :: target) (escapedByte high low :: decoded) := by
  have front : delimiters (37 :: high :: low :: target) = delimiters target := by
    rw [delimiters_cons_of_not isDelimiter_percent,
      delimiters_cons_of_not (isDelimiter_digit high digit),
      delimiters_cons_of_not (isDelimiter_digit low digit')]
  rw [Adds, front, hasEscape_percent,
    hasEscape_behind (hextoi_digit high digit).1 (hextoi_digit low digit').1]
  cases denotes : isDelimiter (escapedByte high low) with
  | true =>
      rw [delimiters_cons_of_delimiter denotes]
      constructor
      · exact adds.1.cons _
      · refine iff_of_true (Or.inl ⟨digit, digit', denotes⟩) ?_
        have bound := adds.1.length_le
        simp only [List.length_cons]
        omega
  | false =>
      have no_escape : ¬DenotesDelimiter high low := by
        intro escape
        rw [escape.2.2] at denotes
        cases denotes
      rw [delimiters_cons_of_not denotes, or_iff_right no_escape]
      exact adds

end Adds

/-- Decoding keeps the delimiters of a target and adds one for each escape that denotes one. -/
theorem adds_percentDecode (target : Str) : Adds target (percentDecode target) := by
  induction target using percentDecode.induct with
  | case1 char high low target digits ih =>
      obtain ⟨rfl, digit, digit'⟩ := digits
      rw [percentDecode_escape digit digit']
      exact ih.escape digit digit'
  | case2 char high low target other ih =>
      have escapes : HasEscape DenotesDelimiter (char :: high :: low :: target) ↔
          HasEscape DenotesDelimiter (high :: low :: target) := by
        by_cases percent : char = 37
        · subst percent
          rw [hasEscape_percent, or_iff_right]
          intro denotes
          exact other ⟨rfl, denotes.1, denotes.2.1⟩
        · exact hasEscape_cons_of_ne percent
      rw [percentDecode, if_neg other]
      exact ih.cons escapes
  | case3 target short =>
      have short := length_lt_three short
      rw [(decode_of_short short).2]
      exact adds_of_short short

/-- What becomes of the delimiters of a target on the way through the proxy: those of the decoded
target are written.  All of the target's own stay, in order, and no other comes to them exactly
if no escape denotes a delimiter. -/
theorem delimiters_relayed (target : Str) (clean : ¬HasEscape Misread target) :
    delimiters (urlEncode (urlDecode target)) = delimiters (percentDecode target) ∧
      (delimiters target).Sublist (delimiters (urlEncode (urlDecode target))) ∧
        (delimiters (urlEncode (urlDecode target)) = delimiters target ↔
          ¬HasEscape DenotesDelimiter target) := by
  obtain ⟨kept, denotes⟩ := adds_percentDecode target
  rw [delimiters_urlEncode, urlDecode_of_clean clean, denotes, not_lt]
  refine ⟨rfl, kept, ?_⟩
  constructor
  · intro equal
    rw [equal]
  · intro bound
    exact (kept.eq_of_length_le bound).symm

/-- A target whose escape denotes no delimiter. -/
theorem delimiters_relayed_plain :
    delimiters (percentDecode (ascii "/a%2Db?c")) = ascii "/?" ∧
      delimiters (urlEncode (urlDecode (ascii "/a%2Db?c"))) =
        delimiters (percentDecode (ascii "/a%2Db?c")) := by
  have clean : ¬HasEscape Misread (ascii "/a%2Db?c") := clean_of_urlDecode (by decide)
  exact ⟨by decide, (delimiters_relayed (ascii "/a%2Db?c") clean).1⟩

/-- An escaped slash comes out as a slash. -/
theorem delimiters_relayed_ne :
    delimiters (urlEncode (urlDecode (ascii "/a%2Fb"))) ≠ delimiters (ascii "/a%2Fb") := by
  decide

end GnyProxy
