import Mathlib.Data.List.TakeWhile
import Mathlib.Data.Nat.Digits.Lemmas
import Mathlib.Tactic.Common

/-!
# The C library below the proxy

Byte strings and the few functions of the C library, in the C locale, that the sources call on
them.  A `std::string` is a list of bytes; a function that takes a `const char*` stops at the
first NUL by itself, so no terminator is stored.
-/

namespace GnyProxy

/-- The bytes held by a `std::string`. -/
abbrev Str := List UInt8

/-- The bytes of an ASCII string literal. -/
def ascii (text : String) : Str := text.toList.map fun char => char.toNat.toUInt8

/-- The text that `const char*` functions see in a buffer: everything before the first NUL. -/
def cStr (text : Str) : Str := text.takeWhile (· ≠ 0)

theorem cStr_eq_self {text : Str} (nulFree : 0 ∉ text) : cStr text = text := by
  rw [cStr, List.takeWhile_eq_self_iff]
  intro byte member
  simpa using ne_of_mem_of_not_mem member nulFree

/-- Reading a buffer up to a NUL gives the text before it. -/
theorem cStr_append_nul {text : Str} (nulFree : 0 ∉ text) (rest : Str) :
    cStr (text ++ 0 :: rest) = text := by
  induction text with
  | nil => simp [cStr]
  | cons byte text ih =>
      simp only [List.mem_cons, not_or] at nulFree
      have byte_ne : byte ≠ 0 := fun equality => nulFree.1 equality.symm
      simpa [cStr, byte_ne] using ih nulFree.2

/-! ## Characters -/

/-- `isspace` of the C locale. -/
def isspace (char : UInt8) : Bool := char == 32 || (9 ≤ char && char ≤ 13)

/-- `tolower` of the C locale. -/
def tolower (char : UInt8) : UInt8 := if 65 ≤ char ∧ char ≤ 90 then char + 32 else char

/-- `isdigit` of the C locale. -/
def isdigit (char : UInt8) : Bool := 48 ≤ char && char ≤ 57

/-- A property of characters may be checked on their 256 values. -/
theorem forall_char {P : UInt8 → Prop} (values : ∀ value : Fin 256, P (UInt8.ofFin value))
    (char : UInt8) : P char :=
  values char.toFin

theorem tolower_eq_zero {char : UInt8} : tolower char = 0 ↔ char = 0 :=
  forall_char (P := fun char => tolower char = 0 ↔ char = 0) (by decide +kernel) char

/-- `strcasecmp`: the difference of the first two folded characters that differ, where the end of
a buffer reads as NUL. -/
def strcasecmp : Str → Str → Int
  | [], [] => 0
  | [], right :: _ => -(tolower right).toNat
  | left :: _, [] => (tolower left).toNat
  | left :: lefts, right :: rights =>
      if tolower left ≠ tolower right then
        (tolower left).toNat - (tolower right).toNat
      else if left = 0 then
        0
      else
        strcasecmp lefts rights

/-- Two keys are equal up to ASCII case. -/
def SameFolded (left right : Str) : Prop := left.map tolower = right.map tolower

instance (left right : Str) : Decidable (SameFolded left right) :=
  inferInstanceAs (Decidable (left.map tolower = right.map tolower))

theorem SameFolded.refl (text : Str) : SameFolded text text := rfl

/-- `strcasecmp` answers zero exactly on C strings that agree up to case. -/
theorem strcasecmp_eq_zero (left right : Str) :
    strcasecmp left right = 0 ↔ SameFolded (cStr left) (cStr right) := by
  induction left generalizing right with
  | nil =>
      cases right with
      | nil => simp [strcasecmp, SameFolded]
      | cons right rights =>
          by_cases zero : right = 0
          · simp [strcasecmp, SameFolded, cStr, zero, tolower]
          · have folded : (tolower right).toNat ≠ 0 := fun equality =>
              zero (tolower_eq_zero.mp (UInt8.toNat_inj.mp equality))
            simp [strcasecmp, SameFolded, cStr, zero, folded]
  | cons left lefts ih =>
      cases right with
      | nil =>
          by_cases zero : left = 0
          · simp [strcasecmp, SameFolded, cStr, zero, tolower]
          · have folded : (tolower left).toNat ≠ 0 := fun equality =>
              zero (tolower_eq_zero.mp (UInt8.toNat_inj.mp equality))
            simp [strcasecmp, SameFolded, cStr, zero, folded]
      | cons right rights =>
          by_cases differ : tolower left = tolower right
          · have zero_iff : left = 0 ↔ right = 0 := by
              rw [← tolower_eq_zero, differ, tolower_eq_zero]
            by_cases zero : left = 0
            · have right_zero := zero_iff.mp zero
              subst zero right_zero
              simp [strcasecmp, SameFolded, cStr]
            · have right_ne : right ≠ 0 := fun equality => zero (zero_iff.mpr equality)
              have tails := ih rights
              simp only [SameFolded, cStr] at tails
              simp [strcasecmp, SameFolded, cStr, differ, zero, right_ne, tails]
          · have values : (tolower left).toNat ≠ (tolower right).toNat := fun equality =>
              differ (UInt8.toNat_inj.mp equality)
            have nonzero : ((tolower left).toNat : Int) - (tolower right).toNat ≠ 0 := by omega
            simp only [strcasecmp, ne_eq, differ, not_false_iff, if_true, nonzero, false_iff]
            intro same
            by_cases zero : left = 0
            · by_cases right_zero : right = 0
              · exact differ (by rw [zero, right_zero])
              · simp [SameFolded, cStr, zero, right_zero] at same
            · by_cases right_zero : right = 0
              · simp [SameFolded, cStr, zero, right_zero] at same
              · simp [SameFolded, cStr, zero, right_zero, differ] at same

/-! ## Numbers in text -/

/-- `LLONG_MAX`, which is also `LONG_MAX` here. -/
def llongMax : Int := 2 ^ 63 - 1

/-- `LLONG_MIN`, which is also `LONG_MIN` here. -/
def llongMin : Int := -2 ^ 63

/-- The number denoted by a string of decimal digits. -/
def decimalValue (digits : Str) : Nat :=
  Nat.ofDigits 10 (digits.map fun digit => digit.toNat - 48).reverse

/-- The optional sign of a number: whether it is a minus, and the text after it. -/
def splitSign : Str → Bool × Str
  | [] => (false, [])
  | char :: text =>
      if char = 45 then (true, text) else if char = 43 then (false, text) else (false, char :: text)

/-- `strtoll(text, NULL, 10)`, the value clamped to the type and whether `errno` is `ERANGE`.
`strtol` is the same function on this platform. -/
def strtoll (text : Str) : Int × Bool :=
  let (negative, number) := splitSign (text.dropWhile isspace)
  let magnitude : Int := decimalValue (number.takeWhile isdigit)
  let value := if negative then -magnitude else magnitude
  if llongMax < value then (llongMax, true)
  else if value < llongMin then (llongMin, true)
  else (value, false)

/-- Conversion of an integer to a 32-bit `int`. -/
def toInt32 (value : Int) : Int := value.bmod (2 ^ 32)

/-- The largest `int`. -/
def intMax : Nat := 2 ^ 31 - 1

/-- Conversion of an integer to a 16-bit `short`. -/
def toInt16 (value : Int) : Int := value.bmod (2 ^ 16)

theorem toInt16_emod (value : Int) : toInt16 value % 65536 = value % 65536 := by
  have same : value.bmod (2 ^ 16) % (2 ^ 16 : Nat) = value % (2 ^ 16 : Nat) := Int.bmod_emod
  rw [toInt16, show (65536 : Int) = (2 ^ 16 : Nat) by norm_num, same]

/-- The digit characters of `printf`. -/
def printDigit (digit : Nat) : UInt8 :=
  if digit < 10 then (48 + digit).toUInt8 else (87 + digit).toUInt8

/-- The digits of a number in a base, most significant first. -/
def printNat (base number : Nat) : Str :=
  if number = 0 then [48] else ((Nat.digits base number).map printDigit).reverse

/-- `sprintf("%d", value)`. -/
def printInt (value : Int) : Str :=
  if value < 0 then 45 :: printNat 10 value.natAbs else printNat 10 value.natAbs

/-- `sprintf("%x", size)` for a `size_t`: only the low 32 bits are read. -/
def printHex (size : Nat) : Str := printNat 16 (size % 2 ^ 32)

end GnyProxy
