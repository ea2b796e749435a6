import GnyProxy.Common

/-!
# Numbers in text

Printing a number and parsing it back: decimal for statuses and content lengths, hexadecimal for
the sizes of chunks.
-/

namespace GnyProxy

/-! ## Digits -/

theorem printNat_of_lt {base number : Nat} (small : number < base) :
    printNat base number = [printDigit number] := by
  by_cases zero : number = 0
  · subst zero
    rfl
  · simp [printNat, zero, Nat.digits_of_lt base number zero small]

/-- The last digit is split off. -/
theorem printNat_of_le {base number : Nat} (valid : 1 < base) (large : base ≤ number) :
    printNat base number = printNat base (number / base) ++ [printDigit (number % base)] := by
  have quotient : number / base ≠ 0 := by
    rw [ne_eq, Nat.div_eq_zero_iff]
    omega
  rw [printNat, if_neg (by omega), printNat, if_neg quotient,
    Nat.digits_def' valid (by omega), List.map_cons, List.reverse_cons]

/-- A property of numerals holds if it holds of one digit and of one more digit. -/
theorem printNat_induction {base : Nat} (valid : 1 < base) {P : Nat → Str → Prop}
    (digit : ∀ number, number < base → P number [printDigit number])
    (more : ∀ number, base ≤ number → P (number / base) (printNat base (number / base)) →
      P number (printNat base (number / base) ++ [printDigit (number % base)]))
    (number : Nat) : P number (printNat base number) := by
  induction number using Nat.strong_induction_on with
  | _ number ih =>
      by_cases small : number < base
      · rw [printNat_of_lt small]
        exact digit number small
      · rw [not_lt] at small
        rw [printNat_of_le valid small]
        exact more number small (ih _ (Nat.div_lt_self (by omega) valid))

theorem printNat_ne_nil {base : Nat} (valid : 1 < base) (number : Nat) :
    printNat base number ≠ [] :=
  printNat_induction (P := fun _ text => text ≠ []) valid (by simp) (by simp) number

/-- All characters of a numeral are digits, if the printed digits are. -/
theorem forall_mem_printNat {base : Nat} (valid : 1 < base) {P : UInt8 → Prop}
    (digits : ∀ digit, digit < base → P (printDigit digit)) (number : Nat) :
    ∀ char ∈ printNat base number, P char := by
  refine printNat_induction (P := fun _ text => ∀ char ∈ text, P char) valid ?_ ?_ number
  · intro number small char member
    rw [List.mem_singleton.mp member]
    exact digits number small
  · intro number _ front char member
    obtain member | member := List.mem_append.mp member
    · exact front char member
    · rw [List.mem_singleton.mp member]
      exact digits _ (Nat.mod_lt _ (by omega))

theorem printDigit_decimal : ∀ digit, digit < 10 →
    isdigit (printDigit digit) = true ∧ isspace (printDigit digit) = false ∧
      printDigit digit ≠ 45 ∧ printDigit digit ≠ 43 ∧ (printDigit digit).toNat - 48 = digit := by
  decide

theorem printDigit_hexadecimal : ∀ digit, digit < 16 →
    isHex (printDigit digit) = true ∧ hextoi (printDigit digit) = digit := by
  decide

/-! ## Decimal -/

theorem decimalValue_append_singleton (digits : Str) (digit : UInt8) :
    decimalValue (digits ++ [digit]) = decimalValue digits * 10 + (digit.toNat - 48) := by
  simp [decimalValue, Nat.ofDigits_cons]
  ring

theorem decimalValue_printNat (number : Nat) : decimalValue (printNat 10 number) = number := by
  refine printNat_induction (P := fun number text => decimalValue text = number) (by decide) ?_ ?_
    number
  · intro number small
    obtain ⟨-, -, -, -, value⟩ := printDigit_decimal number small
    simp [decimalValue, value]
  · intro number _ front
    obtain ⟨-, -, -, -, value⟩ := printDigit_decimal (number % 10) (Nat.mod_lt _ (by decide))
    rw [decimalValue_append_singleton, front, value]
    omega

theorem isdigit_of_mem_printNat {number : Nat} :
    ∀ char ∈ printNat 10 number, isdigit char = true :=
  forall_mem_printNat (by decide) (fun digit small => (printDigit_decimal digit small).1) number

/-- A digit is neither a blank nor a sign. -/
theorem digit_plain (char : UInt8) :
    isdigit char = true → isspace char = false ∧ char ≠ 45 ∧ char ≠ 43 :=
  forall_char (P := fun char => isdigit char = true → isspace char = false ∧ char ≠ 45 ∧ char ≠ 43)
    (by decide +kernel) char

/-- The value of a numeral, up to the largest number of the type. -/
theorem strtoll_digits {digits : Str} (nonempty : digits ≠ [])
    (numeral : ∀ char ∈ digits, isdigit char = true) :
    strtoll digits =
      if llongMax < (decimalValue digits : Int) then (llongMax, true)
      else ((decimalValue digits : Int), false) := by
  have whole : digits.takeWhile isdigit = digits := List.takeWhile_eq_self_iff.mpr numeral
  obtain ⟨char, text, rfl⟩ := List.exists_cons_of_ne_nil nonempty
  obtain ⟨blank, minus, plus⟩ := digit_plain char (numeral char (by simp))
  have dropped : (char :: text).dropWhile isspace = char :: text := by simp [blank]
  have below : ¬((decimalValue (char :: text) : Int) < llongMin) := by
    rw [llongMin]
    omega
  simp only [strtoll, dropped, splitSign, minus, plus, whole, below, if_false, Bool.false_eq_true]

/-- The numeral of a natural number is parsed back, up to the largest number of the type. -/
theorem strtoll_numeral (number : Nat) :
    strtoll (printNat 10 number) =
      if llongMax < (number : Int) then (llongMax, true) else ((number : Int), false) := by
  rw [strtoll_digits (printNat_ne_nil (by decide : 1 < 10) number) isdigit_of_mem_printNat,
    decimalValue_printNat]

theorem strtoll_printNat {number : Nat} (small : (number : Int) ≤ llongMax) :
    strtoll (printNat 10 number) = ((number : Int), false) := by
  rw [strtoll_numeral, if_neg (by omega)]

/-- A negative number is parsed back as well. -/
theorem strtoll_printInt {value : Int} (low : llongMin ≤ value) (high : value ≤ llongMax) :
    strtoll (printInt value) = (value, false) := by
  by_cases negative : value < 0
  · have whole : (printNat 10 value.natAbs).takeWhile isdigit = printNat 10 value.natAbs :=
      List.takeWhile_eq_self_iff.mpr isdigit_of_mem_printNat
    have dropped : (45 :: printNat 10 value.natAbs).dropWhile isspace =
        45 :: printNat 10 value.natAbs := by
      rw [List.dropWhile_cons_of_neg (by decide)]
    have magnitude : -|value| = value := by rw [abs_of_neg negative, neg_neg]
    have above : ¬(llongMax < value) := by omega
    have below : ¬(value < llongMin) := by omega
    simp [strtoll, printInt, negative, dropped, splitSign, whole, decimalValue_printNat, magnitude,
      above, below]
  · have natural : ((value.natAbs : Nat) : Int) = value := by omega
    rw [printInt, if_neg negative, strtoll_printNat (by omega), natural]

theorem isdigit_of_blank (char : UInt8) : isspace char = true → isdigit char = false :=
  forall_char (P := fun char => isspace char = true → isdigit char = false) (by decide +kernel) char

/-- Blanks behind digits do not count. -/
theorem takeWhile_isdigit_append {blanks : Str} (blank : ∀ char ∈ blanks, isspace char = true)
    (text : Str) : (text ++ blanks).takeWhile isdigit = text.takeWhile isdigit := by
  induction text with
  | nil =>
      cases blanks with
      | nil => rfl
      | cons char blanks => simp [isdigit_of_blank char (blank char (by simp))]
  | cons char text ih => simp only [List.cons_append, List.takeWhile_cons, ih]

/-- Blanks around a number do not count. -/
theorem strtoll_trim (text : Str) : strtoll (trim text) = strtoll text := by
  obtain ⟨behind, behind_eq⟩ : ∃ behind, text.dropWhile isspace = behind := ⟨_, rfl⟩
  obtain ⟨number, number_eq⟩ : ∃ number, behind.rdropWhile isspace = number := ⟨_, rfl⟩
  have whole : number ++ behind.rtakeWhile isspace = behind := by
    rw [← number_eq]
    exact List.rdropWhile_append_rtakeWhile
  have blank : ∀ char ∈ behind.rtakeWhile isspace, isspace char = true := fun char member =>
    List.mem_rtakeWhile_imp member
  have start : ∀ char ∈ behind.head?, isspace char = false := by
    intro char member
    have := List.head?_dropWhile_not isspace text
    rw [behind_eq, member] at this
    simpa using this
  have trimmed : trim text = number := by rw [trim, behind_eq, number_eq]
  cases number with
  | nil =>
      have empty : behind = [] := by
        cases behind with
        | nil => rfl
        | cons char behind =>
            rw [List.nil_append] at whole
            have blank := blank char (by rw [whole]; simp)
            rw [start char rfl] at blank
            cases blank
      rw [strtoll, strtoll, trimmed, behind_eq, empty]
      rfl
  | cons char number =>
      rw [← whole] at start
      have plain : isspace char = false := start char rfl
      have dropped : (char :: number).dropWhile isspace = char :: number := by simp [plain]
      have sign : splitSign (char :: number ++ behind.rtakeWhile isspace) =
          ((splitSign (char :: number)).1,
            (splitSign (char :: number)).2 ++ behind.rtakeWhile isspace) := by
        simp only [List.cons_append, splitSign]
        split
        · rfl
        · split
          · rfl
          · rfl
      rw [whole] at sign
      simp only [strtoll, trimmed, behind_eq, dropped, sign, takeWhile_isdigit_append blank]

/-- A status survives being printed, parsed as a `long` and narrowed to an `int`. -/
theorem toInt32_strtoll_printInt {value : Int} (low : -2 ^ 31 ≤ value) (high : value < 2 ^ 31) :
    toInt32 (strtoll (printInt value)).1 = value := by
  rw [strtoll_printInt (by rw [llongMin]; omega) (by rw [llongMax]; omega), toInt32,
    Int.bmod_eq_of_le] <;> omega

theorem printInt_ne_nil (value : Int) : printInt value ≠ [] := by
  unfold printInt
  split
  · simp
  · exact printNat_ne_nil (by decide) _

/-- A printed number is one token of a line. -/
theorem isspace_of_mem_printInt {value : Int} : ∀ char ∈ printInt value, isspace char = false := by
  have digits : ∀ char ∈ printNat 10 value.natAbs, isspace char = false :=
    forall_mem_printNat (by decide) (fun digit small => (printDigit_decimal digit small).2.1) _
  unfold printInt
  split
  · simpa [isspace] using digits
  · exact digits

/-! ## Hexadecimal -/

/-- A hexadecimal digit, `[0-9A-Fa-f]`. -/
def isHexDigit (char : UInt8) : Bool :=
  (48 ≤ char && char ≤ 57) || (65 ≤ char && char ≤ 70) || (97 ≤ char && char ≤ 102)

/-- The number that a hexadecimal digit denotes. -/
def hexDigitValue (char : UInt8) : Nat :=
  if char ≤ 57 then char.toNat - 48 else if char ≤ 70 then char.toNat - 55 else char.toNat - 87

/-- The decoder takes the hexadecimal digits for what they are. -/
theorem hextoi_digit (char : UInt8) : isHexDigit char = true →
    isHex char = true ∧ hextoi char = hexDigitValue char ∧ hexDigitValue char < 16 :=
  forall_char (P := fun char => isHexDigit char = true →
    isHex char = true ∧ hextoi char = hexDigitValue char ∧ hexDigitValue char < 16)
    (by decide +kernel) char

/-- The number that hexadecimal digits denote. -/
def hexValue (digits : Str) : Nat := Nat.ofDigits 16 (digits.map hexDigitValue).reverse

theorem hexValue_append_singleton (digits : Str) (digit : UInt8) :
    hexValue (digits ++ [digit]) = hexValue digits * 16 + hexDigitValue digit := by
  simp [hexValue, Nat.ofDigits_cons]
  ring

/-- A numeral is not below the numerals that it begins with. -/
theorem hexValue_le_of_begins {front digits : Str} (begins : front <+: digits) :
    hexValue front ≤ hexValue digits := by
  rcases begins with ⟨back, rfl⟩
  induction back using List.reverseRecOn with
  | nil => rw [List.append_nil]
  | append_singleton back digit ih =>
      rw [← List.append_assoc, hexValue_append_singleton]
      omega

/-- Reading one more digit of a size. -/
theorem size_digit {number digit : Nat} (small : digit < 16) :
    (BitVec.ofNat 64 number <<< 4) ||| BitVec.ofNat 64 digit =
      BitVec.ofNat 64 (number * 16 + digit) := by
  have shifted : BitVec.ofNat 64 number <<< 4 = BitVec.ofNat 64 (number <<< 4) := by
    apply BitVec.eq_of_toNat_eq
    simp [Nat.shiftLeft_eq, Nat.mul_mod]
  rw [shifted, ← BitVec.ofNat_or, ← Nat.shiftLeft_add_eq_or_of_lt (by omega), Nat.shiftLeft_eq]

end GnyProxy
