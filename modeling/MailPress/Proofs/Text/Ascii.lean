import MailPress.Text.Typography

/-!
# Letters and digits

Lowercasing moves the capital letters of ASCII to the small ones and leaves every other
character where it is. So only a letter becomes a letter.

A number is written with digits of ASCII, which denote it. So writing the characters outside
ASCII as references leaves a text of ASCII, and leaves such a text as it is.
-/

namespace MailPress
namespace Text

/-- A capital letter, lowercased, is the small letter 32 places behind it. -/
theorem toNat_lowerChar_of_upper
    {c : Char}
    (lower : 65 ≤ c.toNat)
    (upper : c.toNat ≤ 90) :
    (lowerChar c).toNat = c.toNat + 32 := by
  have capital : ('A' ≤ c && c ≤ 'Z') = true := by
    simp only [Bool.and_eq_true, decide_eq_true_eq, Char.le_def, UInt32.le_iff_toNat_le]
    exact ⟨lower, upper⟩
  have valid : (c.toNat + 32).isValidChar := .inl (by omega)
  rw [lowerChar, if_pos capital, Char.ofNat, dif_pos valid]
  rfl

theorem lowerChar_eq_self
    {c : Char}
    (small : ¬(65 ≤ c.toNat ∧ c.toNat ≤ 90)) :
    lowerChar c = c := by
  rw [lowerChar, if_neg]
  simp only [Bool.and_eq_true, decide_eq_true_eq, Char.le_def, UInt32.le_iff_toNat_le]
  exact small

/-- Lowercasing twice is lowercasing once. -/
theorem lowerChar_lowerChar (c : Char) :
    lowerChar (lowerChar c) = lowerChar c := by
  by_cases capital : 65 ≤ c.toNat ∧ c.toNat ≤ 90
  · have moved := toNat_lowerChar_of_upper capital.1 capital.2
    exact lowerChar_eq_self (by omega)
  · rw [lowerChar_eq_self capital, lowerChar_eq_self capital]

theorem toList_lower (text : String) :
    (lower text).toList = text.toList.map lowerChar := by
  rw [lower, String.toList_ofList]

/-- A character that no capital letter becomes comes from itself alone. -/
theorem eq_of_lowerChar_eq
    {c small : Char}
    (notSmall : ¬(97 ≤ small.toNat ∧ small.toNat ≤ 122))
    (lowered : lowerChar c = small) :
    c = small := by
  by_cases capital : 65 ≤ c.toNat ∧ c.toNat ≤ 90
  · have moved := toNat_lowerChar_of_upper capital.1 capital.2
    rw [lowered] at moved
    omega
  · rw [← lowered, lowerChar_eq_self capital]

/-- A small letter comes from itself or from its capital letter. -/
theorem eq_or_eq_of_lowerChar_eq
    {c small : Char}
    (lowered : lowerChar c = small) :
    c = small ∨ c.toNat + 32 = small.toNat := by
  by_cases capital : 65 ≤ c.toNat ∧ c.toNat ≤ 90
  · rw [← lowered]
    exact .inr (toNat_lowerChar_of_upper capital.1 capital.2).symm
  · rw [← lowered, lowerChar_eq_self capital]
    exact .inl rfl

/-! ## Digits -/

theorem isAsciiDigit_eq_isDigit (c : Char) : isAsciiDigit c = c.isDigit := by
  rw [Bool.eq_iff_iff, Char.isDigit_iff_toNat]
  simp only [isAsciiDigit, Bool.and_eq_true, decide_eq_true_eq, Char.le_def,
    UInt32.le_iff_toNat_le]
  rfl

theorem isAsciiDigit_of_mem_toDigits
    {value : Nat}
    {c : Char}
    (member : c ∈ Nat.toDigits 10 value) :
    isAsciiDigit c = true := by
  rw [isAsciiDigit_eq_isDigit]
  exact Nat.isDigit_of_mem_toDigits (by decide) (by decide) member

theorem decimalValue_toDigits (value : Nat) :
    decimalValue (Nat.toDigits 10 value) = value := by
  have digits : Nat.ofDigitChars 10 (Nat.toDigits 10 value) 0 = value :=
    Nat.ofDigitChars_ten_toDigits
  simp only [Nat.ofDigitChars, Nat.mul_comm 10] at digits
  exact digits

/-! ## Characters outside ASCII -/

theorem isAscii_of_isAsciiDigit
    {c : Char}
    (digit : isAsciiDigit c = true) :
    isAscii c = true := by
  rw [isAsciiDigit_eq_isDigit] at digit
  have bounds : 48 ≤ c.toNat ∧ c.toNat ≤ 57 := Char.isDigit_iff_toNat.mp digit
  simp only [isAscii, decide_eq_true_eq]
  omega

/-- Plain ASCII is written as it is. -/
theorem flatMap_referenceForm_of_ascii
    {text : List Char}
    (ascii : ∀ c ∈ text, isAscii c = true) :
    text.flatMap referenceForm = text := by
  induction text with
  | nil => rfl
  | cons c text inductionHypothesis =>
      obtain ⟨here, rest⟩ := List.forall_mem_cons.mp ascii
      rw [List.flatMap_cons, inductionHypothesis rest, referenceForm, if_pos here,
        List.singleton_append]

theorem isAscii_of_mem_referenceForm
    {c written : Char}
    (member : written ∈ referenceForm c) :
    isAscii written = true := by
  unfold referenceForm at member
  split at member
  · next ascii =>
      rw [List.mem_singleton.mp member]
      exact ascii
  · have place : written ∈ decimalDigits c.toNat ∨ written ∈ ['&', '#', ';'] := by grind
    rcases place with digit | mark
    · exact isAscii_of_isAsciiDigit (isAsciiDigit_of_mem_toDigits digit)
    · have marks : ∀ d ∈ ['&', '#', ';'], isAscii d = true := List.all_eq_true.mp (by decide)
      exact marks written mark

end Text
end MailPress
