import MailPress.Css.Nth
import MailPress.Proofs.Css.Closed
import MailPress.Proofs.Text.Ascii
import MailPress.Proofs.Text.Search

/-!
# Spellings of formulas

One formula is written in many ways: with or without its parts that are zero or one, in any letter
case, with leading zeros, and with blanks around its signs. A reader that drops the blanks and the
letter case first is left with one text for all the ways of placing them.

Whether a position belongs to a formula is decided with a division that rounds towards zero. The
remainder is zero exactly when the step divides the distance, whatever the signs of both, and then
the quotient is the number of steps. That is so as long as the distance has 32 bits; one that is
larger wraps around, and the least number of 32 bits cannot be divided by -1.
-/

namespace MailPress
namespace Css

namespace Nth

/-! ## Positions -/

/-- An integer that has 32 bits. -/
def Fits (value : Int) : Prop :=
  -0x80000000 ≤ value ∧ value < 0x80000000

instance (value : Int) : Decidable (Fits value) :=
  inferInstanceAs (Decidable (_ ∧ _))

/-- No operation on the way to a decision leaves 32 bits. Without steps nothing is subtracted. -/
structure IsExact (nth : Nth) (position : Nat) : Prop where
  /-- The position has 32 bits. -/
  positionFits : Fits position
  /-- Its distance from the offset has 32 bits. -/
  distanceFits : nth.step = 0 ∨ Fits (position - nth.offset)

instance (nth : Nth) (position : Nat) : Decidable (nth.IsExact position) :=
  decidable_of_iff (Fits position ∧ (nth.step = 0 ∨ Fits (position - nth.offset)))
    ⟨fun ⟨positionFits, distanceFits⟩ => ⟨positionFits, distanceFits⟩,
      fun exact => ⟨exact.positionFits, exact.distanceFits⟩⟩

theorem wrap_eq_self {value : Int} (fits : Fits value) : wrap value = value :=
  Int.bmod_eq_of_le fits.1 fits.2

theorem distance_eq
    {nth : Nth}
    {position : Nat}
    (positionFits : Fits position)
    (distanceFits : Fits (position - nth.offset)) :
    nth.distance position = position - nth.offset := by
  rw [distance, wrap_eq_self positionFits, wrap_eq_self distanceFits]

/-- Where nothing leaves 32 bits, a position belongs to a formula if it is reached from the offset
in some number of whole steps. -/
theorem holds_iff
    {nth : Nth}
    {position : Nat}
    (exact : nth.IsExact position) :
    nth.holds position = true ↔
      ∃ count : Nat, (position : Int) = nth.step * count + nth.offset := by
  obtain ⟨positionFits, distanceFits⟩ := exact
  unfold holds
  by_cases still : nth.step = 0
  · rw [if_pos still, beq_iff_eq, still, wrap_eq_self positionFits]
    simp only [Int.zero_mul, Int.zero_add, exists_const]
  · rw [if_neg still, Bool.and_eq_true, beq_iff_eq, decide_eq_true_eq,
      distance_eq positionFits (distanceFits.resolve_left still)]
    constructor
    · rintro ⟨divides, forward⟩
      obtain ⟨count, steps⟩ := Int.eq_ofNat_of_zero_le forward
      have distance := Int.mul_tdiv_cancel' (Int.dvd_iff_tmod_eq_zero.mpr divides)
      rw [steps] at distance
      exact ⟨count, by omega⟩
    · rintro ⟨count, reached⟩
      have distance : (position : Int) - nth.offset = nth.step * count := by omega
      rw [distance]
      refine ⟨Int.dvd_iff_tmod_eq_zero.mp (Int.dvd_mul_right ..), ?_⟩
      rw [Int.mul_tdiv_cancel_left _ still]
      exact Int.natCast_nonneg count

/-- Deciding ends the program for one position of a formula that counts down one by one: that
whose distance from the offset is the first that has more than 32 bits. -/
theorem stops_iff
    {nth : Nth}
    {position : Nat}
    (offsetFits : Fits nth.offset)
    (positionFits : Fits position) :
    nth.stops position = true ↔ nth.step = -1 ∧ (position : Int) = nth.offset + 0x80000000 := by
  rw [stops, Bool.and_eq_true, beq_iff_eq, beq_iff_eq, distance, wrap_eq_self positionFits]
  refine and_congr_right fun _ => ?_
  obtain ⟨low, high⟩ := offsetFits
  obtain ⟨_, bound⟩ := positionFits
  rw [wrap, Int.bmod_def]
  omega

theorem stops_eq_false
    {nth : Nth}
    {position : Nat}
    (offsetFits : Fits nth.offset)
    (exact : nth.IsExact position) :
    nth.stops position = false := by
  obtain ⟨positionFits, distanceFits⟩ := exact
  rw [Bool.eq_false_iff, Ne, stops_iff offsetFits positionFits]
  rintro ⟨step, far⟩
  have fits := (distanceFits.resolve_left (by omega)).2
  omega

/-! ## Spellings -/

/-- A text of blanks, which may be empty. -/
abbrev Gap :=
  { text : List Char // ∀ c ∈ text, Text.isBlank c = true }

theorem isBlank_of_mem_nil : ∀ c ∈ [], Text.isBlank c = true :=
  List.forall_mem_nil _

/-- The sign of a number. -/
inductive Sign
  | plus
  | minus
  deriving DecidableEq

/-- The character of a sign. -/
def Sign.char : Sign → Char
  | .plus => '+'
  | .minus => '-'

/-- The number that a sign stands for. -/
def Sign.unit : Sign → Int
  | .plus => 1
  | .minus => -1

/-- A number without a sign, which may start with zeros. -/
structure Numeral where
  /-- The digits of the number. -/
  digits : List Char
  /-- There is a digit. -/
  nonempty : digits ≠ []
  /-- The digits are decimal ones. -/
  decimal : ∀ c ∈ digits, Text.isAsciiDigit c = true

/-- The number that is written. -/
def Numeral.value (numeral : Numeral) : Nat :=
  Nat.ofDigitChars 10 numeral.digits 0

/-- A sign and the blanks behind it. -/
structure Lead where
  /-- The sign. -/
  sign : Sign
  /-- The blanks between the sign and what it belongs to. -/
  behind : Gap

/-- The written form of a sign and the blanks behind it. -/
def Lead.write (lead : Lead) : List Char :=
  lead.sign.char :: lead.behind.1

/-- The number that a sign stands for, if there is one; without one it is positive. -/
def leadUnit (lead : Option Lead) : Int :=
  lead.elim 1 fun lead => lead.sign.unit

/-- An offset behind the letter of a formula, which has a sign. -/
structure Tail where
  /-- The blanks in front of the sign. -/
  before : Gap
  /-- The sign and the blanks behind it. -/
  lead : Lead
  /-- The number. -/
  numeral : Numeral

/-- The written form of an offset behind the letter. -/
def Tail.write (tail : Tail) : List Char :=
  tail.before.1 ++ (tail.lead.write ++ tail.numeral.digits)

/-- A way to write a formula. -/
inductive Spelling
  /-- The word for the odd positions, in any letter case. -/
  | odd (word : List Char) (isOdd : word.map Text.lowerChar = "odd".toList)
  /-- The word for the even positions, in any letter case. -/
  | even (word : List Char) (isEven : word.map Text.lowerChar = "even".toList)
  /-- One position, with or without a sign. -/
  | integer (lead : Option Lead) (numeral : Numeral)
  /-- A step with the letter, in either case, and an offset behind it. A step of one may be left
  to its sign, and an offset of zero left out. -/
  | linear (lead : Option Lead) (factor : Option Numeral) (letter : Char)
      (isLetter : Text.lowerChar letter = 'n') (tail : Option Tail)

namespace Spelling

/-- The written form of a formula. -/
def write : Spelling → List Char
  | .odd word _ => word
  | .even word _ => word
  | .integer lead numeral => lead.elim [] Lead.write ++ numeral.digits
  | .linear lead factor letter _ tail =>
      lead.elim [] Lead.write ++ (factor.elim [] Numeral.digits ++ letter :: tail.elim [] Tail.write)

/-- The step of the formula that is written. -/
def step : Spelling → Int
  | .odd _ _ => 2
  | .even _ _ => 2
  | .integer _ _ => 0
  | .linear lead factor _ _ _ => leadUnit lead * factor.elim 1 fun numeral => (numeral.value : Int)

/-- The offset of the formula that is written. -/
def offset : Spelling → Int
  | .odd _ _ => 1
  | .even _ _ => 0
  | .integer lead numeral => leadUnit lead * numeral.value
  | .linear _ _ _ _ tail =>
      tail.elim 0 fun tail => tail.lead.sign.unit * (tail.numeral.value : Int)

/-- The formula that is written. -/
def formula (spelling : Spelling) : Nth :=
  ⟨spelling.step, spelling.offset⟩

end Spelling

/-- A number in decimal digits. -/
def Numeral.ofNat (value : Nat) : Numeral where
  digits := Nat.toDigits 10 value
  nonempty := Nat.toDigits_ne_nil
  decimal := fun _ => Text.isAsciiDigit_of_mem_toDigits

/-- A sign without blanks behind it. -/
def Lead.ofInt (value : Int) : Lead :=
  ⟨if value < 0 then .minus else .plus, ⟨[], isBlank_of_mem_nil⟩⟩

theorem unit_mul_value_ofInt (value : Int) :
    (Lead.ofInt value).sign.unit * ((Numeral.ofNat value.natAbs).value : Int) = value := by
  have digits : (Numeral.ofNat value.natAbs).value = value.natAbs := Nat.ofDigitChars_ten_toDigits
  rw [digits, Lead.ofInt]
  dsimp only
  split
  · simp only [Sign.unit]
    omega
  · simp only [Sign.unit]
    omega

/-- Every formula can be written. -/
theorem Spelling.exists_formula_eq (formula : Nth) :
    ∃ spelling : Spelling, spelling.formula = formula := by
  obtain ⟨step, offset⟩ := formula
  refine ⟨.linear (some (.ofInt step)) (some (.ofNat step.natAbs)) 'n' rfl
    (some ⟨⟨[], isBlank_of_mem_nil⟩, .ofInt offset, .ofNat offset.natAbs⟩), ?_⟩
  exact congrArg₂ Nth.mk (unit_mul_value_ofInt step) (unit_mul_value_ofInt offset)

/-! ## Texts without blanks -/

/-- A text without its blanks, in lowercase. -/
def bare (text : List Char) : List Char :=
  (text.filter (!Text.isBlank ·)).map Text.lowerChar

@[simp] theorem bare_append (first second : List Char) :
    bare (first ++ second) = bare first ++ bare second := by
  simp [bare]

@[simp] theorem bare_gap (gap : Gap) : bare gap.1 = [] := by
  simpa [bare] using gap.2

theorem bare_cons {c : Char} (nonblank : Text.isBlank c = false) (text : List Char) :
    bare (c :: text) = Text.lowerChar c :: bare text := by
  simp [bare, nonblank]

/-- A digit is no blank and has no letter case. -/
theorem of_isAsciiDigit {c : Char} (digit : Text.isAsciiDigit c = true) :
    Text.isBlank c = false ∧ Text.lowerChar c = c := by
  rw [Text.isAsciiDigit_eq_isDigit] at digit
  have bounds : 48 ≤ c.toNat ∧ c.toNat ≤ 57 := Char.isDigit_iff_toNat.mp digit
  constructor
  · simp only [Text.isBlank, Bool.or_eq_false_iff, Bool.and_eq_false_iff,
      decide_eq_false_iff_not, beq_eq_false_iff_ne]
    omega
  · exact Text.lowerChar_eq_self (by omega)

@[simp] theorem bare_digits (numeral : Numeral) : bare numeral.digits = numeral.digits := by
  have plain (c : Char) (member : c ∈ numeral.digits) := of_isAsciiDigit (numeral.decimal c member)
  have kept : numeral.digits.filter (!Text.isBlank ·) = numeral.digits :=
    List.filter_eq_self.mpr fun c member => by simp [(plain c member).1]
  rw [bare, kept]
  exact (List.map_congr_left fun c member => (plain c member).2).trans (List.map_id' _)

/-- The character of a sign, if there is one. -/
def signText (lead : Option Lead) : List Char :=
  lead.elim [] fun lead => [lead.sign.char]

@[simp] theorem bare_lead (lead : Lead) : bare lead.write = [lead.sign.char] := by
  obtain ⟨sign, behind⟩ := lead
  cases sign <;> rw [Lead.write, bare_cons rfl, bare_gap] <;> rfl

@[simp] theorem bare_optionalLead (lead : Option Lead) :
    bare (lead.elim [] Lead.write) = signText lead := by
  cases lead with
  | none => rfl
  | some lead => exact bare_lead lead

/-- A blank has no letter case. -/
theorem lowerChar_of_isBlank {c : Char} (blank : Text.isBlank c = true) : Text.lowerChar c = c := by
  refine Text.lowerChar_eq_self fun capital => ?_
  simp only [Text.isBlank, Bool.or_eq_true, Bool.and_eq_true, decide_eq_true_eq,
    beq_iff_eq] at blank
  omega

theorem isBlank_of_lowerChar {c : Char} (nonblank : Text.isBlank (Text.lowerChar c) = false) :
    Text.isBlank c = false := by
  by_contra blank
  rw [Bool.not_eq_false] at blank
  rw [lowerChar_of_isBlank blank, blank] at nonblank
  cases nonblank

/-- A word in any letter case is left as its lowercase form. -/
theorem bare_word
    {word lowered : List Char}
    (same : word.map Text.lowerChar = lowered)
    (nonblank : lowered.any Text.isBlank = false) :
    bare word = lowered := by
  have kept : word.filter (!Text.isBlank ·) = word := by
    refine List.filter_eq_self.mpr fun c member => ?_
    have letter := List.any_eq_false.mp nonblank _ (same ▸ List.mem_map_of_mem member)
    simp [isBlank_of_lowerChar (Bool.eq_false_iff.mpr letter)]
  rw [bare, kept, same]

/-- What is left of a spelling without its blanks, in lowercase. -/
def Spelling.bareText : Spelling → List Char
  | .odd _ _ => "odd".toList
  | .even _ _ => "even".toList
  | .integer lead numeral => signText lead ++ numeral.digits
  | .linear lead factor _ _ tail =>
      (signText lead ++ factor.elim [] Numeral.digits) ++
        'n' :: tail.elim [] fun tail => tail.lead.sign.char :: tail.numeral.digits

theorem bare_write (spelling : Spelling) : bare spelling.write = spelling.bareText := by
  cases spelling with
  | odd word isOdd => exact bare_word isOdd rfl
  | even word isEven => exact bare_word isEven rfl
  | integer lead numeral => simp [Spelling.write, Spelling.bareText]
  | linear lead factor letter isLetter tail =>
      have nonblank : Text.isBlank letter = false := by
        refine isBlank_of_lowerChar ?_
        rw [isLetter]
        rfl
      have factor_eq : bare (factor.elim [] Numeral.digits) = factor.elim [] Numeral.digits := by
        cases factor with
        | none => rfl
        | some numeral => exact bare_digits numeral
      have tail_eq : bare (tail.elim [] Tail.write) =
          tail.elim [] fun tail => tail.lead.sign.char :: tail.numeral.digits := by
        cases tail with
        | none => rfl
        | some tail => simp [Tail.write]
      simp only [Spelling.write, Spelling.bareText, bare_append, bare_optionalLead, factor_eq,
        bare_cons nonblank, isLetter, tail_eq, List.append_assoc]

/-! ## Reading -/

/-- Digits start with a digit, which is no sign and no letter. -/
theorem Numeral.exists_cons (numeral : Numeral) :
    ∃ c rest, numeral.digits = c :: rest ∧ Text.isAsciiDigit c = true := by
  obtain ⟨digits, nonempty, decimal⟩ := numeral
  obtain ⟨c, rest, rfl⟩ := List.exists_cons_of_ne_nil nonempty
  exact ⟨c, rest, rfl, decimal c List.mem_cons_self⟩

theorem Numeral.decimalValue_digits (numeral : Numeral) :
    Text.decimalValue numeral.digits = numeral.value := by
  simp only [value, Nat.ofDigitChars, Nat.mul_comm 10]
  rfl

/-- A number with or without a sign is read if it has 32 bits. -/
theorem readInteger_signText (lead : Option Lead) (numeral : Numeral) :
    readInteger (signText lead ++ numeral.digits) =
      if Fits (leadUnit lead * numeral.value) then some (leadUnit lead * numeral.value)
      else none := by
  have isNumber : (numeral.digits.isEmpty || !numeral.digits.all Text.isAsciiDigit) = false := by
    simpa [numeral.nonempty] using numeral.decimal
  unfold readInteger
  split
  next sign digits cut =>
    have parts : sign = leadUnit lead ∧ digits = numeral.digits := by
      cases lead with
      | some lead =>
          obtain ⟨_ | _, behind⟩ := lead <;> cases cut <;> exact ⟨rfl, rfl⟩
      | none =>
          obtain ⟨c, rest, digits_eq, digit⟩ := numeral.exists_cons
          have notPlus : c ≠ '+' := ne_of_test digit rfl
          have notMinus : c ≠ '-' := ne_of_test digit rfl
          rw [digits_eq] at cut ⊢
          split at cut
          · next same => exact absurd (List.cons.inj same).1 notPlus
          · next same => exact absurd (List.cons.inj same).1 notMinus
          · cases cut
            exact ⟨rfl, rfl⟩
    obtain ⟨rfl, rfl⟩ := parts
    simp only [isNumber, numeral.decimalValue_digits, Bool.false_eq_true, if_false, Bool.and_eq_true,
      decide_eq_true_eq]
    rfl

/-- What stands in front of the letter is read as the step. -/
theorem readStep_signText (lead : Option Lead) (factor : Option Numeral) :
    readStep (signText lead ++ factor.elim [] Numeral.digits) =
      let step := leadUnit lead * factor.elim 1 fun numeral => (numeral.value : Int)
      if Fits step then some step else none := by
  cases factor with
  | none =>
      obtain _ | ⟨_ | _, behind⟩ := lead
      · exact (if_pos (by decide : Fits 1)).symm
      · exact (if_pos (by decide : Fits 1)).symm
      · exact (if_pos (by decide : Fits (-1))).symm
  | some numeral =>
      obtain ⟨c, rest, digits_eq, digit⟩ := numeral.exists_cons
      have notPlus : c ≠ '+' := ne_of_test digit rfl
      have notMinus : c ≠ '-' := ne_of_test digit rfl
      have longer : readStep (signText lead ++ numeral.digits) =
          readInteger (signText lead ++ numeral.digits) := by
        obtain _ | ⟨_ | _, behind⟩ := lead <;>
          simp [readStep, signText, Sign.char, digits_eq, notPlus, notMinus]
      exact longer.trans (readInteger_signText lead numeral)

/-- What stands behind the letter is read as the offset. -/
theorem readOffset_tail (tail : Option Tail) :
    readOffset (tail.elim [] fun tail => tail.lead.sign.char :: tail.numeral.digits) =
      let offset := tail.elim 0 fun tail => tail.lead.sign.unit * (tail.numeral.value : Int)
      if Fits offset then some offset else none := by
  cases tail with
  | none => exact (if_pos (by decide : Fits 0)).symm
  | some tail =>
      have isSign : (tail.lead.sign.char = '+' || tail.lead.sign.char = '-') = true := by
        cases tail.lead.sign <;> rfl
      have signed : readOffset (tail.lead.sign.char :: tail.numeral.digits) =
          readInteger (signText (some tail.lead) ++ tail.numeral.digits) :=
        if_pos isSign
      exact signed.trans (readInteger_signText (some tail.lead) tail.numeral)

/-- Signs and digits are neither letters of the words for formulas nor parentheses. -/
theorem of_mem_signText
    (lead : Option Lead)
    (factor : Option Numeral)
    {c : Char}
    (member : c ∈ signText lead ++ factor.elim [] Numeral.digits) :
    c ∉ ['o', 'e', 'n', '(', ')'] := by
  rcases List.mem_append.mp member with sign | digit
  · cases lead with
    | none => cases sign
    | some lead =>
        obtain rfl := List.mem_singleton.mp sign
        cases lead.sign <;> decide
  · cases factor with
    | none => cases digit
    | some numeral => exact not_mem_of_test (numeral.decimal c digit) (by decide)

/-- Signs and digits alone are read as one position. -/
theorem read_of_bare_eq_integer
    {argument : List Char}
    {lead : Option Lead}
    {numeral : Numeral}
    (same : bare argument = signText lead ++ numeral.digits) :
    Nth.read argument =
      (readInteger (signText lead ++ numeral.digits)).map fun offset => ⟨0, offset⟩ := by
  have plain (c : Char) := of_mem_signText lead (some numeral) (c := c)
  have notOdd : signText lead ++ numeral.digits ≠ "odd".toList := fun same =>
    plain 'o' (same ▸ by decide) (by decide)
  have notEven : signText lead ++ numeral.digits ≠ "even".toList := fun same =>
    plain 'e' (same ▸ by decide) (by decide)
  have noLetter : Text.splitOnce ['n'] (signText lead ++ numeral.digits) = none :=
    Text.splitOnce_eq_none_iff.mpr fun member => plain 'n' member (by decide)
  unfold Nth.read
  rw [← bare, same]
  simp only [if_neg notOdd, if_neg notEven, noLetter]

/-- What stands on both sides of the letter is read on its own. -/
theorem read_of_bare_eq_linear
    {argument rest : List Char}
    {lead : Option Lead}
    {factor : Option Numeral}
    (same : bare argument = (signText lead ++ factor.elim [] Numeral.digits) ++ 'n' :: rest) :
    Nth.read argument =
      (readStep (signText lead ++ factor.elim [] Numeral.digits)).bind fun step =>
        (readOffset rest).map fun offset => ⟨step, offset⟩ := by
  have plain (c : Char) := of_mem_signText lead factor (c := c)
  generalize signText lead ++ factor.elim [] Numeral.digits = front at same plain ⊢
  have cut : Text.splitOnce ['n'] (front ++ 'n' :: rest) = some (front, rest) :=
    Text.splitOnce_append_cons (fun member => plain 'n' member (by decide)) rest
  have notOdd : front ++ 'n' :: rest ≠ "odd".toList := by
    intro same
    rw [same] at cut
    cases cut
  have notEven : front ++ 'n' :: rest ≠ "even".toList := by
    intro same
    rw [same] at cut
    obtain ⟨rfl, _⟩ := Prod.mk.inj (Option.some.inj cut)
    exact plain 'e' (by decide) (by decide)
  unfold Nth.read
  rw [← bare, same]
  simp only [if_neg notOdd, if_neg notEven, cut]
  cases readStep front with
  | none => rfl
  | some step => cases readOffset rest <;> rfl

/-- However a formula is written, it is read if its numbers have 32 bits. -/
theorem read_write
    (before after : Gap)
    (spelling : Spelling) :
    Nth.read (before.1 ++ (spelling.write ++ after.1)) =
      if Fits spelling.step ∧ Fits spelling.offset then some spelling.formula else none := by
  have text : bare (before.1 ++ (spelling.write ++ after.1)) = spelling.bareText := by
    simp [bare_write]
  cases spelling with
  | odd word isOdd | even word isEven =>
      unfold Nth.read
      rw [← bare, text]
      rfl
  | integer lead numeral =>
      rw [read_of_bare_eq_integer text, readInteger_signText]
      have zero : Fits 0 := by decide
      simp only [Spelling.step, Spelling.offset, Spelling.formula, zero, true_and]
      split <;> rfl
  | linear lead factor letter isLetter tail =>
      rw [read_of_bare_eq_linear text, readStep_signText, readOffset_tail]
      simp only [Spelling.step, Spelling.offset, Spelling.formula]
      split
      · next stepFits =>
          simp only [stepFits, true_and, Option.bind_some]
          split <;> rfl
      · next misfit => simp only [misfit, false_and, if_false, Option.bind_none]

theorem not_mem_bareText
    (spelling : Spelling)
    {c : Char}
    (parenthesis : c ∈ ['(', ')']) :
    c ∉ spelling.bareText := by
  intro member
  have other (lead : Option Lead) (factor : Option Numeral) :
      c ∉ signText lead ++ factor.elim [] Numeral.digits := fun inSigns =>
    of_mem_signText lead factor inSigns (List.mem_append_right ['o', 'e', 'n'] parenthesis)
  cases spelling with
  | odd word isOdd =>
      exact (by simp : ∀ d ∈ "odd".toList, d ∉ ['(', ')']) c member parenthesis
  | even word isEven =>
      exact (by simp : ∀ d ∈ "even".toList, d ∉ ['(', ')']) c member parenthesis
  | integer lead numeral => exact other lead (some numeral) member
  | linear lead factor letter isLetter tail =>
      rcases List.mem_append.mp member with front | behind
      · exact other lead factor front
      · rcases List.mem_cons.mp behind with rfl | behind
        · exact absurd parenthesis (by decide)
        · cases tail with
          | none => cases behind
          | some tail => exact other (some tail.lead) (some tail.numeral) behind

/-- No parenthesis stands in a spelling. -/
theorem not_mem_write
    (before after : Gap)
    (spelling : Spelling)
    {c : Char}
    (parenthesis : c ∈ ['(', ')']) :
    c ∉ before.1 ++ (spelling.write ++ after.1) := by
  have kept : Text.isBlank c = false ∧ Text.lowerChar c = c := by
    rcases List.mem_pair.mp parenthesis with rfl | rfl <;> decide
  intro member
  have inBare : c ∈ bare (before.1 ++ (spelling.write ++ after.1)) :=
    List.mem_map.mpr ⟨c, List.mem_filter.mpr ⟨member, by simp [kept.1]⟩, kept.2⟩
  rw [bare_append, bare_append, bare_gap, bare_gap, List.nil_append, List.append_nil,
    bare_write] at inBare
  exact not_mem_bareText spelling parenthesis inBare

end Nth

end Css
end MailPress
