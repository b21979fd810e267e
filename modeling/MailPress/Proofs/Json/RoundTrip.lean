import Mathlib.Data.List.TakeWhile
import MailPress.Json.Reader
import MailPress.Proofs.Text.Ascii

/-!
# A written value is read back

A written string is one token again, whatever its characters are: a character that is escaped is
read from its escape, also where another escape follows. A written integer of at most 64 bits is
one token again, unless a letter, a digit or a sign follows.

A value that is written over several lines is read back as it was, with the members of its
objects in the order they were written, if its integers fit 64 bits, if it holds no
floating-point number and if it is not nested too deeply. The way back has the tokens of the value
in the middle: the written lines are cut into them, and they are read as the value.
-/

namespace MailPress
namespace Json

/-! ## Strings -/

theorem hexValue?_hexDigit {value : Nat} (small : value < 16) :
    Text.hexValue? (Text.hexDigit value) = some value := by
  revert value
  decide

/-- The escape of a control character denotes that character. -/
theorem hexUnit?_of_lt {value : Nat} (small : value < 32) :
    hexUnit? '0' '0' (Text.hexDigit (value / 16)) (Text.hexDigit (value % 16)) = some value := by
  have zero : Text.hexValue? '0' = some 0 := rfl
  simp only [hexUnit?, zero, hexValue?_hexDigit (show value / 16 < 16 by omega),
    hexValue?_hexDigit (show value % 16 < 16 by omega), Option.bind_eq_bind, Option.bind_some,
    Option.pure_def, Option.some.injEq]
  omega

/-- An escape of a unit that is no half of a pair is read alone, whatever follows. -/
theorem readString_unit
    {a b c d : Char}
    {unit : Nat}
    (denoted : hexUnit? a b c d = some unit)
    (whole : unit < 0xD800)
    (rest : List Char) :
    readString ('\\' :: 'u' :: a :: b :: c :: d :: rest) =
      (readString rest).map fun found => (Char.ofNat unit :: found.1, found.2) := by
  have lead : isLeadUnit unit = false := by simp [isLeadUnit]; omega
  have trail : isTrailUnit unit = false := by simp [isTrailUnit]; omega
  rw [readString.eq_def]
  split <;> grind

/-- A written character is read back, whatever follows. -/
theorem readString_escapeChar (c : Char) (rest : List Char) :
    readString (escapeChar c ++ rest) =
      (readString rest).map fun found => (c :: found.1, found.2) := by
  unfold escapeChar
  split
  · subst_vars; simp [readString, simpleEscape?]
  split
  · subst_vars; simp [readString, simpleEscape?]
  split
  · subst_vars; simp [readString, simpleEscape?]
  split
  · subst_vars; simp [readString, simpleEscape?]
  split
  · subst_vars; simp [readString, simpleEscape?]
  split
  · subst_vars; simp [readString, simpleEscape?]
  split
  · subst_vars; simp [readString, simpleEscape?]
  split
  · next small =>
      simp only [List.cons_append, List.nil_append]
      rw [readString_unit (hexUnit?_of_lt small) (by omega), Char.ofNat_toNat]
  · rw [List.singleton_append, readString.eq_def]
    split <;> grind

/-- The characters of a written string are read back up to the closing quote. -/
theorem readString_flatMap_escapeChar (text rest : List Char) :
    readString (text.flatMap escapeChar ++ '"' :: rest) = some (text, rest) := by
  induction text with
  | nil => simp [readString]
  | cons c text inductionHypothesis =>
      rw [List.flatMap_cons, List.append_assoc, readString_escapeChar, inductionHypothesis]
      rfl

/-! ## Integers -/

/-- The digits of a number start with a zero for zero alone. -/
theorem head?_toDigits_ne_zero {value : Nat} (positive : value ≠ 0) :
    (Nat.toDigits 10 value).head? ≠ some '0' := by
  induction value using Nat.strongRecOn with
  | ind value inductionHypothesis =>
      by_cases small : value < 10
      · have single : ∀ digit < 10, digit ≠ 0 → [digit.digitChar].head? ≠ some '0' := by decide
        rw [Nat.toDigits_of_lt_base small]
        exact single value small positive
      · have shorter := inductionHypothesis (value / 10) (by omega) (by omega)
        obtain ⟨first, others, digits⟩ :=
          List.exists_cons_of_ne_nil (Nat.toDigits_ne_nil (n := value / 10) (b := 10))
        rw [Nat.toDigits_of_base_le (by decide) (by omega), digits]
        rw [digits] at shorter
        exact shorter

/-- A run of digits that starts with a zero for zero alone is a number, also behind a sign. -/
theorem cutNumber_digits
    {digits : List Char}
    (nonempty : digits ≠ [])
    (digital : ∀ c ∈ digits, Text.isAsciiDigit c = true)
    (plain : digits.head? = some '0' → digits.length = 1) :
    cutNumber digits = some ⟨false, digits, none, none⟩ ∧
      cutNumber ('-' :: digits) = some ⟨true, digits, none, none⟩ := by
  have taken : digits.takeWhile Text.isAsciiDigit = digits :=
    List.takeWhile_eq_self_iff.mpr digital
  have dropped : digits.dropWhile Text.isAsciiDigit = [] :=
    List.dropWhile_eq_nil_iff.mpr digital
  have single : (digits.isEmpty || (digits.head? == some '0' && digits.length != 1)) = false := by
    simpa [nonempty] using plain
  refine ⟨?_, by simp only [cutNumber, taken, dropped, single]; rfl⟩
  unfold cutNumber
  split
  next negative text cut =>
  have whole : negative = false ∧ text = digits := by
    split at cut
    · exact absurd (digital '-' List.mem_cons_self) (by decide)
    · exact ⟨(congrArg Prod.fst cut).symm, (congrArg Prod.snd cut).symm⟩
  simp only [whole, taken, dropped, single]
  rfl

theorem cutNumber_toDigits (value : Nat) :
    cutNumber (Nat.toDigits 10 value) = some ⟨false, Nat.toDigits 10 value, none, none⟩ ∧
      cutNumber ('-' :: Nat.toDigits 10 value) =
        some ⟨true, Nat.toDigits 10 value, none, none⟩ := by
  refine cutNumber_digits Nat.toDigits_ne_nil (fun _ => Text.isAsciiDigit_of_mem_toDigits) ?_
  intro leading
  by_cases positive : value = 0
  · rw [positive, Nat.toDigits_zero]
    rfl
  · exact absurd leading (head?_toDigits_ne_zero positive)

/-- Whether an integer is read as one when it is written. -/
def fits (value : Int) : Bool :=
  -0x8000000000000000 ≤ value && value < 0x10000000000000000

theorem toList_toString_of_nonneg {value : Int} (nonneg : 0 ≤ value) :
    (toString value).toList = Nat.toDigits 10 value.toNat := by
  rw [Int.toString_eq_repr, Int.repr_eq_if, if_pos nonneg, Nat.repr_eq_ofList_toDigits,
    String.toList_ofList]

theorem toList_toString_of_neg {value : Int} (negative : value < 0) :
    (toString value).toList = '-' :: Nat.toDigits 10 (-value).toNat := by
  rw [Int.toString_eq_repr, Int.repr_eq_if, if_neg (by omega), Nat.repr_eq_ofList_toDigits,
    String.toList_append]
  simp

/-- A written integer is read back. -/
theorem readNumber_toString {value : Int} (inRange : fits value = true) :
    readNumber (toString value).toList = some (.int value) := by
  simp only [fits, Bool.and_eq_true, decide_eq_true_eq] at inRange
  by_cases sign : 0 ≤ value
  · have small : value.toNat < 0x10000000000000000 := by omega
    have back : (value.toNat : Int) = value := Int.toNat_of_nonneg sign
    rw [toList_toString_of_nonneg sign, readNumber, (cutNumber_toDigits _).1]
    simp only [Text.decimalValue_toDigits, if_pos small, back]
    rfl
  · have small : (-value).toNat ≠ 0 ∧ (-value).toNat ≤ 0x8000000000000000 := by omega
    have back : -((-value).toNat : Int) = value := by omega
    rw [toList_toString_of_neg (by omega), readNumber, (cutNumber_toDigits _).2]
    simp only [Text.decimalValue_toDigits, if_pos small, back]
    rfl

/-- A written integer starts with a sign or a digit. -/
theorem mem_toString_cases
    {value : Int}
    {c : Char}
    (member : c ∈ (toString value).toList) :
    c = '-' ∨ Text.isAsciiDigit c = true := by
  by_cases sign : 0 ≤ value
  · rw [toList_toString_of_nonneg sign] at member
    exact .inr (Text.isAsciiDigit_of_mem_toDigits member)
  · rw [toList_toString_of_neg (by omega)] at member
    rcases List.mem_cons.mp member with dash | digit
    · exact .inl dash
    · exact .inr (Text.isAsciiDigit_of_mem_toDigits digit)

theorem toList_toString_ne_nil (value : Int) : (toString value).toList ≠ [] := by
  by_cases sign : 0 ≤ value
  · rw [toList_toString_of_nonneg sign]
    exact Nat.toDigits_ne_nil
  · rw [toList_toString_of_neg (by omega)]
    exact List.cons_ne_nil _ _

theorem all_isScalarChar_toString (value : Int) :
    (toString value).toList.all isScalarChar = true := by
  refine List.all_eq_true.mpr fun c member => ?_
  rcases mem_toString_cases member with rfl | digit
  · rfl
  · have inside : '0' ≤ c ∧ c ≤ '9' := by simpa [Text.isAsciiDigit] using digit
    simp [isScalarChar, Text.isAsciiAlphanumeric, inside]

/-- A written integer is no literal, so it is read as a number. -/
theorem readScalar_toString {value : Int} (inRange : fits value = true) :
    readScalar (toString value).toList = some (.int value) := by
  have notLiteral {letter : Char} {others : List Char}
      (dash : letter ≠ '-')
      (digit : Text.isAsciiDigit letter = false) :
      (toString value).toList ≠ letter :: others := by
    intro same
    have member : letter ∈ (toString value).toList := by rw [same]; exact List.mem_cons_self
    rcases mem_toString_cases member with rfl | found
    · exact dash rfl
    · rw [digit] at found
      cases found
  rw [readScalar, if_neg (notLiteral (by decide) (by decide)),
    if_neg (notLiteral (by decide) (by decide)), if_neg (notLiteral (by decide) (by decide)),
    readNumber_toString inRange]

/-! ## Tokens -/

/-- Whether a rest ends the literal or the number before it. -/
def EndsScalar (rest : List Char) : Prop :=
  ∀ c, rest.head? = some c → isScalarChar c = false

theorem tokens_of_isGap {c : Char} (gap : isGap c = true) (rest : List Char) :
    tokens (c :: rest) = tokens rest := by
  rw [tokens, if_pos gap]

/-- The line break and the indentation of a line are no tokens. -/
theorem tokens_lineBreak (depth : Nat) (rest : List Char) :
    tokens ((lineBreak depth).toList ++ rest) = tokens rest := by
  rw [lineBreak, String.toList_ofList, List.cons_append, tokens_of_isGap rfl]
  induction 2 * depth with
  | zero => rfl
  | succ width inductionHypothesis =>
      rw [List.replicate_succ, List.cons_append, tokens_of_isGap rfl, inductionHypothesis]

/-- A mark is a token of its own. -/
theorem tokens_mark
    {c : Char}
    (gap : isGap c = false)
    (quote : c ≠ '"')
    (scalar : isScalarChar c = false)
    (rest : List Char) :
    tokens (c :: rest) = (tokens rest).map fun more => .mark c :: more := by
  rw [tokens, if_neg (by simp [gap]), if_neg quote, if_neg (by simp [scalar])]

/-- A written string is a token of its own. -/
theorem tokens_writeString (text : String) (rest : List Char) :
    tokens ((writeString text).toList ++ rest) =
      (tokens rest).map fun more => .text text :: more := by
  have written : (writeString text).toList ++ rest =
      '"' :: (text.toList.flatMap escapeChar ++ '"' :: rest) := by
    simp [writeString]
  rw [written, tokens, if_neg (by decide), if_pos rfl]
  split
  · next failed => simp [readString_flatMap_escapeChar] at failed
  · next value after read =>
      rw [readString_flatMap_escapeChar] at read
      obtain ⟨rfl, rfl⟩ := Prod.mk.inj (Option.some.inj read)
      rw [String.ofList_toList]

/-- A literal or a number is a token of its own. -/
theorem tokens_scalar
    {text : List Char}
    {value : Json}
    (nonempty : text ≠ [])
    (plain : text.all isScalarChar = true)
    (read : readScalar text = some value)
    {rest : List Char}
    (ends : EndsScalar rest) :
    tokens (text ++ rest) = (tokens rest).map fun more => .scalar value :: more := by
  obtain ⟨first, others, rfl⟩ := List.exists_cons_of_ne_nil nonempty
  have plain := List.all_eq_true.mp plain
  have scalar : isScalarChar first = true := plain first List.mem_cons_self
  have gap : isGap first = false := by
    by_contra blank
    simp only [isGap, Bool.not_eq_false, Bool.or_eq_true, beq_iff_eq] at blank
    rcases blank with ((rfl | rfl) | rfl) | rfl <;> cases scalar
  have quote : first ≠ '"' := by rintro rfl; cases scalar
  have inside : ∀ c ∈ others, isScalarChar c = true :=
    fun c member => plain c (List.mem_cons_of_mem first member)
  have taken : (others ++ rest).takeWhile isScalarChar = others := by
    rw [List.takeWhile_append_of_pos inside]
    cases rest with
    | nil => simp
    | cons c rest => simp [ends c rfl]
  have dropped : (others ++ rest).dropWhile isScalarChar = rest := by
    rw [List.dropWhile_append_of_pos inside]
    cases rest with
    | nil => rfl
    | cons c rest => simp [ends c rfl]
  rw [List.cons_append, tokens, if_neg (by simp [gap]), if_neg quote, if_pos scalar, taken]
  simp only [read, dropped]

/-! ## Values -/

mutual

/-- Whether a value is read back exactly, when so many brackets may be inside one another. -/
def isExact (depth : Nat) : Json → Bool
  | .null | .bool _ | .str _ => true
  | .int value => fits value
  | .float _ => false
  | .arr elements => depth != 0 && areExact (depth - 1) elements
  | .obj members => depth != 0 && membersAreExact (depth - 1) members

/-- Whether all elements of an array are read back exactly. -/
def areExact (depth : Nat) : List Json → Bool
  | [] => true
  | element :: elements => element.isExact depth && areExact depth elements

/-- Whether all members of an object are read back exactly. -/
def membersAreExact (depth : Nat) : List (String × Json) → Bool
  | [] => true
  | (_, value) :: members => value.isExact depth && membersAreExact depth members

end

mutual

/-- The tokens of a written value, with a rest behind them. -/
def tokenForm : Json → List Token → List Token
  | .str text, rest => .text text :: rest
  | .arr [], rest => .mark '[' :: .mark ']' :: rest
  | .arr (element :: elements), rest =>
      .mark '[' :: element.tokenForm (elementTokens elements rest)
  | .obj [], rest => .mark '{' :: .mark '}' :: rest
  | .obj ((key, value) :: members), rest =>
      .mark '{' :: .text key :: .mark ':' :: value.tokenForm (memberTokens members rest)
  | value, rest => .scalar value :: rest

/-- The tokens of further elements of an array, and its closing bracket. -/
def elementTokens : List Json → List Token → List Token
  | [], rest => .mark ']' :: rest
  | element :: elements, rest => .mark ',' :: element.tokenForm (elementTokens elements rest)

/-- The tokens of further members of an object, and its closing brace. -/
def memberTokens : List (String × Json) → List Token → List Token
  | [], rest => .mark '}' :: rest
  | (key, value) :: members, rest =>
      .mark ',' :: .text key :: .mark ':' :: value.tokenForm (memberTokens members rest)

end

/-! ## Reading tokens -/

theorem tokenForm_ne_close (value : Json) (rest more : List Token) :
    value.tokenForm rest ≠ .mark ']' :: more := by
  cases value with
  | arr elements => cases elements <;> simp [tokenForm]
  | obj members => cases members <;> simp [tokenForm]
  | _ => simp [tokenForm]

mutual

/-- The tokens of a value are read as that value. -/
theorem readValue_tokenForm :
    ∀ (value : Json) (depth : Nat) (rest : List Token), value.isExact depth = true →
      ∃ shorter, readValue depth (value.tokenForm rest) = some (value, ⟨rest, shorter⟩)
  | .null, depth, rest, _ | .bool _, depth, rest, _ | .int _, depth, rest, _
  | .str _, depth, rest, _ => by
      simp [tokenForm, readValue]
  | .arr [], depth, rest, exactly => by
      have nested : depth ≠ 0 := by simpa [isExact, areExact] using exactly
      rw [tokenForm, readValue, if_neg nested]
      exact ⟨_, rfl⟩
  | .arr (element :: elements), depth, rest, exactly => by
      have nested : depth ≠ 0 ∧ areExact (depth - 1) (element :: elements) = true := by
        simpa [isExact] using exactly
      obtain ⟨_, read⟩ := readElements_tokens element elements (depth - 1) rest nested.2
      rw [tokenForm, readValue, if_neg nested.1, read]
      · exact ⟨_, rfl⟩
      · exact tokenForm_ne_close element (elementTokens elements rest)
  | .obj [], depth, rest, exactly => by
      have nested : depth ≠ 0 := by simpa [isExact, membersAreExact] using exactly
      rw [tokenForm, readValue, if_neg nested]
      exact ⟨_, rfl⟩
  | .obj ((key, value) :: members), depth, rest, exactly => by
      have nested : depth ≠ 0 ∧ membersAreExact (depth - 1) ((key, value) :: members) = true := by
        simpa [isExact] using exactly
      obtain ⟨_, read⟩ := readMembers_tokens key value members (depth - 1) rest nested.2
      rw [tokenForm, readValue, if_neg nested.1, read]
      · exact ⟨_, rfl⟩
      · intro more
        simp
termination_by value => sizeOf value

/-- The tokens of the elements of an array are read as these. -/
theorem readElements_tokens :
    ∀ (first : Json) (elements : List Json) (depth : Nat) (rest : List Token),
      areExact depth (first :: elements) = true →
      ∃ shorter, readElements depth (first.tokenForm (elementTokens elements rest)) =
        some (first :: elements, ⟨rest, shorter⟩)
  | first, [], depth, rest, exactly => by
      have here : first.isExact depth = true := by simpa [areExact] using exactly
      obtain ⟨_, read⟩ := readValue_tokenForm first depth (.mark ']' :: rest) here
      rw [elementTokens, readElements, read]
      exact ⟨_, rfl⟩
  | first, element :: elements, depth, rest, exactly => by
      obtain ⟨here, others⟩ :
          first.isExact depth = true ∧ areExact depth (element :: elements) = true := by
        rwa [areExact, Bool.and_eq_true] at exactly
      obtain ⟨ahead, read⟩ := readValue_tokenForm first depth
        (.mark ',' :: element.tokenForm (elementTokens elements rest)) here
      obtain ⟨behind, more⟩ := readElements_tokens element elements depth rest others
      rw [List.length_cons] at ahead
      rw [elementTokens, readElements, read]
      simp only [splitFirst?, more]
      exact ⟨by omega, trivial⟩
termination_by first elements => sizeOf first + sizeOf elements + 1

/-- The tokens of the members of an object are read as these. -/
theorem readMembers_tokens :
    ∀ (key : String) (value : Json) (members : List (String × Json)) (depth : Nat)
      (rest : List Token), membersAreExact depth ((key, value) :: members) = true →
      ∃ shorter, readMembers depth
          (.text key :: .mark ':' :: value.tokenForm (memberTokens members rest)) =
        some ((key, value) :: members, ⟨rest, shorter⟩)
  | key, value, [], depth, rest, exactly => by
      have here : value.isExact depth = true := by simpa [membersAreExact] using exactly
      obtain ⟨_, read⟩ := readValue_tokenForm value depth (.mark '}' :: rest) here
      rw [memberTokens, readMembers, read]
      exact ⟨_, rfl⟩
  | key, value, (other, second) :: members, depth, rest, exactly => by
      obtain ⟨here, others⟩ : value.isExact depth = true ∧
          membersAreExact depth ((other, second) :: members) = true := by
        rwa [membersAreExact, Bool.and_eq_true] at exactly
      obtain ⟨ahead, read⟩ := readValue_tokenForm value depth
        (.mark ',' :: .text other :: .mark ':' :: second.tokenForm (memberTokens members rest)) here
      obtain ⟨behind, more⟩ := readMembers_tokens other second members depth rest others
      simp only [List.length_cons] at ahead behind
      rw [memberTokens, readMembers, read]
      simp only [splitFirst?, more]
      exact ⟨by simp only [List.length_cons]; omega, trivial⟩
termination_by _ value members => sizeOf value + sizeOf members + 1

end

/-! ## Cutting lines into tokens -/

theorem endsScalar_cons {c : Char} (other : isScalarChar c = false) (rest : List Char) :
    EndsScalar (c :: rest) := by
  intro first same
  cases same
  exact other

theorem endsScalar_lineBreak (depth : Nat) (rest : List Char) :
    EndsScalar ((lineBreak depth).toList ++ rest) := by
  rw [lineBreak, String.toList_ofList, List.cons_append]
  exact endsScalar_cons rfl _

theorem toList_intercalate_comma (line : String) (lines : List String) :
    (String.intercalate "," (line :: lines)).toList =
      line.toList ++ lines.flatMap fun other => ',' :: other.toList := by
  induction lines generalizing line with
  | nil => simp
  | cons other others inductionHypothesis =>
      have := inductionHypothesis other
      simp only [String.toList_intercalate, List.map_cons] at this ⊢
      rw [List.intercalate_cons_cons, this]
      simp

/-- Further elements on lines of their own, and the closing bracket. -/
def elementRest (depth : Nat) (elements : List Json) (rest : List Char) : List Char :=
  (elementLines (depth + 1) elements).flatMap (fun line => ',' :: line.toList) ++
    ((lineBreak depth).toList ++ ']' :: rest)

/-- Further members on lines of their own, and the closing brace. -/
def memberRest (depth : Nat) (members : List (String × Json)) (rest : List Char) : List Char :=
  (memberLines (depth + 1) members).flatMap (fun line => ',' :: line.toList) ++
    ((lineBreak depth).toList ++ '}' :: rest)

theorem elementRest_cons (depth : Nat) (element : Json) (elements : List Json) (rest : List Char) :
    elementRest depth (element :: elements) rest =
      ',' :: ((lineBreak (depth + 1)).toList ++
        ((element.writeLines (depth + 1)).toList ++ elementRest depth elements rest)) := by
  simp [elementRest, elementLines]

theorem memberRest_cons
    (depth : Nat)
    (key : String)
    (value : Json)
    (members : List (String × Json))
    (rest : List Char) :
    memberRest depth ((key, value) :: members) rest =
      ',' :: ((lineBreak (depth + 1)).toList ++ ((writeString key).toList ++
        ':' :: ' ' :: ((value.writeLines (depth + 1)).toList ++ memberRest depth members rest))) := by
  simp [memberRest, memberLines]

theorem endsScalar_elementRest (depth : Nat) (elements : List Json) (rest : List Char) :
    EndsScalar (elementRest depth elements rest) := by
  cases elements with
  | nil => exact endsScalar_lineBreak depth _
  | cons element elements =>
      rw [elementRest_cons]
      exact endsScalar_cons rfl _

theorem endsScalar_memberRest (depth : Nat) (members : List (String × Json)) (rest : List Char) :
    EndsScalar (memberRest depth members rest) := by
  cases members with
  | nil => exact endsScalar_lineBreak depth _
  | cons member members =>
      rw [memberRest_cons]
      exact endsScalar_cons rfl _

theorem toList_writeLines_arr
    (depth : Nat)
    (element : Json)
    (elements : List Json)
    (rest : List Char) :
    ((Json.arr (element :: elements)).writeLines depth).toList ++ rest =
      '[' :: ((lineBreak (depth + 1)).toList ++
        ((element.writeLines (depth + 1)).toList ++ elementRest depth elements rest)) := by
  simp only [writeLines, elementLines, String.toList_append, toList_intercalate_comma]
  simp [elementRest]

theorem toList_writeLines_obj
    (depth : Nat)
    (key : String)
    (value : Json)
    (members : List (String × Json))
    (rest : List Char) :
    ((Json.obj ((key, value) :: members)).writeLines depth).toList ++ rest =
      '{' :: ((lineBreak (depth + 1)).toList ++ ((writeString key).toList ++
        ':' :: ' ' :: ((value.writeLines (depth + 1)).toList ++ memberRest depth members rest))) := by
  simp only [writeLines, memberLines, String.toList_append, toList_intercalate_comma]
  simp [memberRest]

theorem tokens_null {rest : List Char} (ends : EndsScalar rest) :
    tokens ("null".toList ++ rest) = (tokens rest).map (.scalar .null :: ·) :=
  tokens_scalar (by decide) (by decide) rfl ends

theorem tokens_bool (value : Bool) {rest : List Char} (ends : EndsScalar rest) :
    tokens ((Json.bool value).write.toList ++ rest) =
      (tokens rest).map (.scalar (.bool value) :: ·) := by
  cases value with
  | true => exact tokens_scalar (by decide) (by decide) rfl ends
  | false => exact tokens_scalar (by decide) (by decide) rfl ends

theorem tokens_int {value : Int} (inRange : fits value = true) {rest : List Char}
    (ends : EndsScalar rest) :
    tokens ((toString value).toList ++ rest) = (tokens rest).map (.scalar (.int value) :: ·) :=
  tokens_scalar (toList_toString_ne_nil value) (all_isScalarChar_toString value)
    (readScalar_toString inRange) ends

mutual

/-- The lines of a value are cut into its tokens. -/
theorem tokens_writeLines :
    ∀ (value : Json) (depth bound : Nat) (rest : List Char), value.isExact bound = true →
      EndsScalar rest →
      tokens ((value.writeLines depth).toList ++ rest) = (tokens rest).map value.tokenForm
  | .null, depth, bound, rest, _, ends => by
      simpa only [writeLines, write, tokenForm] using tokens_null ends
  | .bool value, depth, bound, rest, _, ends => by
      simpa only [writeLines, tokenForm] using tokens_bool value ends
  | .int value, depth, bound, rest, exactly, ends => by
      rw [isExact] at exactly
      simpa only [writeLines, write, tokenForm] using tokens_int exactly ends
  | .str text, depth, bound, rest, _, _ => by
      simpa only [writeLines, write, tokenForm] using tokens_writeString text rest
  | .arr [], depth, bound, rest, _, _ => by
      have written : (writeLines depth (.arr [])).toList ++ rest = '[' :: ']' :: rest := by
        simp [writeLines]
      rw [written, tokens_mark rfl (by decide) rfl, tokens_mark rfl (by decide) rfl, Option.map_map]
      simp only [tokenForm, Function.comp_def]
  | .arr (element :: elements), depth, bound, rest, exactly, _ => by
      obtain ⟨_, here, others⟩ : bound ≠ 0 ∧ element.isExact (bound - 1) = true ∧
          areExact (bound - 1) elements = true := by
        simpa [isExact, areExact] using exactly
      rw [toList_writeLines_arr, tokens_mark rfl (by decide) rfl, tokens_lineBreak,
        tokens_writeLines element _ _ _ here (endsScalar_elementRest depth elements rest),
        tokens_elementRest elements depth _ rest others, Option.map_map, Option.map_map]
      simp only [tokenForm, Function.comp_def]
  | .obj [], depth, bound, rest, exactly, _ => by
      have written : (writeLines depth (.obj [])).toList ++ rest = '{' :: '}' :: rest := by
        simp [writeLines]
      rw [written, tokens_mark rfl (by decide) rfl, tokens_mark rfl (by decide) rfl, Option.map_map]
      simp only [tokenForm, Function.comp_def]
  | .obj ((key, value) :: members), depth, bound, rest, exactly, _ => by
      obtain ⟨_, here, others⟩ : bound ≠ 0 ∧ value.isExact (bound - 1) = true ∧
          membersAreExact (bound - 1) members = true := by
        simpa [isExact, membersAreExact] using exactly
      rw [toList_writeLines_obj, tokens_mark rfl (by decide) rfl, tokens_lineBreak,
        tokens_writeString, tokens_mark rfl (by decide) rfl, tokens_of_isGap rfl,
        tokens_writeLines value _ _ _ here (endsScalar_memberRest depth members rest),
        tokens_memberRest members depth _ rest others]
      simp only [Option.map_map, tokenForm, Function.comp_def]
termination_by value => sizeOf value

/-- The lines of further elements are cut into their tokens. -/
theorem tokens_elementRest :
    ∀ (elements : List Json) (depth bound : Nat) (rest : List Char),
      areExact bound elements = true →
      tokens (elementRest depth elements rest) = (tokens rest).map (elementTokens elements)
  | [], depth, bound, rest, _ => by
      simp only [elementRest, elementLines, List.flatMap_nil, List.nil_append]
      rw [tokens_lineBreak, tokens_mark rfl (by decide) rfl]
      simp only [elementTokens]
  | element :: elements, depth, bound, rest, exactly => by
      obtain ⟨here, others⟩ : element.isExact bound = true ∧ areExact bound elements = true := by
        simpa [areExact] using exactly
      rw [elementRest_cons, tokens_mark rfl (by decide) rfl, tokens_lineBreak,
        tokens_writeLines element _ _ _ here (endsScalar_elementRest depth elements rest),
        tokens_elementRest elements depth _ rest others]
      simp only [Option.map_map, elementTokens, Function.comp_def]
termination_by elements => sizeOf elements

/-- The lines of further members are cut into their tokens. -/
theorem tokens_memberRest :
    ∀ (members : List (String × Json)) (depth bound : Nat) (rest : List Char),
      membersAreExact bound members = true →
      tokens (memberRest depth members rest) = (tokens rest).map (memberTokens members)
  | [], depth, bound, rest, _ => by
      simp only [memberRest, memberLines, List.flatMap_nil, List.nil_append]
      rw [tokens_lineBreak, tokens_mark rfl (by decide) rfl]
      simp only [memberTokens]
  | (key, value) :: members, depth, bound, rest, exactly => by
      obtain ⟨here, others⟩ :
          value.isExact bound = true ∧ membersAreExact bound members = true := by
        simpa [membersAreExact] using exactly
      rw [memberRest_cons, tokens_mark rfl (by decide) rfl, tokens_lineBreak, tokens_writeString,
        tokens_mark rfl (by decide) rfl, tokens_of_isGap rfl,
        tokens_writeLines value _ _ _ here (endsScalar_memberRest depth members rest),
        tokens_memberRest members depth _ rest others]
      simp only [Option.map_map, memberTokens, Function.comp_def]
termination_by members => sizeOf members

end

/-- A value that is written over several lines is read back. -/
theorem readAsWritten?_writeLines {value : Json} (exactly : value.isExact depthLimit = true) :
    readAsWritten? (value.writeLines 0) = some value := by
  have ends : EndsScalar [] := by intro c same; cases same
  have cut := tokens_writeLines value 0 depthLimit [] exactly ends
  obtain ⟨_, read⟩ := readValue_tokenForm value depthLimit [] exactly
  have none : tokens [] = some [] := by rw [tokens]
  rw [List.append_nil, none, Option.map_some] at cut
  rw [readAsWritten?, cut]
  simp only [read]

end Json
end MailPress
