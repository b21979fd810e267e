import Mathlib.Data.Nat.Digits.Defs
import MailPress.Proofs.Markup.Prepared
import MailPress.Proofs.Markup.Reference
import MailPress.Proofs.Text.Ascii

/-!
# Escaping leaves what is denoted

Characters of a text may be written as references that denote them. Whoever decodes the text
reads the same as before, as long as no character of a reference is among them: what is
written starts with an ampersand, and no reference has one inside.

Writing the characters outside ASCII as references is such an escaping. Preparing a source is
one unless the decoder knows a reference that preparing does not, and these are the numeric
references with a plus sign.
-/

namespace MailPress
namespace Markup

/-! ## References that denote a character -/

/-- A text that denotes a character when it stands between an ampersand and a semicolon. -/
structure Denotes (name : List Char) (denoted : Char) : Prop where
  /-- It is short enough to be looked up. -/
  short : byteLength name ≤ longestReference
  /-- It is a name or a number of the character. -/
  denotation_eq : denotation? name = some denoted

/-- A number with a plus sign in front of its digits. -/
def IsSigned (name : List Char) : Prop :=
  ∃ digits, digits.all Text.isHexDigit = true ∧ (name = '#' :: '+' :: digits ∨
    name = '#' :: 'x' :: '+' :: digits ∨ name = '#' :: 'X' :: '+' :: digits)

/-- The forms of a text that denotes a character. -/
inductive IsReferenceName : List Char → Prop
  /-- One of the names. -/
  | named
      {entry : String × Char}
      (listed : entry ∈ namedReferences) :
      IsReferenceName entry.1.toList
  /-- A decimal number. -/
  | decimal
      {digits : List Char}
      (digital : (!digits.isEmpty && digits.all Text.isAsciiDigit) = true) :
      IsReferenceName ('#' :: digits)
  /-- A hexadecimal number. -/
  | hexadecimal
      {marker : Char}
      {digits : List Char}
      (isMarker : marker = 'x' ∨ marker = 'X')
      (digital : (!digits.isEmpty && digits.all Text.isHexDigit) = true) :
      IsReferenceName ('#' :: marker :: digits)
  /-- A number of either kind with a plus sign. -/
  | signed
      {name : List Char}
      (isSigned : IsSigned name) :
      IsReferenceName name

/-- Digits that are read stand alone or behind a plus sign. -/
theorem eq_of_unsignedDigits?
    {isDigit : Char → Bool}
    {text digits : List Char}
    (read : unsignedDigits? isDigit text = some digits) :
    (text = digits ∨ text = '+' :: digits) ∧
      (!digits.isEmpty && digits.all isDigit) = true := by
  unfold unsignedDigits? at read
  dsimp only at read
  split at read
  · next digital =>
      cases read
      refine ⟨?_, digital⟩
      cases dropped : Text.dropStart? ['+'] text with
      | none => exact .inl rfl
      | some rest => exact .inr (Text.eq_append_of_dropStart? dropped)
  · cases read

theorem isHexDigit_of_isAsciiDigit
    {c : Char}
    (digit : Text.isAsciiDigit c = true) :
    Text.isHexDigit c = true := by
  simp [Text.isHexDigit, digit]

theorem all_isHexDigit
    {digits : List Char}
    (digital : (!digits.isEmpty && digits.all Text.isAsciiDigit) = true) :
    digits.all Text.isHexDigit = true := by
  have all := List.all_eq_true.mp (Bool.and_eq_true_iff.mp digital).2
  exact List.all_eq_true.mpr fun c member => isHexDigit_of_isAsciiDigit (all c member)

/-- What denotes a character has one of the forms. -/
theorem Denotes.isReferenceName
    {name : List Char}
    {denoted : Char}
    (denotes : Denotes name denoted) :
    IsReferenceName name := by
  have known := denotes.denotation_eq
  unfold denotation? at known
  split at known
  · next number =>
      unfold numericReference? at known
      split at known
      · next digits =>
          obtain ⟨read, found, _⟩ := Option.bind_eq_some_iff.mp known
          obtain ⟨rfl | rfl, digital⟩ := eq_of_unsignedDigits? found
          · exact .hexadecimal (.inl rfl) digital
          · exact .signed ⟨read, (Bool.and_eq_true_iff.mp digital).2, .inr (.inl rfl)⟩
      · next digits =>
          obtain ⟨read, found, _⟩ := Option.bind_eq_some_iff.mp known
          obtain ⟨rfl | rfl, digital⟩ := eq_of_unsignedDigits? found
          · exact .hexadecimal (.inr rfl) digital
          · exact .signed ⟨read, (Bool.and_eq_true_iff.mp digital).2, .inr (.inr rfl)⟩
      · obtain ⟨read, found, _⟩ := Option.bind_eq_some_iff.mp known
        obtain ⟨rfl | rfl, digital⟩ := eq_of_unsignedDigits? found
        · exact .decimal digital
        · exact .signed ⟨read, all_isHexDigit digital, .inl rfl⟩
  · obtain ⟨entries, others, split, _⟩ := List.lookup_eq_some_iff.mp known
    have listed : (String.ofList name, denoted) ∈ namedReferences := by
      rw [split]
      simp
    have form := IsReferenceName.named listed
    rwa [String.toList_ofList] at form

theorem isReferenceChar_of_isHexDigit
    {c : Char}
    (digit : Text.isHexDigit c = true) :
    isReferenceChar c = true := by
  simp [isReferenceChar, isAsciiAlphanumeric_of_isHexDigit digit]

/-- Letters, digits, a number sign and a plus sign are all that a form is made of. -/
theorem IsReferenceName.forall_mem
    {name : List Char}
    (form : IsReferenceName name) :
    ∀ c ∈ name, isReferenceChar c = true ∨ c = '+' := by
  have of_digits {digits : List Char} (all : digits.all Text.isHexDigit = true) :
      ∀ c ∈ digits, isReferenceChar c = true ∨ c = '+' := fun c member =>
    .inl (isReferenceChar_of_isHexDigit (List.all_eq_true.mp all c member))
  have of_marks {digits : List Char} (marks : List Char) (all : digits.all Text.isHexDigit = true)
      (listed : (marks.all fun c => isReferenceChar c || c == '+') = true) :
      ∀ c ∈ marks ++ digits, isReferenceChar c = true ∨ c = '+' :=
    List.forall_mem_append.mpr ⟨by simpa using listed, of_digits all⟩
  cases form with
  | named listed =>
      have table : ∀ entry ∈ namedReferences, entry.1.toList.all isReferenceChar = true := by decide
      exact fun c member => .inl (List.all_eq_true.mp (table _ listed) c member)
  | decimal digital => exact of_marks ['#'] (all_isHexDigit digital) (by decide)
  | hexadecimal isMarker digital =>
      have all := (Bool.and_eq_true_iff.mp digital).2
      rcases isMarker with rfl | rfl
      · exact of_marks ['#', 'x'] all (by decide)
      · exact of_marks ['#', 'X'] all (by decide)
  | signed isSigned =>
      obtain ⟨digits, all, rfl | rfl | rfl⟩ := isSigned
      · exact of_marks ['#', '+'] all (by decide)
      · exact of_marks ['#', 'x', '+'] all (by decide)
      · exact of_marks ['#', 'X', '+'] all (by decide)

/-- Preparing knows every reference that denotes a character, but those with a plus sign. -/
theorem IsReferenceName.hasReferenceForm_iff
    {name : List Char}
    (form : IsReferenceName name)
    (fresh : ';' ∉ name)
    (rest : List Char) :
    hasReferenceForm (name ++ ';' :: rest) = true ↔ ¬IsSigned name := by
  have before := beforeSemicolon_append_cons fresh rest
  cases form with
  | @named entry listed =>
      have formed : ∀ entry ∈ namedReferences,
          hasReferenceForm (entry.1.toList ++ [';']) = true := by decide
      have unnumbered : ∀ entry ∈ namedReferences, entry.1.toList.head? ≠ some '#' := by decide
      have here := hasReferenceForm_append (formed entry listed) rest
      rw [List.append_assoc] at here
      refine iff_of_true here ?_
      rintro ⟨digits, _, eq | eq | eq⟩ <;> exact unnumbered entry listed (by rw [eq]; rfl)
  | @decimal digits digital =>
      cases digits with
      | nil => cases digital
      | cons c digits =>
          have digit : Text.isAsciiDigit c = true := by simp at digital; exact digital.1
          have notMarker : c ≠ 'x' ∧ c ≠ 'X' ∧ c ≠ '+' := by
            refine ⟨?_, ?_, ?_⟩ <;> (rintro rfl; cases digit)
          refine iff_of_true ?_ ?_
          · rw [hasReferenceForm, before]
            simpa [notMarker] using digital
          · rintro ⟨others, _, eq | eq | eq⟩ <;> simp [notMarker] at eq
  | @hexadecimal marker digits isMarker digital =>
      have notPlus : digits.head? ≠ some '+' := by
        intro plus
        obtain ⟨others, rfl⟩ := List.head?_eq_some_iff.mp plus
        cases digital
      refine iff_of_true ?_ ?_
      · rw [hasReferenceForm, before]
        rcases isMarker with rfl | rfl <;> exact digital
      · rintro ⟨others, _, eq | eq | eq⟩
        · rcases isMarker with rfl | rfl <;> cases eq
        · cases eq
          exact notPlus rfl
        · cases eq
          exact notPlus rfl
  | signed isSigned =>
      refine iff_of_false ?_ (not_not_intro isSigned)
      rw [hasReferenceForm, before]
      obtain ⟨digits, all, rfl | rfl | rfl⟩ := isSigned <;> exact Bool.false_ne_true

/-! ## Decoding step by step -/

namespace Denotes

variable {name : List Char} {denoted : Char}

theorem not_mem
    (denotes : Denotes name denoted)
    {c : Char}
    (other : isReferenceChar c = false)
    (notPlus : c ≠ '+') :
    c ∉ name := by
  intro member
  rcases denotes.isReferenceName.forall_mem c member with isChar | plus
  · rw [other] at isChar
    cases isChar
  · exact notPlus plus

theorem referenceAt?_eq
    (denotes : Denotes name denoted)
    (rest : List Char) :
    referenceAt? (name ++ ';' :: rest) = some (denoted, name.length + 1) := by
  rw [referenceAt?, beforeSemicolon_append_cons (denotes.not_mem rfl (by decide))]
  dsimp only
  rw [if_pos denotes.short, denotes.denotation_eq, Option.map_some]

end Denotes

/-- A reference that is found is one that denotes a character, with its semicolon. -/
theorem exists_of_referenceAt?
    {text : List Char}
    {denoted : Char}
    {length : Nat}
    (found : referenceAt? text = some (denoted, length)) :
    ∃ name rest, text = name ++ ';' :: rest ∧ Denotes name denoted := by
  unfold referenceAt? at found
  split at found
  · cases found
  · next name before =>
      obtain ⟨⟨front, rest⟩, cut, rfl⟩ := Option.map_eq_some_iff.mp before
      split at found
      · next short =>
          obtain ⟨c, known, same⟩ := Option.map_eq_some_iff.mp found
          obtain ⟨rfl, _⟩ := Prod.mk.inj same
          exact ⟨front, rest, Text.eq_append_of_splitOnce cut, short, known⟩
      · cases found

theorem decodeFrom_length_append (front rest : List Char) :
    decodeFrom front.length (front ++ rest) = decodeFrom 0 rest := by
  induction front with
  | nil => rfl
  | cons c front inductionHypothesis =>
      rw [List.length_cons, List.cons_append, decodeFrom, inductionHypothesis]

/-- A reference is replaced by what it denotes. -/
theorem decodeFrom_reference
    {name : List Char}
    {denoted : Char}
    (denotes : Denotes name denoted)
    (rest : List Char) :
    decodeFrom 0 ('&' :: (name ++ ';' :: rest)) = denoted :: decodeFrom 0 rest := by
  have skipped := decodeFrom_length_append (name ++ [';']) rest
  rw [List.length_append, List.append_assoc] at skipped
  rw [decodeFrom, if_pos rfl, denotes.referenceAt?_eq]
  exact congrArg _ skipped

/-- An ampersand that starts no reference is kept. -/
theorem decodeFrom_bare
    {rest : List Char}
    (bare : referenceAt? rest = none) :
    decodeFrom 0 ('&' :: rest) = '&' :: decodeFrom 0 rest := by
  rw [decodeFrom, if_pos rfl, bare]

/-- A text is empty, or it starts with another character than an ampersand, with an ampersand
that is kept, or with a reference. -/
@[elab_as_elim]
theorem referenceInduction
    {motive : List Char → Prop}
    (nil : motive [])
    (plain : ∀ c rest, c ≠ '&' → motive rest → motive (c :: rest))
    (bare : ∀ rest, referenceAt? rest = none → motive rest → motive ('&' :: rest))
    (reference : ∀ name denoted rest, Denotes name denoted → motive rest →
      motive ('&' :: (name ++ ';' :: rest)))
    (text : List Char) :
    motive text := by
  induction length : text.length using Nat.strongRecOn generalizing text with
  | ind length inductionHypothesis =>
      subst length
      cases text with
      | nil => exact nil
      | cons c rest =>
          have ofRest := inductionHypothesis rest.length (by simp) rest rfl
          by_cases ampersand : c = '&'
          · subst ampersand
            cases found : referenceAt? rest with
            | none => exact bare rest found ofRest
            | some denoted =>
                obtain ⟨name, others, rfl, denotes⟩ := exists_of_referenceAt? found
                refine reference name denoted.1 others denotes ?_
                refine inductionHypothesis others.length ?_ others rfl
                simp only [List.length_cons, List.length_append]
                omega
          · exact plain c rest ampersand ofRest

/-! ## Escaping -/

/-- A text in which some characters are written as references that denote them, with the number
of references that are lost because their ampersand is. No other character of a reference is
written so. -/
inductive Escapes : (text written : List Char) → (lost : Nat) → Prop
  /-- Nothing is left to write. -/
  | nil : Escapes [] [] 0
  /-- A character is written as it is. -/
  | keep
      (c : Char)
      {text written : List Char}
      {lost : Nat}
      (escapes : Escapes text written lost) :
      Escapes (c :: text) (c :: written) lost
  /-- A character is written as a reference, and starts none itself. -/
  | escape
      {c : Char}
      {name text written : List Char}
      {lost : Nat}
      (denotes : Denotes name c)
      (outside : isReferenceChar c = false ∧ c ≠ '+' ∧ c ≠ ';')
      (bare : c = '&' → referenceAt? text = none)
      (escapes : Escapes text written lost) :
      Escapes (c :: text) ('&' :: (name ++ ';' :: written)) lost
  /-- The ampersand of a reference is written as a reference. -/
  | lose
      {name text written : List Char}
      {lost : Nat}
      (denotes : Denotes name '&')
      (starts : referenceAt? text ≠ none)
      (escapes : Escapes text written lost) :
      Escapes ('&' :: text) ('&' :: (name ++ ';' :: written)) (lost + 1)

/-- One text is the other, or it is longer when something was lost. -/
def GrowsBy (lost : Nat) (before after : List Char) : Prop :=
  lost = 0 ∧ after = before ∨ 0 < lost ∧ before.length < after.length

theorem GrowsBy.cons
    {lost : Nat}
    {before after : List Char}
    (grows : GrowsBy lost before after)
    (c : Char) :
    GrowsBy lost (c :: before) (c :: after) := by
  rcases grows with ⟨none, rfl⟩ | ⟨some, longer⟩
  · exact .inl ⟨none, rfl⟩
  · exact .inr ⟨some, Nat.succ_lt_succ longer⟩

theorem GrowsBy.length_le
    {lost : Nat}
    {before after : List Char}
    (grows : GrowsBy lost before after) :
    before.length ≤ after.length := by
  rcases grows with ⟨_, rfl⟩ | ⟨_, longer⟩
  · exact Nat.le_refl _
  · exact Nat.le_of_lt longer

namespace Escapes

variable {text written : List Char} {lost : Nat}

/-- Up to the first ampersand, what is written is the text. -/
theorem exists_of_append
    {front back : List Char}
    (escapes : Escapes text (front ++ back) lost)
    (fresh : '&' ∉ front) :
    ∃ rest, text = front ++ rest := by
  induction front generalizing text with
  | nil => exact ⟨text, rfl⟩
  | cons c front inductionHypothesis =>
      obtain ⟨different, frontFresh⟩ := List.ne_and_not_mem_of_not_mem_cons fresh
      rw [List.cons_append] at escapes
      generalize whole : c :: (front ++ back) = written at escapes
      cases escapes with
      | nil => cases whole
      | keep _ escapes =>
          obtain ⟨rfl, rfl⟩ := List.cons.inj whole
          obtain ⟨rest, rfl⟩ := inductionHypothesis escapes frontFresh
          exact ⟨rest, rfl⟩
      | escape => exact absurd (List.cons.inj whole).1.symm different
      | lose => exact absurd (List.cons.inj whole).1.symm different

/-- What stands behind the ampersand of a reference is written as it is. -/
theorem exists_of_stays
    {front rest : List Char}
    (escapes : Escapes (front ++ rest) written lost)
    (stays : ∀ c ∈ front, isReferenceChar c = true ∨ c = '+' ∨ c = ';') :
    ∃ back, written = front ++ back ∧ Escapes rest back lost := by
  induction front generalizing written with
  | nil => exact ⟨written, rfl, escapes⟩
  | cons c front inductionHypothesis =>
      obtain ⟨here, frontStays⟩ := List.forall_mem_cons.mp stays
      cases escapes with
      | keep _ escapes =>
          obtain ⟨back, rfl, restEscapes⟩ := inductionHypothesis escapes frontStays
          exact ⟨back, rfl, restEscapes⟩
      | escape denotes outside => simp [outside] at here
      | lose => exact absurd here (by decide)

/-- No reference arises: it would stand in the text already. -/
theorem referenceAt?_eq_none
    (escapes : Escapes text written lost)
    (bare : referenceAt? text = none) :
    referenceAt? written = none := by
  cases found : referenceAt? written with
  | none => rfl
  | some denoted =>
      obtain ⟨name, back, rfl, denotes⟩ := exists_of_referenceAt? found
      have fresh : '&' ∉ name ++ [';'] := by simp [denotes.not_mem (c := '&') rfl (by decide)]
      rw [← List.singleton_append, ← List.append_assoc] at escapes
      obtain ⟨rest, rfl⟩ := escapes.exists_of_append fresh
      rw [List.append_assoc, List.singleton_append, denotes.referenceAt?_eq] at bare
      cases bare

/-- A reference stays, with what follows it escaped. -/
theorem exists_of_reference
    {name rest : List Char}
    {denoted : Char}
    (escapes : Escapes (name ++ ';' :: rest) written lost)
    (denotes : Denotes name denoted) :
    ∃ back, written = name ++ ';' :: back ∧ Escapes rest back lost := by
  rw [← List.singleton_append, ← List.append_assoc] at escapes
  obtain ⟨back, rfl, restEscapes⟩ := escapes.exists_of_stays fun c member => by
    rcases List.mem_append.mp member with inName | semicolon
    · exact (denotes.isReferenceName.forall_mem c inName).imp_right .inl
    · exact .inr (.inr (List.mem_singleton.mp semicolon))
  exact ⟨back, by simp, restEscapes⟩

/-- What is decoded is the same, or longer by the references that were lost. -/
theorem growsBy_decodeFrom (escapes : Escapes text written lost) :
    GrowsBy lost (decodeFrom 0 text) (decodeFrom 0 written) := by
  induction text using referenceInduction generalizing written lost with
  | nil =>
      cases escapes
      exact .inl ⟨rfl, rfl⟩
  | plain c rest different inductionHypothesis =>
      rw [decodeFrom_cons_of_ne different]
      cases escapes with
      | keep _ escapes =>
          rw [decodeFrom_cons_of_ne different]
          exact (inductionHypothesis escapes).cons c
      | escape denotes _ _ escapes =>
          rw [decodeFrom_reference denotes]
          exact (inductionHypothesis escapes).cons c
      | lose => exact absurd rfl different
  | bare rest bare inductionHypothesis =>
      rw [decodeFrom_bare bare]
      cases escapes with
      | keep _ escapes =>
          rw [decodeFrom_bare (escapes.referenceAt?_eq_none bare)]
          exact (inductionHypothesis escapes).cons '&'
      | escape denotes _ _ escapes =>
          rw [decodeFrom_reference denotes]
          exact (inductionHypothesis escapes).cons '&'
      | lose _ starts => exact absurd bare starts
  | reference name denoted rest denotes inductionHypothesis =>
      rw [decodeFrom_reference denotes]
      cases escapes with
      | keep _ escapes =>
          obtain ⟨back, rfl, restEscapes⟩ := escapes.exists_of_reference denotes
          rw [decodeFrom_reference denotes]
          exact (inductionHypothesis restEscapes).cons denoted
      | escape _ _ bare =>
          have none := bare rfl
          rw [denotes.referenceAt?_eq] at none
          cases none
      | lose ampersand _ escapes =>
          -- The name of the reference is read as it stands, and is longer than what it denotes.
          obtain ⟨back, rfl, restEscapes⟩ := escapes.exists_of_reference denotes
          have longer := (inductionHypothesis restEscapes).length_le
          rw [decodeFrom_reference ampersand,
            decodeFrom_append_left (denotes.not_mem rfl (by decide)),
            decodeFrom_cons_of_ne (by decide)]
          refine .inr ⟨Nat.succ_pos _, ?_⟩
          simp only [List.length_cons, List.length_append]
          omega

/-- Escaping leaves what is decoded exactly when it loses no reference. -/
theorem decodeFrom_eq_iff (escapes : Escapes text written lost) :
    decodeFrom 0 written = decodeFrom 0 text ↔ lost = 0 := by
  rcases escapes.growsBy_decodeFrom with ⟨none, same⟩ | ⟨some, longer⟩
  · exact iff_of_true same none
  · refine iff_of_false (fun same => ?_) (Nat.ne_of_gt some)
    rw [same] at longer
    exact Nat.lt_irrefl _ longer

end Escapes

/-! ## Characters outside ASCII -/

theorem byteLength_of_ascii
    {text : List Char}
    (ascii : ∀ c ∈ text, Text.isAscii c = true) :
    byteLength text = text.length := by
  induction text with
  | nil => rfl
  | cons c text inductionHypothesis =>
      obtain ⟨here, rest⟩ := List.forall_mem_cons.mp ascii
      have size_eq : c.utf8Size = 1 := by
        simp only [Text.isAscii, decide_eq_true_eq] at here
        exact Char.utf8Size_eq_one_iff.mpr (UInt32.le_iff_toNat_le.mpr (Nat.le_of_lt_succ here))
      rw [byteLength, List.foldr_cons, size_eq, List.length_cons]
      have restLength := inductionHypothesis rest
      rw [byteLength] at restLength
      omega

theorem charOfCode?_toNat (c : Char) : charOfCode? c.toNat = some c := by
  have valid : c.toNat.isValidChar := c.valid
  rw [charOfCode?, if_pos valid, Char.ofNat_toNat]

/-- The decimal number of a character denotes it. -/
theorem denotes_decimalDigits (c : Char) : Denotes ('#' :: Text.decimalDigits c.toNat) c := by
  have value_eq : Text.decimalValue (Text.decimalDigits c.toNat) = c.toNat :=
    Text.decimalValue_toDigits c.toNat
  have digital : ∀ d ∈ Text.decimalDigits c.toNat, Text.isAsciiDigit d = true :=
    fun _ => Text.isAsciiDigit_of_mem_toDigits
  have short : (Text.decimalDigits c.toNat).length ≤ 7 := by
    refine Nat.toDigits_length 10 c.toNat 7 (by decide) ?_
    rcases c.valid with below | ⟨_, below⟩
    · exact Nat.lt_trans below (by decide)
    · exact Nat.lt_trans below (by decide)
  obtain ⟨first, rest, digits⟩ : ∃ first rest, Text.decimalDigits c.toNat = first :: rest :=
    List.exists_cons_of_ne_nil Nat.toDigits_ne_nil
  rw [digits] at value_eq digital short ⊢
  have firstDigit := digital first List.mem_cons_self
  have notMark : first ≠ 'x' ∧ first ≠ 'X' ∧ first ≠ '+' := by
    refine ⟨?_, ?_, ?_⟩ <;> (rintro rfl; cases firstDigit)
  refine ⟨?_, ?_⟩
  · have ascii : ∀ d ∈ '#' :: first :: rest, Text.isAscii d = true :=
      List.forall_mem_cons.mpr ⟨by decide, fun d member =>
        Text.isAscii_of_isAsciiDigit (digital d member)⟩
    rw [byteLength_of_ascii ascii, List.length_cons, longestReference]
    omega
  · have read : unsignedDigits? Text.isAsciiDigit (first :: rest) = some (first :: rest) := by
      have all : (first :: rest).all Text.isAsciiDigit = true := List.all_eq_true.mpr digital
      rw [unsignedDigits?, Text.dropStart?_singleton, if_neg (Ne.symm notMark.2.2)]
      simp only [Option.getD_none, all]
      rfl
    have number : numericReference? (first :: rest) =
        (unsignedDigits? Text.isAsciiDigit (first :: rest)).bind fun digits =>
          charOfCode? (Text.decimalValue digits) := by
      unfold numericReference?
      split
      · next same => exact absurd (List.cons.inj same).1 notMark.1
      · next same => exact absurd (List.cons.inj same).1 notMark.2.1
      · rfl
    rw [denotation?, number, read, Option.bind_some, value_eq, charOfCode?_toNat]

theorem isAscii_of_isReferenceChar
    {c : Char}
    (isChar : isReferenceChar c = true) :
    Text.isAscii c = true := by
  rcases Bool.or_eq_true_iff.mp isChar with sign | letter
  · rw [beq_iff_eq.mp sign]
    decide
  · simp only [Text.isAsciiAlphanumeric, Bool.or_eq_true, Bool.and_eq_true, decide_eq_true_eq,
      Char.le_def, UInt32.le_iff_toNat_le] at letter
    have z_small : ('z' : Char).val.toNat < 128 := by decide
    have Z_small : ('Z' : Char).val.toNat < 128 := by decide
    have nine_small : ('9' : Char).val.toNat < 128 := by decide
    simp only [Text.isAscii, decide_eq_true_eq, ← Char.toNat_val]
    omega

/-- Writing the characters outside ASCII as references is an escaping. -/
theorem escapes_flatMap_referenceForm (text : List Char) :
    Escapes text (text.flatMap Text.referenceForm) 0 := by
  induction text with
  | nil => exact .nil
  | cons c text inductionHypothesis =>
      rw [List.flatMap_cons, Text.referenceForm]
      split
      · exact .keep c inductionHypothesis
      · next outside =>
          have different (d : Char) (ascii : Text.isAscii d = true) : c ≠ d := by
            rintro rfl
            exact outside ascii
          have written : '&' :: '#' :: Text.decimalDigits c.toNat ++ [';'] ++
                text.flatMap Text.referenceForm =
              '&' :: (('#' :: Text.decimalDigits c.toNat) ++ ';' ::
                text.flatMap Text.referenceForm) := by simp
          rw [written]
          have other : isReferenceChar c = false :=
            Bool.eq_false_iff.mpr fun isChar => outside (isAscii_of_isReferenceChar isChar)
          have noMark := And.intro (different '+' (by decide)) (different ';' (by decide))
          exact .escape (denotes_decimalDigits c) ⟨other, noMark⟩
            (fun ampersand => absurd ampersand (different '&' (by decide))) inductionHypothesis

/-- Writing the characters outside ASCII as references leaves nothing but ASCII, leaves such a
text as it is, and leaves every text as it is decoded. -/
theorem decode_encodeNonAscii (text : String) :
    (∀ c ∈ (Text.encodeNonAscii text).toList, Text.isAscii c = true) ∧
      Text.encodeNonAscii (Text.encodeNonAscii text) = Text.encodeNonAscii text ∧
      decode (Text.encodeNonAscii text) = decode text := by
  have ascii : ∀ c ∈ text.toList.flatMap Text.referenceForm, Text.isAscii c = true := by
    intro c member
    obtain ⟨d, _, written⟩ := List.mem_flatMap.mp member
    exact Text.isAscii_of_mem_referenceForm written
  refine ⟨?_, ?_, ?_⟩
  · rwa [Text.encodeNonAscii, String.toList_ofList]
  · rw [Text.encodeNonAscii, Text.encodeNonAscii, String.toList_ofList,
      Text.flatMap_referenceForm_of_ascii ascii]
  · rw [Text.encodeNonAscii, decode, String.toList_ofList, decode,
      (escapes_flatMap_referenceForm text.toList).decodeFrom_eq_iff.mpr rfl]

/-! ## Prepared sources -/

/-- Somewhere in the text an ampersand starts a numeric reference with a plus sign that denotes
a character. -/
def HoldsSigned (text : List Char) : Prop :=
  ∃ front name denoted rest, text = front ++ '&' :: (name ++ ';' :: rest) ∧
    IsSigned name ∧ Denotes name denoted

theorem holdsSigned_cons_iff
    {c : Char}
    {rest : List Char} :
    HoldsSigned (c :: rest) ↔
      (c = '&' ∧ ∃ name denoted others, rest = name ++ ';' :: others ∧
        IsSigned name ∧ Denotes name denoted) ∨ HoldsSigned rest := by
  constructor
  · rintro ⟨front, name, denoted, others, split, isSigned, denotes⟩
    cases front with
    | nil =>
        obtain ⟨rfl, rfl⟩ := List.cons.inj split
        exact .inl ⟨rfl, name, denoted, others, rfl, isSigned, denotes⟩
    | cons d front =>
        obtain ⟨rfl, rfl⟩ := List.cons.inj split
        exact .inr ⟨front, name, denoted, others, rfl, isSigned, denotes⟩
  · rintro (⟨rfl, name, denoted, others, rfl, known⟩ | ⟨front, name, denoted, others, rfl, known⟩)
    · exact ⟨[], name, denoted, others, rfl, known⟩
    · exact ⟨c :: front, name, denoted, others, rfl, known⟩

/-- Escaping the bare ampersands loses a reference exactly where one has a plus sign. -/
theorem exists_escapes_escapeBareAmpersands (text : List Char) :
    ∃ lost, Escapes text (escapeBareAmpersands text) lost ∧ (lost = 0 ↔ ¬HoldsSigned text) := by
  have ampersandDenotes : Denotes "amp".toList '&' := ⟨by decide, by decide⟩
  fun_induction escapeBareAmpersands text with
  | case1 =>
      refine ⟨0, .nil, iff_of_true rfl ?_⟩
      rintro ⟨front, name, denoted, rest, split, _⟩
      simp at split
  | case2 c rest bare inductionHypothesis =>
      obtain ⟨lost, escapes, lost_iff⟩ := inductionHypothesis
      obtain ⟨rfl, unformed⟩ : c = '&' ∧ hasReferenceForm rest = false := by simpa using bare
      cases found : referenceAt? rest with
      | none =>
          refine ⟨lost, .escape ampersandDenotes (by decide) (fun _ => found) escapes, ?_⟩
          rw [lost_iff, holdsSigned_cons_iff, not_iff_not, or_iff_right]
          rintro ⟨_, name, denoted, others, rfl, _, denotes⟩
          rw [denotes.referenceAt?_eq] at found
          cases found
      | some denoted =>
          refine ⟨lost + 1, .lose ampersandDenotes (by simp [found]) escapes, ?_⟩
          refine iff_of_false (Nat.succ_ne_zero lost) (not_not_intro ?_)
          obtain ⟨name, others, rfl, denotes⟩ := exists_of_referenceAt? found
          have form_iff := denotes.isReferenceName.hasReferenceForm_iff
            (denotes.not_mem rfl (by decide)) others
          rw [unformed] at form_iff
          have isSigned : IsSigned name := by simpa using form_iff
          exact holdsSigned_cons_iff.mpr (.inl ⟨rfl, name, _, others, rfl, isSigned, denotes⟩)
  | case3 c rest kept inductionHypothesis =>
      obtain ⟨lost, escapes, lost_iff⟩ := inductionHypothesis
      refine ⟨lost, .keep c escapes, ?_⟩
      rw [lost_iff, holdsSigned_cons_iff, not_iff_not, or_iff_right]
      rintro ⟨rfl, name, denoted, others, rfl, isSigned, denotes⟩
      have formed : hasReferenceForm (name ++ ';' :: others) = true := by simpa using kept
      exact (denotes.isReferenceName.hasReferenceForm_iff
        (denotes.not_mem rfl (by decide)) others).mp formed isSigned

/-- Escaping the bare angle brackets loses no reference. -/
theorem escapes_escapeBareAngles (text : List Char) :
    Escapes text (escapeBareAngles text) 0 := by
  fun_induction escapeBareAngles text with
  | case1 => exact .nil
  | case2 c rest bare inductionHypothesis =>
      obtain rfl : c = '<' := of_decide_eq_true (Bool.and_eq_true_iff.mp bare).1
      have denotes : Denotes "lt".toList '<' := ⟨by decide, by decide⟩
      exact .escape denotes (by decide) (fun same => absurd same (by decide)) inductionHypothesis
  | case3 c rest kept inductionHypothesis => exact .keep c inductionHypothesis

/-- A prepared source is left as it is by preparing, every ampersand of it starts a reference, and
every angle bracket starts markup. It is decoded as the source exactly when no reference of the
source has a plus sign in front of its digits. -/
theorem decode_prepare_iff (source : String) :
    prepare (prepare source.toList) = prepare source.toList ∧
      IsPrepared (prepare source.toList) ∧
      (decode (String.ofList (prepare source.toList)) = decode source ↔
        ¬HoldsSigned source.toList) := by
  have prepared := isPrepared_prepare source.toList
  refine ⟨prepare_eq_self prepared, prepared, ?_⟩
  obtain ⟨lost, escapes, lost_iff⟩ := exists_escapes_escapeBareAmpersands source.toList
  have angles := escapes_escapeBareAngles (escapeBareAmpersands source.toList)
  rw [decode, decode, String.toList_ofList, String.ofList_inj, prepare,
    angles.decodeFrom_eq_iff.mpr rfl, escapes.decodeFrom_eq_iff, lost_iff]

/-- Preparing takes the ampersand of `&#+65;` for a bare one, so the letter is not decoded. -/
theorem signed_reference_hidden :
    decode "&#+65;" = "A" ∧
      decode (String.ofList (prepare "&#+65;".toList)) = "&#+65;" := by
  decide

end Markup
end MailPress
