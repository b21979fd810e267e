import MailPress.Page.Delimiters
import MailPress.Proofs.Page.Doctype
import MailPress.Text.Typography

/-!
# What the passes over a finished page leave alone

Characters outside ASCII are written as references, and escaped delimiters are restored,
in the whole text of a page. No escaped form has an angle bracket in it, so the stretches
between angle brackets are treated each on its own, and a stretch without an escaped brace
comes out with nothing restored in it.
-/

namespace MailPress
namespace Page

/-! ## Escaped forms -/

/-- A text is one of the forms, letter case not counting. -/
def IsForm (forms : List String) (text : List Char) : Prop :=
  ∃ form ∈ forms, text.map Text.lowerChar = form.toList.map Text.lowerChar

/-- The escaped forms of braces and of percent signs. -/
def escapedForms : List String := openForms ++ closeForms ++ percentForms

/-- No form of a list has this character in it. -/
def Avoids (c : Char) (forms : List String) : Prop :=
  ∀ form ∈ forms, Text.lowerChar c ∉ form.toList.map Text.lowerChar

instance (c : Char) (forms : List String) : Decidable (Avoids c forms) :=
  inferInstanceAs (Decidable (∀ form ∈ forms, _))

theorem dropStart?_eq_some_of_length_le
    {pattern text after : List Char}
    (short : text.length ≤ pattern.length)
    (dropped : Text.dropStart? pattern text = some after) :
    text = pattern := by
  have whole := Text.eq_append_of_dropStart? dropped
  have length := congrArg List.length whole
  rw [List.length_append] at length
  have empty : after = [] := List.eq_nil_of_length_eq_zero (by omega)
  rw [whole, empty, List.append_nil]

theorem dropStart?_self (pattern : List Char) : Text.dropStart? pattern pattern = some [] := by
  induction pattern with
  | nil => rfl
  | cons c pattern inductionHypothesis => simp [Text.dropStart?, inductionHypothesis]

/-- What follows a form is found by comparing as many characters as the form has. -/
theorem afterForm?_eq
    (forms : List String)
    (text : List Char) :
    afterForm? forms text =
      forms.findSome? fun form =>
        if (text.take form.length).map Text.lowerChar = form.toList.map Text.lowerChar then
          some (text.drop form.length)
        else none := by
  unfold afterForm?
  congr 1
  funext form
  split
  · next same => rw [same, dropStart?_self, Option.map_some]
  · next different =>
      cases found : Text.dropStart? (form.toList.map Text.lowerChar)
          ((text.take form.length).map Text.lowerChar) with
      | none => rfl
      | some after =>
          have short : ((text.take form.length).map Text.lowerChar).length ≤
              (form.toList.map Text.lowerChar).length := by
            rw [List.length_map, List.length_map, List.length_take, String.length_toList]
            exact Nat.min_le_left ..
          exact absurd (dropStart?_eq_some_of_length_le short found) different

/-- What follows a form follows a text that is one of the forms. -/
theorem exists_of_afterForm?
    {forms : List String}
    {text after : List Char}
    (found : afterForm? forms text = some after) :
    ∃ front, text = front ++ after ∧ IsForm forms front := by
  rw [afterForm?_eq] at found
  obtain ⟨form, member, here⟩ := List.exists_of_findSome?_eq_some found
  split at here
  · next same =>
      cases here
      exact ⟨text.take form.length, (List.take_append_drop ..).symm, form, member, same⟩
  · cases here

/-- No form reaches beyond a character that none of them has. -/
theorem afterForm?_append
    {c : Char}
    {forms : List String}
    (avoids : Avoids c forms)
    (text more : List Char) :
    afterForm? forms (text ++ c :: more) = (afterForm? forms text).map (· ++ c :: more) := by
  rw [afterForm?_eq, afterForm?_eq]
  induction forms with
  | nil => rfl
  | cons form forms inductionHypothesis =>
      obtain ⟨here, rest⟩ := List.forall_mem_cons.mp avoids
      have restEqual := inductionHypothesis rest
      rw [List.findSome?_cons, List.findSome?_cons, restEqual]
      by_cases short : form.length ≤ text.length
      · rw [List.take_append_of_le_length short, List.drop_append_of_le_length short]
        by_cases same : (text.take form.length).map Text.lowerChar =
            form.toList.map Text.lowerChar
        · rw [if_pos same, if_pos same]
          rfl
        · rw [if_neg same, if_neg same]
      · have missing : (text.take form.length).map Text.lowerChar ≠
            form.toList.map Text.lowerChar := by
          intro same
          have length := congrArg List.length same
          rw [List.length_map, List.length_map, List.length_take, String.length_toList] at length
          omega
        have barred : ((text ++ c :: more).take form.length).map Text.lowerChar ≠
            form.toList.map Text.lowerChar := by
          intro same
          apply here
          rw [← same]
          apply List.mem_map_of_mem
          rw [List.take_append, List.mem_append]
          right
          obtain ⟨extra, extra_eq⟩ : ∃ extra, form.length - text.length = extra + 1 :=
            ⟨form.length - text.length - 1, by omega⟩
          rw [extra_eq, List.take_succ_cons]
          exact List.mem_cons_self
        rw [if_neg missing, if_neg barred]

/-! ## Restoring a delimiter -/

/-- A delimiter is spelled with forms that all have characters, but not this one. -/
def Delimiter.IsBarredBy (delimiter : Delimiter) (c : Char) : Prop :=
  ∀ spelling ∈ delimiter.spellings,
    "" ∉ spelling.1 ∧ Avoids c spelling.1 ∧ Avoids c spelling.2

instance (delimiter : Delimiter) (c : Char) : Decidable (delimiter.IsBarredBy c) :=
  inferInstanceAs (Decidable (∀ spelling ∈ delimiter.spellings, _ ∧ _ ∧ _))

theorem isBarredBy_angles :
    ∀ delimiter ∈ delimiters, delimiter.IsBarredBy '<' ∧ delimiter.IsBarredBy '>' := by
  decide

theorem IsForm.ne_nil
    {forms : List String}
    {text : List Char}
    (isForm : IsForm forms text)
    (spelled : "" ∉ forms) :
    text ≠ [] := by
  rintro rfl
  obtain ⟨form, member, same⟩ := isForm
  have empty : form.toList = [] := List.map_eq_nil_iff.mp same.symm
  obtain rfl : form = "" := String.toList_injective empty
  exact spelled member

namespace Delimiter

variable {delimiter : Delimiter} {c : Char}

theorem after?_append
    (barred : delimiter.IsBarredBy c)
    (text more : List Char) :
    delimiter.after? (text ++ c :: more) = (delimiter.after? text).map (· ++ c :: more) := by
  unfold Delimiter.after? IsBarredBy at *
  generalize delimiter.spellings = spellings at barred ⊢
  induction spellings with
  | nil => rfl
  | cons spelling spellings inductionHypothesis =>
      obtain ⟨⟨_, first, second⟩, rest⟩ := List.forall_mem_cons.mp barred
      rw [List.findSome?_cons, List.findSome?_cons, inductionHypothesis rest,
        afterForm?_append first]
      cases afterForm? spelling.1 text with
      | none => rfl
      | some middle =>
          rw [Option.map_some, Option.bind_some, Option.bind_some, afterForm?_append second]
          cases afterForm? spelling.2 middle <;> rfl

theorem exists_of_after?
    {text after : List Char}
    (found : delimiter.after? text = some after) :
    ∃ spelling ∈ delimiter.spellings, ∃ first second, text = first ++ (second ++ after) ∧
      IsForm spelling.1 first ∧ IsForm spelling.2 second := by
  obtain ⟨spelling, member, here⟩ := List.exists_of_findSome?_eq_some found
  obtain ⟨middle, foundFirst, foundSecond⟩ := Option.bind_eq_some_iff.mp here
  obtain ⟨first, rfl, firstForm⟩ := exists_of_afterForm? foundFirst
  obtain ⟨second, rfl, secondForm⟩ := exists_of_afterForm? foundSecond
  exact ⟨spelling, member, first, second, rfl, firstForm, secondForm⟩

theorem after?_nil (barred : delimiter.IsBarredBy c) : delimiter.after? [] = none := by
  cases found : delimiter.after? [] with
  | none => rfl
  | some after =>
      obtain ⟨spelling, member, first, second, split, firstForm, _⟩ := exists_of_after? found
      obtain ⟨rfl, _⟩ := List.append_eq_nil_iff.mp split.symm
      exact absurd rfl (firstForm.ne_nil (barred spelling member).1)

/-- A character that no form has splits the text to restore. -/
theorem restoreFrom_append
    (barred : delimiter.IsBarredBy c)
    {text : List Char}
    {skip : Nat}
    (short : skip ≤ text.length)
    (more : List Char) :
    delimiter.restoreFrom skip (text ++ c :: more) =
      delimiter.restoreFrom skip text ++ c :: delimiter.restoreFrom 0 more := by
  induction text generalizing skip with
  | nil =>
      obtain rfl : skip = 0 := Nat.eq_zero_of_le_zero short
      have notHere := after?_append barred [] more
      rw [after?_nil barred, Option.map_none, List.nil_append] at notHere
      rw [List.nil_append, restoreFrom, restoreFrom, notHere]
      rfl
  | cons d text inductionHypothesis =>
      cases skip with
      | succ skip =>
          rw [List.cons_append, restoreFrom, restoreFrom]
          exact inductionHypothesis (Nat.le_of_succ_le_succ short)
      | zero =>
          rw [List.cons_append, restoreFrom, restoreFrom, ← List.cons_append,
            after?_append barred]
          cases found : delimiter.after? (d :: text) with
          | none =>
              rw [Option.map_none]
              simp [inductionHypothesis (Nat.zero_le _)]
          | some after =>
              have skip_eq : (text ++ c :: more).length - (after ++ c :: more).length =
                  text.length - after.length := by
                simp only [List.length_append]
                omega
              rw [Option.map_some]
              dsimp only
              rw [skip_eq, inductionHypothesis (Nat.sub_le _ _), List.append_assoc]

/-- Where no spelling of a delimiter occurs, nothing is restored. -/
theorem restoreFrom_eq_self
    {text : List Char}
    (none : ∀ suffix, suffix <:+ text → delimiter.after? suffix = none) :
    delimiter.restoreFrom 0 text = text := by
  induction text with
  | nil => rfl
  | cons c text inductionHypothesis =>
      have rest := inductionHypothesis fun suffix isSuffix =>
        none suffix (isSuffix.trans (List.suffix_cons ..))
      rw [restoreFrom, none (c :: text) List.suffix_rfl]
      dsimp only
      rw [rest]

end Delimiter

/-! ## Escaped braces -/

/-- Whether an escaped brace stands somewhere in a text, in any letter case. -/
def holdsEscapedBrace : List Char → Bool
  | [] => false
  | c :: rest => (afterForm? (openForms ++ closeForms) (c :: rest)).isSome || holdsEscapedBrace rest

theorem IsForm.isSome_afterForm?
    {forms : List String}
    {front : List Char}
    (isForm : IsForm forms front)
    (after : List Char) :
    (afterForm? forms (front ++ after)).isSome = true := by
  obtain ⟨form, member, same⟩ := isForm
  have length := congrArg List.length same
  rw [List.length_map, List.length_map, String.length_toList] at length
  rw [afterForm?_eq, List.findSome?_isSome_iff]
  refine ⟨form, member, ?_⟩
  rw [← length, List.take_left, if_pos same]
  rfl

theorem IsForm.mono
    {fewer more : List String}
    (subset : ∀ form ∈ fewer, form ∈ more)
    {text : List Char}
    (isForm : IsForm fewer text) :
    IsForm more text := by
  obtain ⟨form, member, same⟩ := isForm
  exact ⟨form, subset form member, same⟩

/-- An escaped brace is a form of an opening or of a closing brace. -/
theorem holdsEscapedBrace_iff
    {text : List Char} :
    holdsEscapedBrace text = true ↔
      ∃ front form back, text = front ++ (form ++ back) ∧
        IsForm (openForms ++ closeForms) form := by
  constructor
  · intro holds
    induction text with
    | nil => cases holds
    | cons c text inductionHypothesis =>
        rcases Bool.or_eq_true_iff.mp holds with here | later
        · obtain ⟨after, found⟩ := Option.isSome_iff_exists.mp here
          obtain ⟨form, split, isForm⟩ := exists_of_afterForm? found
          exact ⟨[], form, after, split, isForm⟩
        · obtain ⟨front, form, back, rfl, isForm⟩ := inductionHypothesis later
          exact ⟨c :: front, form, back, rfl, isForm⟩
  · rintro ⟨front, form, back, rfl, isForm⟩
    induction front with
    | nil =>
        have nonempty := isForm.ne_nil (by decide)
        have here := isForm.isSome_afterForm? back
        obtain ⟨c, rest, rfl⟩ := List.exists_cons_of_ne_nil nonempty
        exact Bool.or_eq_true_iff.mpr (.inl here)
    | cons c front inductionHypothesis =>
        exact Bool.or_eq_true_iff.mpr (.inr inductionHypothesis)

/-- Every spelling of a delimiter has an escaped brace in it. -/
theorem spelling_subset :
    ∀ delimiter ∈ delimiters, ∀ spelling ∈ delimiter.spellings,
      (∀ form ∈ spelling.1, form ∈ openForms ++ closeForms) ∨
        ∀ form ∈ spelling.2, form ∈ openForms ++ closeForms := by
  decide

/-- A text without an escaped brace is restored to itself. -/
theorem restoreFrom_of_no_brace
    {delimiter : Delimiter}
    (listed : delimiter ∈ delimiters)
    {text : List Char}
    (free : holdsEscapedBrace text = false) :
    delimiter.restoreFrom 0 text = text := by
  apply Delimiter.restoreFrom_eq_self
  rintro suffix ⟨front, rfl⟩
  cases found : delimiter.after? suffix with
  | none => rfl
  | some after =>
      obtain ⟨spelling, member, first, second, rfl, firstForm, secondForm⟩ :=
        Delimiter.exists_of_after? found
      have holds : holdsEscapedBrace (front ++ (first ++ (second ++ after))) = true := by
        apply holdsEscapedBrace_iff.mpr
        rcases spelling_subset delimiter listed spelling member with subset | subset
        · exact ⟨front, first, second ++ after, rfl, firstForm.mono subset⟩
        · exact ⟨front ++ first, second, after, by simp, secondForm.mono subset⟩
      rw [free] at holds
      cases holds

/-! ## References for other characters -/

/-- A character with which a delimiter starts, plain or escaped. -/
def isMark (c : Char) : Bool :=
  c == '&' || c == '%' || c == '{' || c == '}'

/-- An escaped form starts with an ampersand or a percent sign, and has no further mark in it. -/
theorem IsForm.shape
    {text : List Char}
    (isForm : IsForm escapedForms text) :
    ∃ c rest, text = c :: rest ∧ (c = '&' ∨ c = '%') ∧ ∀ d ∈ rest, isMark d = false := by
  have table : ∀ form ∈ escapedForms,
      ((form.toList.map Text.lowerChar).head? = some '&' ∨
        (form.toList.map Text.lowerChar).head? = some '%') ∧
      ((form.toList.map Text.lowerChar).tail.all fun d => !isMark d) = true := by decide
  obtain ⟨form, member, same⟩ := isForm
  obtain ⟨head, tail⟩ := table form member
  rw [← same] at head tail
  cases text with
  | nil => simp at head
  | cons c rest =>
      refine ⟨c, rest, rfl, ?_, fun d inside => ?_⟩
      · rcases head with head | head
        · exact .inl (Text.eq_of_lowerChar_eq (by decide) (Option.some.inj head))
        · exact .inr (Text.eq_of_lowerChar_eq (by decide) (Option.some.inj head))
      · have noMark := List.all_eq_true.mp tail (Text.lowerChar d) (List.mem_map_of_mem inside)
        have lowered : isMark d = true → Text.lowerChar d = d := by
          intro mark
          simp only [isMark, Bool.or_eq_true, beq_iff_eq] at mark
          rcases mark with ((rfl | rfl) | rfl) | rfl <;> decide
        rw [← Bool.not_eq_true]
        intro mark
        rw [lowered mark, mark] at noMark
        cases noMark

/-- An escaped brace is an escaped form. -/
theorem IsForm.of_brace
    {text : List Char}
    (isForm : IsForm (openForms ++ closeForms) text) :
    IsForm escapedForms text :=
  isForm.mono fun _ member => List.mem_append_left percentForms member

/-- Characters that start no form can be passed over. -/
theorem holdsEscapedBrace_append
    {front : List Char}
    (passed : ∀ c ∈ front, c ≠ '&' ∧ c ≠ '%')
    (rest : List Char) :
    holdsEscapedBrace (front ++ rest) = holdsEscapedBrace rest := by
  induction front with
  | nil => rfl
  | cons c front inductionHypothesis =>
      obtain ⟨here, later⟩ := List.forall_mem_cons.mp passed
      have notHere : afterForm? (openForms ++ closeForms) (c :: (front ++ rest)) = none := by
        cases found : afterForm? (openForms ++ closeForms) (c :: (front ++ rest)) with
        | none => rfl
        | some after =>
            obtain ⟨form, split, isForm⟩ := exists_of_afterForm? found
            obtain ⟨d, tail, rfl, start, _⟩ := isForm.of_brace.shape
            obtain rfl := (List.cons.inj split).1
            rcases start with rfl | rfl
            · exact absurd rfl here.1
            · exact absurd rfl here.2
      rw [List.cons_append, holdsEscapedBrace, notHere, inductionHypothesis later]
      rfl

theorem isDigit_of_mem_decimalDigits
    {c : Char}
    {value : Nat}
    (member : c ∈ Text.decimalDigits value) :
    c.isDigit = true :=
  Nat.isDigit_of_mem_toDigits (by decide) (by decide) member

theorem lowerChar_of_isDigit
    {c : Char}
    (isDigit : c.isDigit = true) :
    Text.lowerChar c = c := by
  apply Text.lowerChar_eq_self
  have bounds : 48 ≤ c.toNat ∧ c.toNat ≤ 57 := by
    simpa [Char.isDigit, UInt32.le_iff_toNat_le] using isDigit
  omega

/-- The numbers of the decimal references that denote a brace. -/
theorem brace_numbers :
    ∀ form ∈ openForms ++ closeForms,
      (form.toList.map Text.lowerChar).take 2 ≠ ['&', '#'] ∧ 2 ≤ form.length ∨
        form = "&#123;" ∨ form = "&#125;" ∨
        ∃ rest, form.toList.map Text.lowerChar = '&' :: '#' :: 'x' :: rest := by
  have table : ∀ form ∈ openForms ++ closeForms,
      (form.toList.map Text.lowerChar).take 2 ≠ ['&', '#'] ∧ 2 ≤ form.length ∨
        form = "&#123;" ∨ form = "&#125;" ∨
        (form.toList.map Text.lowerChar).take 3 = ['&', '#', 'x'] := by decide
  intro form member
  rcases table form member with other | open' | close | hexadecimal
  · exact .inl other
  · exact .inr (.inl open')
  · exact .inr (.inr (.inl close))
  · refine .inr (.inr (.inr ⟨(form.toList.map Text.lowerChar).drop 3, ?_⟩))
    rw [← List.take_append_drop 3 (form.toList.map Text.lowerChar), hexadecimal]
    rfl

/-- The reference for a character outside ASCII is no form of a brace. -/
theorem not_isForm_reference
    {value : Nat}
    (outside : 128 ≤ value)
    {tail front after : List Char}
    (split : '&' :: '#' :: (Text.decimalDigits value ++ ';' :: tail) = front ++ after) :
    ¬IsForm (openForms ++ closeForms) front := by
  have digitsOnly : ∀ c ∈ Text.decimalDigits value, c.isDigit = true :=
    fun c member => isDigit_of_mem_decimalDigits member
  have nonempty : Text.decimalDigits value ≠ [] := Nat.toDigits_ne_nil
  have value_eq : Nat.ofDigitChars 10 (Text.decimalDigits value) 0 = value :=
    Nat.ofDigitChars_ten_toDigits
  generalize Text.decimalDigits value = digits at *
  have digits_eq : ((digits ++ ';' :: tail).map Text.lowerChar).takeWhile Char.isDigit =
      digits := by
    have same : digits.map Text.lowerChar = digits :=
      (List.map_congr_left fun c member => lowerChar_of_isDigit (digitsOnly c member)).trans
        (List.map_id digits)
    rw [List.map_append, same, List.takeWhile_append_of_pos digitsOnly]
    simp [show Text.lowerChar ';' = ';' from rfl]
  rintro ⟨form, member, same⟩
  have lowered : '&' :: '#' :: (digits ++ ';' :: tail).map Text.lowerChar =
      form.toList.map Text.lowerChar ++ after.map Text.lowerChar := by
    rw [← same, ← List.map_append, ← split]
    rfl
  rcases brace_numbers form member with ⟨other, long⟩ | rfl | rfl | ⟨rest, hexadecimal⟩
  · apply other
    have two := congrArg (List.take 2) lowered
    rw [List.take_append_of_le_length (by rwa [List.length_map, String.length_toList])] at two
    exact two.symm
  · have number := (List.cons.inj (List.cons.inj lowered).2).2
    rw [number] at digits_eq
    obtain rfl : digits = ['1', '2', '3'] := digits_eq.symm
    exact absurd (value_eq ▸ outside) (by decide)
  · have number := (List.cons.inj (List.cons.inj lowered).2).2
    rw [number] at digits_eq
    obtain rfl : digits = ['1', '2', '5'] := digits_eq.symm
    exact absurd (value_eq ▸ outside) (by decide)
  · rw [hexadecimal] at lowered
    have number := (List.cons.inj (List.cons.inj lowered).2).2
    rw [number] at digits_eq
    exact nonempty digits_eq.symm

/-- Up to the first ampersand, the characters that are written are those of the text. -/
theorem take_flatMap_referenceForm
    {text : List Char}
    {count : Nat}
    (noAmpersand : '&' ∉ (text.flatMap Text.referenceForm).take count) :
    (text.flatMap Text.referenceForm).take count = text.take count := by
  induction text generalizing count with
  | nil => rfl
  | cons c text inductionHypothesis =>
      cases count with
      | zero => rfl
      | succ count =>
          by_cases ascii : Text.isAscii c = true
          · have form : Text.referenceForm c = [c] := by simp [Text.referenceForm, ascii]
            rw [List.flatMap_cons, form, List.singleton_append, List.take_succ_cons]
              at noAmpersand ⊢
            rw [List.take_succ_cons, inductionHypothesis (List.not_mem_of_not_mem_cons noAmpersand)]
          · simp [Text.referenceForm, ascii] at noAmpersand

/-- Writing characters as references makes no escaped brace. -/
theorem holdsEscapedBrace_flatMap_referenceForm
    {text : List Char}
    (free : holdsEscapedBrace text = false) :
    holdsEscapedBrace (text.flatMap Text.referenceForm) = false := by
  induction text with
  | nil => rfl
  | cons c text inductionHypothesis =>
      obtain ⟨notHere, later⟩ := Bool.or_eq_false_iff.mp free
      have restFree := inductionHypothesis later
      by_cases ascii : Text.isAscii c = true
      · have form : Text.referenceForm c = [c] := by simp [Text.referenceForm, ascii]
        rw [List.flatMap_cons, form, List.singleton_append, holdsEscapedBrace, restFree,
          Bool.or_false, Option.isSome_eq_false_iff, Option.isNone_iff_eq_none]
        cases found : afterForm? (openForms ++ closeForms)
            (c :: text.flatMap Text.referenceForm) with
        | none => rfl
        | some after =>
            obtain ⟨form, split, isForm⟩ := exists_of_afterForm? found
            obtain ⟨d, rest, rfl, _, unmarked⟩ := isForm.of_brace.shape
            have fresh : '&' ∉ rest := fun inside => by cases unmarked '&' inside
            obtain rfl := (List.cons.inj split).1
            have tail_eq : text.flatMap Text.referenceForm = rest ++ after :=
              (List.cons.inj split).2
            have written : (text.flatMap Text.referenceForm).take rest.length = rest := by
              rw [tail_eq, List.take_left]
            have taken : text.take rest.length = rest := by
              rw [← take_flatMap_referenceForm (written.symm ▸ fresh), written]
            have here := isForm.isSome_afterForm? (text.drop rest.length)
            have text_eq : c :: rest ++ text.drop rest.length = c :: text := by
              rw [List.cons_append]
              congr 1
              calc rest ++ text.drop rest.length
                  = text.take rest.length ++ text.drop rest.length := by rw [taken]
                _ = text := List.take_append_drop ..
            rw [text_eq, notHere] at here
            cases here
      · have outside : 128 ≤ c.toNat := by simpa [Text.isAscii] using ascii
        have form : (c :: text).flatMap Text.referenceForm =
            '&' :: '#' :: (Text.decimalDigits c.toNat ++
              ';' :: text.flatMap Text.referenceForm) := by
          simp [Text.referenceForm, ascii]
        have rest : '#' :: (Text.decimalDigits c.toNat ++ ';' :: text.flatMap Text.referenceForm) =
            ('#' :: (Text.decimalDigits c.toNat ++ [';'])) ++
              text.flatMap Text.referenceForm := by simp
        rw [form, holdsEscapedBrace, rest, holdsEscapedBrace_append, restFree, Bool.or_false,
          Option.isSome_eq_false_iff, Option.isNone_iff_eq_none]
        · rw [← rest]
          cases found : afterForm? (openForms ++ closeForms) ('&' :: '#' ::
              (Text.decimalDigits c.toNat ++ ';' :: text.flatMap Text.referenceForm)) with
          | none => rfl
          | some after =>
              obtain ⟨front, split, isForm⟩ := exists_of_afterForm? found
              exact absurd isForm (not_isForm_reference outside split)
        · intro d member
          have passed : d = '#' ∨ d ∈ Text.decimalDigits c.toNat ∨ d = ';' := by
            simpa using member
          rcases passed with rfl | digit | rfl
          · decide
          · have isDigit := isDigit_of_mem_decimalDigits digit
            constructor <;> rintro rfl <;> cases isDigit
          · decide

/-! ## The passes over a page -/

/-- The characters of a page after both passes. -/
def passes (text : List Char) : List Char :=
  delimiters.foldl (fun text delimiter => delimiter.restoreFrom 0 text)
    (text.flatMap Text.referenceForm)

theorem toList_restoreDelimiters (markup : String) :
    (restoreDelimiters (Text.encodeNonAscii markup)).toList = passes markup.toList := by
  rw [restoreDelimiters, Text.encodeNonAscii, String.toList_ofList, String.toList_ofList, passes]

/-- A character that is plain in ASCII and in no form splits the text of the passes. -/
theorem passes_append
    {c : Char}
    (ascii : Text.isAscii c = true)
    (barred : ∀ delimiter ∈ delimiters, delimiter.IsBarredBy c)
    (text more : List Char) :
    passes (text ++ c :: more) = passes text ++ c :: passes more := by
  have form : Text.referenceForm c = [c] := by simp [Text.referenceForm, ascii]
  have split (listed : List Delimiter) (barred : ∀ delimiter ∈ listed, delimiter.IsBarredBy c)
      (text more : List Char) :
      listed.foldl (fun text delimiter => delimiter.restoreFrom 0 text) (text ++ c :: more) =
        listed.foldl (fun text delimiter => delimiter.restoreFrom 0 text) text ++
          c :: listed.foldl (fun text delimiter => delimiter.restoreFrom 0 text) more := by
    induction listed generalizing text more with
    | nil => rfl
    | cons delimiter listed inductionHypothesis =>
        obtain ⟨here, rest⟩ := List.forall_mem_cons.mp barred
        rw [List.foldl_cons, List.foldl_cons, List.foldl_cons,
          Delimiter.restoreFrom_append here (Nat.zero_le _), inductionHypothesis rest]
  rw [passes, List.flatMap_append, List.flatMap_cons, form, List.singleton_append,
    split delimiters barred]
  rfl

theorem passes_append_open (text more : List Char) :
    passes (text ++ '<' :: more) = passes text ++ '<' :: passes more :=
  passes_append rfl (fun delimiter listed => (isBarredBy_angles delimiter listed).1) text more

theorem passes_append_close (text more : List Char) :
    passes (text ++ '>' :: more) = passes text ++ '>' :: passes more :=
  passes_append rfl (fun delimiter listed => (isBarredBy_angles delimiter listed).2) text more

/-- A text without an escaped brace has its characters outside ASCII written as references,
and is not changed otherwise. -/
theorem passes_of_no_brace
    {text : List Char}
    (free : holdsEscapedBrace text = false) :
    passes text = text.flatMap Text.referenceForm := by
  have written := holdsEscapedBrace_flatMap_referenceForm free
  have kept (listed : List Delimiter) (all : ∀ delimiter ∈ listed, delimiter ∈ delimiters) :
      listed.foldl (fun text delimiter => delimiter.restoreFrom 0 text)
        (text.flatMap Text.referenceForm) = text.flatMap Text.referenceForm := by
    induction listed with
    | nil => rfl
    | cons delimiter listed inductionHypothesis =>
        obtain ⟨here, rest⟩ := List.forall_mem_cons.mp all
        rw [List.foldl_cons, restoreFrom_of_no_brace here written, inductionHypothesis rest]
  exact kept delimiters fun _ listed => listed

/-! ## The passes start no declaration -/

/-- A character that a pass may put at the start of a text. -/
def isPassChar (c : Char) : Bool :=
  c == '&' || c == '{' || c == '}' || c == '%'

/-- A text starts as another one does, or with a character that a pass wrote. -/
def StartsLike (text changed : List Char) : Prop :=
  changed.head? = text.head? ∨ ∃ c, changed.head? = some c ∧ isPassChar c = true

theorem StartsLike.trans
    {first second third : List Char}
    (like : StartsLike first second)
    (likeAgain : StartsLike second third) :
    StartsLike first third := by
  rcases likeAgain with same | written
  · rcases like with sameBefore | ⟨c, head, isPass⟩
    · exact .inl (same.trans sameBefore)
    · exact .inr ⟨c, same.trans head, isPass⟩
  · exact .inr written

theorem startsLike_restoreFrom
    {delimiter : Delimiter}
    (listed : delimiter ∈ delimiters)
    (text : List Char) :
    StartsLike text (delimiter.restoreFrom 0 text) := by
  have plain : ∀ delimiter ∈ delimiters, ∃ c rest, delimiter.plain = c :: rest ∧
      isPassChar c = true := by
    simp [delimiters, isPassChar]
  cases text with
  | nil => exact .inl rfl
  | cons c text =>
      rw [Delimiter.restoreFrom]
      split
      · obtain ⟨d, rest, plain_eq, isPass⟩ := plain delimiter listed
        rw [plain_eq]
        exact .inr ⟨d, rfl, isPass⟩
      · exact .inl rfl

theorem startsLike_passes (text : List Char) : StartsLike text (passes text) := by
  have restored (listed : List Delimiter) (all : ∀ delimiter ∈ listed, delimiter ∈ delimiters)
      (text : List Char) :
      StartsLike text
        (listed.foldl (fun text delimiter => delimiter.restoreFrom 0 text) text) := by
    induction listed generalizing text with
    | nil => exact .inl rfl
    | cons delimiter listed inductionHypothesis =>
        obtain ⟨here, rest⟩ := List.forall_mem_cons.mp all
        exact (startsLike_restoreFrom here text).trans (inductionHypothesis rest _)
  refine .trans ?_ (restored delimiters (fun _ listed => listed) _)
  cases text with
  | nil => exact .inl rfl
  | cons c text =>
      rw [List.flatMap_cons, Text.referenceForm]
      split
      · exact .inl rfl
      · exact .inr ⟨'&', rfl, rfl⟩

theorem not_mem_restoreFrom
    {delimiter : Delimiter}
    (listed : delimiter ∈ delimiters)
    {text : List Char}
    (noAngle : '<' ∉ text)
    (skip : Nat) :
    '<' ∉ delimiter.restoreFrom skip text := by
  have plain : ∀ delimiter ∈ delimiters, '<' ∉ delimiter.plain := by simp [delimiters]
  fun_induction Delimiter.restoreFrom delimiter skip text with
  | case1 => exact List.not_mem_nil
  | case2 skip c rest inductionHypothesis =>
      exact inductionHypothesis (List.not_mem_of_not_mem_cons noAngle)
  | case3 c rest after found inductionHypothesis =>
      have restFree := inductionHypothesis (List.not_mem_of_not_mem_cons noAngle)
      simp [plain delimiter listed, restFree]
  | case4 c rest missing inductionHypothesis =>
      obtain ⟨different, restFree⟩ := List.ne_and_not_mem_of_not_mem_cons noAngle
      exact List.not_mem_cons_of_ne_of_not_mem different (inductionHypothesis restFree)

/-- The passes write no angle bracket where there was none. -/
theorem not_mem_passes
    {text : List Char}
    (noAngle : '<' ∉ text) :
    '<' ∉ passes text := by
  have restored (listed : List Delimiter) (all : ∀ delimiter ∈ listed, delimiter ∈ delimiters)
      (text : List Char) (noAngle : '<' ∉ text) :
      '<' ∉ listed.foldl (fun text delimiter => delimiter.restoreFrom 0 text) text := by
    induction listed generalizing text with
    | nil => exact noAngle
    | cons delimiter listed inductionHypothesis =>
        obtain ⟨here, rest⟩ := List.forall_mem_cons.mp all
        exact inductionHypothesis rest _ (not_mem_restoreFrom here noAngle 0)
  refine restored delimiters (fun _ listed => listed) _ ?_
  intro member
  obtain ⟨c, inText, written⟩ := List.mem_flatMap.mp member
  unfold Text.referenceForm at written
  split at written
  · exact noAngle (List.mem_singleton.mp written ▸ inText)
  · have digit : '<' ∈ Text.decimalDigits c.toNat := by simpa using written
    exact absurd (isDigit_of_mem_decimalDigits digit) (by decide)

theorem passes_mark (text : List Char) : passes ('!' :: text) = '!' :: passes text := by
  have barred : ∀ delimiter ∈ delimiters, delimiter.IsBarredBy '!' := by decide
  exact passes_append rfl barred [] text

/-- The passes start no declaration where there was none. -/
theorem startsDoctype_passes
    {text : List Char}
    (none : startsDoctype text = false) :
    startsDoctype (passes text) = false := by
  have noMarkup {text : List Char} (noAngle : '<' ∉ text) : startsDoctype text = false := by
    rw [← List.append_nil text, startsDoctype_append noAngle]
    rfl
  by_cases angle : '<' ∈ text
  · obtain ⟨before, after, rfl, noAngle⟩ := List.eq_append_cons_of_mem angle
    rw [startsDoctype_append noAngle] at none
    rw [passes_append_open, startsDoctype_append (not_mem_passes noAngle)]
    cases after with
    | nil => rfl
    | cons c after =>
        by_cases mark : c = '!'
        · subst mark
          rw [passes_mark]
          cases changed : passes after with
          | nil => rfl
          | cons d rest =>
              have like := startsLike_passes after
              rw [changed] at like
              rcases like with same | ⟨_, ⟨⟩, isPass⟩
              · obtain ⟨tail, rfl⟩ := List.head?_eq_some_iff.mp same.symm
                exact none
              · rw [startsDoctype]
                rw [← Bool.not_eq_true]
                intro letter
                simp only [Bool.or_eq_true, beq_iff_eq] at letter
                rcases letter with rfl | rfl <;> cases isPass
        · have like := startsLike_passes (c :: after)
          cases changed : passes (c :: after) with
          | nil => rfl
          | cons d rest =>
              rw [changed] at like
              apply startsDoctype_angle
              rintro rfl
              rcases like with same | ⟨_, ⟨⟩, isPass⟩
              · exact mark (Option.some.inj same).symm
              · cases isPass
  · exact noMarkup (not_mem_passes angle)

end Page
end MailPress
