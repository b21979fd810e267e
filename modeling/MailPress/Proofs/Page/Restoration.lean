import Mathlib.Data.List.Chain
import MailPress.Proofs.Page.Delimiters

/-!
# Escaped delimiters are restored

A template alternates pieces of text and delimiters. However its delimiters are escaped, each on
its own, what is restored is the template: each pass finds the escaped delimiters of its own
kind, and nothing else.

No escaped form goes on as another one, and none has a mark inside. So what a pass finds at a
place is settled by the sign that stands there and by the one behind it. The tags are looked
for when the doubled braces are restored already, because half of a doubled brace may be taken for
the start of a tag.
-/

namespace MailPress
namespace Page

/-! ## Forms at the start of a text -/

/-- No form goes on as another one. -/
theorem IsForm.eq_of_append
    {first second after rest : List Char}
    (firstForm : IsForm escapedForms first)
    (secondForm : IsForm escapedForms second)
    (same : first ++ after = second ++ rest) :
    first = second ∧ after = rest := by
  have table : ∀ form ∈ escapedForms, ∀ other ∈ escapedForms,
      (form.toList.map Text.lowerChar).take other.length = other.toList.map Text.lowerChar →
        form.length = other.length := by decide
  have length_le {first second after rest : List Char} (firstForm : IsForm escapedForms first)
      (secondForm : IsForm escapedForms second) (same : first ++ after = second ++ rest)
      (short : second.length ≤ first.length) : first.length = second.length := by
    obtain ⟨form, member, lowered⟩ := firstForm
    obtain ⟨other, otherMember, otherLowered⟩ := secondForm
    have length_eq {text : List Char} {spelled : String}
        (lowered : text.map Text.lowerChar = spelled.toList.map Text.lowerChar) :
        text.length = spelled.length := by
      simpa only [List.length_map, String.length_toList] using congrArg List.length lowered
    have taken : first.take second.length = second := by
      have whole := congrArg (List.take second.length) same
      rwa [List.take_append_of_le_length short, List.take_left] at whole
    rw [length_eq lowered, length_eq otherLowered]
    apply table form member other otherMember
    rw [← lowered, ← otherLowered, ← List.map_take, ← length_eq otherLowered, taken]
  refine List.append_inj same ?_
  rcases Nat.le_total second.length first.length with short | long
  · exact length_le firstForm secondForm same short
  · exact (length_le secondForm firstForm same.symm long).symm

/-- A form is found where it stands. -/
theorem IsForm.afterForm?_eq
    {forms : List String}
    {front : List Char}
    (isForm : IsForm forms front)
    (listed : ∀ form ∈ forms, form ∈ escapedForms)
    (more : List Char) :
    afterForm? forms (front ++ more) = some more := by
  obtain ⟨after, found⟩ := Option.isSome_iff_exists.mp (isForm.isSome_afterForm? more)
  obtain ⟨other, split, otherForm⟩ := exists_of_afterForm? found
  obtain ⟨_, rfl⟩ := (isForm.mono listed).eq_of_append (otherForm.mono listed) split
  exact found

/-- Where a form stands, no form of another list is found. -/
theorem IsForm.afterForm?_eq_none
    {forms others : List String}
    {front : List Char}
    (isForm : IsForm forms front)
    (listed : ∀ form ∈ forms, form ∈ escapedForms)
    (otherListed : ∀ form ∈ others, form ∈ escapedForms)
    (apart : ∀ form ∈ forms, ∀ other ∈ others,
      form.toList.map Text.lowerChar ≠ other.toList.map Text.lowerChar)
    (more : List Char) :
    afterForm? others (front ++ more) = none := by
  cases found : afterForm? others (front ++ more) with
  | none => rfl
  | some after =>
      obtain ⟨other, split, otherForm⟩ := exists_of_afterForm? found
      obtain ⟨rfl, _⟩ := (isForm.mono listed).eq_of_append (otherForm.mono otherListed) split
      obtain ⟨form, member, lowered⟩ := isForm
      obtain ⟨otherName, otherMember, otherLowered⟩ := otherForm
      exact absurd (lowered.symm.trans otherLowered) (apart form member otherName otherMember)

/-- No form starts with another character than an ampersand or a percent sign. -/
theorem afterForm?_cons_of_ne
    {forms : List String}
    (listed : ∀ form ∈ forms, form ∈ escapedForms)
    {c : Char}
    (plain : c ≠ '&' ∧ c ≠ '%')
    (more : List Char) :
    afterForm? forms (c :: more) = none := by
  cases found : afterForm? forms (c :: more) with
  | none => rfl
  | some after =>
      obtain ⟨front, split, isForm⟩ := exists_of_afterForm? found
      obtain ⟨d, rest, rfl, start, _⟩ := (isForm.mono listed).shape
      obtain rfl := (List.cons.inj split).1
      rcases start with rfl | rfl
      · exact absurd rfl plain.1
      · exact absurd rfl plain.2

/-- A percent sign starts a form only in front of a digit. -/
theorem IsForm.exists_digit
    {rest : List Char}
    (isForm : IsForm escapedForms ('%' :: rest)) :
    ∃ digit others, rest = digit :: others ∧ Text.isAsciiDigit digit = true := by
  have table : ∀ form ∈ escapedForms, (form.toList.map Text.lowerChar).head? = some '%' →
      (form.toList.map Text.lowerChar)[1]? = some '7' ∨
        (form.toList.map Text.lowerChar)[1]? = some '2' := by decide
  obtain ⟨form, member, same⟩ := isForm
  have second := table form member (by rw [← same]; rfl)
  rw [← same] at second
  cases rest with
  | nil => simp at second
  | cons digit others =>
      refine ⟨digit, others, rfl, ?_⟩
      rcases second with seven | two
      · obtain rfl : digit = '7' := Text.eq_of_lowerChar_eq (by decide) (Option.some.inj seven)
        decide
      · obtain rfl : digit = '2' := Text.eq_of_lowerChar_eq (by decide) (Option.some.inj two)
        decide

/-- In front of anything but a digit, a percent sign starts no form. -/
theorem afterForm?_percent
    {forms : List String}
    (listed : ∀ form ∈ forms, form ∈ escapedForms)
    {more : List Char}
    (noDigit : ∀ c ∈ more.head?, Text.isAsciiDigit c = false) :
    afterForm? forms ('%' :: more) = none := by
  cases found : afterForm? forms ('%' :: more) with
  | none => rfl
  | some after =>
      obtain ⟨front, split, isForm⟩ := exists_of_afterForm? found
      obtain ⟨d, rest, rfl, _⟩ := (isForm.mono listed).shape
      obtain ⟨rfl, rfl⟩ := List.cons.inj split
      obtain ⟨digit, others, rfl, isDigit⟩ := (isForm.mono listed).exists_digit
      rw [noDigit digit rfl] at isDigit
      cases isDigit

theorem afterForm?_literal (c : Char) (more : List Char) :
    afterForm? ["%"] (c :: more) = if c = '%' then some more else none := by
  have lowered : Text.lowerChar c = '%' ↔ c = '%' :=
    ⟨Text.eq_of_lowerChar_eq (by decide), fun same => by rw [same]; rfl⟩
  rw [afterForm?_eq]
  by_cases percent : c = '%'
  · subst percent
    rfl
  · have different : ((c :: more).take "%".length).map Text.lowerChar ≠
        "%".toList.map Text.lowerChar := by
      intro same
      exact percent (lowered.mp (List.cons.inj same).1)
    rw [List.findSome?_cons, if_neg different, if_neg percent]
    rfl

/-! ## What a delimiter finds -/

/-- The characters that delimiters are made of, as they are escaped. -/
inductive Sign
  /-- An opening brace. -/
  | opening
  /-- A closing brace. -/
  | closing
  /-- A percent sign. -/
  | percent
  deriving DecidableEq

/-- The escaped forms of a sign. -/
def Sign.forms : Sign → List String
  | .opening => openForms
  | .closing => closeForms
  | .percent => percentForms

theorem Sign.mem_escapedForms (sign : Sign) : ∀ form ∈ sign.forms, form ∈ escapedForms := by
  cases sign <;> decide

/-- No two signs have a form in common. -/
theorem Sign.forms_apart
    {sign other : Sign}
    (different : sign ≠ other) :
    ∀ form ∈ sign.forms, ∀ otherForm ∈ other.forms,
      form.toList.map Text.lowerChar ≠ otherForm.toList.map Text.lowerChar := by
  cases sign <;> cases other <;> first | exact absurd rfl different | decide

theorem openReferences_subset : ∀ form ∈ openReferences, form ∈ escapedForms := by decide

theorem closeReferences_subset : ∀ form ∈ closeReferences, form ∈ escapedForms := by decide

/-- The opening delimiter of a value. -/
def valueOpening : Delimiter := ⟨['{', '{'], [(openForms, openForms)]⟩

/-- The closing delimiter of a value. -/
def valueClosing : Delimiter := ⟨['}', '}'], [(closeForms, closeForms)]⟩

/-- The opening delimiter of a tag. -/
def tagOpening : Delimiter :=
  ⟨['{', '%'], [(openForms, percentForms), (openReferences, ["%"])]⟩

/-- The closing delimiter of a tag. -/
def tagClosing : Delimiter :=
  ⟨['%', '}'], [(percentForms, closeForms), (["%"], closeReferences)]⟩

theorem delimiters_eq :
    delimiters = [valueOpening, valueClosing, tagOpening, tagClosing] := rfl

theorem after?_valueOpening (text : List Char) :
    valueOpening.after? text = (afterForm? openForms text).bind (afterForm? openForms) := by
  rw [Delimiter.after?, valueOpening, List.findSome?_singleton]

theorem after?_valueClosing (text : List Char) :
    valueClosing.after? text = (afterForm? closeForms text).bind (afterForm? closeForms) := by
  rw [Delimiter.after?, valueClosing, List.findSome?_singleton]

theorem after?_tagOpening (text : List Char) :
    tagOpening.after? text =
      ((afterForm? openForms text).bind (afterForm? percentForms)).or
        ((afterForm? openReferences text).bind (afterForm? ["%"])) := by
  rw [Delimiter.after?, tagOpening, List.findSome?_cons, List.findSome?_singleton]
  cases (afterForm? openForms text).bind (afterForm? percentForms) <;> rfl

theorem after?_tagClosing (text : List Char) :
    tagClosing.after? text =
      ((afterForm? percentForms text).bind (afterForm? closeForms)).or
        ((afterForm? ["%"] text).bind (afterForm? closeReferences)) := by
  rw [Delimiter.after?, tagClosing, List.findSome?_cons, List.findSome?_singleton]
  cases (afterForm? percentForms text).bind (afterForm? closeForms) <;> rfl

/-- At the form of a sign, that sign is found and no other. -/
theorem IsForm.afterForm?_sign
    {sign : Sign}
    {front : List Char}
    (isForm : IsForm sign.forms front)
    (other : Sign)
    (more : List Char) :
    afterForm? other.forms (front ++ more) = if sign = other then some more else none := by
  by_cases same : sign = other
  · subst same
    rw [if_pos rfl, isForm.afterForm?_eq sign.mem_escapedForms]
  · rw [if_neg same]
    exact isForm.afterForm?_eq_none sign.mem_escapedForms other.mem_escapedForms
      (Sign.forms_apart same) more

/-- At the form of a sign, no reference to another sign is found. -/
theorem IsForm.afterForm?_references
    {sign : Sign}
    {front : List Char}
    (isForm : IsForm sign.forms front)
    (more : List Char) :
    (sign ≠ .opening → afterForm? openReferences (front ++ more) = none) ∧
      (sign ≠ .closing → afterForm? closeReferences (front ++ more) = none) := by
  have openSubset : ∀ form ∈ openReferences, form ∈ Sign.opening.forms := by decide
  have closeSubset : ∀ form ∈ closeReferences, form ∈ Sign.closing.forms := by decide
  refine ⟨fun different => ?_, fun different => ?_⟩
  · exact isForm.afterForm?_eq_none sign.mem_escapedForms openReferences_subset
      (fun form member other otherMember =>
        Sign.forms_apart different form member other (openSubset other otherMember)) more
  · exact isForm.afterForm?_eq_none sign.mem_escapedForms closeReferences_subset
      (fun form member other otherMember =>
        Sign.forms_apart different form member other (closeSubset other otherMember)) more

/-- The percent sign of a form is followed by a digit, and so by no reference. -/
theorem IsForm.literal_bind
    {front : List Char}
    (isForm : IsForm escapedForms front)
    (more : List Char) :
    (afterForm? ["%"] (front ++ more)).bind (afterForm? closeReferences) = none := by
  obtain ⟨c, rest, rfl, rfl | rfl, _⟩ := isForm.shape
  · rw [List.cons_append, afterForm?_literal, if_neg (by decide)]
    rfl
  · obtain ⟨digit, others, rfl, isDigit⟩ := isForm.exists_digit
    have plain : digit ≠ '&' ∧ digit ≠ '%' := by
      constructor <;> (rintro rfl; cases isDigit)
    rw [List.cons_append, afterForm?_literal, if_pos rfl, Option.bind_some, List.cons_append,
      afterForm?_cons_of_ne closeReferences_subset plain]

/-- Where a character stands with which no form starts, no delimiter is found. -/
theorem after?_cons_of_ne
    {delimiter : Delimiter}
    (listed : delimiter ∈ delimiters)
    {c : Char}
    (plain : c ≠ '&' ∧ c ≠ '%')
    (more : List Char) :
    delimiter.after? (c :: more) = none := by
  have missing (sign : Sign) := afterForm?_cons_of_ne sign.mem_escapedForms plain more
  have noOpening : afterForm? openForms (c :: more) = none := missing .opening
  have noClosing : afterForm? closeForms (c :: more) = none := missing .closing
  have noPercent : afterForm? percentForms (c :: more) = none := missing .percent
  have noReference := afterForm?_cons_of_ne openReferences_subset plain more
  have noLiteral := afterForm?_literal c more
  rw [if_neg plain.2] at noLiteral
  rw [delimiters_eq] at listed
  simp only [List.mem_cons, List.not_mem_nil, or_false] at listed
  rcases listed with rfl | rfl | rfl | rfl
  · rw [after?_valueOpening, noOpening, Option.bind_none]
  · rw [after?_valueClosing, noClosing, Option.bind_none]
  · rw [after?_tagOpening, noOpening, noReference]
    rfl
  · rw [after?_tagClosing, noPercent, noLiteral]
    rfl

/-- At a plain percent sign no delimiter is found when no digit follows, and no reference to a
closing brace either if it is the closing delimiter of a tag. -/
theorem after?_percent
    {delimiter : Delimiter}
    (listed : delimiter ∈ delimiters)
    {more : List Char}
    (noDigit : ∀ c ∈ more.head?, Text.isAsciiDigit c = false)
    (noReference : delimiter = tagClosing → afterForm? closeReferences more = none) :
    delimiter.after? ('%' :: more) = none := by
  have missing (sign : Sign) := afterForm?_percent sign.mem_escapedForms noDigit
  have noOpening : afterForm? openForms ('%' :: more) = none := missing .opening
  have noClosing : afterForm? closeForms ('%' :: more) = none := missing .closing
  have noPercent : afterForm? percentForms ('%' :: more) = none := missing .percent
  rw [delimiters_eq] at listed
  simp only [List.mem_cons, List.not_mem_nil, or_false] at listed
  rcases listed with rfl | rfl | rfl | rfl
  · rw [after?_valueOpening, noOpening, Option.bind_none]
  · rw [after?_valueClosing, noClosing, Option.bind_none]
  · rw [after?_tagOpening, noOpening, afterForm?_percent openReferences_subset noDigit]
    rfl
  · rw [after?_tagClosing, noPercent, afterForm?_literal, if_pos rfl, Option.bind_some,
      noReference rfl]
    rfl

/-- The signs of a delimiter, one behind the other. -/
inductive HasSigns : Delimiter → Sign → Sign → Prop
  | valueOpening : HasSigns valueOpening .opening .opening
  | valueClosing : HasSigns valueClosing .closing .closing
  | tagOpening : HasSigns tagOpening .opening .percent
  | tagClosing : HasSigns tagClosing .percent .closing

/-- At the form of a sign a delimiter is found only when its other sign stands behind, a tag also
when a plain percent sign does. -/
theorem IsForm.after?_eq_none
    {sign : Sign}
    {front : List Char}
    (isForm : IsForm sign.forms front)
    {delimiter : Delimiter}
    (listed : delimiter ∈ delimiters)
    (noTag : sign = .opening → delimiter ≠ tagOpening)
    {more : List Char}
    (stops : ∀ next, HasSigns delimiter sign next → afterForm? next.forms more = none) :
    delimiter.after? (front ++ more) = none := by
  have found (other : Sign) := isForm.afterForm?_sign other more
  obtain ⟨noOpenReference, _⟩ := isForm.afterForm?_references more
  have noLiteral := (isForm.mono sign.mem_escapedForms).literal_bind more
  have atOpening : afterForm? openForms (front ++ more) = _ := found .opening
  have atClosing : afterForm? closeForms (front ++ more) = _ := found .closing
  have atPercent : afterForm? percentForms (front ++ more) = _ := found .percent
  rw [delimiters_eq] at listed
  simp only [List.mem_cons, List.not_mem_nil, or_false] at listed
  rcases listed with rfl | rfl | rfl | rfl
  · rw [after?_valueOpening, atOpening]
    split
    · next same =>
        subst same
        exact stops .opening .valueOpening
    · rfl
  · rw [after?_valueClosing, atClosing]
    split
    · next same =>
        subst same
        exact stops .closing .valueClosing
    · rfl
  · have different : sign ≠ .opening := fun same => noTag same rfl
    rw [after?_tagOpening, atOpening, if_neg different, noOpenReference different]
    rfl
  · rw [after?_tagClosing, atPercent, noLiteral, Option.or_none]
    split
    · next same =>
        subst same
        exact stops .closing .tagClosing
    · rfl

theorem HasSigns.eq
    {delimiter other : Delimiter}
    {sign next : Sign}
    (signs : HasSigns delimiter sign next)
    (otherSigns : HasSigns other sign next) :
    delimiter = other := by
  cases signs <;> cases otherSigns <;> rfl

/-- A reference does not start with a digit. -/
theorem IsForm.head?_reference
    {brace : List Char}
    (isReference : IsForm closeReferences brace)
    (rest : List Char) :
    ∀ c ∈ (brace ++ rest).head?, Text.isAsciiDigit c = false := by
  have table : ∀ form ∈ closeReferences,
      (form.toList.map Text.lowerChar).head? = some '&' := by decide
  obtain ⟨form, member, same⟩ := isReference
  have head := table form member
  rw [← same] at head
  cases brace with
  | nil => cases head
  | cons c brace =>
      obtain rfl : c = '&' := Text.eq_of_lowerChar_eq (by decide) (Option.some.inj head)
      rintro _ ⟨⟩
      decide

/-! ## Passing over a text -/

variable {delimiter : Delimiter}

theorem restoreFrom_length_append
    (delimiter : Delimiter)
    (front rest : List Char) :
    delimiter.restoreFrom front.length (front ++ rest) = delimiter.restoreFrom 0 rest := by
  induction front with
  | nil => rfl
  | cons c front inductionHypothesis =>
      rw [List.length_cons, List.cons_append, Delimiter.restoreFrom, inductionHypothesis]

/-- Where the delimiter is found, it is restored, and the pass goes on behind it. -/
theorem restoreFrom_append_of_found
    {front rest : List Char}
    (nonempty : front ≠ [])
    (found : delimiter.after? (front ++ rest) = some rest) :
    delimiter.restoreFrom 0 (front ++ rest) = delimiter.plain ++ delimiter.restoreFrom 0 rest := by
  obtain ⟨c, front, rfl⟩ := List.exists_cons_of_ne_nil nonempty
  have skipped : (front ++ rest).length - rest.length = front.length := by
    rw [List.length_append]
    omega
  rw [List.cons_append] at found ⊢
  rw [Delimiter.restoreFrom, found]
  dsimp only
  rw [skipped, restoreFrom_length_append]

theorem restoreFrom_cons_of_missing
    {c : Char}
    {rest : List Char}
    (missing : delimiter.after? (c :: rest) = none) :
    delimiter.restoreFrom 0 (c :: rest) = c :: delimiter.restoreFrom 0 rest := by
  rw [Delimiter.restoreFrom, missing]

/-- Characters with which no form starts are left as they are. -/
theorem restoreFrom_append_of_plain
    (listed : delimiter ∈ delimiters)
    {front : List Char}
    (plain : ∀ c ∈ front, c ≠ '&' ∧ c ≠ '%')
    (rest : List Char) :
    delimiter.restoreFrom 0 (front ++ rest) = front ++ delimiter.restoreFrom 0 rest := by
  induction front with
  | nil => rfl
  | cons c front inductionHypothesis =>
      obtain ⟨here, frontPlain⟩ := List.forall_mem_cons.mp plain
      rw [List.cons_append, restoreFrom_cons_of_missing (after?_cons_of_ne listed here _),
        inductionHypothesis frontPlain, List.cons_append]

/-- A form is left as it is when no delimiter is found at it. -/
theorem IsForm.restoreFrom_append
    {front : List Char}
    (isForm : IsForm escapedForms front)
    (listed : delimiter ∈ delimiters)
    {rest : List Char}
    (missing : delimiter.after? (front ++ rest) = none) :
    delimiter.restoreFrom 0 (front ++ rest) = front ++ delimiter.restoreFrom 0 rest := by
  obtain ⟨c, tail, rfl, _, unmarked⟩ := isForm.shape
  have plain : ∀ d ∈ tail, d ≠ '&' ∧ d ≠ '%' := by
    intro d member
    have noMark := unmarked d member
    constructor <;> (rintro rfl; cases noMark)
  rw [List.cons_append] at missing ⊢
  rw [restoreFrom_cons_of_missing missing, restoreFrom_append_of_plain listed plain,
    List.cons_append]

/-! ## Pieces -/

/-- A piece of text between delimiters: it has no brace in it, plain or escaped, and does not end
in a percent sign, plain or escaped. -/
structure IsPiece (text : List Char) : Prop where
  /-- It is not empty. -/
  nonempty : text ≠ []
  /-- It has no plain brace in it. -/
  noBrace : '{' ∉ text ∧ '}' ∉ text
  /-- It has no escaped brace in it. -/
  noEscapedBrace : ∀ form, form <:+: text → ¬IsForm (openForms ++ closeForms) form
  /-- It does not end in a plain percent sign. -/
  noPercent : text.getLast? ≠ some '%'
  /-- It does not end in an escaped percent sign. -/
  noEscapedPercent : ∀ form, form <:+ text → ¬IsForm percentForms form

/-- A piece is recognised by looking for forms at each place of the text. -/
theorem isPiece_iff
    {text : List Char} :
    IsPiece text ↔
      text ≠ [] ∧ ('{' ∉ text ∧ '}' ∉ text) ∧ holdsEscapedBrace text = false ∧
        text.getLast? ≠ some '%' ∧
        ∀ back ∈ text.tails, ∀ form ∈ percentForms,
          back.map Text.lowerChar ≠ form.toList.map Text.lowerChar := by
  have brace_iff : holdsEscapedBrace text = false ↔
      ∀ form, form <:+: text → ¬IsForm (openForms ++ closeForms) form := by
    rw [← Bool.not_eq_true, holdsEscapedBrace_iff]
    constructor
    · rintro free form ⟨front, back, rfl⟩ isForm
      exact free ⟨front, form, back, List.append_assoc .., isForm⟩
    · rintro free ⟨front, form, back, rfl, isForm⟩
      exact free form ⟨front, back, List.append_assoc ..⟩ isForm
  have percent_iff : (∀ back ∈ text.tails, ∀ form ∈ percentForms,
      back.map Text.lowerChar ≠ form.toList.map Text.lowerChar) ↔
        ∀ back, back <:+ text → ¬IsForm percentForms back := by
    simp only [List.mem_tails, IsForm, not_exists, not_and, ne_eq]
  rw [brace_iff, percent_iff]
  constructor
  · rintro ⟨nonempty, noBrace, noEscapedBrace, noPercent, noEscapedPercent⟩
    exact ⟨nonempty, noBrace, noEscapedBrace, noPercent, noEscapedPercent⟩
  · rintro ⟨nonempty, noBrace, noEscapedBrace, noPercent, noEscapedPercent⟩
    exact ⟨nonempty, noBrace, noEscapedBrace, noPercent, noEscapedPercent⟩

instance (text : List Char) : Decidable (IsPiece text) := decidable_of_iff' _ isPiece_iff

/-- A form that starts in a text stays in it, when a mark follows the text. -/
theorem exists_of_afterForm?_append
    {forms : List String}
    (listed : ∀ form ∈ forms, form ∈ escapedForms)
    {front rest after : List Char}
    (nonempty : front ≠ [])
    (marked : ∀ c ∈ rest.head?, isMark c = true)
    (found : afterForm? forms (front ++ rest) = some after) :
    ∃ form back, front = form ++ back ∧ after = back ++ rest ∧ IsForm forms form := by
  obtain ⟨form, split, isForm⟩ := exists_of_afterForm? found
  rcases List.append_eq_append_iff.mp split with ⟨more, rfl, rest_eq⟩ | ⟨back, rfl, after_eq⟩
  · cases more with
    | nil => exact ⟨front, [], by simp, by simpa using rest_eq.symm, by simpa using isForm⟩
    | cons c more =>
        -- The mark would stand in the form, behind its first character.
        obtain ⟨first, front, rfl⟩ := List.exists_cons_of_ne_nil nonempty
        obtain ⟨_, _, same, _, unmarked⟩ := (isForm.mono listed).shape
        obtain ⟨_, rfl⟩ := List.cons.inj same
        have noMark := unmarked c (by simp)
        rw [marked c (by rw [rest_eq]; rfl)] at noMark
        cases noMark
  · exact ⟨form, back, rfl, after_eq, isForm⟩

namespace IsPiece

variable {text : List Char}

/-- No escaped brace starts in a piece. -/
theorem afterForm?_eq_none
    (piece : IsPiece text)
    {forms : List String}
    (braces : ∀ form ∈ forms, form ∈ openForms ++ closeForms)
    {back : List Char}
    (isSuffix : back <:+ text)
    (nonempty : back ≠ [])
    {rest : List Char}
    (marked : ∀ c ∈ rest.head?, isMark c = true) :
    afterForm? forms (back ++ rest) = none := by
  have listed : ∀ form ∈ forms, form ∈ escapedForms :=
    fun form member => List.mem_append_left percentForms (braces form member)
  cases found : afterForm? forms (back ++ rest) with
  | none => rfl
  | some after =>
      obtain ⟨form, last, rfl, _, isForm⟩ :=
        exists_of_afterForm?_append listed nonempty marked found
      have inside : form <:+: text := (List.infix_append [] form last).trans isSuffix.isInfix
      exact absurd (isForm.mono braces) (piece.noEscapedBrace form inside)

/-- No delimiter starts in a piece. -/
theorem after?_eq_none
    (piece : IsPiece text)
    (listed : delimiter ∈ delimiters)
    {back : List Char}
    (isSuffix : back <:+ text)
    (nonempty : back ≠ [])
    {rest : List Char}
    (marked : ∀ c ∈ rest.head?, isMark c = true) :
    delimiter.after? (back ++ rest) = none := by
  have noOpening : afterForm? openForms (back ++ rest) = none :=
    piece.afterForm?_eq_none (by decide) isSuffix nonempty marked
  have noClosing : afterForm? closeForms (back ++ rest) = none :=
    piece.afterForm?_eq_none (by decide) isSuffix nonempty marked
  have noReference : afterForm? openReferences (back ++ rest) = none :=
    piece.afterForm?_eq_none (by decide) isSuffix nonempty marked
  rw [delimiters_eq] at listed
  simp only [List.mem_cons, List.not_mem_nil, or_false] at listed
  rcases listed with rfl | rfl | rfl | rfl
  · rw [after?_valueOpening, noOpening, Option.bind_none]
  · rw [after?_valueClosing, noClosing, Option.bind_none]
  · rw [after?_tagOpening, noOpening, noReference]
    rfl
  · rw [after?_tagClosing, Option.or_eq_none_iff]
    constructor
    · cases found : afterForm? percentForms (back ++ rest) with
      | none => rfl
      | some after =>
          obtain ⟨form, last, rfl, rfl, isForm⟩ :=
            exists_of_afterForm?_append Sign.percent.mem_escapedForms nonempty marked found
          have lastSuffix : last <:+ text := (List.suffix_append form last).trans isSuffix
          rw [Option.bind_some]
          refine piece.afterForm?_eq_none (by decide) lastSuffix ?_ marked
          rintro rfl
          rw [List.append_nil] at isSuffix
          exact piece.noEscapedPercent form isSuffix isForm
    · obtain ⟨c, tail, rfl⟩ := List.exists_cons_of_ne_nil nonempty
      rw [List.cons_append, afterForm?_literal]
      split
      · next percent =>
          subst percent
          rw [Option.bind_some]
          refine piece.afterForm?_eq_none (by decide) ((List.suffix_cons _ tail).trans isSuffix)
            ?_ marked
          rintro rfl
          obtain ⟨front, rfl⟩ := isSuffix
          exact piece.noPercent (by simp)
      · rfl

/-- A piece is left as it is. -/
theorem restoreFrom_append
    (piece : IsPiece text)
    (listed : delimiter ∈ delimiters)
    {rest : List Char}
    (marked : ∀ c ∈ rest.head?, isMark c = true) :
    delimiter.restoreFrom 0 (text ++ rest) = text ++ delimiter.restoreFrom 0 rest := by
  have passes (back : List Char) (isSuffix : back <:+ text) :
      delimiter.restoreFrom 0 (back ++ rest) = back ++ delimiter.restoreFrom 0 rest := by
    induction back with
    | nil => rfl
    | cons c back inductionHypothesis =>
        have missing := piece.after?_eq_none listed isSuffix (List.cons_ne_nil c back) marked
        rw [List.cons_append] at missing ⊢
        rw [restoreFrom_cons_of_missing missing,
          inductionHypothesis ((List.suffix_cons c back).trans isSuffix), List.cons_append]
  exact passes text List.suffix_rfl

end IsPiece

/-! ## Delimiters -/

/-- The ways to escape a delimiter as a whole: each of its signs is escaped, or the brace is written
as a reference and the percent sign is left. -/
inductive IsEscaped : Delimiter → List Char → Prop
  /-- Each sign has a form of its own. -/
  | signs
      {delimiter : Delimiter}
      {sign next : Sign}
      (hasSigns : HasSigns delimiter sign next)
      {first second : List Char}
      (firstForm : IsForm sign.forms first)
      (secondForm : IsForm next.forms second) :
      IsEscaped delimiter (first ++ second)
  /-- The percent sign of an opening tag is left. -/
  | opening
      {brace : List Char}
      (isReference : IsForm openReferences brace) :
      IsEscaped tagOpening (brace ++ ['%'])
  /-- The percent sign of a closing tag is left. -/
  | closing
      {brace : List Char}
      (isReference : IsForm closeReferences brace) :
      IsEscaped tagClosing ('%' :: brace)

/-- What may follow a delimiter: no brace is escaped there, and behind an opening tag there is no
digit. -/
structure IsFollowed (delimiter : Delimiter) (rest : List Char) : Prop where
  /-- No escaped brace starts here. -/
  noBrace : ∀ forms : List String, (∀ form ∈ forms, form ∈ openForms ++ closeForms) →
    afterForm? forms rest = none
  /-- No digit follows a percent sign. -/
  noDigit : delimiter = tagOpening → ∀ c ∈ rest.head?, Text.isAsciiDigit c = false

namespace IsEscaped

variable {other : Delimiter} {written rest : List Char}

theorem ne_nil (escaped : IsEscaped delimiter written) : written ≠ [] := by
  cases escaped with
  | @signs _ sign _ _ first _ firstForm _ =>
      obtain ⟨c, tail, rfl, _⟩ := (firstForm.mono sign.mem_escapedForms).shape
      simp
  | opening => simp
  | closing => simp

/-- An escaped delimiter is found where it stands. -/
theorem after?_eq
    (escaped : IsEscaped delimiter written)
    (followed : IsFollowed delimiter rest) :
    delimiter.after? (written ++ rest) = some rest := by
  cases escaped with
  | @signs _ sign next hasSigns first second firstForm secondForm =>
      have atFirst := firstForm.afterForm?_eq sign.mem_escapedForms (second ++ rest)
      have atSecond := secondForm.afterForm?_eq next.mem_escapedForms rest
      rw [List.append_assoc]
      cases hasSigns with
      | valueOpening =>
          simp only [Sign.forms] at atFirst atSecond
          rw [after?_valueOpening, atFirst, Option.bind_some, atSecond]
      | valueClosing =>
          simp only [Sign.forms] at atFirst atSecond
          rw [after?_valueClosing, atFirst, Option.bind_some, atSecond]
      | tagOpening =>
          simp only [Sign.forms] at atFirst atSecond
          rw [after?_tagOpening, atFirst, Option.bind_some, atSecond, Option.some_or]
      | tagClosing =>
          simp only [Sign.forms] at atFirst atSecond
          rw [after?_tagClosing, atFirst, Option.bind_some, atSecond, Option.some_or]
  | @opening brace isReference =>
      have isForm : IsForm Sign.opening.forms brace := isReference.mono (by decide)
      have atBrace := isForm.afterForm?_eq Sign.opening.mem_escapedForms ('%' :: rest)
      have noPercent := afterForm?_percent Sign.percent.mem_escapedForms (followed.noDigit rfl)
      simp only [Sign.forms] at atBrace noPercent
      rw [List.append_assoc, List.singleton_append, after?_tagOpening, atBrace,
        isReference.afterForm?_eq openReferences_subset, Option.bind_some, noPercent,
        Option.none_or, Option.bind_some, afterForm?_literal, if_pos rfl]
  | @closing brace isReference =>
      have noDigit := isReference.head?_reference rest
      have noPercent := afterForm?_percent Sign.percent.mem_escapedForms noDigit
      simp only [Sign.forms] at noPercent
      rw [List.cons_append, after?_tagClosing, noPercent, Option.bind_none, Option.none_or,
        afterForm?_literal, if_pos rfl, Option.bind_some,
        isReference.afterForm?_eq closeReferences_subset]

/-- A pass leaves the escaped delimiters of another kind, if the doubled braces are restored before
the tags. -/
theorem restoreFrom_append_of_ne
    (escaped : IsEscaped delimiter written)
    (listed : other ∈ delimiters)
    (different : other ≠ delimiter)
    (later : other = tagOpening → delimiter ≠ valueOpening)
    (followed : IsFollowed delimiter rest) :
    other.restoreFrom 0 (written ++ rest) = written ++ other.restoreFrom 0 rest := by
  cases escaped with
  | @signs _ sign next hasSigns first second firstForm secondForm =>
      have firstMissing : other.after? (first ++ (second ++ rest)) = none := by
        refine firstForm.after?_eq_none listed ?_ fun found foundSigns => ?_
        · rintro rfl rfl
          cases hasSigns with
          | valueOpening => exact later rfl rfl
          | tagOpening => exact different rfl
        · rw [secondForm.afterForm?_sign, if_neg]
          rintro rfl
          exact different (foundSigns.eq hasSigns)
      have secondMissing : other.after? (second ++ rest) = none := by
        have noOpening : next = .opening → other ≠ tagOpening := by
          rintro rfl rfl
          cases hasSigns
          exact later rfl rfl
        refine secondForm.after?_eq_none listed noOpening fun found foundSigns => ?_
        cases foundSigns with
        | valueOpening => exact followed.noBrace _ (by decide)
        | valueClosing => exact followed.noBrace _ (by decide)
        | tagOpening => exact absurd rfl (noOpening rfl)
        | tagClosing => exact followed.noBrace _ (by decide)
      rw [List.append_assoc,
        (firstForm.mono sign.mem_escapedForms).restoreFrom_append listed firstMissing,
        (secondForm.mono next.mem_escapedForms).restoreFrom_append listed secondMissing,
        List.append_assoc]
  | @opening brace isReference =>
      have isForm : IsForm Sign.opening.forms brace := isReference.mono (by decide)
      have noDigit := followed.noDigit rfl
      have braceMissing : other.after? (brace ++ '%' :: rest) = none := by
        refine isForm.after?_eq_none listed (fun _ => different) fun found foundSigns => ?_
        exact afterForm?_percent found.mem_escapedForms noDigit
      have percentMissing : other.after? ('%' :: rest) = none :=
        after?_percent listed noDigit fun _ => followed.noBrace _ (by decide)
      rw [List.append_assoc, List.singleton_append,
        (isForm.mono Sign.opening.mem_escapedForms).restoreFrom_append listed braceMissing,
        restoreFrom_cons_of_missing percentMissing, List.append_assoc, List.singleton_append]
  | @closing brace isReference =>
      have isForm : IsForm Sign.closing.forms brace := isReference.mono (by decide)
      have percentMissing : other.after? ('%' :: (brace ++ rest)) = none :=
        after?_percent listed (isReference.head?_reference rest) fun same => absurd same different
      have braceMissing : other.after? (brace ++ rest) = none := by
        refine isForm.after?_eq_none listed nofun fun found foundSigns => ?_
        cases foundSigns with
        | valueClosing => exact followed.noBrace _ (by decide)
      rw [List.cons_append, restoreFrom_cons_of_missing percentMissing,
        (isForm.mono Sign.closing.mem_escapedForms).restoreFrom_append listed braceMissing,
        List.cons_append]

end IsEscaped

/-- A pass leaves a plain delimiter, of its own kind or another. -/
theorem restoreFrom_plain_append
    {other : Delimiter}
    (listed : other ∈ delimiters)
    (isDelimiter : delimiter ∈ delimiters)
    {rest : List Char}
    (followed : IsFollowed delimiter rest) :
    other.restoreFrom 0 (delimiter.plain ++ rest) =
      delimiter.plain ++ other.restoreFrom 0 rest := by
  rw [delimiters_eq] at isDelimiter
  simp only [List.mem_cons, List.not_mem_nil, or_false] at isDelimiter
  rcases isDelimiter with rfl | rfl | rfl | rfl
  · exact restoreFrom_append_of_plain listed (by simp [valueOpening]) rest
  · exact restoreFrom_append_of_plain listed (by simp [valueClosing]) rest
  · have percentMissing : other.after? ('%' :: rest) = none :=
      after?_percent listed (followed.noDigit rfl) fun _ => followed.noBrace _ (by decide)
    have braces : other.restoreFrom 0 (['{'] ++ '%' :: rest) = _ :=
      restoreFrom_append_of_plain listed (by simp) ('%' :: rest)
    rw [restoreFrom_cons_of_missing percentMissing] at braces
    exact braces
  · have percentMissing : other.after? ('%' :: '}' :: rest) = none :=
      after?_percent listed (by rintro _ ⟨⟩; decide) fun _ =>
        afterForm?_cons_of_ne closeReferences_subset (by decide) rest
    have braces : other.restoreFrom 0 (['}'] ++ rest) = _ :=
      restoreFrom_append_of_plain listed (by simp) rest
    change other.restoreFrom 0 ('%' :: '}' :: rest) = _
    rw [restoreFrom_cons_of_missing percentMissing]
    exact congrArg _ braces

/-! ## Templates -/

deriving instance DecidableEq for Delimiter

/-- A part of a template: a piece of text, or a delimiter with the way it is written. -/
inductive TemplatePart
  | piece (text : List Char)
  | delimiter (delimiter : Delimiter) (written : List Char)

namespace TemplatePart

/-- The part in the template. -/
def plain : TemplatePart → List Char
  | .piece text => text
  | .delimiter delimiter _ => delimiter.plain

/-- The part as it is written. -/
def written : TemplatePart → List Char
  | .piece text => text
  | .delimiter _ written => written

/-- A piece is a piece, and a delimiter is written as it is or escaped as a whole. -/
def IsWritten : TemplatePart → Prop
  | .piece text => IsPiece text
  | .delimiter delimiter written =>
      delimiter ∈ delimiters ∧ (written = delimiter.plain ∨ IsEscaped delimiter written)

/-- Pieces and delimiters take turns, and the piece behind the opening delimiter of a tag does not
start with a digit: a space, a hyphen or a letter will do. -/
def Precedes : TemplatePart → TemplatePart → Prop
  | .piece _, .delimiter _ _ => True
  | .delimiter delimiter _, .piece text =>
      delimiter = tagOpening → ∀ c ∈ text.head?, Text.isAsciiDigit c = false
  | _, _ => False

/-- The part after a pass. -/
def restored (pass : Delimiter) : TemplatePart → TemplatePart
  | .piece text => .piece text
  | .delimiter delimiter written =>
      .delimiter delimiter (if pass = delimiter then delimiter.plain else written)

variable {part next : TemplatePart} {pass : Delimiter}

theorem IsWritten.restored
    (isWritten : part.IsWritten)
    (pass : Delimiter) :
    (part.restored pass).IsWritten := by
  cases part with
  | piece text => exact isWritten
  | delimiter delimiter written =>
      obtain ⟨listed, plainOrEscaped⟩ := isWritten
      refine ⟨listed, ?_⟩
      split
      · exact .inl rfl
      · exact plainOrEscaped

theorem Precedes.restored
    (precedes : part.Precedes next)
    (pass : Delimiter) :
    (part.restored pass).Precedes (next.restored pass) := by
  cases part <;> cases next <;> exact precedes

end TemplatePart

/-- A template with its delimiters plain or escaped. -/
structure IsTemplate (parts : List TemplatePart) : Prop where
  /-- Every part is written as it may be. -/
  written : ∀ part ∈ parts, part.IsWritten
  /-- Pieces and delimiters take turns. -/
  alternates : parts.IsChain TemplatePart.Precedes

theorem isMark_head?_plain :
    ∀ delimiter ∈ delimiters, ∃ c rest, delimiter.plain = c :: rest ∧ isMark c = true := by
  simp [delimiters, isMark]

theorem IsForm.isMark_head?
    {front : List Char}
    (isForm : IsForm escapedForms front) :
    ∃ c rest, front = c :: rest ∧ isMark c = true := by
  obtain ⟨c, rest, rfl, rfl | rfl, _⟩ := isForm.shape
  · exact ⟨'&', rest, rfl, rfl⟩
  · exact ⟨'%', rest, rfl, rfl⟩

theorem IsEscaped.isMark_head?
    {written : List Char}
    (escaped : IsEscaped delimiter written) :
    ∃ c rest, written = c :: rest ∧ isMark c = true := by
  have of_append {front : List Char} (back : List Char) (isForm : IsForm escapedForms front) :
      ∃ c rest, front ++ back = c :: rest ∧ isMark c = true := by
    obtain ⟨c, rest, rfl, mark⟩ := isForm.isMark_head?
    exact ⟨c, rest ++ back, rfl, mark⟩
  cases escaped with
  | @signs _ sign _ _ _ second firstForm _ =>
      exact of_append second (firstForm.mono sign.mem_escapedForms)
  | opening isReference => exact of_append ['%'] (isReference.mono openReferences_subset)
  | @closing brace _ => exact ⟨'%', brace, rfl, rfl⟩

theorem afterForm?_nil
    {forms : List String}
    (listed : ∀ form ∈ forms, form ∈ escapedForms) :
    afterForm? forms [] = none := by
  cases found : afterForm? forms [] with
  | none => rfl
  | some after =>
      obtain ⟨front, split, isForm⟩ := exists_of_afterForm? found
      obtain ⟨rfl, _⟩ := List.append_eq_nil_iff.mp split.symm
      obtain ⟨_, _, ⟨⟩, _⟩ := (isForm.mono listed).shape

namespace IsTemplate

variable {part : TemplatePart} {parts : List TemplatePart} {pass : Delimiter}

theorem tail (template : IsTemplate (part :: parts)) : IsTemplate parts :=
  ⟨(List.forall_mem_cons.mp template.written).2, template.alternates.tail⟩

/-- What follows a piece is nothing, or it starts with a mark. -/
theorem isMark_head?
    {text : List Char}
    (template : IsTemplate (.piece text :: parts)) :
    ∀ c ∈ (parts.flatMap TemplatePart.written).head?, isMark c = true := by
  cases parts with
  | nil => nofun
  | cons next parts =>
      have precedes := template.alternates.rel
      have nextWritten := template.tail.written next List.mem_cons_self
      cases next with
      | piece => exact precedes.elim
      | delimiter delimiter written =>
          obtain ⟨listed, plainOrEscaped⟩ := nextWritten
          obtain ⟨c, rest, rfl, mark⟩ : ∃ c rest, written = c :: rest ∧ isMark c = true := by
            rcases plainOrEscaped with rfl | escaped
            · exact isMark_head?_plain delimiter listed
            · exact escaped.isMark_head?
          rintro _ ⟨⟩
          exact mark

/-- A delimiter is followed by nothing or by a piece. -/
theorem isFollowed
    {written : List Char}
    (template : IsTemplate (.delimiter delimiter written :: parts)) :
    IsFollowed delimiter (parts.flatMap TemplatePart.written) := by
  cases parts with
  | nil =>
      refine ⟨fun forms braces => afterForm?_nil fun form member => ?_, nofun⟩
      exact List.mem_append_left percentForms (braces form member)
  | cons next parts =>
      have precedes := template.alternates.rel
      have nextWritten := template.tail.written next List.mem_cons_self
      cases next with
      | delimiter => exact precedes.elim
      | piece text =>
          have piece : IsPiece text := nextWritten
          rw [List.flatMap_cons]
          refine ⟨fun forms braces => piece.afterForm?_eq_none braces List.suffix_rfl piece.nonempty
            template.tail.isMark_head?, fun isTag c head => precedes isTag c ?_⟩
          obtain ⟨d, rest, rfl⟩ := List.exists_cons_of_ne_nil piece.nonempty
          exact head

theorem restored
    (template : IsTemplate parts)
    (pass : Delimiter) :
    IsTemplate (parts.map (TemplatePart.restored pass)) where
  written := by
    rw [List.forall_mem_map]
    exact fun part member => (template.written part member).restored pass
  alternates := by
    rw [List.isChain_map]
    exact template.alternates.imp fun _ _ precedes => precedes.restored pass

/-- A pass restores the delimiters of its kind and leaves everything else, if the doubled braces are
restored before the tags. -/
theorem restoreFrom_eq
    (template : IsTemplate parts)
    (listed : pass ∈ delimiters)
    (later : pass = tagOpening → ∀ written, .delimiter valueOpening written ∈ parts →
      written = valueOpening.plain) :
    pass.restoreFrom 0 (parts.flatMap TemplatePart.written) =
      (parts.map (TemplatePart.restored pass)).flatMap TemplatePart.written := by
  induction parts with
  | nil => rfl
  | cons part parts inductionHypothesis =>
      have rest := inductionHypothesis template.tail fun isTag written member =>
        later isTag written (List.mem_cons_of_mem _ member)
      have partWritten := template.written part List.mem_cons_self
      rw [List.flatMap_cons, List.map_cons, List.flatMap_cons, ← rest]
      cases part with
      | piece text =>
          have piece : IsPiece text := partWritten
          exact piece.restoreFrom_append listed template.isMark_head?
      | delimiter delimiter written =>
          have followed := template.isFollowed
          obtain ⟨isDelimiter, rfl | escaped⟩ := partWritten
          · have plain :
                (TemplatePart.restored pass (.delimiter delimiter delimiter.plain)).written =
                  delimiter.plain := by simp [TemplatePart.restored, TemplatePart.written]
            rw [plain]
            exact restoreFrom_plain_append listed isDelimiter followed
          · by_cases same : pass = delimiter
            · subst same
              simp only [TemplatePart.restored, TemplatePart.written, if_pos]
              exact restoreFrom_append_of_found escaped.ne_nil (escaped.after?_eq followed)
            · simp only [TemplatePart.restored, TemplatePart.written, if_neg same]
              by_cases plain : written = delimiter.plain
              · subst plain
                exact restoreFrom_plain_append listed isDelimiter followed
              · refine escaped.restoreFrom_append_of_ne listed same ?_ followed
                rintro isTag rfl
                exact plain (later isTag written List.mem_cons_self)

end IsTemplate

/-! ## The four passes -/

theorem foldl_delimiters (text : List Char) :
    delimiters.foldl (fun text delimiter => delimiter.restoreFrom 0 text) text =
      tagClosing.restoreFrom 0 (tagOpening.restoreFrom 0
        (valueClosing.restoreFrom 0 (valueOpening.restoreFrom 0 text))) := rfl

/-- What is found is an escaped delimiter. -/
theorem exists_isEscaped_of_after?
    (listed : delimiter ∈ delimiters)
    {text after : List Char}
    (found : delimiter.after? text = some after) :
    ∃ written, text = written ++ after ∧ IsEscaped delimiter written := by
  obtain ⟨spelling, member, first, second, rfl, firstForm, secondForm⟩ :=
    Delimiter.exists_of_after? found
  have literal {text : List Char} (isForm : IsForm ["%"] text) : text = ['%'] := by
    obtain ⟨form, isLiteral, same⟩ := isForm
    rw [List.mem_singleton.mp isLiteral] at same
    change text.map Text.lowerChar = ['%'] at same
    obtain ⟨c, rest, rfl, lowered, nil⟩ := List.map_eq_cons_iff.mp same
    obtain rfl : c = '%' := Text.eq_of_lowerChar_eq (by decide) lowered
    rw [List.map_eq_nil_iff.mp nil]
  refine ⟨first ++ second, (List.append_assoc ..).symm, ?_⟩
  rw [delimiters_eq] at listed
  simp only [List.mem_cons, List.not_mem_nil, or_false] at listed
  rcases listed with rfl | rfl | rfl | rfl
  · obtain rfl := List.mem_singleton.mp member
    exact .signs .valueOpening firstForm secondForm
  · obtain rfl := List.mem_singleton.mp member
    exact .signs .valueClosing firstForm secondForm
  · rcases List.mem_pair.mp member with rfl | rfl
    · exact .signs .tagOpening firstForm secondForm
    · obtain rfl := literal secondForm
      exact .opening firstForm
  · rcases List.mem_pair.mp member with rfl | rfl
    · exact .signs .tagClosing firstForm secondForm
    · obtain rfl := literal firstForm
      exact .closing secondForm

/-- A pass leaves a text without escaped delimiters as it is. -/
theorem restoreFrom_eq_self_of_not_isEscaped
    (listed : delimiter ∈ delimiters)
    {text : List Char}
    (plain : ∀ delimiter ∈ delimiters, ∀ written, written <:+: text →
      ¬IsEscaped delimiter written) :
    delimiter.restoreFrom 0 text = text := by
  refine Delimiter.restoreFrom_eq_self fun back isSuffix => ?_
  cases found : delimiter.after? back with
  | none => rfl
  | some after =>
      obtain ⟨written, rfl, escaped⟩ := exists_isEscaped_of_after? listed found
      have inside := (List.infix_append [] written after).trans isSuffix.isInfix
      exact absurd escaped (plain delimiter listed written inside)

theorem TemplatePart.written_restored
    {part : TemplatePart}
    (isWritten : part.IsWritten) :
    ((((part.restored valueOpening).restored valueClosing).restored tagOpening).restored
      tagClosing).written = part.plain := by
  cases part with
  | piece text => rfl
  | delimiter delimiter written =>
      obtain ⟨listed, _⟩ := isWritten
      rw [delimiters_eq] at listed
      simp only [List.mem_cons, List.not_mem_nil, or_false] at listed
      rcases listed with rfl | rfl | rfl | rfl <;> rfl

/-- A template is restored from every way of escaping its delimiters, each on its own, and a text
without an escaped delimiter is left as it is. -/
theorem restoreDelimiters_written :
    (∀ parts, IsTemplate parts →
      restoreDelimiters (String.ofList (parts.flatMap TemplatePart.written)) =
        String.ofList (parts.flatMap TemplatePart.plain)) ∧
      ∀ text : String,
        (∀ delimiter ∈ delimiters, ∀ written, written <:+: text.toList →
          ¬IsEscaped delimiter written) →
        restoreDelimiters text = text := by
  refine ⟨fun parts template => ?_, fun text plain => ?_⟩
  · have listed : valueOpening ∈ delimiters ∧ valueClosing ∈ delimiters ∧
        tagOpening ∈ delimiters ∧ tagClosing ∈ delimiters := by decide
    have valuesOpened := template.restored valueOpening
    have valuesClosed := valuesOpened.restored valueClosing
    have tagsOpened := valuesClosed.restored tagOpening
    have later : tagOpening = tagOpening → ∀ written, .delimiter valueOpening written ∈
        (parts.map (TemplatePart.restored valueOpening)).map (TemplatePart.restored valueClosing) →
          written = valueOpening.plain := by
      intro _ written member
      obtain ⟨next, nextMember, same⟩ := List.mem_map.mp member
      obtain ⟨part, _, rfl⟩ := List.mem_map.mp nextMember
      cases part with
      | piece => cases same
      | delimiter delimiter _ =>
          simp only [TemplatePart.restored, TemplatePart.delimiter.injEq] at same
          obtain ⟨rfl, rfl⟩ := same
          rfl
    rw [restoreDelimiters, foldl_delimiters, String.toList_ofList,
      template.restoreFrom_eq listed.1 (fun same => absurd same (by decide)),
      valuesOpened.restoreFrom_eq listed.2.1 (fun same => absurd same (by decide)),
      valuesClosed.restoreFrom_eq listed.2.2.1 later,
      tagsOpened.restoreFrom_eq listed.2.2.2 (fun same => absurd same (by decide))]
    congr 1
    simp only [List.flatMap_map]
    exact List.flatMap_congr fun part member =>
      TemplatePart.written_restored (template.written part member)
  · have unchanged : ∀ delimiter ∈ delimiters,
        delimiter.restoreFrom 0 text.toList = text.toList :=
      fun _ listed => restoreFrom_eq_self_of_not_isEscaped listed plain
    rw [restoreDelimiters, foldl_delimiters, unchanged valueOpening (by decide),
      unchanged valueClosing (by decide), unchanged tagOpening (by decide),
      unchanged tagClosing (by decide), String.ofList_toList]

/-- Four delimiters in one text, each escaped in another way. -/
theorem restoreDelimiters_tag :
    restoreDelimiters "a%7B&#X7b; b &rcub;%7d &amp; 5%% &LBRACE;% if &#X25;&#125;%41" =
      "a{{ b }} &amp; 5%% {% if %}%41" := by
  have template : IsTemplate
      [.piece "a".toList, .delimiter valueOpening ("%7B".toList ++ "&#X7b;".toList),
        .piece " b ".toList, .delimiter valueClosing ("&rcub;".toList ++ "%7d".toList),
        .piece " &amp; 5%% ".toList, .delimiter tagOpening ("&LBRACE;".toList ++ ['%']),
        .piece " if ".toList, .delimiter tagClosing ("&#X25;".toList ++ "&#125;".toList),
        .piece "%41".toList] := by
    constructor
    · simp only [List.forall_mem_cons, TemplatePart.IsWritten]
      refine ⟨by decide, ⟨by decide, .inr (.signs .valueOpening ?_ ?_)⟩, by decide,
        ⟨by decide, .inr (.signs .valueClosing ?_ ?_)⟩, by decide,
        ⟨by decide, .inr (.opening ?_)⟩, by decide,
        ⟨by decide, .inr (.signs .tagClosing ?_ ?_)⟩, by decide, nofun⟩
      all_goals unfold IsForm; decide
    · simp [TemplatePart.Precedes, valueOpening, valueClosing, tagOpening, tagClosing,
        Text.isAsciiDigit_eq_isDigit]
  have restored := restoreDelimiters_written.1 _ template
  rwa [show String.ofList _ =
      "a%7B&#X7b; b &rcub;%7d &amp; 5%% &LBRACE;% if &#X25;&#125;%41" by rfl,
    show String.ofList _ = "a{{ b }} &amp; 5%% {% if %}%41" by rfl] at restored

end Page
end MailPress
