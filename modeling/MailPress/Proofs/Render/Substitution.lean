import Mathlib.Algebra.Group.Nat.Defs
import Mathlib.Data.List.Infix
import Mathlib.Data.List.TakeWhile
import MailPress.Proofs.Text.Search
import MailPress.Render.Substitution

/-!
# What substitution keeps

A source made of literal text and value tags is rendered to the same literal text with the values
in the places of the tags. A tag ends in as many as three braces, so a single closing brace right
behind a tag of two is taken for a part of the tag. No other character of the literal text is
lost, and nothing that was put in is read again.
-/

namespace MailPress

/-! ## Following a path -/

namespace Json

/-- Following keys from a value leads to another one: a key names a member of an object, or an
element of an array by its number. -/
inductive Leads : Json → List String → Json → Prop
  /-- No keys lead anywhere else. -/
  | here (value : Json) : Leads value [] value
  /-- A key names a member. -/
  | member {members : List (String × Json)} {key : String} {value last : Json} {keys : List String}
      (found : members.lookup key = some value) (rest : Leads value keys last) :
      Leads (.obj members) (key :: keys) last
  /-- A key is the number of an element. -/
  | element {elements : List Json} {key : String} {index : Nat} {value last : Json}
      {keys : List String} (digits : ∀ c ∈ key.toList, Text.isAsciiDigit c = true)
      (nonempty : key.toList ≠ []) (number : Text.decimalValue key.toList = index)
      (fits : index < 2 ^ 64) (found : elements[index]? = some value)
      (rest : Leads value keys last) : Leads (.arr elements) (key :: keys) last

end Json

namespace Render

theorem arrayIndex?_eq_some_iff {key : String} {index : Nat} :
    arrayIndex? key = some index ↔
      (∀ c ∈ key.toList, Text.isAsciiDigit c = true) ∧ key.toList ≠ [] ∧
        Text.decimalValue key.toList = index ∧ index < 2 ^ 64 := by
  unfold arrayIndex?
  dsimp only
  by_cases digits : (key.toList.isEmpty || !key.toList.all Text.isAsciiDigit) = true
  · rw [if_pos digits]
    simp only [Bool.or_eq_true, List.isEmpty_iff, Bool.not_eq_true', List.all_eq_false] at digits
    refine ⟨nofun, fun ⟨all, nonempty, _⟩ => ?_⟩
    obtain empty | ⟨c, member, other⟩ := digits
    · exact absurd empty nonempty
    · exact absurd (all c member) other
  · rw [if_neg digits]
    simp only [Bool.not_eq_true, Bool.or_eq_false_iff, List.isEmpty_eq_false_iff,
      Bool.not_eq_false', List.all_eq_true] at digits
    simp only [Option.ite_none_right_eq_some, Option.some.injEq]
    constructor
    · rintro ⟨fits, rfl⟩
      exact ⟨digits.2, digits.1, rfl, fits⟩
    · rintro ⟨_, _, rfl, fits⟩
      exact ⟨fits, rfl⟩

theorem leads_cons_iff {context last : Json} {key : String} {keys : List String} :
    context.Leads (key :: keys) last ↔
      ∃ value, member? context key = some value ∧ value.Leads keys last := by
  constructor
  · rintro (_ | ⟨found, rest⟩ | ⟨digits, nonempty, number, fits, found, rest⟩)
    · exact ⟨_, found, rest⟩
    · refine ⟨_, ?_, rest⟩
      rw [member?, arrayIndex?_eq_some_iff.mpr ⟨digits, nonempty, number, fits⟩]
      exact found
  · rintro ⟨value, found, rest⟩
    cases context with
    | obj members => exact .member found rest
    | arr elements =>
        obtain ⟨index, named, found⟩ := Option.bind_eq_some_iff.mp found
        obtain ⟨digits, nonempty, number, fits⟩ := arrayIndex?_eq_some_iff.mp named
        exact .element digits nonempty number fits found rest
    | _ => cases found

/-- The keys of a dotted path. -/
def keysOf (path : List Char) : List String :=
  (Text.splitAtEach (· == '.') path).map String.ofList

theorem foldlM_member?_eq_some_iff {context last : Json} {keys : List String} :
    keys.foldlM member? context = some last ↔ context.Leads keys last := by
  induction keys generalizing context with
  | nil =>
      constructor
      · rintro ⟨⟩
        exact .here _
      · rintro ⟨⟩
        rfl
  | cons key keys inductionHypothesis =>
      rw [List.foldlM_cons, leads_cons_iff]
      exact Option.bind_eq_some_iff.trans
        (exists_congr fun value => and_congr_right fun _ => inductionHypothesis)

theorem lookupPath_eq_some_iff {context value : Json} {path : List Char} :
    lookupPath context path = some value ↔ context.Leads (keysOf path) value :=
  foldlM_member?_eq_some_iff

/-- The text that a path stands for: the printed form of the value that it leads to, or nothing
where it leads nowhere. -/
def Prints (context : Json) (path text : List Char) : Prop :=
  (∃ value, context.Leads (keysOf path) value ∧ text = (printValue value).toList) ∨
    (∀ value, ¬context.Leads (keysOf path) value) ∧ text = []

theorem prints_valueText (context : Json) (path : List Char) :
    Prints context path (valueText context path) := by
  unfold valueText
  cases found : lookupPath context path with
  | none =>
      refine .inr ⟨fun value leads => ?_, rfl⟩
      cases found.symm.trans (lookupPath_eq_some_iff.mpr leads)
  | some value => exact .inl ⟨value, lookupPath_eq_some_iff.mp found, rfl⟩

/-! ## Reading tags -/

variable {tag? : List Char → Option (List Char × List Char)} {replacement : List Char → List Char}
  {text rest : List Char} {c : Char}

/-- A tag starts with two braces. -/
def StartsWithBraces (tag? : List Char → Option (List Char × List Char)) : Prop :=
  ∀ text, (tag? text).isSome = true → ∃ inner, text = '{' :: '{' :: inner

theorem startsWithBraces_valueTag? : StartsWithBraces valueTag? := by
  intro text found
  unfold valueTag? at found
  split at found
  · exact ⟨_, rfl⟩
  · cases found

theorem startsWithBraces_partialTag? : StartsWithBraces partialTag? := by
  intro text found
  unfold partialTag? at found
  split at found
  · exact ⟨_, rfl⟩
  · cases found

/-- Literal text in which no tag can begin: it holds no two braces, and makes no two with what
follows. -/
def IsInert (text rest : List Char) : Prop :=
  ¬['{', '{'] <:+: text ∧ (text.getLast? ≠ some '{' ∨ rest.head? ≠ some '{')

theorem IsInert.tail (inert : IsInert (c :: text) rest) : IsInert text rest := by
  refine ⟨fun pair => inert.1 (pair.trans (List.suffix_cons c text).isInfix), ?_⟩
  refine inert.2.imp_left fun plain => ?_
  cases text with
  | nil => exact nofun
  | cons d text => rwa [List.getLast?_cons_cons] at plain

/-- No tag begins in literal text. -/
theorem StartsWithBraces.eq_none
    (starts : StartsWithBraces tag?)
    (inert : IsInert (c :: text) rest) :
    tag? (c :: (text ++ rest)) = none := by
  rw [← Option.not_isSome_iff_eq_none]
  intro found
  obtain ⟨inner, whole⟩ := starts _ found
  obtain ⟨rfl, eq⟩ := List.cons.inj whole
  cases text with
  | nil =>
      rcases inert.2 with last | next
      · exact last rfl
      · rw [List.nil_append] at eq
        exact next (congrArg List.head? eq)
  | cons d text =>
      obtain ⟨same, _⟩ := List.cons.inj eq
      exact inert.1 ⟨[], text, by rw [same]; rfl⟩

/-- Literal text stays as it is. -/
theorem StartsWithBraces.replaceTagsFrom_append
    (starts : StartsWithBraces tag?)
    (inert : IsInert text rest) :
    replaceTagsFrom tag? replacement 0 (text ++ rest) =
      text ++ replaceTagsFrom tag? replacement 0 rest := by
  induction text with
  | nil => rfl
  | cons c text inductionHypothesis =>
      rw [List.cons_append, replaceTagsFrom, starts.eq_none inert]
      exact congrArg _ (inductionHypothesis inert.tail)

theorem StartsWithBraces.hasTag_append
    (starts : StartsWithBraces tag?)
    (inert : IsInert text rest) :
    hasTag tag? (text ++ rest) = hasTag tag? rest := by
  induction text with
  | nil => rfl
  | cons c text inductionHypothesis =>
      rw [List.cons_append, hasTag, starts.eq_none inert, inductionHypothesis inert.tail]
      rfl

/-- Characters that are skipped are gone. -/
theorem replaceTagsFrom_skip
    (tag? : List Char → Option (List Char × List Char))
    (replacement : List Char → List Char)
    (skipped rest : List Char) :
    replaceTagsFrom tag? replacement skipped.length (skipped ++ rest) =
      replaceTagsFrom tag? replacement 0 rest := by
  induction skipped with
  | nil => rfl
  | cons c skipped inductionHypothesis => exact inductionHypothesis

/-- A tag gives way to its replacement. -/
theorem replaceTagsFrom_of_tag
    {name written : List Char}
    (nonempty : written ≠ [])
    (found : tag? (written ++ rest) = some (name, rest)) :
    replaceTagsFrom tag? replacement 0 (written ++ rest) =
      replacement name ++ replaceTagsFrom tag? replacement 0 rest := by
  obtain ⟨c, written, rfl⟩ := List.exists_cons_of_ne_nil nonempty
  have skipped : (written ++ rest).length - rest.length = written.length := by simp
  rw [List.cons_append] at found ⊢
  simp only [replaceTagsFrom, found, skipped, replaceTagsFrom_skip]

/-- Text without a closing brace at its start. -/
def withoutBrace : List Char → List Char
  | '}' :: rest => rest
  | text => text

/-- A tag that begins with two braces ends in two, or in three if there are three. -/
theorem valueTag?_of_takeNamePart
    {path left : List Char}
    (two : c ≠ '{')
    (taken : takeNamePart isPathChar (c :: rest) = some (path, '}' :: '}' :: left)) :
    valueTag? ('{' :: '{' :: c :: rest) = some (path, withoutBrace left) := by
  cases left with
  | nil => simp [valueTag?, two, taken, withoutBrace]
  | cons d left =>
      by_cases third : d = '}'
      · simp [valueTag?, two, taken, withoutBrace, third]
      · simp [valueTag?, two, taken, withoutBrace, third]

/-! ## Stencils -/

/-- A character of a plain path: a letter, a digit, an underscore, a dot or a hyphen of ASCII. -/
def isPlainPathChar (c : Char) : Bool :=
  Text.isAsciiAlphanumeric c || c == '_' || c == '.' || c == '-'

/-- A value tag, with the literal text behind it. -/
structure Slot where
  /-- The blanks in front of the path. -/
  before : List Char
  /-- The dotted path. -/
  path : List Char
  /-- The blanks behind the path. -/
  after : List Char
  /-- The literal text up to the next tag. -/
  literal : List Char

/-- A tag holds a path, and blanks around it. -/
structure Slot.IsPlain (slot : Slot) : Prop where
  /-- Only blanks stand in front of the path. -/
  before : ∀ c ∈ slot.before, Text.isBlank c = true
  /-- The path is not empty. -/
  nonempty : slot.path ≠ []
  /-- The path is a word of plain characters. -/
  path : ∀ c ∈ slot.path, isPlainPathChar c = true
  /-- Only blanks stand behind the path. -/
  after : ∀ c ∈ slot.after, Text.isBlank c = true

instance (slot : Slot) : Decidable slot.IsPlain :=
  decidable_of_iff (slot.before.all Text.isBlank = true ∧ slot.path ≠ [] ∧
      slot.path.all isPlainPathChar = true ∧ slot.after.all Text.isBlank = true) <| by
    simp only [List.all_eq_true]
    exact ⟨fun ⟨before, nonempty, path, after⟩ => ⟨before, nonempty, path, after⟩,
      fun ⟨before, nonempty, path, after⟩ => ⟨before, nonempty, path, after⟩⟩

/-- The written form of a tag. -/
def Slot.tag (slot : Slot) : List Char :=
  '{' :: '{' :: (slot.before ++ (slot.path ++ (slot.after ++ ['}', '}'])))

/-- Literal text with value tags in it. -/
structure Stencil where
  /-- The literal text in front of the first tag. -/
  start : List Char
  /-- The tags, each with the literal text behind it. -/
  slots : List Slot

namespace Stencil

/-- The source that a stencil stands for. -/
def write (stencil : Stencil) : List Char :=
  stencil.start ++ stencil.slots.flatMap fun slot => slot.tag ++ slot.literal

/-- The literal text with other texts in the places of the tags. -/
def filled (stencil : Stencil) (text : List Char → List Char) : List Char :=
  stencil.start ++ stencil.slots.flatMap fun slot => text slot.path ++ slot.literal

/-- The pieces of literal text. -/
def literals (stencil : Stencil) : List (List Char) :=
  stencil.start :: stencil.slots.map Slot.literal

/-- What the tags and the literal text of a stencil look like. -/
structure IsPlain (stencil : Stencil) : Prop where
  /-- The tags hold a path and blanks. -/
  slots : ∀ slot ∈ stencil.slots, slot.IsPlain
  /-- Literal text holds no two braces of a kind. -/
  braces : ∀ literal ∈ stencil.literals, ¬['{', '{'] <:+: literal ∧ ¬['}', '}'] <:+: literal
  /-- Literal text in front of a tag does not end in an opening brace. -/
  apart : ∀ literal ∈ stencil.literals.dropLast, literal.getLast? ≠ some '{'

instance (stencil : Stencil) : Decidable stencil.IsPlain :=
  decidable_of_iff ((∀ slot ∈ stencil.slots, slot.IsPlain) ∧
      (∀ literal ∈ stencil.literals, ¬['{', '{'] <:+: literal ∧ ¬['}', '}'] <:+: literal) ∧
      ∀ literal ∈ stencil.literals.dropLast, literal.getLast? ≠ some '{')
    ⟨fun ⟨slots, braces, apart⟩ => ⟨slots, braces, apart⟩,
      fun ⟨slots, braces, apart⟩ => ⟨slots, braces, apart⟩⟩

end Stencil

/-- A tag that takes the closing brace behind it. -/
def Slot.closed (slot : Slot) : Slot :=
  { slot with literal := withoutBrace slot.literal }

/-- A stencil whose tags take the closing braces behind them. -/
def Stencil.closed (stencil : Stencil) : Stencil :=
  { stencil with slots := stencil.slots.map Slot.closed }

/-! ## Characters of tags -/

/-- A character is neither a brace nor the sign of a partial. -/
def IsUnmarked (c : Char) : Prop :=
  c ≠ '{' ∧ c ≠ '}' ∧ c ≠ '>'

instance (c : Char) : Decidable (IsUnmarked c) :=
  inferInstanceAs (Decidable (_ ∧ _))

theorem isPathChar_of_isPlainPathChar (plain : isPlainPathChar c = true) :
    isPathChar c = true ∧ Text.isBlank c = false ∧ IsUnmarked c := by
  have codes : ∀ code < 128, isPlainPathChar (Char.ofNat code) = true →
      isPathChar (Char.ofNat code) = true ∧ Text.isBlank (Char.ofNat code) = false ∧
        IsUnmarked (Char.ofNat code) := by decide +kernel
  have small : c.toNat < 128 := by
    simp only [isPlainPathChar, Text.isAsciiAlphanumeric, Bool.or_eq_true, Bool.and_eq_true,
      decide_eq_true_eq, beq_iff_eq, Char.le_def, UInt32.le_iff_toNat_le] at plain
    rcases plain with ((((⟨_, upper⟩ | ⟨_, upper⟩) | ⟨_, upper⟩) | rfl) | rfl) | rfl
    · exact Nat.lt_of_le_of_lt upper (by decide)
    · exact Nat.lt_of_le_of_lt upper (by decide)
    · exact Nat.lt_of_le_of_lt upper (by decide)
    all_goals decide
  have here := codes c.toNat small
  rw [Char.ofNat_toNat] at here
  exact here plain

theorem not_isPathChar_of_isBlank (blank : Text.isBlank c = true) :
    isPathChar c = false ∧ IsUnmarked c := by
  have codes : ∀ code ∈ [9, 10, 11, 12, 13, 0x20, 0x85, 0xA0, 0x1680, 0x2000, 0x2001, 0x2002,
      0x2003, 0x2004, 0x2005, 0x2006, 0x2007, 0x2008, 0x2009, 0x200A, 0x2028, 0x2029, 0x202F,
      0x205F, 0x3000], isPathChar (Char.ofNat code) = false ∧ IsUnmarked (Char.ofNat code) := by
    decide +kernel
  have here := codes c.toNat (by
    simp only [Text.isBlank, Bool.or_eq_true, Bool.and_eq_true, decide_eq_true_eq,
      beq_iff_eq] at blank
    simp only [List.mem_cons, List.not_mem_nil, or_false]
    omega)
  rwa [Char.ofNat_toNat] at here

section Names

variable {isNamePart : Char → Bool} {name : List Char}

/-- A name is taken whole, together with the blanks around it. -/
theorem takeNamePart_append
    {before after : List Char}
    (apart : ∀ c, Text.isBlank c = true → isNamePart c = false)
    (blanksBefore : ∀ c ∈ before, Text.isBlank c = true)
    (nonempty : name ≠ [])
    (inName : ∀ c ∈ name, isNamePart c = true)
    (blanksAfter : ∀ c ∈ after, Text.isBlank c = true)
    (notBlank : Text.isBlank c = false)
    (notInName : isNamePart c = false) :
    takeNamePart isNamePart (before ++ (name ++ (after ++ c :: rest))) = some (name, c :: rest) := by
  have start : (before ++ (name ++ (after ++ c :: rest))).dropWhile Text.isBlank =
      name ++ (after ++ c :: rest) := by
    obtain ⟨first, others, rfl⟩ := List.exists_cons_of_ne_nil nonempty
    rw [List.dropWhile_append_of_pos blanksBefore, List.cons_append, List.dropWhile_cons_of_neg]
    intro blank
    exact Bool.false_ne_true ((apart first blank).symm.trans (inName first List.mem_cons_self))
  have behind : (after ++ c :: rest).takeWhile isNamePart = [] ∧
      (after ++ c :: rest).dropWhile isNamePart = after ++ c :: rest := by
    cases after with
    | nil => exact ⟨List.takeWhile_cons_of_neg (by simp [notInName]),
        List.dropWhile_cons_of_neg (by simp [notInName])⟩
    | cons first others =>
        have other := apart first (blanksAfter first List.mem_cons_self)
        exact ⟨List.takeWhile_cons_of_neg (by simp [other]),
          List.dropWhile_cons_of_neg (by simp [other])⟩
  have finish : (after ++ c :: rest).dropWhile Text.isBlank = c :: rest := by
    rw [List.dropWhile_append_of_pos blanksAfter, List.dropWhile_cons_of_neg (by simp [notBlank])]
  have taken : (name ++ (after ++ c :: rest)).takeWhile isNamePart = name := by
    rw [List.takeWhile_append_of_pos inName, behind.1, List.append_nil]
  have left : (name ++ (after ++ c :: rest)).dropWhile isNamePart = after ++ c :: rest := by
    rw [List.dropWhile_append_of_pos inName, behind.2]
  unfold takeNamePart
  dsimp only
  rw [start, taken, left, finish, if_neg]
  simpa using nonempty

/-- What is taken is a name with blanks around it. -/
theorem exists_of_takeNamePart (taken : takeNamePart isNamePart text = some (name, rest)) :
    ∃ before after, text = before ++ (name ++ (after ++ rest)) ∧
      (∀ c ∈ before, Text.isBlank c = true) ∧ name ≠ [] ∧
        (∀ c ∈ name, isNamePart c = true) ∧ ∀ c ∈ after, Text.isBlank c = true := by
  unfold takeNamePart at taken
  dsimp only at taken
  split at taken
  · cases taken
  · next nonempty =>
      obtain ⟨rfl, rfl⟩ := Prod.mk.inj (Option.some.inj taken)
      refine ⟨text.takeWhile Text.isBlank,
        ((text.dropWhile Text.isBlank).dropWhile isNamePart).takeWhile Text.isBlank, ?_,
        fun _ => List.mem_takeWhile_imp, by simpa using nonempty, fun _ => List.mem_takeWhile_imp,
        fun _ => List.mem_takeWhile_imp⟩
      rw [List.takeWhile_append_dropWhile, List.takeWhile_append_dropWhile,
        List.takeWhile_append_dropWhile]

end Names

namespace Slot.IsPlain

variable {slot : Slot}

/-- The path of a tag is taken whole, together with the blanks around it. -/
theorem takeNamePart_eq (plain : slot.IsPlain) (rest : List Char) :
    takeNamePart isPathChar (slot.before ++ (slot.path ++ (slot.after ++ '}' :: rest))) =
      some (slot.path, '}' :: rest) :=
  takeNamePart_append (fun _ blank => (not_isPathChar_of_isBlank blank).1) plain.before
    plain.nonempty (fun c member => (isPathChar_of_isPlainPathChar (plain.path c member)).1)
    plain.after (by decide) (by decide +kernel)

/-- Between the braces of a tag there are no braces. -/
theorem isUnmarked (plain : slot.IsPlain) :
    ∀ c ∈ slot.before ++ (slot.path ++ slot.after), IsUnmarked c := by
  intro c member
  rcases List.mem_append.mp member with before | member
  · exact (not_isPathChar_of_isBlank (plain.before c before)).2
  · rcases List.mem_append.mp member with path | after
    · exact (isPathChar_of_isPlainPathChar (plain.path c path)).2.2
    · exact (not_isPathChar_of_isBlank (plain.after c after)).2

/-- The first character between the braces of a tag is neither a brace nor the sign of a
partial. -/
theorem exists_first (plain : slot.IsPlain) :
    ∃ first inner, IsUnmarked first ∧ slot.tag = '{' :: '{' :: first :: inner ∧
      first :: inner = slot.before ++ (slot.path ++ (slot.after ++ ['}', '}'])) := by
  have unmarked := plain.isUnmarked
  cases split : slot.before ++ (slot.path ++ slot.after) with
  | nil =>
      exact absurd (List.append_eq_nil_iff.mp (List.append_eq_nil_iff.mp split).2).1 plain.nonempty
  | cons first others =>
      have whole : first :: (others ++ ['}', '}']) =
          slot.before ++ (slot.path ++ (slot.after ++ ['}', '}'])) := by
        rw [← List.cons_append, ← split]
        simp only [List.append_assoc]
      refine ⟨first, others ++ ['}', '}'], unmarked first (split ▸ List.mem_cons_self), ?_, whole⟩
      rw [Slot.tag, ← whole]

/-- A tag is found where it begins, and takes the closing brace behind it. -/
theorem valueTag?_append (plain : slot.IsPlain) (rest : List Char) :
    valueTag? (slot.tag ++ rest) = some (slot.path, withoutBrace rest) := by
  obtain ⟨first, inner, unmarked, tag, whole⟩ := plain.exists_first
  have name := plain.takeNamePart_eq ('}' :: rest)
  have inside : first :: (inner ++ rest) =
      slot.before ++ (slot.path ++ (slot.after ++ '}' :: '}' :: rest)) := by
    rw [← List.cons_append, whole]
    simp only [List.append_assoc, List.cons_append, List.nil_append]
  rw [tag]
  simp only [List.cons_append]
  exact valueTag?_of_takeNamePart unmarked.1 (inside ▸ name)

/-- No partial is named by a tag. -/
theorem hasTag_partialTag?_append (plain : slot.IsPlain) (rest : List Char) :
    hasTag partialTag? (slot.tag ++ rest) = hasTag partialTag? rest := by
  obtain ⟨first, inner, unmarked, tag, whole⟩ := plain.exists_first
  have none : partialTag? ('{' :: '{' :: first :: (inner ++ rest)) = none := by
    unfold partialTag?
    split
    · next same =>
        exact absurd (List.cons.inj (List.cons.inj (List.cons.inj same).2).2).1 unmarked.2.2
    · rfl
  have inert : IsInert ('{' :: first :: inner) rest := by
    have noBrace : '{' ∉ first :: inner := by
      rw [whole, ← List.append_assoc, ← List.append_assoc, List.append_assoc slot.before]
      intro member
      rcases List.mem_append.mp member with inside | closing
      · exact (plain.isUnmarked _ inside).1 rfl
      · simp at closing
    refine ⟨fun pair => ?_, .inl fun last => noBrace ?_⟩
    · rcases List.infix_cons_iff.mp pair with start | inside
      · exact noBrace (List.IsPrefix.mem List.mem_cons_self (List.cons_prefix_cons.mp start).2)
      · exact noBrace (inside.subset List.mem_cons_self)
    · rw [List.getLast?_cons_cons] at last
      exact List.mem_of_getLast? last
  rw [tag]
  simp only [List.cons_append]
  rw [hasTag, none]
  exact startsWithBraces_partialTag?.hasTag_append inert

end Slot.IsPlain

/-! ## Rendering stencils -/

theorem exists_eq_withoutBrace (text : List Char) :
    (text = '}' :: withoutBrace text ∧ text.head? = some '}') ∨
      (withoutBrace text = text ∧ text.head? ≠ some '}') := by
  unfold withoutBrace
  split
  · exact .inl ⟨rfl, rfl⟩
  · next other =>
      refine .inr ⟨rfl, fun closing => ?_⟩
      obtain ⟨rest, rfl⟩ := List.head?_eq_some_iff.mp closing
      exact other rest rfl

theorem withoutBrace_suffix (text : List Char) : withoutBrace text <:+ text := by
  rcases exists_eq_withoutBrace text with ⟨eq, _⟩ | ⟨eq, _⟩
  · exact ⟨['}'], eq.symm⟩
  · exact ⟨[], (List.nil_append _).trans eq⟩

namespace Stencil

variable {slot : Slot} {slots : List Slot} {start : List Char}

namespace IsPlain

/-- What stands behind a tag is a stencil again, with its literal text cut short or not. -/
theorem tail
    (plain : IsPlain ⟨start, slot :: slots⟩)
    (suffix : text <:+ slot.literal) :
    IsPlain ⟨text, slots⟩ := by
  refine ⟨fun other member => plain.slots other (List.mem_cons_of_mem slot member), ?_, ?_⟩
  · refine List.forall_mem_cons.mpr ⟨?_, fun literal member => ?_⟩
    · obtain ⟨opening, closing⟩ := plain.braces slot.literal (by simp [literals])
      exact ⟨fun pair => opening (pair.trans suffix.isInfix),
        fun pair => closing (pair.trans suffix.isInfix)⟩
    · exact plain.braces literal (List.mem_cons_of_mem _ (List.mem_cons_of_mem _ member))
  · cases slots with
    | nil => exact fun literal member => absurd member List.not_mem_nil
    | cons next slots =>
        refine List.forall_mem_cons.mpr ⟨fun last => ?_, fun literal member => ?_⟩
        · refine plain.apart slot.literal (by simp [literals]) ?_
          obtain ⟨front, split⟩ := suffix
          rw [← split, List.getLast?_append, show text.getLast? = some '{' from last,
            Option.some_or]
        · exact plain.apart literal (List.mem_cons_of_mem _ (List.mem_cons_of_mem _ member))

/-- The literal text in front of the first tag stays as it is. -/
theorem isInert_start (plain : IsPlain ⟨start, slots⟩) :
    IsInert start (slots.flatMap fun slot => slot.tag ++ slot.literal) := by
  refine ⟨(plain.braces start List.mem_cons_self).1, ?_⟩
  cases slots with
  | nil => exact .inr nofun
  | cons slot slots => exact .inl (plain.apart start (by simp [literals]))

end IsPlain

theorem withoutBrace_write (start : List Char) (slots : List Slot) :
    withoutBrace (write ⟨start, slots⟩) = write ⟨withoutBrace start, slots⟩ := by
  cases start with
  | nil => cases slots <;> rfl
  | cons c start =>
      by_cases closing : c = '}'
      · subst closing
        rfl
      · simp [withoutBrace, write, closing]

/-- A tag gives way to its replacement, together with a closing brace behind it. -/
theorem replaceTagsFrom_tag
    (plain : slot.IsPlain)
    (replacement : List Char → List Char)
    (rest : List Char) :
    replaceTagsFrom valueTag? replacement 0 (slot.tag ++ rest) =
      replacement slot.path ++ replaceTagsFrom valueTag? replacement 0 (withoutBrace rest) := by
  have found := plain.valueTag?_append rest
  rcases exists_eq_withoutBrace rest with ⟨eq, _⟩ | ⟨eq, _⟩
  · have whole : slot.tag ++ rest = (slot.tag ++ ['}']) ++ withoutBrace rest := by
      rw [List.append_assoc, List.singleton_append, ← eq]
    rw [whole] at found ⊢
    exact replaceTagsFrom_of_tag (by simp) found
  · rw [eq] at found ⊢
    exact replaceTagsFrom_of_tag (by simp [Slot.tag]) found

/-- The values are put in, and every tag takes a closing brace behind it. -/
theorem replaceTagsFrom_write
    (plain : IsPlain ⟨start, slots⟩)
    (replacement : List Char → List Char) :
    replaceTagsFrom valueTag? replacement 0 (write ⟨start, slots⟩) =
      filled (closed ⟨start, slots⟩) replacement := by
  rw [write, startsWithBraces_valueTag?.replaceTagsFrom_append plain.isInert_start]
  dsimp only [filled, closed]
  rw [List.append_cancel_left_eq]
  induction slots generalizing start with
  | nil => rfl
  | cons slot slots inductionHypothesis =>
      have rest := plain.tail (withoutBrace_suffix slot.literal)
      have inert : replaceTagsFrom valueTag? replacement 0
            (write ⟨withoutBrace slot.literal, slots⟩) =
          withoutBrace slot.literal ++ replaceTagsFrom valueTag? replacement 0
            (slots.flatMap fun slot => slot.tag ++ slot.literal) :=
        startsWithBraces_valueTag?.replaceTagsFrom_append rest.isInert_start
      rw [List.flatMap_cons, List.append_assoc,
        replaceTagsFrom_tag (plain.slots slot List.mem_cons_self)]
      have cut := withoutBrace_write slot.literal slots
      dsimp only [write] at cut inert
      rw [cut, inert, inductionHypothesis rest]
      simp [Slot.closed]

/-- No partial is named in a stencil. -/
theorem hasTag_write (plain : IsPlain ⟨start, slots⟩) :
    hasTag partialTag? (write ⟨start, slots⟩) = false := by
  rw [write, startsWithBraces_partialTag?.hasTag_append plain.isInert_start]
  induction slots generalizing start with
  | nil => rfl
  | cons slot slots inductionHypothesis =>
      have rest := plain.tail (List.suffix_refl slot.literal)
      rw [List.flatMap_cons, List.append_assoc,
        (plain.slots slot List.mem_cons_self).hasTag_partialTag?_append,
        startsWithBraces_partialTag?.hasTag_append rest.isInert_start]
      exact inductionHypothesis rest

/-- A closed stencil gives a text that is shorter by the closing braces behind tags. -/
theorem length_filled_closed (stencil : Stencil) (text : List Char → List Char) :
    (stencil.closed.filled text).length +
        stencil.slots.countP (fun slot => slot.literal.head? == some '}') =
      (stencil.filled text).length := by
  obtain ⟨start, slots⟩ := stencil
  dsimp only [closed, filled]
  rw [List.length_append, List.length_append, Nat.add_assoc, Nat.add_left_cancel_iff]
  induction slots with
  | nil => rfl
  | cons slot slots inductionHypothesis =>
      simp only [List.map_cons, List.flatMap_cons, List.length_append, List.countP_cons]
      rcases exists_eq_withoutBrace slot.literal with ⟨eq, closing⟩ | ⟨eq, other⟩
      · have shorter := congrArg List.length eq
        simp only [List.length_cons] at shorter
        simp only [Slot.closed, closing, beq_self_eq_true, if_true]
        omega
      · simp only [Slot.closed, eq, beq_false_of_ne other, Bool.false_eq_true, if_false]
        omega

/-- Nothing is missing from a closed stencil exactly when no closing brace stands behind a tag. -/
theorem filled_closed_eq_iff (stencil : Stencil) (text : List Char → List Char) :
    stencil.closed.filled text = stencil.filled text ↔
      ∀ slot ∈ stencil.slots, slot.literal.head? ≠ some '}' := by
  have length := stencil.length_filled_closed text
  constructor
  · intro same
    rw [same, Nat.add_eq_left, List.countP_eq_zero] at length
    intro slot member
    simpa using length slot member
  · intro apart
    have same : ∀ slot ∈ stencil.slots, slot.closed = slot := by
      intro slot member
      rcases exists_eq_withoutBrace slot.literal with ⟨_, closing⟩ | ⟨eq, _⟩
      · exact absurd closing (apart slot member)
      · rw [Slot.closed, eq]
    rw [closed, List.map_congr_left same, List.map_id']

end Stencil

/-- Literal text with value tags in it is rendered by every renderer, to the same text with the
printed values in the places of the tags, except that every tag takes a closing brace behind it.
So the literal text is kept whole exactly when no closing brace stands right behind a tag. -/
theorem substitute_keeps_literals_iff
    {stencil : Stencil}
    (plain : stencil.IsPlain)
    (partials : Partials)
    (name : String)
    (context : Json) :
    ∃ text, (∀ path, Prints context path (text path)) ∧
      substitute partials name (String.ofList stencil.write) context =
          .ok (String.ofList (stencil.closed.filled text)) ∧
        (substitute partials name (String.ofList stencil.write) context =
            .ok (String.ofList (stencil.filled text)) ↔
          ∀ slot ∈ stencil.slots, slot.literal.head? ≠ some '}') := by
  have rendered : substitute partials name (String.ofList stencil.write) context =
      .ok (String.ofList (stencil.closed.filled (valueText context))) := by
    rw [substitute, String.toList_ofList, partialDepth, expandPartials, if_neg]
    · exact congrArg (Except.ok ∘ String.ofList) (Stencil.replaceTagsFrom_write plain _)
    · rw [Stencil.hasTag_write plain]
      exact Bool.false_ne_true
  refine ⟨valueText context, prints_valueText context, rendered, ?_⟩
  rw [rendered, Except.ok.injEq, String.ofList_inj, Stencil.filled_closed_eq_iff]

/-! ### Tags in a style sheet -/

/-- A rule whose colour is a value, with some text behind the tag. -/
def colourRule (behind : List Char) : Stencil where
  start := "a\x7bcolor:".toList
  slots := [⟨[' '], ['c'], [' '], behind⟩]

theorem substitute_keeps_literals_iff_semicolon :
    (colourRule [';', '}']).IsPlain ∧
      ∃ text, (∀ path, Prints (.obj [("c", .str "red")]) path (text path)) ∧
        substitute .empty "t" "a\x7bcolor:\x7b\x7b c \x7d\x7d;\x7d" (.obj [("c", .str "red")]) =
          .ok (String.ofList ((colourRule [';', '}']).filled text)) := by
  have plain : (colourRule [';', '}']).IsPlain := by decide
  obtain ⟨text, prints, _, kept⟩ :=
    substitute_keeps_literals_iff plain .empty "t" (.obj [("c", .str "red")])
  exact ⟨plain, text, prints, kept.mpr (by decide)⟩

/-- A closing brace right behind a tag is lost, whatever is put in the place of the tag. -/
theorem closing_brace_lost :
    (colourRule ['}']).IsPlain ∧
      (substitute .empty "t" (String.ofList (colourRule ['}']).write)
        (.obj [("c", .str "red")])).toOption = some "a\x7bcolor:red" ∧
      ∀ text, String.ofList ((colourRule ['}']).filled text) ≠ "a\x7bcolor:red" := by
  refine ⟨by decide +kernel, by decide +kernel, fun text same => ?_⟩
  have filled : (colourRule ['}']).filled text =
      ("a\x7bcolor:".toList ++ text ['c']) ++ ['}'] := by
    rw [List.append_assoc]
    exact congrArg _ (List.append_nil _)
  have written : (colourRule ['}']).filled text = "a\x7bcolor:red".toList := by
    rw [← same, String.toList_ofList]
  have last : "a\x7bcolor:red".toList.getLast? = some '}' := by
    rw [← written, filled, List.getLast?_concat]
  exact absurd last (by decide)

end Render
end MailPress
