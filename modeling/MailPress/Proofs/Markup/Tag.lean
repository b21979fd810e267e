import MailPress.Markup.Writer
import MailPress.Proofs.Markup.Token

/-!
# Written tags are read back

A tag that was written with plain names, and with values in double quotes, is read as the
element that it was written for. The brackets inside a value do not end the tag, because
a quoted value is passed over as a whole.
-/

namespace MailPress
namespace Markup

/-! ## Names -/

/-- A character of a plain name. -/
def isNameChar (c : Char) : Bool :=
  ('a' ≤ c && c ≤ 'z') || Text.isAsciiDigit c || c == '-' || c == '_' || c == ':'

/-- A word in which no special character of a tag stands. -/
def IsPlainWord (word : List Char) : Prop :=
  ∀ c ∈ word, isNameChar c = true

instance (word : List Char) : Decidable (IsPlainWord word) :=
  inferInstanceAs (Decidable (∀ c ∈ word, _))

/-- A plain name that starts with a small letter. -/
structure IsElementName (name : String) : Prop where
  /-- The first character is a small letter. -/
  start : name.toList.head?.any (fun c => 'a' ≤ c && c ≤ 'z') = true
  /-- All characters are plain. -/
  plain : IsPlainWord name.toList

/-- A plain name of at least one character. -/
structure IsAttributeName (name : String) : Prop where
  /-- There is a character. -/
  nonempty : name.toList ≠ []
  /-- All characters are plain. -/
  plain : IsPlainWord name.toList

theorem ne_of_isNameChar
    {c other : Char}
    (plain : isNameChar c = true)
    (special : isNameChar other = false) :
    c ≠ other := by
  rintro rfl
  rw [plain] at special
  cases special

theorem isTagSpace_of_isNameChar
    {c : Char}
    (plain : isNameChar c = true) :
    isTagSpace c = false := by
  rw [← Bool.not_eq_true]
  intro space
  simp only [isTagSpace, Bool.or_eq_true, beq_iff_eq] at space
  rcases space with ((rfl | rfl) | rfl) | rfl <;> cases plain

theorem endsAttributeName_of_isNameChar
    {c : Char}
    (plain : isNameChar c = true) :
    endsAttributeName c = false := by
  have notEquals : c ≠ '=' := ne_of_isNameChar plain rfl
  simp [endsAttributeName, isTagSpace_of_isNameChar plain, notEquals]

theorem lowerChar_of_isNameChar
    {c : Char}
    (plain : isNameChar c = true) :
    Text.lowerChar c = c := by
  unfold Text.lowerChar
  rw [if_neg]
  intro capital
  simp only [isNameChar, Text.isAsciiDigit, Bool.or_eq_true, Bool.and_eq_true, decide_eq_true_eq,
    beq_iff_eq, Char.le_def, UInt32.le_iff_toNat_le, Char.ext_iff, ← UInt32.toNat_inj,
    Char.reduceVal, UInt32.reduceToNat] at plain capital
  omega

namespace IsPlainWord

variable {word : List Char}

theorem not_mem
    (plain : IsPlainWord word)
    {c : Char}
    (special : isNameChar c = false) :
    c ∉ word := by
  intro member
  exact ne_of_isNameChar (plain c member) special rfl

/-- A plain word is in lowercase already. -/
theorem lowerName_eq (plain : IsPlainWord word) : lowerName word = String.ofList word := by
  rw [lowerName, Text.lower, String.toList_ofList]
  congr 1
  refine (List.map_congr_left ?_).trans (List.map_id word)
  intro c member
  exact lowerChar_of_isNameChar (plain c member)

theorem takeWhile_append
    {stops : Char → Bool}
    (plain : IsPlainWord word)
    (never : ∀ c, isNameChar c = true → stops c = false)
    {rest : List Char}
    (stop : rest.head?.all stops = true) :
    (word ++ rest).takeWhile (!stops ·) = word ∧ (word ++ rest).dropWhile (!stops ·) = rest := by
  have pass : ∀ c ∈ word, (!stops c) = true := by
    intro c member
    rw [never c (plain c member)]
    rfl
  rw [List.takeWhile_append_of_pos pass, List.dropWhile_append_of_pos pass]
  cases rest with
  | nil => simp
  | cons c rest =>
      have stopsHere : stops c = true := stop
      simp [stopsHere]

end IsPlainWord

/-! ## The text of a tag -/

/-- A text that leaves a tag open and outside quotes. -/
def PassesTag (text : List Char) : Prop :=
  ∀ rest, takeTag none (text ++ rest) =
    (takeTag none rest).map fun found => (text ++ found.1, found.2)

theorem PassesTag.append
    {first second : List Char}
    (firstPasses : PassesTag first)
    (secondPasses : PassesTag second) :
    PassesTag (first ++ second) := by
  intro rest
  rw [List.append_assoc, firstPasses, secondPasses, Option.map_map]
  congr 1
  funext found
  simp

theorem PassesTag.cons
    {c : Char}
    (notQuote : c ≠ '"' ∧ c ≠ '\'')
    (notEnd : c ≠ '>')
    {text : List Char}
    (passes : PassesTag text) :
    PassesTag (c :: text) := by
  intro rest
  rw [List.cons_append, takeTag, if_neg notEnd, if_neg (by simp [notQuote]), passes,
    Option.map_map]
  rfl

theorem PassesTag.nil : PassesTag [] := by
  intro rest
  simp

theorem IsPlainWord.passesTag
    {word : List Char}
    (plain : IsPlainWord word) :
    PassesTag word := by
  induction word with
  | nil => exact .nil
  | cons c word inductionHypothesis =>
      obtain ⟨here, rest⟩ := List.forall_mem_cons.mp plain
      exact .cons ⟨ne_of_isNameChar here rfl, ne_of_isNameChar here rfl⟩
        (ne_of_isNameChar here rfl) (inductionHypothesis rest)

theorem takeTag_quoted
    {quote : Char}
    {value : List Char}
    (unquoted : quote ∉ value)
    (rest : List Char) :
    takeTag (some quote) (value ++ quote :: rest) =
      (takeTag none rest).map fun found => (value ++ quote :: found.1, found.2) := by
  induction value with
  | nil => simp [takeTag]
  | cons c value inductionHypothesis =>
      obtain ⟨different, unquoted⟩ := List.ne_and_not_mem_of_not_mem_cons unquoted
      rw [List.cons_append, takeTag, if_neg (Ne.symm different), inductionHypothesis unquoted,
        Option.map_map]
      rfl

/-- A value in double quotes leaves a tag open, whatever brackets it has. -/
theorem PassesTag.quoted
    {value : List Char}
    (unquoted : '"' ∉ value) :
    PassesTag ('"' :: value ++ ['"']) := by
  intro rest
  have whole : '"' :: value ++ ['"'] ++ rest = '"' :: (value ++ '"' :: rest) := by simp
  rw [whole, takeTag, if_neg (by decide), if_pos (.inl rfl), takeTag_quoted unquoted,
    Option.map_map]
  congr 1
  funext found
  simp

/-! ## Attributes -/

/-- An attribute with a plain name whose value leaves its quotes and the source alone. -/
structure Attribute.IsPlain (attr : Attribute) : Prop where
  /-- The name is a plain word. -/
  name : IsAttributeName attr.name
  /-- The value has no double quote. -/
  unquoted : '"' ∉ attr.value.toList
  /-- The value is a prepared text. -/
  prepared : IsPrepared attr.value.toList

theorem replaceAll_of_not_mem
    {c : Char}
    {text : List Char}
    (fresh : c ∉ text)
    (replacement : List Char) :
    Text.replaceAll [c] replacement text = text := by
  induction text with
  | nil => rfl
  | cons d text inductionHypothesis =>
      obtain ⟨different, fresh⟩ := List.ne_and_not_mem_of_not_mem_cons fresh
      have inner := inductionHypothesis fresh
      simp only [Text.replaceAll] at inner ⊢
      simp [Text.replaceFrom, Text.startsWith, Text.dropStart?, different, inner]

/-- The characters of a written attribute. -/
theorem Attribute.IsPlain.toList_write
    {attr : Attribute}
    (plain : attr.IsPlain) :
    attr.write.toList = ' ' :: attr.name.toList ++ '=' :: ('"' :: attr.value.toList ++ ['"']) := by
  simp [Attribute.write, Text.substitute, replaceAll_of_not_mem plain.unquoted]

theorem toList_writeAttributes_cons
    (attr : Attribute)
    (attributes : List Attribute) :
    (writeAttributes (attr :: attributes)).toList =
      attr.write.toList ++ (writeAttributes attributes).toList := by
  simp [writeAttributes]

theorem Attribute.IsPlain.passesTag
    {attr : Attribute}
    (plain : attr.IsPlain) :
    PassesTag attr.write.toList := by
  rw [plain.toList_write]
  refine .append (.cons (by decide) (by decide) plain.name.plain.passesTag) ?_
  exact .cons (by decide) (by decide) (.quoted plain.unquoted)

theorem passesTag_writeAttributes
    {attributes : List Attribute}
    (plain : ∀ attr ∈ attributes, attr.IsPlain) :
    PassesTag (writeAttributes attributes).toList := by
  induction attributes with
  | nil => exact .nil
  | cons attr attributes inductionHypothesis =>
      obtain ⟨here, rest⟩ := List.forall_mem_cons.mp plain
      rw [toList_writeAttributes_cons]
      exact here.passesTag.append (inductionHypothesis rest)

/-- Attributes are read one by one. -/
theorem readAttributes_eq (text : List Char) :
    readAttributes text =
      match text.dropWhile isTagSpace with
      | [] => []
      | first :: rest =>
          let name := lowerName (first :: rest.takeWhile (!endsAttributeName ·))
          match (rest.dropWhile (!endsAttributeName ·)).dropWhile isTagSpace with
          | '=' :: after =>
              match readAttributeValue after with
              | none => []
              | some (value, left) => ⟨name, String.ofList value⟩ :: readAttributes left
          | left => ⟨name, ""⟩ :: readAttributes left := by
  fun_cases readAttributes text with
  | case1 start => simp [start]
  | case2 first rest start after named reads => simp [start, named, reads]
  | case3 first rest start name after named value left reads => simp [start, named, reads, name]
  | case4 first rest start name notNamed =>
      rw [start]
      dsimp only
      split
      · next after named => exact absurd named (notNamed after)
      · rfl

/-- An attribute with a value is read, and then what follows it. -/
theorem readAttributes_of_reads
    {text rest after value left : List Char}
    {first : Char}
    (start : text.dropWhile isTagSpace = first :: rest)
    (named : (rest.dropWhile (!endsAttributeName ·)).dropWhile isTagSpace = '=' :: after)
    (reads : readAttributeValue after = some (value, left)) :
    readAttributes text =
      ⟨lowerName (first :: rest.takeWhile (!endsAttributeName ·)), String.ofList value⟩ ::
        readAttributes left := by
  rw [readAttributes_eq]
  simp only [start, named, reads]

theorem readAttributes_write_append
    {attr : Attribute}
    (plain : attr.IsPlain)
    (rest : List Char) :
    readAttributes (attr.write.toList ++ rest) = attr :: readAttributes rest := by
  obtain ⟨first, nameRest, name_eq⟩ := List.exists_cons_of_ne_nil plain.name.nonempty
  have plainName := plain.name.plain
  rw [name_eq] at plainName
  obtain ⟨plainFirst, plainRest⟩ := List.forall_mem_cons.mp plainName
  let quoted := '"' :: (attr.value.toList ++ '"' :: rest)
  have whole : attr.write.toList ++ rest = ' ' :: (first :: (nameRest ++ '=' :: quoted)) := by
    rw [plain.toList_write, name_eq]
    simp [quoted]
  have start : (attr.write.toList ++ rest).dropWhile isTagSpace =
      first :: (nameRest ++ '=' :: quoted) := by
    rw [whole, List.dropWhile_cons_of_pos rfl, List.dropWhile_cons_of_neg]
    simp [isTagSpace_of_isNameChar plainFirst]
  have stop : ('=' :: quoted).head?.all endsAttributeName = true := rfl
  obtain ⟨taken, dropped⟩ := IsPlainWord.takeWhile_append plainRest
    (fun c => endsAttributeName_of_isNameChar) stop
  have named : ((nameRest ++ '=' :: quoted).dropWhile (!endsAttributeName ·)).dropWhile
      isTagSpace = '=' :: quoted := by
    rw [dropped]
    rfl
  have reads : readAttributeValue quoted = some (attr.value.toList, rest) :=
    Text.splitOnce_append_cons plain.unquoted rest
  rw [readAttributes_of_reads start named reads, taken, ← name_eq,
    plain.name.plain.lowerName_eq, String.ofList_toList, String.ofList_toList]

/-- Written attributes are read back. -/
theorem readAttributes_writeAttributes
    {attributes : List Attribute}
    (plain : ∀ attr ∈ attributes, attr.IsPlain) :
    readAttributes (writeAttributes attributes).toList = attributes := by
  induction attributes with
  | nil =>
      rw [readAttributes]
      rfl
  | cons attr attributes inductionHypothesis =>
      obtain ⟨here, rest⟩ := List.forall_mem_cons.mp plain
      rw [toList_writeAttributes_cons, readAttributes_write_append here,
        inductionHypothesis rest]

/-! ## Tags -/

/-- An element with plain names whose values leave their quotes and the source alone. -/
structure Element.IsPlain (element : Element) : Prop where
  /-- The name starts with a small letter. -/
  name : IsElementName element.name
  /-- The attributes are plain. -/
  attributes : ∀ attr ∈ element.attributes, attr.IsPlain

/-- The text between the brackets of a written start tag, without the slash at its end. -/
def Element.tagText (element : Element) : List Char :=
  element.name.toList ++ (writeAttributes element.attributes).toList

theorem tagToken_eq_start
    {content : List Char}
    (start : content.head? ≠ some '/')
    (finish : content.getLast? ≠ some '/') :
    tagToken content = .start content := by
  unfold tagToken
  split
  · exact absurd rfl start
  · split
    · next reversed =>
        rw [List.getLast?_eq_head?_reverse, reversed] at finish
        exact absurd rfl finish
    · rfl

theorem tagToken_eq_empty
    {content : List Char}
    (nonempty : content ≠ [])
    (start : content.head? ≠ some '/') :
    tagToken (content ++ ['/']) = .empty content := by
  obtain ⟨first, rest, rfl⟩ := List.exists_cons_of_ne_nil nonempty
  have different : first ≠ '/' := by simpa using start
  unfold tagToken
  split
  · next found => exact absurd (List.cons.inj found).1 different
  · simp

namespace Element.IsPlain

variable {element : Element}

theorem exists_tagText_eq_cons (plain : element.IsPlain) :
    ∃ c rest, element.tagText = c :: rest ∧ isNameChar c = true := by
  have start := plain.name.start
  cases name : element.name.toList with
  | nil => simp [name] at start
  | cons c rest =>
      refine ⟨c, rest ++ (writeAttributes element.attributes).toList, ?_, ?_⟩
      · rw [tagText, name, List.cons_append]
      · exact plain.name.plain c (name ▸ List.mem_cons_self)

theorem head?_tagText_ne
    (plain : element.IsPlain)
    {c : Char}
    (special : isNameChar c = false) :
    element.tagText.head? ≠ some c := by
  obtain ⟨first, rest, text, plainFirst⟩ := plain.exists_tagText_eq_cons
  rw [text]
  simpa using ne_of_isNameChar plainFirst special

theorem passesTag (plain : element.IsPlain) : PassesTag element.tagText :=
  plain.name.plain.passesTag.append (passesTag_writeAttributes plain.attributes)

theorem getLast?_tagText_ne (plain : element.IsPlain) :
    element.tagText.getLast? ≠ some '/' := by
  have attributesEnd {attributes : List Attribute} (plain : ∀ attr ∈ attributes, attr.IsPlain) :
      (writeAttributes attributes).toList.getLast? ≠ some '/' := by
    induction attributes with
    | nil => exact nofun
    | cons attr attributes inductionHypothesis =>
        obtain ⟨here, rest⟩ := List.forall_mem_cons.mp plain
        have restEnd := inductionHypothesis rest
        have quoted : attr.write.toList =
            (' ' :: attr.name.toList ++ '=' :: '"' :: attr.value.toList) ++ ['"'] := by
          rw [here.toList_write]
          simp
        rw [toList_writeAttributes_cons, List.getLast?_append]
        cases last : (writeAttributes attributes).toList.getLast? with
        | none =>
            rw [Option.none_or, quoted, List.getLast?_concat]
            decide
        | some c =>
            rw [last] at restEnd
            simpa using restEnd
  have restEnd := attributesEnd plain.attributes
  rw [tagText, List.getLast?_append]
  cases last : (writeAttributes element.attributes).toList.getLast? with
  | some c =>
      rw [last] at restEnd
      simpa using restEnd
  | none =>
      intro slash
      exact plain.name.plain.not_mem rfl (List.mem_of_getLast? slash)

theorem head?_writeAttributes (attributes : List Attribute)
    (plain : ∀ attr ∈ attributes, attr.IsPlain) :
    (writeAttributes attributes).toList.head?.all isTagSpace = true := by
  cases attributes with
  | nil => rfl
  | cons attr attributes =>
      rw [toList_writeAttributes_cons, (plain attr List.mem_cons_self).toList_write]
      rfl

/-- The name at the start of a written tag. -/
theorem tagName_tagText (plain : element.IsPlain) :
    tagName element.tagText = element.name.toList :=
  (plain.name.plain.takeWhile_append (fun _ => isTagSpace_of_isNameChar)
    (head?_writeAttributes _ plain.attributes)).1

/-- A written element is read back from its tag. -/
theorem readElement_tagText
    (plain : element.IsPlain)
    (selfClosing : Bool) :
    readElement selfClosing element.tagText = { element with selfClosing } := by
  have left : element.tagText.dropWhile (!isTagSpace ·) =
      (writeAttributes element.attributes).toList :=
    (plain.name.plain.takeWhile_append (fun _ => isTagSpace_of_isNameChar)
      (head?_writeAttributes _ plain.attributes)).2
  rw [readElement, plain.tagName_tagText, plain.name.plain.lowerName_eq, left,
    readAttributes_writeAttributes plain.attributes, String.ofList_toList]

theorem reads_start
    (plain : element.IsPlain)
    (rest : List Char) :
    Reads ('<' :: (element.tagText ++ '>' :: rest)) (.start element.tagText) rest := by
  have taken : takeTag none (element.tagText ++ '>' :: rest) = some (element.tagText, rest) := by
    rw [plain.passesTag]
    simp [takeTag]
  have head {c : Char} (special : isNameChar c = false) :
      (element.tagText ++ '>' :: rest).head? ≠ some c := by
    obtain ⟨first, tail, text, _⟩ := plain.exists_tagText_eq_cons
    have start := plain.head?_tagText_ne special
    rw [text] at start ⊢
    exact start
  have reads := Reads.tag (head rfl) (head rfl) taken
  rwa [tagToken_eq_start (plain.head?_tagText_ne rfl) plain.getLast?_tagText_ne] at reads

theorem reads_empty
    (plain : element.IsPlain)
    (rest : List Char) :
    Reads ('<' :: (element.tagText ++ '/' :: '>' :: rest)) (.empty element.tagText) rest := by
  have taken : takeTag none (element.tagText ++ '/' :: '>' :: rest) =
      some (element.tagText ++ ['/'], rest) := by
    rw [plain.passesTag]
    simp [takeTag]
  have nonempty : element.tagText ≠ [] := by
    obtain ⟨first, tail, text, _⟩ := plain.exists_tagText_eq_cons
    simp [text]
  have head {c : Char} (special : isNameChar c = false) :
      (element.tagText ++ '/' :: '>' :: rest).head? ≠ some c :=
    head?_append_ne (plain.head?_tagText_ne special) nonempty _
  have reads := Reads.tag (head rfl) (head rfl) taken
  rwa [tagToken_eq_empty nonempty (plain.head?_tagText_ne rfl)] at reads

end Element.IsPlain

theorem IsPlainWord.endTagName_eq
    {word : List Char}
    (plain : IsPlainWord word) :
    endTagName word = word := by
  have trimmed : Text.trimEndOf isTagSpace word = word := by
    rw [Text.trimEndOf]
    cases reversed : word.reverse with
    | nil => simpa using congrArg List.reverse reversed.symm
    | cons c rest =>
        have member : c ∈ word := List.mem_reverse.mp (reversed ▸ List.mem_cons_self)
        rw [List.dropWhile_cons_of_neg, ← reversed, List.reverse_reverse]
        simp [isTagSpace_of_isNameChar (plain c member)]
  rw [endTagName, trimmed, ite_self]

/-- A written end tag is read back. -/
theorem IsElementName.reads_finish
    {name : String}
    (wellFormed : IsElementName name)
    (rest : List Char) :
    Reads ('<' :: '/' :: (name.toList ++ '>' :: rest)) (.finish name.toList) rest := by
  have passes : PassesTag ('/' :: name.toList) :=
    .cons (by decide) (by decide) wellFormed.plain.passesTag
  have taken : takeTag none ('/' :: (name.toList ++ '>' :: rest)) =
      some ('/' :: name.toList, rest) := by
    rw [← List.cons_append, passes]
    simp [takeTag]
  have reads := Reads.tag (by simp) (by simp) taken
  rwa [tagToken, wellFormed.plain.endTagName_eq] at reads

end Markup
end MailPress
