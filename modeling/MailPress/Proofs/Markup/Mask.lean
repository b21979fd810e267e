import MailPress.Proofs.Markup.Tag
import MailPress.Proofs.Text.Ascii

/-!
# Masked ampersands

The reader looks for ampersands between markup only. Inside markup an ampersand is a character
like others, and so is a character that stands for one there. So every step of reading markup
commutes with putting ampersands in the places of such a character.
-/

namespace MailPress
namespace Markup

/-- The characters that can stand for an ampersand. -/
def masks : List Char :=
  ['*', '+']

/-- The character that was meant: an ampersand, when this one stands for it. -/
def unmask (mask c : Char) : Char :=
  if c = mask then '&' else c

/-- A text has no ampersand, and no character that can stand for one. -/
def IsMaskFree (text : List Char) : Prop :=
  ∀ c ∈ text, c ∉ '&' :: masks

instance (text : List Char) : Decidable (IsMaskFree text) :=
  List.decidableBAll _ text

/-- The parts of a text, with all their characters unmasked. -/
def unmaskParts (mask : Char) : List Char × List Char → List Char × List Char :=
  Prod.map (List.map (unmask mask)) (List.map (unmask mask))

/-- A text, with all its characters unmasked. -/
def unmaskText (mask : Char) (text : String) : String :=
  String.ofList (text.toList.map (unmask mask))

/-- An attribute, with all the characters of its name and its value unmasked. -/
def Attribute.unmask (mask : Char) (attr : Attribute) : Attribute :=
  ⟨unmaskText mask attr.name, unmaskText mask attr.value⟩

theorem takeWhile_map_unmask
    {mask : Char}
    (stays : Char → Bool)
    (same : ∀ c, stays (unmask mask c) = stays c)
    (text : List Char) :
    (text.map (unmask mask)).takeWhile stays = (text.takeWhile stays).map (unmask mask) := by
  rw [List.takeWhile_map]
  congr 2
  exact funext same

theorem dropWhile_map_unmask
    {mask : Char}
    (stays : Char → Bool)
    (same : ∀ c, stays (unmask mask c) = stays c)
    (text : List Char) :
    (text.map (unmask mask)).dropWhile stays = (text.dropWhile stays).map (unmask mask) := by
  rw [List.dropWhile_map]
  congr 2
  exact funext same

/-! ## Quotes -/

/-- The quotes that can be open in a tag. -/
def tagQuotes : List (Option Char) :=
  [none, some '"', some '\'']

theorem quoteAfter_mem_tagQuotes
    {quote : Option Char}
    (known : quote ∈ tagQuotes)
    (c : Char) :
    quoteAfter c quote ∈ tagQuotes := by
  simp only [tagQuotes, List.mem_cons, List.not_mem_nil, or_false] at known ⊢
  rcases known with rfl | rfl | rfl <;> simp only [quoteAfter] <;> split <;> simp_all

/-- The states of a declaration in which a known quote is open. -/
def DoctypeState.IsProper : DoctypeState → Prop
  | .outside quote => quote = none
  | .declared quote => quote ∈ tagQuotes
  | _ => True

section Masked

variable {mask : Char} (isMask : mask ∈ masks)

include isMask

/-! ## Characters -/

theorem unmask_eq_iff
    {special : Char}
    (known : special ∉ '&' :: masks)
    {c : Char} :
    unmask mask c = special ↔ c = special := by
  obtain ⟨notAmpersand, notMask⟩ := List.ne_and_not_mem_of_not_mem_cons known
  have different : special ≠ mask := fun same => notMask (same ▸ isMask)
  unfold unmask
  split
  · next same => exact iff_of_false (Ne.symm notAmpersand) (same ▸ Ne.symm different)
  · rfl

theorem unmask_eq_self
    {special : Char}
    (known : special ∉ '&' :: masks) :
    unmask mask special = special :=
  (unmask_eq_iff isMask known).mpr rfl

theorem isTagSpace_unmask (c : Char) : isTagSpace (unmask mask c) = isTagSpace c := by
  rw [Bool.eq_iff_iff]
  simp only [isTagSpace, Bool.or_eq_true, beq_iff_eq]
  rw [unmask_eq_iff isMask (by decide), unmask_eq_iff isMask (by decide),
    unmask_eq_iff isMask (by decide), unmask_eq_iff isMask (by decide)]

theorem endsAttributeName_unmask (c : Char) :
    endsAttributeName (unmask mask c) = endsAttributeName c := by
  rw [endsAttributeName, endsAttributeName, isTagSpace_unmask isMask, Bool.eq_iff_iff]
  simp only [Bool.or_eq_true, beq_iff_eq]
  rw [unmask_eq_iff isMask (by decide)]

theorem lowerChar_unmask (c : Char) :
    Text.lowerChar (unmask mask c) = unmask mask (Text.lowerChar c) := by
  have notSmall : ¬(97 ≤ mask.toNat ∧ mask.toNat ≤ 122) := by
    rcases List.mem_pair.mp isMask with rfl | rfl <;> decide
  have lowered : Text.lowerChar mask = mask := by
    rcases List.mem_pair.mp isMask with rfl | rfl <;> rfl
  by_cases masked : c = mask
  · rw [masked, lowered, unmask, if_pos rfl]
    rfl
  · have kept : Text.lowerChar c ≠ mask := fun same =>
      masked (Text.eq_of_lowerChar_eq notSmall same)
    rw [unmask, if_neg masked, unmask, if_neg kept]

/-! ## Patterns -/

theorem map_unmask_eq_self
    {pattern : List Char}
    (known : IsMaskFree pattern) :
    pattern.map (unmask mask) = pattern :=
  (List.map_congr_left fun c member => unmask_eq_self isMask (known c member)).trans
    (List.map_id pattern)

/-- A pattern at the start is there before unmasking, too. -/
theorem exists_eq_append_of_map_unmask
    {pattern : List Char}
    (known : IsMaskFree pattern)
    {text left : List Char}
    (same : text.map (unmask mask) = pattern ++ left) :
    ∃ tail, text = pattern ++ tail := by
  induction pattern generalizing text with
  | nil => exact ⟨text, rfl⟩
  | cons special pattern inductionHypothesis =>
      obtain ⟨here, rest⟩ := List.forall_mem_cons.mp known
      obtain ⟨c, tail, rfl, first, restSame⟩ := List.map_eq_cons_iff.mp same
      obtain ⟨left, rfl⟩ := inductionHypothesis rest restSame
      exact ⟨left, by rw [(unmask_eq_iff isMask here).mp first]; rfl⟩

theorem map_unmask_eq_iff
    {pattern : List Char}
    (known : IsMaskFree pattern)
    {text : List Char} :
    text.map (unmask mask) = pattern ↔ text = pattern := by
  constructor
  · intro same
    obtain ⟨tail, rfl⟩ := exists_eq_append_of_map_unmask isMask known
      (same.trans (List.append_nil pattern).symm)
    have lengths := congrArg List.length same
    rw [List.length_map, List.length_append] at lengths
    have empty : tail = [] := List.eq_nil_of_length_eq_zero (by omega)
    rw [empty, List.append_nil]
  · rintro rfl
    exact map_unmask_eq_self isMask known

theorem dropStart?_map_unmask
    {pattern : List Char}
    (known : IsMaskFree pattern)
    (text : List Char) :
    Text.dropStart? pattern (text.map (unmask mask)) =
      (Text.dropStart? pattern text).map (List.map (unmask mask)) := by
  fun_induction Text.dropStart? pattern text with
  | case1 text => rfl
  | case2 => rfl
  | case3 pattern c text inductionHypothesis =>
      obtain ⟨here, rest⟩ := List.forall_mem_cons.mp known
      rw [List.map_cons, Text.dropStart?, if_pos (unmask_eq_self isMask here).symm,
        inductionHypothesis rest]
  | case4 p pattern c text different =>
      have here := known p List.mem_cons_self
      have stillDifferent : p ≠ unmask mask c := fun same =>
        different ((unmask_eq_iff isMask here).mp same.symm).symm
      rw [List.map_cons, Text.dropStart?, if_neg stillDifferent]
      rfl

theorem splitOnce_map_unmask
    {pattern : List Char}
    (known : IsMaskFree pattern)
    (text : List Char) :
    Text.splitOnce pattern (text.map (unmask mask)) =
      (Text.splitOnce pattern text).map (unmaskParts mask) := by
  induction text with
  | nil =>
      rw [List.map_nil, Text.splitOnce]
      split <;> rfl
  | cons c text inductionHypothesis =>
      have start := dropStart?_map_unmask isMask known (c :: text)
      rw [List.map_cons] at start ⊢
      rw [Text.splitOnce, Text.splitOnce, start, inductionHypothesis]
      cases Text.dropStart? pattern (c :: text) with
      | some rest => rfl
      | none =>
          simp only [Option.map_none, Option.map_map]
          rfl

/-! ## Tags -/

theorem quoteAfter_unmask
    {quote : Option Char}
    (known : quote ∈ tagQuotes)
    (c : Char) :
    quoteAfter (unmask mask c) quote = quoteAfter c quote := by
  rcases List.mem_cons.mp known with rfl | opened
  · simp only [quoteAfter, unmask_eq_iff isMask (show '"' ∉ '&' :: masks by decide),
      unmask_eq_iff isMask (show '\'' ∉ '&' :: masks by decide)]
    split
    · next quote =>
        rcases quote with rfl | rfl <;> rw [unmask_eq_self isMask (by decide)]
    · rfl
  · rcases List.mem_pair.mp opened with rfl | rfl
    · simp only [quoteAfter, unmask_eq_iff isMask (show '"' ∉ '&' :: masks by decide)]
    · simp only [quoteAfter, unmask_eq_iff isMask (show '\'' ∉ '&' :: masks by decide)]

theorem takeTag_map_unmask
    {quote : Option Char}
    (known : quote ∈ tagQuotes)
    (text : List Char) :
    takeTag quote (text.map (unmask mask)) = (takeTag quote text).map (unmaskParts mask) := by
  induction text generalizing quote with
  | nil => cases quote <;> rfl
  | cons c text inductionHypothesis =>
      have inner := inductionHypothesis (quoteAfter_mem_tagQuotes known c)
      have next_eq := quoteAfter_unmask isMask known c
      cases quote with
      | none =>
          rw [quoteAfter, quoteAfter] at next_eq
          rw [quoteAfter] at inner
          rw [List.map_cons, takeTag, takeTag]
          by_cases closes : c = '>'
          · rw [if_pos ((unmask_eq_iff isMask (by decide)).mpr closes), if_pos closes]
            rfl
          · rw [if_neg (mt (unmask_eq_iff isMask (by decide)).mp closes), if_neg closes, next_eq,
              inner, Option.map_map, Option.map_map]
            rfl
      | some quote =>
          rw [quoteAfter, quoteAfter] at next_eq
          rw [quoteAfter] at inner
          rw [List.map_cons, takeTag, takeTag, next_eq, inner, Option.map_map, Option.map_map]
          rfl

/-! ## Document types -/

theorem takeDoctype_map_unmask
    {state : DoctypeState}
    (proper : state.IsProper)
    (text : List Char) :
    takeDoctype state (text.map (unmask mask)) =
      (takeDoctype state text).map (unmaskParts mask) := by
  have same {special : Char} (known : special ∉ '&' :: masks) {c : Char} :
      unmask mask c = special ↔ c = special := unmask_eq_iff isMask known
  have less := unmask_eq_self isMask (show '<' ∉ '&' :: masks by decide)
  have greater := unmask_eq_self isMask (show '>' ∉ '&' :: masks by decide)
  have opening := unmask_eq_self isMask (show '[' ∉ '&' :: masks by decide)
  have closing := unmask_eq_self isMask (show ']' ∉ '&' :: masks by decide)
  have bang := unmask_eq_self isMask (show '!' ∉ '&' :: masks by decide)
  have dash := unmask_eq_self isMask (show '-' ∉ '&' :: masks by decide)
  have mark := unmask_eq_self isMask (show '?' ∉ '&' :: masks by decide)
  have collect (c : Char) (taken : Option (List Char × List Char)) :
      (taken.map (unmaskParts mask)).map (takeDoctype.more (unmask mask c)) =
        (taken.map (takeDoctype.more c)).map (unmaskParts mask) := by
    rw [Option.map_map, Option.map_map]
    rfl
  fun_induction takeDoctype state text with
  | case1 state => cases state <;> rfl
  | case2 => simp [takeDoctype, greater, unmaskParts]
  | case3 rest inductionHypothesis =>
      rw [← collect, opening, ← inductionHypothesis trivial, List.map_cons, opening, takeDoctype]
  | case4 quote c rest notEnd notOpening inductionHypothesis =>
      rw [List.map_cons, takeDoctype, inductionHypothesis proper, collect]
      · exact fun outside closes => notEnd outside ((same (by decide)).mp closes)
      · exact fun outside opens => notOpening outside ((same (by decide)).mp opens)
  | case5 rest inductionHypothesis =>
      rw [← collect, closing, ← inductionHypothesis trivial, List.map_cons, closing, takeDoctype]
  | case6 rest inductionHypothesis =>
      rw [← Option.map_map, ← Option.map_map, ← Option.map_map, ← collect, ← collect, ← collect,
        ← collect, ← inductionHypothesis trivial]
      simp only [List.map_cons, less, bang, dash, takeDoctype, Option.map_map]
  | case7 rest inductionHypothesis =>
      rw [← Option.map_map, ← collect, ← collect, ← inductionHypothesis trivial]
      simp only [List.map_cons, less, mark, takeDoctype, Option.map_map]
  | case8 rest notComment notInstruction inductionHypothesis =>
      rw [← collect, ← inductionHypothesis List.mem_cons_self, List.map_cons, less, takeDoctype]
      · intro left opens
        obtain ⟨tail, whole⟩ := exists_eq_append_of_map_unmask isMask
          (show IsMaskFree ['!', '-', '-'] by decide) opens
        exact notComment tail whole
      · intro left opens
        obtain ⟨tail, whole⟩ := exists_eq_append_of_map_unmask isMask
          (show IsMaskFree ['?'] by decide) opens
        exact notInstruction tail whole
  | case9 c rest notClosing _ _ notOpening inductionHypothesis =>
      rw [← collect, ← inductionHypothesis trivial, List.map_cons, takeDoctype]
      · exact fun closes => notClosing ((same (by decide)).mp closes)
      all_goals
        intros
        exact notOpening ((same (by decide)).mp (by assumption))
  | case10 rest inductionHypothesis =>
      rw [← collect, greater, ← inductionHypothesis trivial, List.map_cons, greater, takeDoctype]
  | case11 quote c rest notEnd inductionHypothesis =>
      rw [← collect, ← inductionHypothesis (quoteAfter_mem_tagQuotes proper c), List.map_cons,
        takeDoctype, quoteAfter_unmask isMask proper]
      exact fun outside closes => notEnd outside ((same (by decide)).mp closes)
  | case12 rest inductionHypothesis =>
      rw [← Option.map_map, ← Option.map_map, ← collect, ← collect, ← collect,
        ← inductionHypothesis trivial]
      simp only [List.map_cons, dash, greater, takeDoctype, Option.map_map]
  | case13 c rest notEnd inductionHypothesis =>
      rw [← collect, ← inductionHypothesis trivial, List.map_cons, takeDoctype]
      intro left dashed closes
      obtain ⟨tail, whole⟩ := exists_eq_append_of_map_unmask isMask
          (show IsMaskFree ['-', '>'] by decide) closes
      exact notEnd tail ((same (by decide)).mp dashed) whole
  | case14 rest inductionHypothesis =>
      rw [← Option.map_map, ← collect, ← collect, ← inductionHypothesis trivial]
      simp only [List.map_cons, mark, greater, takeDoctype, Option.map_map]
  | case15 c rest notEnd inductionHypothesis =>
      rw [← collect, ← inductionHypothesis trivial, List.map_cons, takeDoctype]
      intro left marked closes
      obtain ⟨tail, whole⟩ := exists_eq_append_of_map_unmask isMask
          (show IsMaskFree ['>'] by decide) closes
      exact notEnd tail ((same (by decide)).mp marked) whole
  | case16 rest => simp [takeDoctype, greater, unmaskParts]
  | case17 c rest notEnd inductionHypothesis =>
      rw [← collect, ← inductionHypothesis trivial, List.map_cons, takeDoctype]
      exact fun closes => notEnd ((same (by decide)).mp closes)

/-! ## Names and attributes -/

theorem inWord_unmask (c : Char) : (!isTagSpace (unmask mask c)) = !isTagSpace c :=
  congrArg (! ·) (isTagSpace_unmask isMask c)

theorem inAttributeName_unmask (c : Char) :
    (!endsAttributeName (unmask mask c)) = !endsAttributeName c :=
  congrArg (! ·) (endsAttributeName_unmask isMask c)

theorem lowerName_map_unmask (name : List Char) :
    lowerName (name.map (unmask mask)) =
      unmaskText mask (lowerName name) := by
  rw [unmaskText, lowerName, lowerName, Text.lower, Text.lower, String.toList_ofList,
    String.toList_ofList, String.toList_ofList, List.map_map, List.map_map]
  congr 1
  exact List.map_congr_left fun c _ => lowerChar_unmask isMask c

theorem readAttributeValue_map_unmask (text : List Char) :
    readAttributeValue (text.map (unmask mask)) =
      (readAttributeValue text).map (unmaskParts mask) := by
  have double := unmask_eq_self isMask (show '"' ∉ '&' :: masks by decide)
  have single := unmask_eq_self isMask (show '\'' ∉ '&' :: masks by decide)
  unfold readAttributeValue
  rw [dropWhile_map_unmask isTagSpace (isTagSpace_unmask isMask)]
  cases text.dropWhile isTagSpace with
  | nil => rfl
  | cons c rest =>
      by_cases isDouble : c = '"'
      · subst isDouble
        simp only [List.map_cons, double]
        exact splitOnce_map_unmask isMask (by decide) rest
      · by_cases isSingle : c = '\''
        · subst isSingle
          simp only [List.map_cons, single]
          exact splitOnce_map_unmask isMask (by decide) rest
        · have notDouble := mt (unmask_eq_iff isMask (by decide)).mp isDouble
          have notSingle := mt (unmask_eq_iff isMask (by decide)).mp isSingle
          have word := takeWhile_map_unmask (!isTagSpace ·) (inWord_unmask isMask) (c :: rest)
          have left := dropWhile_map_unmask (!isTagSpace ·) (inWord_unmask isMask) (c :: rest)
          rw [List.map_cons] at word left
          simp [isDouble, isSingle, notDouble, notSingle, word, left, unmaskParts]

theorem readAttributes_map_unmask (text : List Char) :
    readAttributes (text.map (unmask mask)) =
      (readAttributes text).map (Attribute.unmask mask) := by
  have equals := unmask_eq_self isMask (show '=' ∉ '&' :: masks by decide)
  have named_eq (first : Char) (rest : List Char) :
      lowerName (unmask mask first ::
          (rest.map (unmask mask)).takeWhile (!endsAttributeName ·)) =
        unmaskText mask (lowerName (first :: rest.takeWhile (!endsAttributeName ·))) := by
    rw [takeWhile_map_unmask (!endsAttributeName ·) (inAttributeName_unmask isMask), ← List.map_cons,
      lowerName_map_unmask isMask]
  have left_eq (rest : List Char) :
      ((rest.map (unmask mask)).dropWhile (!endsAttributeName ·)).dropWhile isTagSpace =
        ((rest.dropWhile (!endsAttributeName ·)).dropWhile isTagSpace).map (unmask mask) := by
    rw [dropWhile_map_unmask (!endsAttributeName ·) (inAttributeName_unmask isMask),
      dropWhile_map_unmask isTagSpace (isTagSpace_unmask isMask)]
  have start_eq := dropWhile_map_unmask isTagSpace (isTagSpace_unmask isMask)
  fun_induction readAttributes text with
  | case1 text start =>
      rw [readAttributes_eq, start_eq, start]
      rfl
  | case2 text first rest start after named reads =>
      rw [readAttributes_eq, start_eq, start, List.map_cons]
      simp [left_eq, named, equals, readAttributeValue_map_unmask isMask, reads]
  | case3 text first rest start name after named value left reads smaller inductionHypothesis =>
      rw [readAttributes_eq, start_eq, start, List.map_cons]
      simp [left_eq, named, equals, readAttributeValue_map_unmask isMask, reads, named_eq,
        unmaskParts, inductionHypothesis, Attribute.unmask, unmaskText, name]
  | case4 text first rest start name notNamed smaller inductionHypothesis =>
      rw [readAttributes_eq, start_eq, start, List.map_cons]
      dsimp only
      rw [left_eq, named_eq]
      split
      · next after named =>
          obtain ⟨tail, whole⟩ := exists_eq_append_of_map_unmask isMask
            (show IsMaskFree ['='] by decide) named
          exact absurd whole (notNamed tail)
      · rw [inductionHypothesis, List.map_cons]
        rfl

/-! ## Tokens -/

theorem isDoctype_map_unmask (content : List Char) :
    isDoctype (content.map (unmask mask)) = isDoctype content := by
  have named : lowerName ((content.map (unmask mask)).take 7) = "doctype" ↔
      lowerName (content.take 7) = "doctype" := by
    rw [← List.map_take, lowerName_map_unmask isMask, unmaskText, ← String.toList_inj,
      ← String.toList_inj, String.toList_ofList]
    exact map_unmask_eq_iff isMask (by decide)
  have blank : ((content.map (unmask mask)).drop 7).all isTagSpace =
      (content.drop 7).all isTagSpace := by
    rw [← List.map_drop, List.all_map]
    congr 1
    exact funext (isTagSpace_unmask isMask)
  rw [isDoctype, isDoctype, blank, decide_eq_decide.mpr named]

theorem isXmlDeclaration_map_unmask (body : List Char) :
    isXmlDeclaration (body.map (unmask mask)) = isXmlDeclaration body := by
  rw [isXmlDeclaration_eq, isXmlDeclaration_eq, dropStart?_map_unmask isMask (by decide),
    Option.any_map]
  congr 1
  funext rest
  cases rest with
  | nil => rfl
  | cons c rest => exact isTagSpace_unmask isMask c

theorem endTagName_map_unmask (content : List Char) :
    endTagName (content.map (unmask mask)) = (endTagName content).map (unmask mask) := by
  have trimmed : Text.trimEndOf isTagSpace (content.map (unmask mask)) =
      (Text.trimEndOf isTagSpace content).map (unmask mask) := by
    rw [Text.trimEndOf, Text.trimEndOf, ← List.map_reverse,
      dropWhile_map_unmask isTagSpace (isTagSpace_unmask isMask), List.map_reverse]
  rw [endTagName, endTagName, trimmed, List.isEmpty_map]
  split <;> rfl

end Masked

/-!
## Sources that are alike

Two sources are alike when unmasking makes them one, and the words behind their angle brackets
are the same. At markup both have tokens that are alike, with the same names.
-/

/-- Two sources that unmasking makes one, with the same words behind their angle brackets. -/
inductive Alike (mask : Char) : (first second : List Char) → Prop
  | nil : Alike mask [] []
  | cons
      {c d : Char}
      {first second : List Char}
      (same : unmask mask c = unmask mask d)
      (named : c = '<' → tagName first = tagName second)
      (rest : Alike mask first second) :
      Alike mask (c :: first) (d :: second)

namespace Alike

variable {mask : Char} {first second : List Char}

theorem refl (mask : Char) (source : List Char) : Alike mask source source := by
  induction source with
  | nil => exact .nil
  | cons c source inductionHypothesis => exact .cons rfl (fun _ => rfl) inductionHypothesis

theorem map_eq (alike : Alike mask first second) :
    first.map (unmask mask) = second.map (unmask mask) := by
  induction alike with
  | nil => rfl
  | cons same _ _ inductionHypothesis =>
      rw [List.map_cons, List.map_cons, same, inductionHypothesis]

/-- Behind parts of one length, sources that are alike stay alike. -/
theorem of_append
    {front otherFront : List Char}
    (alike : Alike mask (front ++ first) (otherFront ++ second))
    (lengths : front.length = otherFront.length) :
    Alike mask first second := by
  induction front generalizing otherFront with
  | nil =>
      rw [List.eq_nil_of_length_eq_zero lengths.symm] at alike
      exact alike
  | cons c front inductionHypothesis =>
      cases otherFront with
      | nil => cases lengths
      | cons d otherFront =>
          cases alike with
          | cons _ _ rest => exact inductionHypothesis rest (Nat.succ.inj lengths)

/-- What unmasking makes one text is alike when no angle bracket stands in it. -/
theorem append_of_not_mem
    {front otherFront : List Char}
    (same : front.map (unmask mask) = otherFront.map (unmask mask))
    (noAngle : '<' ∉ front)
    (alike : Alike mask first second) :
    Alike mask (front ++ first) (otherFront ++ second) := by
  induction front generalizing otherFront with
  | nil =>
      rw [List.map_eq_nil_iff.mp same.symm]
      exact alike
  | cons c front inductionHypothesis =>
      obtain ⟨different, restFree⟩ := List.ne_and_not_mem_of_not_mem_cons noAngle
      obtain ⟨d, otherFront, rfl, firstSame, restSame⟩ := List.map_eq_cons_iff.mp same.symm
      exact .cons firstSame.symm (fun angle => absurd angle.symm different)
        (inductionHypothesis restSame.symm restFree)

/-- The same text in front of sources that start with the same space. -/
theorem append_space
    {space : Char}
    (isSpace : isTagSpace space = true)
    (front : List Char)
    (alike : Alike mask first second) :
    Alike mask (front ++ space :: first) (front ++ space :: second) := by
  have notAngle : space ≠ '<' := by
    rintro rfl
    cases isSpace
  induction front with
  | nil => exact .cons rfl (fun angle => absurd angle notAngle) alike
  | cons c front inductionHypothesis =>
      refine .cons rfl (fun _ => ?_) inductionHypothesis
      change tagName (front ++ _) = tagName (front ++ _)
      rw [tagName, tagName, List.takeWhile_append, List.takeWhile_append,
        List.takeWhile_cons_of_neg (by simp [isSpace]),
        List.takeWhile_cons_of_neg (by simp [isSpace])]

variable (isMask : mask ∈ masks)

include isMask

/-- A pattern at the start of one source is at the start of the other. -/
theorem exists_append
    {pattern : List Char}
    (known : IsMaskFree pattern)
    (alike : Alike mask (pattern ++ first) second) :
    ∃ tail, second = pattern ++ tail ∧ Alike mask first tail := by
  have same := alike.map_eq
  rw [List.map_append, map_unmask_eq_self isMask known] at same
  obtain ⟨tail, rfl⟩ := exists_eq_append_of_map_unmask isMask known same.symm
  exact ⟨tail, rfl, alike.of_append rfl⟩

theorem head?_eq_some_iff
    {special : Char}
    (known : special ∉ '&' :: masks)
    (alike : Alike mask first second) :
    first.head? = some special ↔ second.head? = some special := by
  cases alike with
  | nil => rfl
  | cons same =>
      rw [List.head?_cons, List.head?_cons, Option.some_inj, Option.some_inj,
        ← unmask_eq_iff isMask known, same, unmask_eq_iff isMask known]

omit isMask in
/-- A way of cutting texts that commutes with unmasking cuts sources that are alike into parts
that are. -/
theorem exists_cut
    {cut : List Char → Option (List Char × List Char)}
    (closing : List Char)
    (commutes : ∀ text, cut (text.map (unmask mask)) = (cut text).map (unmaskParts mask))
    (splits : ∀ {text before after}, cut text = some (before, after) →
      text = before ++ (closing ++ after))
    (alike : Alike mask first second)
    {before after : List Char}
    (found : cut first = some (before, after)) :
    ∃ otherBefore otherAfter, cut second = some (otherBefore, otherAfter) ∧
      before.map (unmask mask) = otherBefore.map (unmask mask) ∧ Alike mask after otherAfter := by
  have unmasked := commutes second
  rw [← alike.map_eq, commutes, found, Option.map_some, eq_comm] at unmasked
  obtain ⟨⟨otherBefore, otherAfter⟩, otherFound, same⟩ := Option.map_eq_some_iff.mp unmasked
  obtain ⟨beforeSame, afterSame⟩ := Prod.mk.inj same
  have lengths : before.length = otherBefore.length := by
    simpa using congrArg List.length beforeSame.symm
  rw [splits found, splits otherFound, ← List.append_assoc, ← List.append_assoc] at alike
  refine ⟨otherBefore, otherAfter, otherFound, beforeSame.symm, alike.of_append ?_⟩
  rw [List.length_append, List.length_append, lengths]

end Alike

/-! ### Tokens -/

/-- Two tokens of markup whose texts unmasking makes one, with the same first words of tags. -/
inductive Token.Alike (mask : Char) : (first second : Token) → Prop
  | start
      {first second : List Char}
      (same : first.map (unmask mask) = second.map (unmask mask))
      (named : tagName first = tagName second) :
      Alike mask (.start first) (.start second)
  | empty
      {first second : List Char}
      (same : first.map (unmask mask) = second.map (unmask mask))
      (named : tagName first = tagName second) :
      Alike mask (.empty first) (.empty second)
  | finish
      {first second : List Char}
      (same : first.map (unmask mask) = second.map (unmask mask))
      (named : tagName first = tagName second) :
      Alike mask (.finish first) (.finish second)
  | comment
      {first second : List Char}
      (same : first.map (unmask mask) = second.map (unmask mask)) :
      Alike mask (.comment first) (.comment second)
  | cdata
      {first second : List Char}
      (same : first.map (unmask mask) = second.map (unmask mask)) :
      Alike mask (.cdata first) (.cdata second)
  | instruction
      {first second : List Char}
      (same : first.map (unmask mask) = second.map (unmask mask)) :
      Alike mask (.instruction first) (.instruction second)
  | declaration
      {first second : List Char}
      (same : first.map (unmask mask) = second.map (unmask mask)) :
      Alike mask (.declaration first) (.declaration second)

/-- The first word of a text is the first word of its beginning, as far as that goes. -/
theorem tagName_eq_take
    {front text : List Char}
    (starts : front <+: text) :
    tagName front = (tagName text).take front.length := by
  rw [List.prefix_iff_eq_take] at starts
  rw [tagName, tagName, List.take_takeWhile, ← starts]

/-- The name of an end tag stands at the start of the tag. -/
theorem endTagName_isPrefix (content : List Char) : endTagName content <+: content := by
  rw [endTagName]
  split
  · exact List.prefix_rfl
  · rw [Text.trimEndOf, ← List.reverse_suffix, List.reverse_reverse]
    exact List.dropWhile_suffix _

section Masked

variable {mask : Char} (isMask : mask ∈ masks)

include isMask

/-- Tags with the same first words are read as tokens that are alike. -/
theorem alike_tagToken
    {first second : List Char}
    (same : first.map (unmask mask) = second.map (unmask mask))
    (named : tagName first = tagName second) :
    Token.Alike mask (tagToken first) (tagToken second) := by
  have slash (c : Option Char) : c = some '/' ↔ c.map (unmask mask) = some '/' := by
    cases c <;> simp [unmask_eq_iff isMask (show '/' ∉ '&' :: masks by decide)]
  have startSame : first.head? = some '/' ↔ second.head? = some '/' := by
    rw [slash first.head?, slash second.head?, ← List.head?_map, ← List.head?_map, same]
  have finishSame : first.getLast? = some '/' ↔ second.getLast? = some '/' := by
    rw [slash first.getLast?, slash second.getLast?, ← List.getLast?_map, ← List.getLast?_map,
      same]
  by_cases start : first.head? = some '/'
  · obtain ⟨name, rfl⟩ := List.head?_eq_some_iff.mp start
    obtain ⟨other, rfl⟩ := List.head?_eq_some_iff.mp (startSame.mp start)
    have nameSame : (endTagName name).map (unmask mask) = (endTagName other).map (unmask mask) := by
      rw [← endTagName_map_unmask isMask, (List.cons.inj same).2, endTagName_map_unmask isMask]
    have lengths := congrArg List.length nameSame
    rw [List.length_map, List.length_map] at lengths
    have namesSame : tagName name = tagName other := (List.cons.inj named).2
    refine .finish nameSame ?_
    rw [tagName_eq_take (endTagName_isPrefix name), tagName_eq_take (endTagName_isPrefix other),
      lengths, namesSame]
  · have otherStart := mt startSame.mpr start
    by_cases finish : first.getLast? = some '/'
    · obtain ⟨front, rfl⟩ := List.getLast?_eq_some_iff.mp finish
      obtain ⟨other, rfl⟩ := List.getLast?_eq_some_iff.mp (finishSame.mp finish)
      have isEmpty {front : List Char} (start : (front ++ ['/']).head? ≠ some '/') :
          tagToken (front ++ ['/']) = .empty front := by
        have nonempty : front ≠ [] := by
          rintro rfl
          exact start rfl
        rw [List.head?_append_of_ne_nil _ nonempty] at start
        exact tagToken_eq_empty nonempty start
      rw [List.map_append, List.map_append] at same
      obtain ⟨frontSame, _⟩ := List.append_inj' same rfl
      have lengths := congrArg List.length frontSame
      rw [List.length_map, List.length_map] at lengths
      rw [isEmpty start, isEmpty otherStart]
      refine .empty frontSame ?_
      rw [tagName_eq_take (List.prefix_append front ['/']),
        tagName_eq_take (List.prefix_append other ['/']), named, lengths]
    · rw [tagToken_eq_start start finish,
        tagToken_eq_start otherStart (mt finishSame.mpr finish)]
      exact .start same named

/-- At markup, sources that are alike have tokens that are, and leave what is alike. -/
theorem Reads.exists_alike
    {first second rest : List Char}
    {token : Token}
    (reads : Reads first token rest)
    (markup : first.head? = some '<')
    (alike : Alike mask first second) :
    ∃ other otherRest, Reads second other otherRest ∧ Token.Alike mask token other ∧
      Alike mask rest otherRest := by
  cases reads with
  | comment found =>
      obtain ⟨text, rfl, inner⟩ := alike.exists_append isMask
        (show IsMaskFree ['<', '!', '-', '-'] by decide)
      obtain ⟨body, left, otherFound, same, restAlike⟩ := inner.exists_cut _
        (splitOnce_map_unmask isMask (by decide)) Text.eq_append_of_splitOnce found
      exact ⟨_, _, .comment otherFound, .comment same, restAlike⟩
  | cdata found =>
      obtain ⟨text, rfl, inner⟩ := alike.exists_append isMask
        (show IsMaskFree ['<', '!', '[', 'C', 'D', 'A', 'T', 'A', '['] by decide)
      obtain ⟨body, left, otherFound, same, restAlike⟩ := inner.exists_cut _
        (splitOnce_map_unmask isMask (by decide)) Text.eq_append_of_splitOnce found
      exact ⟨_, _, .cdata otherFound, .cdata same, restAlike⟩
  | @doctype c text content rest named taken wellNamed =>
      obtain ⟨tail, rfl, inner⟩ := alike.exists_append isMask
        (show IsMaskFree ['<', '!'] by decide)
      obtain ⟨body, left, otherTaken, same, restAlike⟩ := inner.exists_cut ['>']
        (takeDoctype_map_unmask isMask (show DoctypeState.IsProper (.outside none) from rfl))
        eq_append_of_takeDoctype taken
      have known : IsMaskFree [c] := by
        rcases named with rfl | rfl <;> decide
      obtain ⟨text, rfl, _⟩ := Alike.exists_append isMask known inner
      rw [← isDoctype_map_unmask isMask, same, isDoctype_map_unmask isMask] at wellNamed
      exact ⟨_, _, .doctype named otherTaken wellNamed,
        .declaration same, restAlike⟩
  | @instruction text body rest begun found =>
      obtain ⟨text, rfl, inner⟩ := alike.exists_append isMask
        (show IsMaskFree ['<', '?'] by decide)
      obtain ⟨otherBody, left, otherFound, same, restAlike⟩ := inner.exists_cut _
        (splitOnce_map_unmask isMask (by decide)) Text.eq_append_of_splitOnce found
      have otherBegun := mt (inner.head?_eq_some_iff isMask (by decide)).mpr begun
      have xml : isXmlDeclaration body = isXmlDeclaration otherBody := by
        rw [← isXmlDeclaration_map_unmask isMask, same, isXmlDeclaration_map_unmask isMask]
      refine ⟨_, _, .instruction otherBegun otherFound, ?_, restAlike⟩
      rw [xml]
      split
      · exact .declaration same
      · exact .instruction same
  | @tag text content rest notDeclaration notInstruction taken =>
      obtain ⟨tail, rfl, inner⟩ := alike.exists_append isMask
        (show IsMaskFree ['<'] by decide)
      obtain ⟨otherContent, left, otherTaken, same, restAlike⟩ := inner.exists_cut ['>']
        (takeTag_map_unmask isMask List.mem_cons_self) eq_append_of_takeTag taken
      have words : tagName text = tagName tail := by
        cases alike with
        | cons _ named => exact named rfl
      have named : tagName content = tagName otherContent := by
        have lengths := congrArg List.length same
        rw [List.length_map, List.length_map] at lengths
        rw [tagName_eq_take ⟨_, (eq_append_of_takeTag taken).symm⟩, lengths, words,
          ← tagName_eq_take ⟨_, (eq_append_of_takeTag otherTaken).symm⟩]
      exact ⟨_, _, .tag (mt (inner.head?_eq_some_iff isMask (by decide)).mpr notDeclaration)
        (mt (inner.head?_eq_some_iff isMask (by decide)).mpr notInstruction) otherTaken,
        alike_tagToken isMask same named, restAlike⟩
  | text plain =>
      rw [Option.some.inj markup] at plain
      cases plain
  | reference | ampersand => cases markup

end Masked

end Markup
end MailPress
