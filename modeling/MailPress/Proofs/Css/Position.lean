import MailPress.Proofs.Css.Lexing
import MailPress.Proofs.Css.Matching
import MailPress.Proofs.Css.Nth
import MailPress.Proofs.Text.Blank

/-!
# Elements at a position

A positional pseudo-class counts an element among the elements below the same parent, or among
those of the same name, from the first one or from the last one. Nodes that are no elements are
not counted. The search for siblings gives those in front of an element and those behind it, so
that the place of the element is one more than their number.
-/

namespace MailPress
namespace Css

open Markup.Document (IsForest)

variable {document : Markup.Document} {id : Nat}

/-! ## Counting -/

/-- How a positional pseudo-class counts elements. -/
inductive Counting
  /-- All elements, from the first one. -/
  | child
  /-- All elements, from the last one. -/
  | lastChild
  /-- The elements of the same name, from the first one. -/
  | ofType
  /-- The elements of the same name, from the last one. -/
  | lastOfType
  deriving DecidableEq

/-- The elements below the same parent, in order, the element itself included. -/
def elementSiblings (document : Markup.Document) (id : Nat) : List Nat :=
  (document.siblings id).filter document.isElement

/-- Whether a node stands for an element of the same name. -/
def sharesName (document : Markup.Document) (id other : Nat) : Bool :=
  (document.element? other).map (·.name) == (document.element? id).map (·.name)

namespace Counting

/-- The name of the pseudo-class. -/
def name : Counting → String
  | .child => "nth-child"
  | .lastChild => "nth-last-child"
  | .ofType => "nth-of-type"
  | .lastOfType => "nth-last-of-type"

/-- The test that the pseudo-class stands for. -/
def test : Counting → Nth → Simple
  | .child => .nthChild
  | .lastChild => .nthLastChild
  | .ofType => .nthOfType
  | .lastOfType => .nthLastOfType

/-- The elements that are counted, in the order of counting. -/
def counted (document : Markup.Document) (id : Nat) : Counting → List Nat
  | .child => elementSiblings document id
  | .lastChild => (elementSiblings document id).reverse
  | .ofType => (elementSiblings document id).filter (sharesName document id)
  | .lastOfType => ((elementSiblings document id).filter (sharesName document id)).reverse

/-- How many elements the test counts. -/
def ahead
    (document : Markup.Document)
    (id : Nat)
    (element : Markup.Element) :
    Counting → Nat
  | .child => (document.precedingSiblings id).length
  | .lastChild => (document.followingSiblings id).length
  | .ofType => countNamed document element.name (document.precedingSiblings id)
  | .lastOfType => countNamed document element.name (document.followingSiblings id)

theorem holds_test
    (counting : Counting)
    (nth : Nth)
    (mode : MatchMode)
    (element : Markup.Element) :
    (counting.test nth).holds mode document id element =
      nth.holds (counting.ahead document id element + 1) := by
  cases counting <;> rfl

theorem stops_test
    (counting : Counting)
    (nth : Nth)
    (mode : MatchMode)
    (element : Markup.Element) :
    (counting.test nth).stops mode document id element =
      nth.stops (counting.ahead document id element + 1) := by
  cases counting <;> rfl

/-- The place of the element among those that are counted; the first one has place 1. -/
def IsPosition (document : Markup.Document) (id : Nat) (counting : Counting) (position : Nat) :
    Prop :=
  ∃ index, (counting.counted document id)[index]? = some id ∧ position = index + 1

/-- The place is one more than the number of elements that are counted before. -/
theorem isPosition_iff
    {counting : Counting}
    {front back : List Nat}
    (listed : counting.counted document id = front ++ id :: back)
    (nodup : (front ++ id :: back).Nodup)
    {position : Nat} :
    counting.IsPosition document id position ↔ position = front.length + 1 := by
  have here : (front ++ id :: back)[front.length]? = some id := by simp
  constructor
  · rintro ⟨index, found, rfl⟩
    rw [listed] at found
    have inside : index < (front ++ id :: back).length := (List.getElem?_eq_some_iff.mp found).1
    rw [(List.getElem?_inj inside nodup).mp (found.trans here.symm)]
  · rintro rfl
    exact ⟨front.length, listed ▸ here, rfl⟩

end Counting

/-- Counting the elements of a name is counting those that share it. -/
theorem countNamed_eq
    {element : Markup.Element}
    (found : document.element? id = some element)
    (ids : List Nat) :
    countNamed document element.name ids = (ids.filter (sharesName document id)).length := by
  rw [countNamed, List.countP_eq_length_filter]
  refine congrArg List.length (List.filter_congr fun other _ => ?_)
  rw [sharesName, found, Markup.Document.isNamed]
  cases document.element? other <;> rfl

/-- The elements that are counted are those in front of the element, the element, and those
behind it. The test counts those in front. -/
theorem exists_counted_eq
    (forest : document.IsForest)
    {element : Markup.Element}
    {parent : Nat}
    (found : document.element? id = some element)
    (below : document.parent? id = some parent)
    (counting : Counting) :
    ∃ front back, counting.counted document id = front ++ id :: back ∧
      (front ++ id :: back).Nodup ∧ counting.ahead document id element = front.length := by
  obtain ⟨before, after, listed, notBefore⟩ := forest.exists_children_eq below
  have preceding := IsForest.precedingSiblings_eq below listed notBefore
  have following := IsForest.followingSiblings_eq below listed notBefore
  have isElement : document.isElement id = true := by
    rw [Markup.Document.isElement, found]
    rfl
  have itself : sharesName document id id = true := beq_self_eq_true _
  have siblings : elementSiblings document id =
      before.filter document.isElement ++ id :: after.filter document.isElement := by
    rw [elementSiblings, Markup.Document.siblings, below]
    dsimp only
    rw [listed, List.filter_append, List.filter_cons_of_pos isElement]
  have nodup : (elementSiblings document id).Nodup := by
    rw [elementSiblings, Markup.Document.siblings, below]
    exact (forest.nodup_children parent).filter _
  have sharing : (elementSiblings document id).filter (sharesName document id) =
      (before.filter document.isElement).filter (sharesName document id) ++
        id :: (after.filter document.isElement).filter (sharesName document id) := by
    rw [siblings, List.filter_append, List.filter_cons_of_pos itself]
  cases counting with
  | child =>
      refine ⟨_, _, siblings, siblings ▸ nodup, ?_⟩
      rw [Counting.ahead, preceding, List.length_reverse]
  | lastChild =>
      have turned := congrArg List.reverse siblings
      rw [List.reverse_append, List.reverse_cons, List.append_assoc,
        List.singleton_append] at turned
      refine ⟨_, _, turned, turned ▸ List.nodup_reverse.mpr nodup, ?_⟩
      rw [Counting.ahead, following, List.length_reverse]
  | ofType =>
      refine ⟨_, _, sharing, sharing ▸ nodup.filter _, ?_⟩
      rw [Counting.ahead, preceding, countNamed_eq found, List.filter_reverse,
        List.length_reverse]
  | lastOfType =>
      have turned := congrArg List.reverse sharing
      rw [List.reverse_append, List.reverse_cons, List.append_assoc,
        List.singleton_append] at turned
      refine ⟨_, _, turned, turned ▸ List.nodup_reverse.mpr (nodup.filter _), ?_⟩
      rw [Counting.ahead, following, countNamed_eq found, List.length_reverse]

/-- An element has one place, which is the one that the test counts to. -/
theorem isPosition_iff_eq_ahead
    (forest : document.IsForest)
    {element : Markup.Element}
    {parent : Nat}
    (found : document.element? id = some element)
    (below : document.parent? id = some parent)
    {counting : Counting}
    {position : Nat} :
    counting.IsPosition document id position ↔
      position = counting.ahead document id element + 1 := by
  obtain ⟨front, back, listed, nodup, counted⟩ := exists_counted_eq forest found below counting
  rw [counted]
  exact Counting.isPosition_iff listed nodup

/-! ## Reading -/

theorem isNameChar_of_lowerChar {c : Char} (named : isNameChar (Text.lowerChar c) = true) :
    isNameChar c = true := by
  by_cases capital : 65 ≤ c.toNat ∧ c.toNat ≤ 90
  · have letter : ('A' ≤ c && c ≤ 'Z') = true := by
      simp only [Bool.and_eq_true, decide_eq_true_eq, Char.le_def, UInt32.le_iff_toNat_le]
      exact capital
    rw [isNameChar, Text.isAsciiAlphanumeric, letter]
    simp
  · rwa [Text.lowerChar_eq_self capital] at named

/-- A name is taken up to a character that belongs to none. -/
theorem takeName_append_cons
    {name : List Char}
    (named : ∀ c ∈ name, isNameChar c = true)
    {stop : Char}
    (stops : isNameChar stop = false)
    (plain : stop ≠ '\\')
    (rest : List Char) :
    takeName (name ++ stop :: rest) = some (name, stop :: rest) := by
  induction name with
  | nil =>
      rw [List.nil_append, takeName_cons plain, stops]
      rfl
  | cons c name inductionHypothesis =>
      obtain ⟨here, others⟩ := List.forall_mem_cons.mp named
      rw [List.cons_append, takeName_cons (ne_of_test here rfl), if_pos here,
        inductionHypothesis others]
      rfl

/-- An argument without parentheses is taken up to the one that closes it. -/
theorem takeArgument_append_closing
    {argument : List Char}
    (plain : ∀ c ∈ ['(', ')'], c ∉ argument)
    (rest : List Char) :
    takeArgument 0 (argument ++ ')' :: rest) = some (argument, rest) := by
  induction argument with
  | nil => rfl
  | cons c argument inductionHypothesis =>
      have opening : c ≠ '(' := fun same => plain '(' (by decide) (same ▸ List.mem_cons_self)
      have closing : c ≠ ')' := fun same => plain ')' (by decide) (same ▸ List.mem_cons_self)
      have behind := inductionHypothesis fun d parenthesis member =>
        plain d parenthesis (List.mem_cons_of_mem c member)
      rw [List.cons_append, takeArgument]
      simp [opening, closing, behind]

/-- A selector that is one pseudo-class with an argument is one test. -/
theorem readSelector_functional
    {name argument : List Char}
    (nonempty : name ≠ [])
    (named : ∀ c ∈ name, isNameChar c = true)
    (plain : ∀ c ∈ ['(', ')'], c ∉ argument) :
    readSelector (':' :: (name ++ '(' :: (argument ++ [')']))) =
      (Mark.functional (Text.lower (String.ofList name)) argument).resolve.map
        fun test => .compound [test] := by
  obtain ⟨first, others, rfl⟩ := List.exists_cons_of_ne_nil nonempty
  have trimmed : Text.trim (':' :: (first :: others ++ '(' :: (argument ++ [')']))) =
      ':' :: (first :: others ++ '(' :: (argument ++ [')'])) := by
    refine Text.trim_eq_self ?_ ?_
    · rintro c ⟨⟩
      decide
    · have last : ':' :: (first :: others ++ '(' :: (argument ++ [')'])) =
          (':' :: (first :: others ++ '(' :: argument)) ++ [')'] := by simp
      rw [last, List.getLast?_concat]
      rintro c ⟨⟩
      decide
  have stops : isNameChar '(' = false := by decide
  have taken := takeName_append_cons named stops (by decide) (argument ++ [')'])
  have noColon : withoutColon (first :: others ++ '(' :: (argument ++ [')'])) =
      first :: others ++ '(' :: (argument ++ [')']) := by
    have different : first ≠ ':' := ne_of_test (named first List.mem_cons_self) (by decide)
    unfold withoutColon
    split
    · next same => exact absurd (List.cons.inj same).1 different
    · rfl
  have mark : takeTest true (':' :: (first :: others ++ '(' :: (argument ++ [')']))) =
      .mark (.functional (Text.lower (String.ofList (first :: others))) argument) [] := by
    simp only [takeTest, takePseudo, noColon, taken, takeArgument_append_closing plain]
  have behind : takeTests false [] = ([], some []) := takeTests_of_stop rfl
  rw [readSelector_eq_joinWords, trimmed, selectorWords_of_mark (by decide) (by decide) mark, behind,
    Option.elim_some, selectorWords_nil]
  simp only [joinWords, List.foldlM_cons, List.foldlM_nil, Joining.takeWord, List.filterMap_cons,
    List.filterMap_nil, Mark.resolve, Option.map_some]
  rfl

/-- The text of a positional pseudo-class. -/
def positionalText (name : String) (argument : List Char) : List Char :=
  ':' :: (name.toList ++ '(' :: (argument ++ [')']))

/-- A positional pseudo-class is read in any letter case. -/
theorem readSelector_positionalText
    {counting : Counting}
    {name : String}
    (named : Text.lower name = counting.name)
    {argument : List Char}
    (plain : ∀ c ∈ ['(', ')'], c ∉ argument)
    {nth : Nth}
    (read : Nth.read argument = some nth) :
    readSelector (positionalText name argument) = some (.compound [counting.test nth]) := by
  have lowered : name.toList.map Text.lowerChar = counting.name.toList := by
    rw [← Text.toList_lower, named]
  have nonempty : name.toList ≠ [] := by
    intro empty
    rw [empty] at lowered
    cases counting <;> cases lowered
  have letters : ∀ c ∈ name.toList, isNameChar c = true := by
    intro c member
    refine isNameChar_of_lowerChar ?_
    have allNamed : counting.name.toList.all isNameChar = true := by
      cases counting <;> decide
    exact List.all_eq_true.mp allNamed _ (lowered ▸ List.mem_map_of_mem member)
  rw [positionalText, readSelector_functional nonempty letters plain, String.ofList_toList, named]
  cases counting <;> simp [Mark.resolve, Counting.name, positional, read, Counting.test]

/-- Every formula can be written, and however it is written, with numbers of 32 bits it is read.
The positions that belong to it are those that are reached from its offset in whole steps. In
every document, a positional pseudo-class with it matches the elements whose place, counted from
the front or from the back, among all elements or those of the same name, is such a position. All
this holds as long as nothing leaves 32 bits. -/
theorem positional_matches_iff_place
    (counting : Counting)
    (formula : Nth)
    (stepFits : Nth.Fits formula.step)
    (offsetFits : Nth.Fits formula.offset) :
    (∃ spelling : Nth.Spelling, spelling.formula = formula) ∧
      (∀ position : Nat, formula.IsExact position →
        (formula.holds position = true ↔
          ∃ count : Nat, (position : Int) = formula.step * count + formula.offset)) ∧
      ∀ (spelling : Nth.Spelling) (before after : Nth.Gap), spelling.formula = formula →
        Nth.read (before.1 ++ (spelling.write ++ after.1)) = some formula ∧
          ∀ name, Text.lower name = counting.name →
            ∃ selector,
              Selector.read (String.ofList
                (positionalText name (before.1 ++ (spelling.write ++ after.1)))) = some selector ∧
                ∀ mode (document : Markup.Document), document.IsReachable →
                  ∀ id ∈ document.elements,
                    (∃! position, counting.IsPosition document id position) ∧
                      ((∀ position, counting.IsPosition document id position →
                          formula.IsExact position) →
                        selector.stops mode document id = false ∧
                          (selector.matches mode document id = true ↔
                            ∃ position, counting.IsPosition document id position ∧
                              ∃ count : Nat,
                                (position : Int) = formula.step * count + formula.offset)) := by
  refine ⟨Nth.Spelling.exists_formula_eq formula, fun _ => Nth.holds_iff, ?_⟩
  rintro spelling before after rfl
  have read := Nth.read_write before after spelling
  rw [if_pos ⟨stepFits, offsetFits⟩] at read
  refine ⟨read, fun name named => ⟨.compound [counting.test spelling.formula], ?_, ?_⟩⟩
  · rw [Selector.read, String.toList_ofList]
    exact readSelector_positionalText named
      (fun _ parenthesis => Nth.not_mem_write before after spelling parenthesis) read
  · intro mode document reachable id member
    have forest := reachable.isForest
    obtain ⟨attached, isElement⟩ := forest.mem_elements_iff.mp member
    obtain ⟨parent, below, _⟩ := attached.exists_parent
    obtain ⟨element, found⟩ := Option.isSome_iff_exists.mp isElement
    have only : ∀ position, counting.IsPosition document id position ↔
        position = counting.ahead document id element + 1 :=
      fun _ => isPosition_iff_eq_ahead forest found below
    refine ⟨⟨_, (only _).mpr rfl, fun other => (only other).mp⟩, fun exact => ?_⟩
    have here := exact _ ((only _).mpr rfl)
    constructor
    · rw [Selector.stops, found, Option.any_some, testsStop, testsStop,
        counting.stops_test, Nth.stops_eq_false offsetFits here]
      simp
    · rw [Selector.matches, found, Option.any_some, testsHold, testsHold, Bool.and_true,
        counting.holds_test, Nth.holds_iff here]
      simp only [only, exists_eq_left]

/-- The theorem at a formula with a negative step and blanks around its sign, counted from the
back over a text and an element of another name. -/
theorem positional_matches_iff_place_backwards :
    Nth.Fits (-2) ∧ Nth.Fits 5 ∧
      ∃ document selector,
        Markup.Document.read "<p><b></b>x<i></i><b></b></p>" = .ok document ∧
          document.IsReachable ∧ 5 ∈ document.elements ∧
            Nth.read "-2N + 5 ".toList = some ⟨-2, 5⟩ ∧
              Selector.read ":nth-LAST-of-type(-2N + 5 )" = some selector ∧
                Counting.lastOfType.IsPosition document 5 1 ∧ Nth.IsExact ⟨-2, 5⟩ 1 ∧
                  selector.stops .static document 5 = false ∧
                    selector.matches .static document 5 = true := by
  let empty : Nth.Gap := ⟨[], List.forall_mem_nil _⟩
  let space : Nth.Gap := ⟨[' '], List.forall_mem_singleton.mpr rfl⟩
  let two : Nth.Numeral := ⟨['2'], List.cons_ne_nil _ _, List.forall_mem_singleton.mpr rfl⟩
  let five : Nth.Numeral := ⟨['5'], List.cons_ne_nil _ _, List.forall_mem_singleton.mpr rfl⟩
  let spelling : Nth.Spelling :=
    .linear (some ⟨.minus, empty⟩) (some two) 'N' rfl (some ⟨space, ⟨.plus, space⟩, five⟩)
  let bold : Markup.Content := .element ⟨"b", [], false⟩
  let document : Markup.Document :=
    ⟨#[⟨.root, none, [1]⟩, ⟨.element ⟨"p", [], false⟩, some 0, [2, 3, 4, 5]⟩,
      ⟨bold, some 1, []⟩, ⟨.text "x", some 1, []⟩, ⟨.element ⟨"i", [], false⟩, some 1, []⟩,
      ⟨bold, some 1, []⟩]⟩
  have fits : Nth.Fits (-2) ∧ Nth.Fits 5 := by decide
  have read : Markup.Document.read "<p><b></b>x<i></i><b></b></p>" = .ok document := by cbv
  have reachable : document.IsReachable := .read read
  have elements : document.elements = [1, 2, 4, 5] := by cbv
  have listed : 5 ∈ document.elements := elements ▸ by decide
  obtain ⟨_, _, reads⟩ :=
    positional_matches_iff_place .lastOfType ⟨-2, 5⟩ fits.1 fits.2
  obtain ⟨formula, selects⟩ := reads spelling empty space rfl
  obtain ⟨selector, understood, matching⟩ := selects "nth-LAST-of-type" (by decide)
  have place : Counting.lastOfType.IsPosition document 5 1 := ⟨0, by cbv, rfl⟩
  have exact : Nth.IsExact ⟨-2, 5⟩ 1 := by decide
  obtain ⟨unique, decided⟩ := matching .static document reachable 5 listed
  obtain ⟨answers, matches_iff⟩ := decided fun _ other => unique.unique place other ▸ exact
  exact ⟨fits.1, fits.2, document, selector, read, reachable, listed, formula, understood, place,
    exact, answers, matches_iff.mpr ⟨1, place, 2, rfl⟩⟩

end Css
end MailPress
