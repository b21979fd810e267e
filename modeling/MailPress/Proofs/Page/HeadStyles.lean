import MailPress.Proofs.Page.Delimiters
import MailPress.Proofs.Page.Head
import Mathlib.Data.List.Permutation

/-!
# Styles for the head in a finished page

A style sheet may write a character as it is or as an escape that denotes it. References of
markup are no such escapes: writing them for characters outside ASCII leaves a text that does
not end with a spelling of the styles any more, whatever stands in front.

A page for production holds the styles for its head at the end of the first style element of
the head. The passes over the finished page know nothing of style elements, so the styles
arrive as they are when they are plain ASCII, and only then.
-/

namespace MailPress
namespace Page

/-! ## Spellings of style sheets -/

/-- What may end an escape by a code: nothing or one blank of a style sheet. -/
def escapeEnds : List (List Char) :=
  [[], [' '], ['\t'], ['\n'], ['\r'], ['\r', '\n'], ['\x0c']]

/-- The ways in which a style sheet may write a character. -/
inductive Spells (c : Char) : List Char → Prop
  /-- The character itself. -/
  | plain : Spells c [c]
  /-- The character behind a backslash. -/
  | marked
      (notDigit : Text.isHexDigit c = false)
      (notBreak : c ∉ ['\n', '\r', '\x0c']) :
      Spells c ['\\', c]
  /-- The code of the character behind a backslash. -/
  | code
      {digits finish : List Char}
      (some : digits ≠ [])
      (few : digits.length ≤ 6)
      (hexadecimal : ∀ digit ∈ digits, Text.isHexDigit digit = true)
      (value : Text.hexadecimalValue digits = c.toNat)
      (ends : finish ∈ escapeEnds) :
      Spells c ('\\' :: (digits ++ finish))

/-- The ways in which a style sheet may write a text, each of its characters on its own. -/
inductive SpellsAll : List Char → List Char → Prop
  /-- An empty text. -/
  | nil : SpellsAll [] []
  /-- A character and the rest of the text. -/
  | cons
      {c : Char}
      {css front back : List Char}
      (here : Spells c front)
      (rest : SpellsAll css back) :
      SpellsAll (c :: css) (front ++ back)

/-- A text ends with a spelling of the styles. -/
def EndsWithSpelling (css text : List Char) : Prop :=
  ∃ before spelled, text = before ++ spelled ∧ SpellsAll css spelled

namespace Spells

variable {c : Char} {text : List Char}

theorem ne_nil (spells : Spells c text) : text ≠ [] := by
  cases spells <;> exact List.cons_ne_nil _ _

/-- A semicolon is written for a semicolon only, and once. -/
theorem count_le (spells : Spells c text) : text.count ';' ≤ [c].count ';' := by
  cases spells with
  | plain => exact Nat.le_refl _
  | marked => exact Nat.le_of_eq (List.count_cons_of_ne (by decide))
  | @code digits finish _ _ hexadecimal _ ends =>
      have noDigit : ';' ∉ digits := by
        intro member
        exact absurd (hexadecimal ';' member) (by decide)
      have noEnd : ∀ finish ∈ escapeEnds, ';' ∉ finish := by decide
      rw [List.count_cons_of_ne (by decide), List.count_append, List.count_eq_zero.mpr noDigit,
        List.count_eq_zero.mpr (noEnd finish ends)]
      exact Nat.zero_le _

end Spells

namespace SpellsAll

variable {css text : List Char}

theorem refl (css : List Char) : SpellsAll css css := by
  induction css with
  | nil => exact .nil
  | cons c css inductionHypothesis =>
      have here : Spells c [c] := .plain
      exact .cons here inductionHypothesis

theorem length_le (spells : SpellsAll css text) : css.length ≤ text.length := by
  induction spells with
  | nil => exact Nat.le_refl _
  | cons here _ inductionHypothesis =>
      have some := List.length_pos_of_ne_nil here.ne_nil
      rw [List.length_cons, List.length_append]
      omega

theorem count_le (spells : SpellsAll css text) : text.count ';' ≤ css.count ';' := by
  induction spells with
  | nil => exact Nat.le_refl _
  | @cons c css front back here _ inductionHypothesis =>
      have first := here.count_le
      rw [← List.singleton_append, List.count_append, List.count_append]
      omega

theorem exists_of_append
    {front back : List Char}
    (spells : SpellsAll (front ++ back) text) :
    ∃ first second, text = first ++ second ∧ SpellsAll back second := by
  induction front generalizing text with
  | nil => exact ⟨[], text, rfl, spells⟩
  | cons c front inductionHypothesis =>
      cases spells with
      | @cons _ _ here rest _ spelled =>
          obtain ⟨first, second, rfl, backSpelled⟩ := inductionHypothesis spelled
          exact ⟨here ++ first, second, (List.append_assoc ..).symm, backSpelled⟩

end SpellsAll

/-- A text with a character outside ASCII has a last one. -/
theorem exists_last_outside_ascii
    {text : List Char}
    (outside : ¬∀ c ∈ text, Text.isAscii c = true) :
    ∃ front c back, text = front ++ c :: back ∧ Text.isAscii c = false ∧
      ∀ d ∈ back, Text.isAscii d = true := by
  induction text with
  | nil => exact absurd (fun _ member => nomatch member) outside
  | cons c text inductionHypothesis =>
      by_cases rest : ∀ d ∈ text, Text.isAscii d = true
      · refine ⟨[], c, text, rfl, ?_, rest⟩
        rw [← Bool.not_eq_true]
        intro here
        exact outside (List.forall_mem_cons.mpr ⟨here, rest⟩)
      · obtain ⟨front, d, back, rfl, outside, ascii⟩ := inductionHypothesis rest
        exact ⟨c :: front, d, back, rfl, outside, ascii⟩

/-- The last character of an appended list is the last one of what is appended. -/
theorem mem_of_append_eq_append_singleton
    {front back lead : List Char}
    {c : Char}
    (some : back ≠ [])
    (same : front ++ back = lead ++ [c]) :
    c ∈ back := by
  have last := congrArg List.getLast? same
  rw [List.getLast?_append_of_ne_nil _ some, List.getLast?_concat] at last
  exact List.mem_of_getLast? last

/-- Written with references, a text ends with a spelling of the styles at its end exactly when
these styles are plain ASCII. -/
theorem endsWithSpelling_referenceForm_iff
    (old css : List Char) :
    EndsWithSpelling css ((old ++ css).flatMap Text.referenceForm) ↔
      ∀ c ∈ css, Text.isAscii c = true := by
  constructor
  · rintro ⟨before, spelled, text_eq, spells⟩
    apply Classical.byContradiction
    intro notAscii
    obtain ⟨front, c, back, rfl, outside, backAscii⟩ := exists_last_outside_ascii notAscii
    have notSemicolon : ';' ≠ c := by
      rintro rfl
      cases outside
    obtain ⟨first, second, rfl, rest⟩ := spells.exists_of_append
    cases rest with
    | @cons _ _ here backSpelled hereSpells backSpells =>
        -- The reference for `c` ends with a semicolon, right in front of the last styles.
        obtain ⟨lead, lead_eq⟩ : ∃ lead,
            (old ++ (front ++ c :: back)).flatMap Text.referenceForm = lead ++ ';' :: back := by
          refine ⟨(old ++ front).flatMap Text.referenceForm ++
            '&' :: '#' :: Text.decimalDigits c.toNat, ?_⟩
          simp [Text.referenceForm, outside, Text.flatMap_referenceForm_of_ascii backAscii]
        have behind : (lead ++ [';']) ++ back = (before ++ first ++ here) ++ backSpelled := by
          rw [List.append_assoc, List.singleton_append, ← lead_eq, text_eq]
          simp only [List.append_assoc]
        have notHere : lead ++ [';'] ≠ before ++ first ++ here := by
          intro same
          have member := mem_of_append_eq_append_singleton hereSpells.ne_nil same.symm
          have counted := hereSpells.count_le
          have uncounted : [c].count ';' = 0 :=
            List.count_eq_zero.mpr (by simpa using notSemicolon)
          have positive := List.count_pos_iff.mpr member
          omega
        rcases List.append_eq_append_iff.mp behind with ⟨more, outer, rfl⟩ | ⟨more, outer, rfl⟩
        · have short := backSpells.length_le
          rw [List.length_append] at short
          obtain rfl : more = [] := List.eq_nil_of_length_eq_zero (by omega)
          exact notHere (by rw [outer, List.append_nil])
        · by_cases none : more = []
          · exact notHere (by rw [outer, none, List.append_nil])
          · have member := mem_of_append_eq_append_singleton none outer.symm
            have counted := backSpells.count_le
            have positive := List.count_pos_iff.mpr member
            rw [List.count_append] at counted
            omega
  · intro ascii
    refine ⟨old.flatMap Text.referenceForm, css, ?_, .refl css⟩
    rw [List.flatMap_append, Text.flatMap_referenceForm_of_ascii ascii]

open Markup

/-! ## Styles that arrive -/

/-- What stands between the tags of an element. -/
def innerMarkup (document : Document) (id : Nat) : String :=
  writeTrees (document.tree id).children

section

variable {document : Document}

/-- Every stage of a page for production keeps it a page and keeps the styles in place. -/
theorem IsPage.productionDocument
    (page : IsPage document)
    {finish : Settings.Finish}
    (unpruned : finish.removeUnusedCss = false)
    {styles : Styles}
    (nonempty : styles.head ≠ "")
    (resolved : Image.Resolved) :
    IsWritable (Page.productionDocument finish document styles resolved) ∧
      ∃ style, ShowsStyles styles.head style
        (Page.productionDocument finish document styles resolved) := by
  unfold Page.productionDocument Page.sizedDocument Page.headedDocument
  simp only [unpruned, Bool.false_eq_true, if_false]
  have tagged : IsPage (if finish.metaTags then Page.addMetaTags (Page.prepared finish document)
      else Page.prepared finish document) := by
    split
    · exact (page.prepared finish).addMetaTags
    · exact page.prepared finish
  generalize (if finish.metaTags then Page.addMetaTags (Page.prepared finish document)
    else Page.prepared finish document) = document at tagged
  obtain ⟨styled, style, shown⟩ := tagged.addHeadCss nonempty
  have inlined := Style.sameLayout_inlineStyles (Page.addHeadCss document styles.head)
    styles.inline finish.sizeAttributes
  have sized := inlined.trans (Image.sameLayout_annotate _ resolved true)
  have sizedPage := styled.of_sameLayout sized
  exact ⟨sizedPage.isWritable_stripComments, style,
    (shown.of_sameLayout styled.rooted.forest sized).stripComments sizedPage⟩

/-- The text of a writable document follows its declaration. -/
theorem IsWritable.closePage_write
    (writable : IsWritable document)
    (doctype : String) :
    closePage doctype document.write =
      doctype ++ "\n" ++ restoreDelimiters (Text.encodeNonAscii document.write) := by
  have plain := startsDoctype_write_document writable.forest writable.content_root writable.plainly
  rw [closePage, applyDoctype, withoutDoctype_eq_self, String.ofList_toList]
  rw [toList_restoreDelimiters]
  exact startsDoctype_passes plain

namespace ShowsStyles

variable {css : String} {style : Nat}

theorem exists_innerMarkup_eq
    (shown : ShowsStyles css style document)
    (forest : document.IsForest) :
    ∃ old, innerMarkup document style = old ++ css := by
  obtain ⟨others, last, old, listed, content⟩ := shown.last
  refine ⟨writeTrees (others.map document.tree) ++ old, ?_⟩
  rw [innerMarkup, forest.tree_eq, Tree.children, listed, List.map_append, writeTrees_append,
    List.map_singleton, writeTrees, writeTrees, forest.tree_eq last, content, Tree.write,
    String.append_empty, String.append_assoc]

/-- The style element is written with both of its tags. -/
theorem exists_write_eq
    (shown : ShowsStyles css style document)
    (forest : document.IsForest) :
    ∃ attributes, (document.tree style).write =
      "<style" ++ attributes ++ ">" ++ innerMarkup document style ++ "</style>" := by
  obtain ⟨element, content, name⟩ :=
    Document.isNamed_eq_true_iff.mp (isNamed_of_firstStyle? shown.first)
  obtain ⟨others, last, _, listed, _⟩ := shown.last
  have notEmpty : ((document.children style).map document.tree).isEmpty = false := by
    rw [listed]
    simp
  refine ⟨writeAttributes element.attributes, ?_⟩
  rw [innerMarkup, forest.tree_eq, content, Tree.write, Tree.children]
  simp only [notEmpty, Bool.false_and, Bool.false_eq_true, if_false, name]
  simp only [String.append_assoc]
  rfl

theorem mem_ids_root
    (shown : ShowsStyles css style document)
    (forest : document.IsForest) :
    style ∈ (document.tree Document.root).ids := by
  obtain ⟨head, isHead, found⟩ := Option.bind_eq_some_iff.mp shown.first
  have listed := (Document.mem_findAll_iff.mp (Document.mem_findAll_of_findFirst? isHead)).1
  apply forest.mem_ids_of_mem_children _ (List.mem_of_find?_eq_some found)
  rw [forest.ids_root]
  exact List.mem_cons_of_mem _ listed

end ShowsStyles

end

/-- The passes over a page treat the inside of a style element on its own, and there they write
references only. -/
theorem restoreDelimiters_style
    {inner : String}
    (unescaped : holdsEscapedBrace inner.toList = false)
    (before after : String) :
    restoreDelimiters (Text.encodeNonAscii (before ++ ">" ++ inner ++ "</style>" ++ after)) =
      restoreDelimiters (Text.encodeNonAscii before) ++ ">" ++ Text.encodeNonAscii inner ++
        "</style>" ++ restoreDelimiters (Text.encodeNonAscii after) := by
  have endTag (text : List Char) :
      passes ("/style".toList ++ '>' :: text) = "/style".toList ++ '>' :: passes text := by
    rw [passes_append_close, passes_of_no_brace (by decide),
      Text.flatMap_referenceForm_of_ascii (List.all_eq_true.mp (by decide))]
  apply String.toList_inj.mp
  have split : (before ++ ">" ++ inner ++ "</style>" ++ after).toList =
      before.toList ++ '>' :: (inner.toList ++ '<' ::
        ("/style".toList ++ '>' :: after.toList)) := by
    simp
  rw [toList_restoreDelimiters, split, passes_append_close, passes_append_open, endTag,
    passes_of_no_brace unescaped]
  simp only [String.toList_append, toList_restoreDelimiters]
  simp [Text.encodeNonAscii]

/-- In the page for production, the styles for the head end the text of the first style element
of the head. In the finished page that text stands between the tags, references written for its
characters outside ASCII; so it ends with a spelling of the styles exactly when these are plain
ASCII. -/
theorem production_styles_iff
    {source : String}
    {document : Document}
    (read : Document.read source = .ok document)
    (settings : Settings)
    (unminified : settings.finish.minify = false)
    (unpruned : settings.finish.removeUnusedCss = false)
    (styles : Styles)
    (nonempty : styles.head ≠ "")
    (resolved : Image.Resolved)
    (unescaped : ∀ style,
      firstStyle? (productionDocument settings.finish document styles resolved) = some style →
        holdsEscapedBrace (innerMarkup
          (productionDocument settings.finish document styles resolved) style).toList = false) :
    ∃ finished style inner before attributes after old,
      productionDocument settings.finish document styles resolved = finished ∧
        firstStyle? finished = some style ∧
        innerMarkup finished style = inner ∧
        inner = old ++ styles.head ∧
        (finished.tree style).write = "<style" ++ attributes ++ ">" ++ inner ++ "</style>" ∧
        finished.write = before ++ (finished.tree style).write ++ after ∧
        production settings document styles resolved =
          settings.places.doctype ++ "\n" ++
            restoreDelimiters (Text.encodeNonAscii (before ++ "<style" ++ attributes)) ++ ">" ++
            Text.encodeNonAscii inner ++ "</style>" ++
            restoreDelimiters (Text.encodeNonAscii after) ∧
        (EndsWithSpelling styles.head.toList (Text.encodeNonAscii inner).toList ↔
          ∀ c ∈ styles.head.toList, Text.isAscii c = true) := by
  obtain ⟨writable, style, shown⟩ :=
    (IsPage.read read).productionDocument unpruned nonempty resolved
  have free := unescaped style shown.first
  have production_eq : production settings document styles resolved =
      closePage settings.places.doctype
        (productionDocument settings.finish document styles resolved).write := by
    unfold production productionWith
    rw [unminified]
    rfl
  rw [writable.closePage_write] at production_eq
  generalize productionDocument settings.finish document styles resolved = finished
    at writable shown free production_eq
  obtain ⟨old, inner_eq⟩ := shown.exists_innerMarkup_eq writable.forest
  obtain ⟨attributes, style_eq⟩ := shown.exists_write_eq writable.forest
  obtain ⟨before, after, write_eq⟩ :=
    writable.forest.exists_write_eq writable.holds (shown.mem_ids_root writable.forest)
  refine ⟨finished, style, innerMarkup finished style, before, attributes, after, old, rfl,
    shown.first, rfl, inner_eq, style_eq, write_eq, ?_, ?_⟩
  · have split : finished.write = before ++ "<style" ++ attributes ++ ">" ++
        innerMarkup finished style ++ "</style>" ++ after := by
      rw [Document.write, write_eq, style_eq]
      simp only [String.append_assoc]
    rw [production_eq, split, restoreDelimiters_style free]
    simp only [String.append_assoc]
  · rw [Text.encodeNonAscii, String.toList_ofList, inner_eq, String.toList_append]
    exact endsWithSpelling_referenceForm_iff old.toList styles.head.toList

/-- The settings of a page that is neither minified nor given meta tags. -/
def plainSettings : Settings :=
  { places := { doctype := "<!DOCTYPE html>" }, finish := { minify := false, metaTags := false } }

/-- A page that has a head and nothing in it. -/
def headOnly : Document :=
  ⟨#[⟨.root, none, [1]⟩, ⟨.element ⟨"head", [], false⟩, some Document.root, []⟩]⟩

/-- The page with styles in its head. -/
def headStyled (css : String) : Document :=
  ⟨#[⟨.root, none, [1]⟩, ⟨.element ⟨"head", [], false⟩, some Document.root, [2]⟩,
    ⟨.element (Element.make "style" [("type", "text/css")]), some 1, [3]⟩,
    ⟨.text css, some 2, []⟩]⟩

theorem read_headOnly : Document.read "<head></head>" = .ok headOnly := by
  cbv

theorem productionDocument_headOnly
    {css : String}
    (nonempty : css.isEmpty = false) :
    productionDocument plainSettings.finish headOnly ⟨css, "", []⟩ .none = headStyled css := by
  unfold productionDocument sizedDocument headedDocument addHeadCss
  simp only [nonempty]
  cbv

theorem firstStyle?_headStyled (css : String) : firstStyle? (headStyled css) = some 2 := by
  cbv

theorem innerMarkup_headStyled (css : String) : innerMarkup (headStyled css) 2 = css := by
  have children_eq : ((headStyled css).tree 2).children = [.node 3 (.text css) []] := by cbv
  rw [innerMarkup, children_eq]
  simp [writeTrees, Tree.write]

theorem production_styles_iff_headOnly :
    ∃ inner, innerMarkup (headStyled "a:hover\x7bcolor:red\x7d") 2 = inner ∧
      EndsWithSpelling "a:hover\x7bcolor:red\x7d".toList (Text.encodeNonAscii inner).toList := by
  have nonempty : "a:hover\x7bcolor:red\x7d".isEmpty = false := by decide
  have styled := productionDocument_headOnly nonempty
  have first := firstStyle?_headStyled "a:hover\x7bcolor:red\x7d"
  obtain ⟨finished, style, inner, _, _, _, _, rfl, here, inner_eq, _, _, _, _, ends⟩ :=
    production_styles_iff read_headOnly plainSettings rfl rfl ⟨"a:hover\x7bcolor:red\x7d", "", []⟩
      (by decide) .none (by
        intro style here
        rw [styled, first] at here
        obtain rfl := Option.some.inj here
        rw [styled, innerMarkup_headStyled]
        decide)
  rw [styled, first] at here
  obtain rfl := Option.some.inj here
  rw [styled] at inner_eq
  exact ⟨inner, inner_eq, ends.mpr (List.all_eq_true.mp (by decide))⟩

/-- A character outside ASCII arrives as a reference, which a client does not decode inside a
style element. -/
theorem content_string_escaped :
    Document.read "<head></head>" = .ok headOnly ∧
      production plainSettings headOnly ⟨"a:hover\x7bcontent:\"é\"\x7d", "", []⟩ .none =
        "<!DOCTYPE html>\n" ++
          "<head><style type=\"text/css\">a:hover\x7bcontent:\"&#233;\"\x7d</style></head>" ∧
      ¬EndsWithSpelling "a:hover\x7bcontent:\"é\"\x7d".toList "a:hover\x7bcontent:\"&#233;\"\x7d".toList := by
  refine ⟨read_headOnly, ?_, ?_⟩
  · have write_eq : (productionDocument plainSettings.finish headOnly
        ⟨"a:hover\x7bcontent:\"é\"\x7d", "", []⟩ .none).write =
          "<head><style type=\"text/css\">a:hover\x7bcontent:\"é\"\x7d</style></head>" := by
      rw [productionDocument_headOnly (by decide)]
      decide +kernel
    unfold production productionWith
    rw [write_eq]
    decide +kernel
  · have written : ([] ++ "a:hover\x7bcontent:\"é\"\x7d".toList).flatMap Text.referenceForm =
        "a:hover\x7bcontent:\"&#233;\"\x7d".toList := by decide
    rw [← written, endsWithSpelling_referenceForm_iff]
    exact fun ascii => absurd (ascii 'é' (by decide)) (by decide)

end Page
end MailPress
