import Mathlib
import MailPress.Proofs.Page.HeadStyles
import MailPress.Proofs.Page.Stages
import MailPress.Settings.Reader

/-!
# The document type of a finished page

A finished page starts with the configured declaration, and none of the declarations of its
source is left in it. A text that reads like one may stand where a page quotes what it was
given: in comments and in sections that are passed on, in the bodies of style and script
elements, and inside of tags. To say that it stands nowhere else, the page is written with the
angle brackets in these parts masked.
-/

namespace MailPress

open Markup

namespace Page

/-! ## Texts without declarations -/

/-- No markup in a text starts a document type declaration. -/
inductive NoneDeclared : List Char → Prop
  | nil : NoneDeclared []
  | cons {c : Char} {rest : List Char} :
      (c = '<' → startsDoctype ('<' :: rest) = false) → NoneDeclared rest →
        NoneDeclared (c :: rest)

namespace NoneDeclared

theorem plain
    {c : Char}
    {rest : List Char}
    (different : c ≠ '<')
    (none : NoneDeclared rest) :
    NoneDeclared (c :: rest) :=
  .cons (fun same => absurd same different) none

theorem append
    {front rest : List Char}
    (noAngle : '<' ∉ front)
    (none : NoneDeclared rest) :
    NoneDeclared (front ++ rest) := by
  induction front with
  | nil => exact none
  | cons c front inductionHypothesis =>
      obtain ⟨different, noAngle⟩ := List.ne_and_not_mem_of_not_mem_cons noAngle
      exact plain different.symm (inductionHypothesis noAngle)

/-- Behind an angle bracket that starts no declaration there may stand a text without one. -/
theorem angle
    {c : Char}
    {rest : List Char}
    (notMark : c ≠ '!')
    (none : NoneDeclared (c :: rest)) :
    NoneDeclared ('<' :: c :: rest) :=
  .cons (fun _ => startsDoctype_angle notMark rest) none

theorem startsDoctype_eq_false
    {text : List Char}
    (none : NoneDeclared text) :
    startsDoctype text = false := by
  induction none with
  | nil => rfl
  | @cons c rest here _ inductionHypothesis =>
      by_cases angle : c = '<'
      · subst angle
        exact here rfl
      · rw [startsDoctype_cons_of_ne angle]
        exact inductionHypothesis

theorem tail
    {c : Char}
    {rest : List Char}
    (none : NoneDeclared (c :: rest)) :
    NoneDeclared rest := by
  cases none with
  | cons _ later => exact later

theorem of_append
    {front rest : List Char}
    (none : NoneDeclared (front ++ rest)) :
    NoneDeclared rest := by
  induction front with
  | nil => exact none
  | cons c front inductionHypothesis => exact inductionHypothesis none.tail

/-- The passes over a page write no declaration. -/
theorem passes
    {text : List Char}
    (none : NoneDeclared text) :
    NoneDeclared (passes text) := by
  induction length : text.length using Nat.strongRecOn generalizing text with
  | ind total inductionHypothesis =>
      by_cases angle : '<' ∈ text
      · obtain ⟨before, after, rfl, noAngle⟩ := List.eq_append_cons_of_mem angle
        have here := none.of_append
        have shorter : after.length < total := by
          rw [← length, List.length_append, List.length_cons]
          omega
        rw [passes_append_open]
        refine .append (not_mem_passes noAngle) (.cons (fun _ => ?_) ?_)
        · have passed := startsDoctype_passes here.startsDoctype_eq_false
          rwa [← List.nil_append ('<' :: after), passes_append_open] at passed
        · exact inductionHypothesis after.length shorter here.tail rfl
      · rw [← List.append_nil (Page.passes text)]
        exact .append (not_mem_passes angle) .nil

end NoneDeclared

/-- Whether a document type declaration stands somewhere in a page. -/
def declares (page : String) : Bool :=
  Text.holds "<!doctype" (Text.lower page)

theorem declares_eq_false
    {page : String}
    (none : NoneDeclared page.toList) :
    declares page = false := by
  by_contra holds
  rw [declares, Bool.not_eq_false, Text.holds_eq_true_iff] at holds
  obtain ⟨before, after, split⟩ := holds
  simp only [Text.lower, String.toList_ofList, List.append_assoc] at split
  obtain ⟨front, rest, whole, _, lowered⟩ := List.map_eq_append_iff.mp split.symm
  obtain ⟨declaration, more, rfl, opening, _⟩ := List.map_eq_append_iff.mp lowered
  rw [whole] at none
  have opens := startsDoctype_of_lowercase opening more
  rw [none.of_append.startsDoctype_eq_false] at opens
  cases opens

/-! ## Masked pages -/

/-- The parts in which a page quotes what it was given. -/
inductive Part
  /-- The body of a comment. -/
  | comment
  /-- A section or an instruction. -/
  | passedOn
  /-- The body of a style or script element. -/
  | body
  /-- The value of an attribute. -/
  | attributeValue
  /-- The name of an attribute. -/
  | attributeName
  /-- The name of an element. -/
  | elementName
  deriving DecidableEq, Repr

/-- A text with references in the place of its opening angle brackets. -/
def withoutAngles (text : String) : String :=
  String.ofList (text.toList.flatMap fun c => if c = '<' then "&lt;".toList else [c])

/-- The text of a part of a page, without angle brackets if the part is masked. -/
def mask (masked : List Part) (part : Part) (text : String) : String :=
  if part ∈ masked then withoutAngles text else text

/-- An element with its parts masked. -/
def maskElement (masked : List Part) (element : Element) : Element :=
  { element with
    name := mask masked .elementName element.name
    attributes := element.attributes.map fun attr =>
      ⟨mask masked .attributeName attr.name, mask masked .attributeValue attr.value⟩ }

/-- What a node stands for, with its parts masked. -/
def maskContent (masked : List Part) (inBody : Bool) : Content → Content
  | .root => .root
  | .element element => .element (maskElement masked element)
  | .text raw => .text (if inBody then mask masked .body raw else raw)
  | .comment body => .comment (mask masked .comment body)
  | .verbatim raw => .verbatim (mask masked .passedOn raw)

mutual

/-- A tree with its parts masked. -/
def maskTree (masked : List Part) (inBody : Bool) : Tree → Tree
  | .node id content children =>
      .node id (maskContent masked inBody content) (maskTrees masked content.holdsBody children)

/-- Trees with their parts masked. -/
def maskTrees (masked : List Part) (inBody : Bool) : List Tree → List Tree
  | [] => []
  | tree :: trees => maskTree masked inBody tree :: maskTrees masked inBody trees

end

/-- The text of a document with its parts masked. -/
def writeMasked (masked : List Part) (document : Document) : String :=
  (maskTree masked false (document.tree Document.root)).write

theorem maskTrees_eq_map (masked : List Part) (inBody : Bool) (trees : List Tree) :
    maskTrees masked inBody trees = trees.map (maskTree masked inBody) := by
  induction trees with
  | nil => rfl
  | cons tree trees inductionHypothesis => rw [maskTrees, inductionHypothesis, List.map_cons]

/-- All parts in which a page quotes what it was given. -/
def quotingParts : List Part :=
  [.comment, .passedOn, .body, .attributeValue, .attributeName, .elementName]

theorem not_mem_mask (part : Part) (text : String) :
    '<' ∉ (mask quotingParts part text).toList := by
  have masked : part ∈ quotingParts := by cases part <;> decide
  rw [mask, if_pos masked, withoutAngles, String.toList_ofList, List.mem_flatMap]
  rintro ⟨c, _, member⟩
  split at member
  · revert member
    decide
  · next different => exact different (List.mem_singleton.mp member).symm

/-- Replacing a pattern writes no character that is in neither text. -/
theorem not_mem_replaceFrom
    {c : Char}
    (pattern : List Char)
    {replacement text : List Char}
    (noReplacement : c ∉ replacement)
    (noText : c ∉ text)
    (skip : Nat) :
    c ∉ Text.replaceFrom pattern replacement skip text := by
  induction text generalizing skip with
  | nil => cases skip <;> simp [Text.replaceFrom]
  | cons first rest inductionHypothesis =>
      obtain ⟨different, noRest⟩ := List.ne_and_not_mem_of_not_mem_cons noText
      cases skip with
      | succ skip => exact inductionHypothesis noRest skip
      | zero =>
          unfold Text.replaceFrom
          split
          · exact fun member => (List.mem_append.mp member).elim noReplacement
              (inductionHypothesis noRest _)
          · exact List.not_mem_cons_of_ne_of_not_mem different (inductionHypothesis noRest 0)

theorem not_mem_writeAttributes
    {attributes : List Attribute}
    (noName : ∀ attr ∈ attributes, '<' ∉ attr.name.toList)
    (noValue : ∀ attr ∈ attributes, '<' ∉ attr.value.toList) :
    '<' ∉ (writeAttributes attributes).toList := by
  induction attributes with
  | nil => simp [writeAttributes]
  | cons attr attributes inductionHypothesis =>
      rw [toList_writeAttributes_cons, List.mem_append, not_or]
      refine ⟨?_, inductionHypothesis (fun other member => noName other (.tail _ member))
        fun other member => noValue other (.tail _ member)⟩
      have value : '<' ∉ Text.replaceAll "\"".toList "&quot;".toList attr.value.toList :=
        not_mem_replaceFrom _ (by decide) (noValue attr List.mem_cons_self) 0
      have name := noName attr List.mem_cons_self
      simp only [Attribute.write, Text.substitute, String.toList_append, List.mem_append,
        String.toList_ofList, not_or]
      exact ⟨⟨⟨⟨by decide, name⟩, by decide⟩, value⟩, by decide⟩

/-- The name of an element still starts with its letter when it is masked. -/
theorem exists_mask_eq_cons
    {name : String}
    (letter : name.toList.head?.any Text.isAsciiLetter = true) :
    ∃ c rest, (mask quotingParts .elementName name).toList = c :: rest ∧ c ≠ '!' := by
  obtain ⟨c, found, isLetter⟩ := (Option.any_eq_true ..).mp letter
  obtain ⟨rest, name_eq⟩ := List.head?_eq_some_iff.mp found
  have notAngle : c ≠ '<' := by
    rintro rfl
    cases isLetter
  refine ⟨c, (withoutAngles (String.ofList rest)).toList, ?_, ?_⟩
  · rw [mask, if_pos (by decide), withoutAngles, withoutAngles, name_eq, String.toList_ofList,
      String.toList_ofList, String.toList_ofList, String.toList_ofList, List.flatMap_cons,
      if_neg notAngle]
    rfl
  · rintro rfl
    cases isLetter

/-- A masked element declares nothing if what stands in it declares nothing. -/
theorem noneDeclared_write_element
    {element : Element}
    (plain : startsPlainly (.element element))
    (id : Nat)
    {children : List Tree}
    (inner : ∀ more, NoneDeclared more → NoneDeclared ((writeTrees children).toList ++ more))
    {rest : List Char}
    (none : NoneDeclared rest) :
    NoneDeclared
      ((Markup.Tree.node id (.element (maskElement quotingParts element)) children).write.toList ++
        rest) := by
  obtain ⟨c, tail, name_eq, notMark⟩ := exists_mask_eq_cons plain
  have noName : '<' ∉ (maskElement quotingParts element).name.toList :=
    not_mem_mask .elementName element.name
  have noAttribute :
      '<' ∉ (writeAttributes (maskElement quotingParts element).attributes).toList := by
    apply not_mem_writeAttributes <;>
    · intro attr member
      obtain ⟨_, _, rfl⟩ := List.mem_map.mp member
      exact not_mem_mask _ _
  have ends : NoneDeclared ((maskElement quotingParts element).written children ++ rest) := by
    unfold Element.written
    split
    · exact .plain (by decide) (.plain (by decide) none)
    · split
      · exact .plain (by decide) none
      · have named : NoneDeclared
            ((maskElement quotingParts element).name.toList ++ '>' :: rest) :=
          .append noName (.plain (by decide) none)
        have endTag : NoneDeclared ('<' :: '/' ::
            ((maskElement quotingParts element).name.toList ++ '>' :: rest)) :=
          .angle (by decide) (.plain (by decide) named)
        have whole := NoneDeclared.plain (by decide : '>' ≠ '<') (inner _ endTag)
        simpa only [List.cons_append, List.append_assoc, List.nil_append] using whole
  have tag : '<' ∉ (maskElement quotingParts element).tagText := by
    rw [Element.tagText, List.mem_append, not_or]
    exact ⟨noName, noAttribute⟩
  have masked_eq : (maskElement quotingParts element).name.toList = c :: tail := name_eq
  have tag_eq : (maskElement quotingParts element).tagText =
      c :: (tail ++ (writeAttributes (maskElement quotingParts element).attributes).toList) := by
    rw [Element.tagText, masked_eq, List.cons_append]
  rw [toList_write_element, List.cons_append, List.append_assoc]
  have begins := NoneDeclared.append tag ends
  rw [tag_eq, List.cons_append] at begins ⊢
  exact .angle notMark begins

/-- Masked trees declare nothing together if each of them declares nothing. -/
theorem noneDeclared_writeTrees
    {trees : List Tree}
    (each : ∀ tree ∈ trees, ∀ rest, NoneDeclared rest → NoneDeclared (tree.write.toList ++ rest))
    {rest : List Char}
    (none : NoneDeclared rest) :
    NoneDeclared ((writeTrees trees).toList ++ rest) := by
  induction trees with
  | nil => exact none
  | cons tree trees inductionHypothesis =>
      obtain ⟨here, others⟩ := List.forall_mem_cons.mp each
      rw [toList_writeTrees_cons, List.append_assoc]
      exact here _ (inductionHypothesis others)

/-- With its quoting parts masked, nothing that an orderly document holds is a declaration. -/
theorem IsOrderly.noneDeclared_write
    {document : Document}
    (orderly : IsOrderly document)
    (id : Nat)
    {parent : Nat}
    (below : document.parent? id = some parent)
    {rest : List Char}
    (none : NoneDeclared rest) :
    NoneDeclared
      ((maskTree quotingParts (document.content parent).holdsBody
        (document.tree id)).write.toList ++ rest) := by
  induction id using orderly.forest.induction generalizing parent rest with
  | node id inductionHypothesis =>
      have inner : ∀ more, NoneDeclared more → NoneDeclared
          ((writeTrees (((document.children id).map document.tree).map
            (maskTree quotingParts (document.content id).holdsBody))).toList ++ more) := by
        refine fun more moreNone => noneDeclared_writeTrees ?_ moreNone
        intro tree member
        obtain ⟨_, among, rfl⟩ := List.mem_map.mp member
        obtain ⟨child, listed, rfl⟩ := List.mem_map.mp among
        exact fun _ => inductionHypothesis child listed (orderly.forest.mem_children_iff.mp listed)
      have fits := orderly.fits below
      rw [orderly.forest.tree_eq, maskTree, maskTrees_eq_map]
      unfold FitsBelow at fits
      cases inBody : (document.content parent).holdsBody with
      | true =>
          obtain ⟨raw, isText⟩ := (if_pos inBody).mp fits
          rw [isText]
          exact .append (not_mem_mask .body raw) none
      | false =>
          rw [inBody, if_neg (by decide)] at fits
          cases content : document.content id with
          | root => rw [content] at fits; exact fits.elim
          | text raw => rw [content] at fits; exact .append fits none
          | verbatim raw => exact .append (not_mem_mask .passedOn raw) none
          | comment body =>
              rw [maskContent, toList_write_comment]
              have closes : NoneDeclared ('-' :: '-' :: '>' :: rest) :=
                .plain (by decide) (.plain (by decide) (.plain (by decide) none))
              have inside : NoneDeclared
                  ((mask quotingParts .comment body).toList ++ '-' :: '-' :: '>' :: rest) :=
                .append (not_mem_mask .comment body) closes
              have opens : NoneDeclared ('!' :: '-' :: '-' ::
                  ((mask quotingParts .comment body).toList ++ '-' :: '-' :: '>' :: rest)) :=
                .plain (by decide) (.plain (by decide) (.plain (by decide) inside))
              have whole := opens.cons (c := '<') fun _ => rfl
              simpa only [List.cons_append, List.append_assoc, List.nil_append] using whole
          | element element =>
              rw [content] at fits inner
              exact noneDeclared_write_element fits id inner none

/-! ## Finished pages -/

theorem IsOrderly.isWritable
    {document : Document}
    (orderly : IsOrderly document) :
    IsWritable document := by
  refine ⟨orderly.forest, orderly.content_root, orderly.holds, fun id below => ?_⟩
  have fits := orderly.fits below
  rw [orderly.content_root] at fits
  exact fits

theorem IsOrderly.declares_writeMasked
    {document : Document}
    (orderly : IsOrderly document) :
    declares (restoreDelimiters (Text.encodeNonAscii (writeMasked quotingParts document))) =
      false := by
  apply declares_eq_false
  rw [toList_restoreDelimiters]
  apply NoneDeclared.passes
  rw [writeMasked, orderly.forest.tree_eq, orderly.content_root, maskTree, maskTrees_eq_map]
  have children : NoneDeclared ((writeTrees (((document.children Document.root).map
      document.tree).map (maskTree quotingParts false))).toList ++ []) := by
    refine noneDeclared_writeTrees ?_ .nil
    intro tree member
    obtain ⟨_, among, rfl⟩ := List.mem_map.mp member
    obtain ⟨child, listed, rfl⟩ := List.mem_map.mp among
    intro rest none
    have below := orderly.noneDeclared_write child (orderly.forest.mem_children_iff.mp listed) none
    rwa [orderly.content_root] at below
  rwa [List.append_nil] at children

/-- Settings without a fault have a document type declaration to give. -/
theorem declares_doctype
    {settings : Settings}
    {disk : Disk}
    (faultless : settings.fault? disk = none) :
    declares settings.places.doctype = true := by
  have isDoctype : Settings.isDoctype settings.places.doctype = true := by
    unfold Settings.fault? at faultless
    split at faultless
    · cases faultless
    · next valid => simpa using valid
  rw [Settings.isDoctype, Text.hasStart, Text.startsWith] at isDoctype
  obtain ⟨rest, opens⟩ := Option.isSome_iff_exists.mp isDoctype
  obtain ⟨lead, split, _⟩ := Text.exists_trimStart settings.places.doctype.toList
  rw [declares, Text.holds_eq_true_iff]
  refine ⟨lead.map Text.lowerChar, rest, ?_⟩
  have lowered := Text.eq_append_of_dropStart? opens
  rw [Text.lower, String.toList_ofList, String.toList_ofList] at lowered
  rw [Text.lower, split, List.map_append, lowered, List.append_assoc]
  exact String.toList_ofList.symm

/-- Both pages of a document start with the configured declaration on a line of its own, and go
on with all of what is written of the document. In this rest no declaration stands outside of
the parts in which a page quotes what it was given, however many there were in the source. -/
theorem pages_have_one_doctype
    {source : String}
    {document : Document}
    (read : Document.read source = .ok document)
    (settings : Settings)
    (unminified : settings.finish.minify = false)
    (styles : Styles)
    (resolved : Image.Resolved) :
    (∀ disk, settings.fault? disk = none → declares settings.places.doctype = true) ∧
      ∀ page ∈
          [(production settings document styles resolved,
              productionDocument settings.finish document styles resolved),
            (development settings document styles resolved,
              developmentDocument settings.finish document styles resolved)],
        page.1 = settings.places.doctype ++ "\n" ++
            restoreDelimiters (Text.encodeNonAscii page.2.write) ∧
          declares (restoreDelimiters (Text.encodeNonAscii (writeMasked quotingParts page.2))) =
            false := by
  have orderly := isOrderly_read read
  refine ⟨fun _ => declares_doctype, fun page among => ?_⟩
  have closes {final : Document} (altered : Altered document final) :
      closePage settings.places.doctype final.write = settings.places.doctype ++ "\n" ++
          restoreDelimiters (Text.encodeNonAscii final.write) ∧
        declares (restoreDelimiters (Text.encodeNonAscii (writeMasked quotingParts final))) =
          false := by
    have later := isOrderly_of_altered altered orderly
    exact ⟨later.isWritable.closePage_write _, later.declares_writeMasked⟩
  rcases List.mem_pair.mp among with rfl | rfl
  · have finished := closes (altered_productionDocument orderly settings.finish styles resolved)
    rw [production, productionWith, unminified]
    exact finished
  · exact closes (altered_developmentDocument orderly settings.finish styles resolved)

/-- A page of one paragraph, the declarations around it dropped. -/
def declared : Document :=
  ⟨#[⟨.root, none, [1]⟩, ⟨.element ⟨"p", [], false⟩, some Document.root, [2]⟩,
    ⟨.text "x", some 1, []⟩]⟩

theorem read_declared : Document.read "<!doctype a><p>x</p><!doctype b>" = .ok declared := by
  have prepared : withoutMark (prepare "<!doctype a><p>x</p><!doctype b>".toList) =
      "<!doctype a><p>x</p><!doctype b>".toList := by cbv
  have events : readEvents "<!doctype a><p>x</p><!doctype b>".toList =
      .ok [.declaration "doctype a", .start ⟨"p", [], false⟩, .text "x", .finish "p",
        .declaration "doctype b"] := by cbv
  exact read_eq_ok_iff.mpr ⟨_, prepared ▸ readEvents_eq_ok_iff.mp events, by cbv⟩

/-- The theorem at a source with two declarations. -/
theorem pages_have_one_doctype_declared :
    Document.read "<!doctype a><p>x</p><!doctype b>" = .ok declared ∧
      production plainSettings declared ⟨"", "", []⟩ .none = "<!DOCTYPE html>\n" ++
          restoreDelimiters (Text.encodeNonAscii
            (productionDocument plainSettings.finish declared ⟨"", "", []⟩ .none).write) ∧
      declares (restoreDelimiters (Text.encodeNonAscii (writeMasked quotingParts
        (productionDocument plainSettings.finish declared ⟨"", "", []⟩ .none)))) = false :=
  ⟨read_declared, (pages_have_one_doctype read_declared plainSettings rfl ⟨"", "", []⟩ .none).2 _
    List.mem_cons_self⟩

/-- A page whose only paragraph has a declaration in its tag: it stands between quotes, and so
the tag does not end with it, but the quotes belong to the names of two attributes. -/
def quoted : Document :=
  ⟨#[⟨.root, none, [1]⟩,
    ⟨.element ⟨"p", [⟨"a\"><!doctype", ""⟩, ⟨"html>\"b", ""⟩], false⟩, some Document.root, [2]⟩,
    ⟨.text "x", some 1, []⟩]⟩

theorem read_quoted : Document.read "<p a\"><!doctype html>\"b>x</p>" = .ok quoted := by
  have prepared : withoutMark (prepare "<p a\"><!doctype html>\"b>x</p>".toList) =
      "<p a\"><!doctype html>\"b>x</p>".toList := by cbv
  have events : readEvents "<p a\"><!doctype html>\"b>x</p>".toList =
      .ok [.start ⟨"p", [⟨"a\"><!doctype", ""⟩, ⟨"html>\"b", ""⟩], false⟩, .text "x",
        .finish "p"] := by cbv
  exact read_eq_ok_iff.mpr ⟨_, prepared ▸ readEvents_eq_ok_iff.mp events, by cbv⟩

theorem productionDocument_quoted :
    productionDocument plainSettings.finish quoted ⟨"", "", []⟩ .none = quoted := by
  cbv

/-- The names of attributes may hold a declaration, which a page then has outside of comments,
sections, bodies and values. -/
theorem declares_attributeName :
    Document.read "<p a\"><!doctype html>\"b>x</p>" = .ok quoted ∧
      production plainSettings quoted ⟨"", "", []⟩ .none =
        "<!DOCTYPE html>\n<p a\"><!doctype=\"\" html>\"b=\"\">x</p>" ∧
      declares (restoreDelimiters (Text.encodeNonAscii
        (writeMasked [.comment, .passedOn, .body, .attributeValue]
          (productionDocument plainSettings.finish quoted ⟨"", "", []⟩ .none)))) = true := by
  have written : quoted.write = "<p a\"><!doctype=\"\" html>\"b=\"\">x</p>" := by cbv
  have masked : writeMasked [.comment, .passedOn, .body, .attributeValue] quoted =
      "<p a\"><!doctype=\"\" html>\"b=\"\">x</p>" := by cbv
  refine ⟨read_quoted, ?_, ?_⟩
  · unfold production productionWith
    rw [productionDocument_quoted, written]
    decide +kernel
  · rw [productionDocument_quoted, masked]
    decide +kernel

end Page

end MailPress
