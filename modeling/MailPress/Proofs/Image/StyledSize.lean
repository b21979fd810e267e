import Mathlib
import MailPress.Proofs.Css.Onward
import MailPress.Proofs.Markup.DocumentOrder
import MailPress.Proofs.Markup.Links
import MailPress.Proofs.Markup.Reference
import MailPress.Proofs.Page.Delimiters
import MailPress.Proofs.Page.ImageSizes

/-!
# Sizes in inline styles

In production a size is also written behind the inline style of its image. The style is looked at
and extended as it stands in the page, with its references, and is read with them decoded. A
semicolon at its end may be that of a reference, and then nothing separates the size from the
declaration in front of it.
-/

namespace MailPress
namespace Image

open Markup

/-! ## The declarations of a size -/

/-- The declaration of a length in pixels. -/
def pixels (property : String) (length : Nat) : Css.Declaration :=
  ⟨property, toString length ++ "px", false⟩

/-- The declarations of a size whose properties a list does not declare. -/
def lackingDeclarations (declarations : List Css.Declaration) (size : Size) :
    List Css.Declaration :=
  [pixels "width" size.width, pixels "height" size.height].filter fun wanted =>
    !declarations.any fun declaration => declaration.property == wanted.property

theorem isPropertyChar_of_isAsciiDigit
    {c : Char}
    (digit : Text.isAsciiDigit c = true) :
    Css.isPropertyChar c = true := by
  have lowered : Text.lowerChar c = c := by
    rw [Text.isAsciiDigit_eq_isDigit] at digit
    exact Page.lowerChar_of_isDigit digit
  refine Css.isPropertyChar_of_isWordChar ?_
  rw [Css.isWordChar, lowered, beq_self_eq_true, Bool.and_true, Css.isAtNameChar,
    Text.isAsciiAlphanumeric, ← Text.isAsciiDigit, digit, Bool.or_true]
  rfl

theorem isPlain_pixels
    {property : String}
    (named : property ≠ "")
    (word : ∀ c ∈ property.toList, Css.isPropertyChar c = true)
    (length : Nat) :
    (pixels property length).IsPlain where
  property_ne := named
  property_word := word
  value_ne := by simp [pixels]
  value_word := by
    intro c member
    have split : c ∈ Nat.toDigits 10 length ∨ c ∈ ['p', 'x'] := by simpa [pixels] using member
    rcases split with inNumber | inUnit
    · exact isPropertyChar_of_isAsciiDigit (Text.isAsciiDigit_of_mem_toDigits inNumber)
    · exact List.all_eq_true.mp (by decide : ['p', 'x'].all Css.isPropertyChar = true) c inUnit
  unmarked := rfl

theorem isPlain_of_mem_lackingDeclarations
    {declarations : List Css.Declaration}
    {size : Size}
    {declaration : Css.Declaration}
    (member : declaration ∈ lackingDeclarations declarations size) :
    declaration.IsPlain := by
  rcases List.mem_pair.mp (List.mem_filter.mp member).1 with rfl | rfl
  · exact isPlain_pixels (by decide)
      (List.all_eq_true.mp (by decide : "width".toList.all Css.isPropertyChar = true)) size.width
  · exact isPlain_pixels (by decide)
      (List.all_eq_true.mp (by decide : "height".toList.all Css.isPropertyChar = true)) size.height

/-- The declarations that are missing are written as plain ones. -/
theorem toList_missingSizes (declarations : List Css.Declaration) (size : Size) :
    (missingSizes declarations size).toList =
      Css.plainLines (lackingDeclarations declarations size) := by
  unfold missingSizes lackingDeclarations
  dsimp only [List.filter, pixels]
  cases declarations.any fun declaration => declaration.property == "width" <;>
    cases declarations.any fun declaration => declaration.property == "height" <;>
    simp [Css.plainLines, Css.Declaration.plainText]

/-! ## An extended style -/

/-- A style behind which declarations can be put as it is written. -/
structure IsExtensible (style : String) (size : Size) : Prop where
  /-- Its strings, brackets and comments end in what it denotes. -/
  complete : Css.IsComplete (decode style).toList
  /-- It declares the same sizes with its references and without them. -/
  alike : lackingDeclarations (Css.readDeclarations style) size =
    lackingDeclarations (Css.readDeclarations (decode style)) size
  /-- A semicolon behind it ends no reference. -/
  ended : decode (style ++ ";") = decode style ++ ";"

/-- Blanks around a style do not matter to what it declares. -/
theorem readDeclarations_decode_trimmed (raw : String) :
    Css.readDeclarations (decode (Text.trimmed raw)) = Css.readDeclarations (decode raw) := by
  obtain ⟨lead, trail, split, leadBlanks, trailBlanks⟩ := Text.exists_trim raw.toList
  have leadPlain : '&' ∉ lead := fun member => absurd (leadBlanks _ member) (by decide)
  have trailPlain : '&' ∉ trail := fun member => absurd (trailBlanks _ member) (by decide)
  have trailOpen : ';' ∉ trail := fun member => absurd (trailBlanks _ member) (by decide)
  have decoded : (decode raw).toList =
      lead ++ (decode (Text.trimmed raw)).toList ++ trail := by
    rw [decode, decode, String.toList_ofList, String.toList_ofList, Text.trimmed,
      String.toList_ofList, split, decodeFrom_append (Nat.zero_le _) trailPlain (.inr trailOpen),
      decodeFrom_append_left leadPlain, ← split]
  rw [Css.readDeclarations, Css.readDeclarations, decoded,
    Css.readDeclarationList_append_blanks _ trailBlanks,
    Css.readDeclarationList_append_of_forall_isBlank leadBlanks]

/-- The declarations that are put behind an extensible style are read behind its own exactly when
a semicolon that it ends in has nothing but blanks behind it in what it denotes. -/
theorem readDeclarations_extendStyle_iff
    {style : String}
    {size : Size}
    (extensible : IsExtensible style size)
    (lacks : lackingDeclarations (Css.readDeclarations style) size ≠ []) :
    Css.readDeclarations (decode
        (extendStyle style (missingSizes (Css.readDeclarations style) size))) =
        Css.readDeclarations (decode style) ++
          lackingDeclarations (Css.readDeclarations (decode style)) size ↔
      Text.hasEnd ";" style = false ∨ Css.EndsBlank (decode style).toList := by
  obtain ⟨complete, alike, ended⟩ := extensible
  rw [← alike]
  have added_eq := toList_missingSizes (Css.readDeclarations style) size
  have plain : ∀ declaration ∈ lackingDeclarations (Css.readDeclarations style) size,
      declaration.IsPlain := fun _ member => isPlain_of_mem_lackingDeclarations member
  generalize lackingDeclarations (Css.readDeclarations style) size = added at *
  have noReference : '&' ∉ Css.plainLines added := by
    intro member
    rcases Css.isPropertyChar_of_mem_plainLines plain member with property | colon | semicolon
    · exact absurd property (by decide)
    · exact absurd colon (by decide)
    · exact absurd semicolon (by decide)
  generalize missingSizes (Css.readDeclarations style) size = addition at added_eq
  rw [← added_eq] at noReference
  have behind : '&' ∉ (" " ++ addition).toList := by simp [noReference]
  unfold extendStyle
  split
  · next empty =>
      obtain rfl := String.isEmpty_iff.mp empty
      have decoded : decode addition = addition := by
        have whole := decodeFrom_append_left noReference []
        rw [List.append_nil] at whole
        rw [decode, whole]
        simp [decodeFrom]
      have nothing : Css.readDeclarations (decode "") = [] := by decide
      rw [decoded, nothing, Css.readDeclarations, added_eq,
        Css.readDeclarationList_plainLines plain, List.nil_append]
      exact iff_of_true rfl (.inl (by decide))
  · split
    · next finished =>
        have goesOn := complete.readDeclarationList_append_space_iff plain lacks
        rw [← added_eq] at goesOn
        rw [String.append_assoc, decode_append behind (.inl finished), finished,
          Css.readDeclarations, Css.readDeclarations]
        simpa using goesOn
    · next unfinished =>
        have split : style ++ "; " ++ addition = style ++ ";" ++ (" " ++ addition) := by
          rw [show "; " = ";" ++ " " by decide, String.append_assoc, String.append_assoc,
            String.append_assoc]
        have finished : Text.hasEnd ";" (style ++ ";") = true :=
          (Text.endsWith_singleton ';' _).trans (by simp)
        have goesOn := complete.readDeclarationList_append_semicolon plain
        rw [← added_eq] at goesOn
        rw [split, decode_append behind (.inl finished), ended, Css.readDeclarations,
          Css.readDeclarations]
        refine iff_of_true ?_ (.inl (by simpa using unfinished))
        simpa using goesOn

/-! ## The images of a document -/

/-- The inline style of an element as it is written, without blanks around it. -/
def writtenStyle (element : Element) : String :=
  Text.trimmed ((element.attr? "style").getD "")

/-- The declarations of the inline style of an element. -/
def styleDeclarations (element : Element) : List Css.Declaration :=
  (element.decodedAttr? "style").elim [] Css.readDeclarations

theorem styleDeclarations_eq (element : Element) :
    styleDeclarations element = Css.readDeclarations (decode (writtenStyle element)) := by
  unfold styleDeclarations writtenStyle Element.decodedAttr?
  cases element.attr? "style" with
  | none => exact (by decide : [] = Css.readDeclarations (decode (Text.trimmed "")))
  | some raw =>
      rw [Option.map_some, Option.elim_some, Option.getD_some, readDeclarations_decode_trimmed]

theorem attr?_setAttrIfMissing_of_ne
    (element : Element)
    {name other : String}
    (different : other ≠ name)
    (value : String) :
    (element.setAttrIfMissing name value).attr? other = element.attr? other := by
  unfold Element.setAttrIfMissing
  split
  · rfl
  · exact element.attr?_setAttr_of_ne different value

theorem missingSizes_isEmpty_iff
    {declarations : List Css.Declaration}
    {size : Size} :
    (missingSizes declarations size).isEmpty = true ↔
      lackingDeclarations declarations size = [] := by
  rw [String.isEmpty_iff, ← String.toList_eq_nil_iff, toList_missingSizes]
  cases lackingDeclarations declarations size with
  | nil => simp [Css.plainLines]
  | cons declaration others => simp

theorem styleDeclarations_setAttr (element : Element) (style : String) :
    styleDeclarations (element.setAttr "style" style) = Css.readDeclarations (decode style) := by
  rw [styleDeclarations, Element.decodedAttr?, Element.attr?_setAttr_self, Option.map_some,
    Option.elim_some]

theorem styleDeclarations_withStyledSize_iff
    {element : Element}
    {size : Size}
    (extensible : IsExtensible (writtenStyle element) size) :
    styleDeclarations (withStyledSize size element) = styleDeclarations element ++
        lackingDeclarations (styleDeclarations element) size ↔
      lackingDeclarations (styleDeclarations element) size = [] ∨
        Text.hasEnd ";" (writtenStyle element) = false ∨
        Css.EndsBlank (decode (writtenStyle element)).toList := by
  have alike := extensible.alike
  rw [← styleDeclarations_eq] at alike
  have styled_eq : withStyledSize size element =
      if (missingSizes (Css.readDeclarations (writtenStyle element)) size).isEmpty then element
      else element.setAttr "style" (extendStyle (writtenStyle element)
        (missingSizes (Css.readDeclarations (writtenStyle element)) size)) := by
    rw [withStyledSize, writtenStyle]
  rw [styled_eq]
  split
  · next none =>
      have lacksNone := alike.symm.trans (missingSizes_isEmpty_iff.mp none)
      rw [lacksNone]
      simp
  · next some =>
      have lacks := mt missingSizes_isEmpty_iff.mpr some
      have extended := readDeclarations_extendStyle_iff extensible lacks
      rw [← styleDeclarations_eq] at extended
      rw [alike] at lacks
      rw [or_iff_right lacks, styleDeclarations_setAttr, extended]

/-- Of an element that is given a size, the inline style has what it lacks put behind it. -/
theorem styleDeclarations_withSize_iff
    {element : Element}
    {size : Size}
    (extensible : IsExtensible (writtenStyle element) size) :
    styleDeclarations (withSize true size element) = styleDeclarations element ++
        lackingDeclarations (styleDeclarations element) size ↔
      lackingDeclarations (styleDeclarations element) size = [] ∨
        Text.hasEnd ";" (writtenStyle element) = false ∨
        Css.EndsBlank (decode (writtenStyle element)).toList := by
  have sized_eq : withSize true size element = withStyledSize size
      ((element.setAttrIfMissing "width" (toString size.width)).setAttrIfMissing "height"
        (toString size.height)) := by
    rw [withSize, if_pos rfl]
  have style_eq := attr?_setAttrIfMissing_of_ne element (by decide : "style" ≠ "width")
    (toString size.width)
  rw [← attr?_setAttrIfMissing_of_ne _ (by decide : "style" ≠ "height") (toString size.height)]
    at style_eq
  rw [sized_eq]
  generalize (element.setAttrIfMissing "width" (toString size.width)).setAttrIfMissing "height"
    (toString size.height) = sized at style_eq ⊢
  have written_eq : writtenStyle sized = writtenStyle element := by
    rw [writtenStyle, style_eq, writtenStyle]
  have declared_eq : styleDeclarations sized = styleDeclarations element := by
    rw [styleDeclarations_eq, written_eq, ← styleDeclarations_eq]
  rw [← written_eq] at extensible
  rw [← written_eq, ← declared_eq]
  exact styleDeclarations_withStyledSize_iff extensible

theorem map_fst_filterMap
    {α β : Type}
    (value? : α → Option β)
    (keys : List α) :
    (keys.filterMap fun key => (value? key).map fun value => (key, value)).map Prod.fst =
      keys.filter fun key => (value? key).isSome := by
  induction keys with
  | nil => rfl
  | cons key keys inductionHypothesis =>
      cases found : value? key <;> simp [found, inductionHypothesis]

/-- Every image is to be sized at most once. -/
theorem nodup_unsized
    {document : Document}
    (forest : document.IsForest) :
    ((unsized document).map Prod.fst).Nodup := by
  unfold unsized
  rw [map_fst_filterMap]
  exact (((forest.nodup_descendants Document.root).filter _).filter _).filter _

/-- An image that is to be sized is given the size that was found. -/
theorem element?_annotate
    {document : Document}
    (forest : document.IsForest)
    {resolved : Resolved}
    {id : Nat}
    {source : String}
    (unsized : (id, source) ∈ unsized document)
    {size : Size}
    (answer : resolved.get? source = some size)
    {element : Element}
    (found : document.element? id = some element)
    (production : Bool) :
    (annotate document resolved production).element? id =
      some (withSize production size element) := by
  have once := nodup_unsized forest
  obtain ⟨before, after, split⟩ := List.append_of_mem unsized
  rw [split, List.map_append, List.map_cons] at once
  obtain ⟨notBefore, notAfter⟩ : id ∉ before.map Prod.fst ∧ id ∉ after.map Prod.fst := by
    have apart := List.nodup_middle.mp once
    simpa using (List.nodup_cons.mp apart).1
  have whole : annotate document resolved production = annotateAll resolved production
      ((annotateAll resolved production document before).modifyElement id
        (withSize production size)) after := by
    rw [annotate_eq, split, annotateAll, List.foldl_append, List.foldl_cons]
    simp only [answer]
    rfl
  have node_eq : (annotate document resolved production).node id =
      (document.node id).mapElement (withSize production size) := by
    rw [whole, node_annotateAll_of_not_mem notAfter, Document.node_modifyElement, if_pos rfl,
      node_annotateAll_of_not_mem notBefore]
  rw [Document.element?_of_node_eq_mapElement node_eq, found]
  rfl

/-- An image whose written style is extensible has the sizes that it lacks read behind its other
declarations, unless its style ends in a semicolon that, references decoded, does not end its last
declaration. -/
theorem styleDeclarations_annotate_iff
    {document : Document}
    (reachable : document.IsReachable)
    {resolved : Resolved}
    {id : Nat}
    {source : String}
    (unsized : (id, source) ∈ unsized document)
    {size : Size}
    (answer : resolved.get? source = some size)
    {element : Element}
    (found : document.element? id = some element)
    (extensible : IsExtensible (writtenStyle element) size) :
    ∃ styled, (annotate document resolved true).element? id = some styled ∧
      (styleDeclarations styled = styleDeclarations element ++
          lackingDeclarations (styleDeclarations element) size ↔
        lackingDeclarations (styleDeclarations element) size = [] ∨
          Text.hasEnd ";" (writtenStyle element) = false ∨
          Css.EndsBlank (decode (writtenStyle element)).toList) :=
  ⟨withSize true size element, element?_annotate reachable.isForest unsized answer found true,
    styleDeclarations_withSize_iff extensible⟩

/-- An image with the given inline style. -/
def styledImage (style : String) : Element :=
  ⟨"img", [⟨"src", "a.png"⟩, ⟨"style", style⟩], false⟩

/-- A page that is an image with an inline style. -/
def styledPage (style : String) : Document :=
  ⟨#[⟨.root, none, [1]⟩, ⟨.element (styledImage style), some Document.root, []⟩]⟩

/-- The size of that image. -/
def styledSizes : Resolved :=
  ⟨[("a.png", ⟨6, 4⟩)], []⟩

/-- The theorem at a style that ends in a reference and a semicolon of its own: the sizes are
read behind its declaration. -/
theorem styleDeclarations_annotate_iff_separated :
    Document.read "<img src=\"a.png\" style=\"font-family:&quot;Arial&quot;;\">" =
        .ok (styledPage "font-family:&quot;Arial&quot;;") ∧
      ∃ styled,
        (annotate (styledPage "font-family:&quot;Arial&quot;;") styledSizes true).element? 1 =
            some styled ∧
          styleDeclarations styled = [⟨"font-family", "\"Arial\"", false⟩,
            ⟨"width", "6px", false⟩, ⟨"height", "4px", false⟩] := by
  have read : Document.read "<img src=\"a.png\" style=\"font-family:&quot;Arial&quot;;\">" =
      .ok (styledPage "font-family:&quot;Arial&quot;;") := by cbv
  have listed : unsized (styledPage "font-family:&quot;Arial&quot;;") = [(1, "a.png")] := by cbv
  have written : writtenStyle (styledImage "font-family:&quot;Arial&quot;;") =
      "font-family:&quot;Arial&quot;;" := by decide
  have extensible : IsExtensible "font-family:&quot;Arial&quot;;" ⟨6, 4⟩ :=
    ⟨by decide, by decide, by decide⟩
  rw [← written] at extensible
  obtain ⟨styled, isStyled, iff⟩ := styleDeclarations_annotate_iff (.read read)
    (listed ▸ List.mem_singleton_self (1, "a.png"))
    (by decide : styledSizes.get? "a.png" = some ⟨6, 4⟩) rfl extensible
  refine ⟨read, styled, isStyled, (iff.mpr (.inr (.inr ?_))).trans (by decide)⟩
  rw [written]
  decide

/-- A style that ends in a reference and in no semicolon of its own: its strings are closed, and
the width becomes a part of its declaration. -/
theorem width_joins_declaration :
    Document.read "<img src=\"a.png\" style=\"font-family:&quot;Arial&quot;\">" =
        .ok (styledPage "font-family:&quot;Arial&quot;") ∧
      Css.IsClosed [] (decode "font-family:&quot;Arial&quot;").toList ∧
      styleDeclarations (styledImage "font-family:&quot;Arial&quot;") =
        [⟨"font-family", "\"Arial\"", false⟩] ∧
      ∃ styled,
        (annotate (styledPage "font-family:&quot;Arial&quot;") styledSizes true).element? 1 =
            some styled ∧
          styleDeclarations styled =
            [⟨"font-family", "\"Arial\" width:6px", false⟩, ⟨"height", "4px", false⟩] := by
  have read : Document.read "<img src=\"a.png\" style=\"font-family:&quot;Arial&quot;\">" =
      .ok (styledPage "font-family:&quot;Arial&quot;") := by cbv
  have listed : unsized (styledPage "font-family:&quot;Arial&quot;") = [(1, "a.png")] := by cbv
  have isStyled := element?_annotate (Document.IsReachable.read read).isForest
    (listed ▸ List.mem_singleton_self (1, "a.png"))
    (by decide : styledSizes.get? "a.png" = some ⟨6, 4⟩) rfl true
  exact ⟨read, by decide, by decide, _, isStyled, by decide⟩

end Image
end MailPress
