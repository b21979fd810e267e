import MailPress.Console.Log
import MailPress.Css.Matching
import MailPress.Style.Cascade

/-!
# Inlining

The rules of a style sheet are written into the `style` attributes of the
elements they match. All matching is done on the document as it is given, so it
does not matter in which order the elements are then restyled.

On elements of certain names, a width or height that is a plain number of pixels
or a percentage is also set as an attribute, unless the author did so.
-/

namespace MailPress
namespace Style

/-- A selector of a rule, with what it brings to the elements it matches. -/
structure Bringer where
  /-- The selector. -/
  selector : Css.Selector
  /-- The declarations of its rule, as candidates. -/
  candidates : List Candidate

/-- The selectors of a rule that are understood, each with its own candidates; the source
position goes on from `start`. -/
def bringersOfRule
    (declarations : List Css.Declaration) :
    (start : Nat) → (selectors : List String) → List Bringer × Nat
  | start, [] => ([], start)
  | start, text :: texts =>
      match Css.Selector.read text with
      | none => bringersOfRule declarations start texts
      | some selector =>
          let candidates := candidatesOf false selector.specificity start declarations
          let (more, finish) := bringersOfRule declarations (start + declarations.length) texts
          (⟨selector, candidates⟩ :: more, finish)

/-- The selectors of the top-level rules, in source order. -/
def bringersOf : (start : Nat) → (items : List Css.Item) → List Bringer
  | _, [] => []
  | start, .rule rule :: items =>
      let (bringers, finish) := bringersOfRule rule.declarations start rule.selectors
      bringers ++ bringersOf finish items
  | start, _ :: items => bringersOf start items

/-- Whether a text is a decimal number, an infinity or the undefined number. -/
def isNumber (text : List Char) : Bool :=
  let unsigned :=
    match text with
    | '+' :: rest | '-' :: rest => rest
    | rest => rest
  if ["inf", "infinity", "nan"].contains (Text.lower (String.ofList unsigned)) then true
  else
    let whole := unsigned.takeWhile Text.isAsciiDigit
    let rest := unsigned.dropWhile Text.isAsciiDigit
    let (fraction, rest) :=
      match rest with
      | '.' :: rest => (rest.takeWhile Text.isAsciiDigit, rest.dropWhile Text.isAsciiDigit)
      | rest => ([], rest)
    if whole.isEmpty && fraction.isEmpty then false
    else
      match rest with
      | [] => true
      | e :: exponent =>
          let digits :=
            match exponent with
            | '+' :: digits | '-' :: digits => digits
            | digits => digits
          (e == 'e' || e == 'E') && !digits.isEmpty && digits.all Text.isAsciiDigit

/-- The form that a length takes as an attribute: pixels without a unit, or a percentage. -/
def sizeAttribute? (value : String) : Option String :=
  let text := Text.trim value.toList
  let (number, unit) :=
    if Text.endsWith ['p', 'x'] text then (Text.trim (text.take (text.length - 2)), [])
    else if Text.endsWith ['%'] text then (Text.trim (text.take (text.length - 1)), ['%'])
    else (text, [])
  if isNumber number then some (String.ofList (number ++ unit)) else none

/-- Set a size that the cascade gives as an attribute, where it has an attribute form. -/
def promoteSize (element : Markup.Element) (declared : String × String) : Markup.Element :=
  if declared.1 = "width" ∨ declared.1 = "height" then
    match sizeAttribute? declared.2 with
    | some size => element.setAttrIfMissing declared.1 size
    | none => element
  else element

/-- The declarations in the `style` attribute of an element. -/
def ownDeclarations (element : Markup.Element) : List Css.Declaration :=
  (element.decodedAttr? "style").elim [] Css.readDeclarations

/-- The same declarations as candidates. -/
def ownCandidates (element : Markup.Element) : List Candidate :=
  candidatesOf true .zero 0 (ownDeclarations element)

/-- The element with the cascade of these candidates and its own written out. -/
def restyle
    (sizeNames : List String)
    (candidates : List Candidate)
    (element : Markup.Element) :
    Markup.Element :=
  let resolved := resolve (candidates ++ ownCandidates element)
  let styled := element.setAttr "style" (Markup.escapeAttribute (styleText resolved))
  if sizeNames.contains element.name then resolved.foldl promoteSize styled else styled

/-- What the matching selectors bring to an element; none if no selector matches it. -/
def candidatesFor?
    (document : Markup.Document)
    (bringers : List Bringer)
    (id : Nat) :
    Option (List Candidate) :=
  let matching := bringers.filter fun bringer => bringer.selector.matches .static document id
  if matching.isEmpty then none else some (matching.flatMap Bringer.candidates)

/-- The elements that some selector matches, each once, with what the selectors bring to it. -/
def matchedElements
    (document : Markup.Document)
    (css : String) :
    List (Nat × List Candidate) :=
  let bringers := bringersOf 0 (Css.Sheet.read css).items
  document.elements.eraseDups.filterMap fun id =>
    (candidatesFor? document bringers id).map fun candidates => (id, candidates)

/-- Restyle elements one after another. -/
def restyleAll
    (sizeNames : List String)
    (document : Markup.Document)
    (matched : List (Nat × List Candidate)) :
    Markup.Document :=
  matched.foldl
    (fun styled (id, candidates) => styled.modifyElement id (restyle sizeNames candidates))
    document

/-- Write a style sheet into the `style` attributes of the elements it matches. -/
def inlineStyles
    (document : Markup.Document)
    (css : String)
    (sizeNames : List String) :
    Markup.Document :=
  restyleAll sizeNames document (matchedElements document css)

/-- Whether finding the elements that the rules match ends the program. -/
def inliningStops (document : Markup.Document) (css : String) : Bool :=
  (bringersOf 0 (Css.Sheet.read css).items).any fun bringer =>
    document.elements.any (bringer.selector.stops .static document)

/-- The document with a style sheet written into `style` attributes; none when finding the
elements that the rules match ends the program. -/
def inlineStyles?
    (document : Markup.Document)
    (css : String)
    (sizeNames : List String) :
    Option Markup.Document :=
  if inliningStops document css then none else some (inlineStyles document css sizeNames)

/-- The selectors of top-level rules that are not understood. -/
def unsupportedSelectors (css : String) : List String :=
  (Css.Sheet.read css).items.flatMap fun item =>
    match item with
    | .rule rule => rule.selectors.filter fun text => (Css.Selector.read text).isNone
    | _ => []

/-- The warnings about rules that could not be inlined. -/
def inlineWarnings (css : String) : List Console.Message :=
  (unsupportedSelectors css).map fun text =>
    ⟨"warn", "cannot inline unsupported selector `" ++ text ++ "`"⟩

end Style
end MailPress
