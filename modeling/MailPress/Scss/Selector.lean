import MailPress.Css.Reader
import MailPress.Scss.Expression.Lexeme

/-!
# Selectors of nested rules

A nested rule has its selectors below those around it, or puts them in place of
an ampersand. A rule may also extend another one: then its selectors are added
wherever the extended one stands.

Simple selectors are kept as texts in one normal form, so two that say the same
in the same order are equal.
-/

namespace MailPress
namespace Scss

/-- A part of a selector. -/
inductive SelectorPart
  /-- Simple selectors that hold of one element. -/
  | compound (simples : List String)
  /-- A combinator other than the blank. -/
  | combinator (sign : Char)
  deriving DecidableEq, Repr, Inhabited

/-- A selector. -/
structure NestedSelector where
  /-- Its parts; between two compounds in a row there is a blank. -/
  parts : List SelectorPart
  /-- Whether it starts on a line of its own. -/
  onNewLine : Bool
  deriving DecidableEq, Repr, Inhabited

/-- The text of a part. -/
def SelectorPart.write : SelectorPart → String
  | .compound simples => String.join simples
  | .combinator sign => String.singleton sign

/-- The text of a selector. -/
def NestedSelector.write (selector : NestedSelector) : String :=
  String.intercalate " " (selector.parts.map SelectorPart.write)

/-- Whether a value of an attribute needs no quotes. -/
def isBareValue (value : List Char) : Bool :=
  startsName value && value.all isNamePart && !Text.startsWith ['-', '-'] value

/-- The value of an attribute selector, with quotes only where they are needed. -/
def attributeValue (value : List Char) : List Char :=
  match value with
  | quote :: rest =>
      if quote = '"' || quote = '\'' then
        let inner := rest.takeWhile (· != quote)
        let after := Text.trim ((rest.dropWhile (· != quote)).drop 1)
        let shown := if isBareValue inner then inner else '"' :: (inner ++ ['"'])
        if after.isEmpty then shown else shown ++ ' ' :: after
      else value
  | [] => []

/-- The normal form of what stands in the brackets of an attribute selector. -/
def attributeForm (inside : List Char) : List Char :=
  let isSign := fun c => c ∈ ['~', '|', '^', '$', '*', '=']
  let name := Text.trim (inside.takeWhile fun c => !isSign c)
  let rest := inside.dropWhile fun c => !isSign c
  match rest with
  | [] => name
  | '=' :: value => name ++ '=' :: attributeValue (Text.trim value)
  | sign :: '=' :: value => name ++ sign :: '=' :: attributeValue (Text.trim value)
  | _ => Text.trim inside

/-- The name at the start of a text, with escaped characters. -/
def takeName : List Char → List Char × List Char
  | '\\' :: c :: rest =>
      let more := takeName rest
      ('\\' :: c :: more.1, more.2)
  | c :: rest =>
      if isNamePart c then
        let more := takeName rest
        (c :: more.1, more.2)
      else ([], c :: rest)
  | [] => ([], [])

/-- The normal form of the argument of a pseudo-class. -/
def pseudoArgument (inside : List Char) : List Char :=
  let parts := (Css.cutAtTopLevel ',' inside).map Text.trim
  [',', ' '].intercalate parts

/-- The simple selector at the start of a text, and what is left. -/
def takeSimple? (text : List Char) : Option (List Char × List Char) :=
  let named := fun (mark : List Char) (rest : List Char) =>
    let (name, after) := takeName rest
    if name.isEmpty then none else some (mark ++ name, after)
  match text with
  | '&' :: rest =>
      let (suffix, after) := takeName rest
      some ('&' :: suffix, after)
  | '.' :: rest => named ['.'] rest
  | '#' :: rest => named ['#'] rest
  | '%' :: rest => named ['%'] rest
  | '*' :: '|' :: '*' :: rest => some (['*', '|', '*'], rest)
  | '*' :: rest => some (['*'], rest)
  | '[' :: rest =>
      let inside := (Css.readUntil [']'] (.plain 0) rest)
      if inside.stop = some ']' then
        some ('[' :: (attributeForm (Text.trim inside.text) ++ [']']), inside.rest)
      else none
  | ':' :: rest =>
      let (mark, rest) := match rest with
        | ':' :: more => ([':', ':'], more)
        | more => ([':'], more)
      match named mark rest with
      | some (name, '(' :: after) =>
          (takeBalanced 0 after).map fun found =>
            (name ++ '(' :: (pseudoArgument found.1.dropLast ++ [')']), found.2)
      | found => found
  | _ => named [] text

/-- Put a simple selector in front of the compound that comes first. -/
def pushSimple (simple : String) : List SelectorPart → List SelectorPart
  | .compound simples :: parts => .compound (simple :: simples) :: parts
  | parts => .compound [simple] :: parts

/-- Read the parts of one selector; `limit` bounds the steps. -/
def readSelectorParts : (limit : Nat) → List Char → Option (List SelectorPart)
  | 0, text => if text.isEmpty then some [] else none
  | limit + 1, text =>
      match text with
      | [] => some []
      | c :: rest =>
          if Text.isBlank c then readSelectorParts limit (rest.dropWhile Text.isBlank)
          else if c = '>' || c = '+' || c = '~' then
            (readSelectorParts limit rest).map (.combinator c :: ·)
          else
            match takeSimple? text with
            | none => none
            | some (simple, after) =>
                let joins := match after with
                  | [] => false
                  | d :: _ => !Text.isBlank d && d != '>' && d != '+' && d != '~'
                (readSelectorParts limit after).map fun parts =>
                  if joins then pushSimple (String.ofList simple) parts
                  else .compound [String.ofList simple] :: parts

/-- Read a list of selectors. -/
def readSelectors? (text : String) : Option (List NestedSelector) :=
  let pieces := Css.cutAtTopLevel ',' text.toList
  let first := pieces.head?.map fun piece => (piece, false)
  let others := (pieces.drop 1).map fun piece =>
    (piece, (piece.takeWhile Text.isBlank).contains '\n')
  let read := (first.toList ++ others).filter fun piece => !piece.1.all Text.isBlank
  if read.isEmpty then none
  else
    read.mapM fun piece =>
      (readSelectorParts piece.1.length piece.1).map fun parts => ⟨parts, piece.2⟩

/-- Whether a part stands for the selectors around the rule. -/
def SelectorPart.isParent : SelectorPart → Bool
  | .compound (simple :: _) => Text.hasStart "&" simple
  | _ => false

/-- Put simple selectors in the place of an ampersand at the end of a parent. -/
def attach (parent : List SelectorPart) (suffix : String) (simples : List String) :
    List SelectorPart :=
  match parent.getLast? with
  | some (.compound last) =>
      parent.dropLast ++
        [.compound (last.dropLast ++ [last.getLast?.getD "" ++ suffix] ++ simples)]
  | _ => parent ++ [.compound (suffix :: simples)]

/-- A selector with the ampersands replaced by a parent. -/
def replaceParent (parent : List SelectorPart) : List SelectorPart → List SelectorPart
  | [] => []
  | .compound (simple :: simples) :: parts =>
      if Text.hasStart "&" simple then
        attach parent (String.ofList (simple.toList.drop 1)) simples ++ replaceParent parent parts
      else .compound (simple :: simples) :: replaceParent parent parts
  | part :: parts => part :: replaceParent parent parts

/-- A selector below a parent. -/
def NestedSelector.below (selector parent : NestedSelector) : NestedSelector :=
  if selector.parts.any SelectorPart.isParent then
    ⟨replaceParent parent.parts selector.parts, selector.onNewLine || parent.onNewLine⟩
  else ⟨parent.parts ++ selector.parts, selector.onNewLine || parent.onNewLine⟩

/-- Selectors below those around them; an ampersand without any is refused. -/
def nestSelectors? (parents : Option (List NestedSelector)) (selectors : List NestedSelector) :
    Option (List NestedSelector) :=
  match parents with
  | none =>
      if selectors.any fun selector => selector.parts.any SelectorPart.isParent then none
      else some selectors
  | some parents =>
      some (parents.flatMap fun parent => selectors.map fun selector => selector.below parent)

/-- That the rules of `extender` extend a simple selector. -/
structure Extension where
  /-- The simple selector that is extended. -/
  target : String
  /-- The selectors that extend it. -/
  extender : List NestedSelector
  /-- Whether it is no fault when nothing has the target. -/
  mayBeAbsent : Bool
  deriving Repr

/-- Whether a part has a simple selector. -/
def SelectorPart.has (target : String) : SelectorPart → Bool
  | .compound simples => simples.contains target
  | .combinator _ => false

/-- Join the simple selectors of two compounds: the name of an element first, the pseudo-classes
last, and each once. None when they name two elements. -/
def unify? (first second : List String) : Option (List String) :=
  let isElement := fun simple =>
    !([".", "#", "[", ":", "%"].any fun mark => Text.hasStart mark simple)
  let isPseudo := fun simple => Text.hasStart ":" simple
  let elements := (first.filter isElement ++ second.filter isElement).eraseDups
  let rest := (first ++ second).filter fun simple => !isElement simple && !isPseudo simple
  let pseudos := (first ++ second).filter isPseudo
  if 1 < elements.length then none
  else some (elements ++ rest.eraseDups ++ pseudos.eraseDups)

/-- The selectors that arise when the target in one part is replaced by an extender. -/
def extendAt (target : String) (extender : NestedSelector)
    (before : List SelectorPart) (simples : List String) (after : List SelectorPart) :
    List (List SelectorPart) :=
  match extender.parts.getLast? with
  | some (.compound last) =>
      match unify? (simples.filter (· != target)) last with
      | none => []
      | some joined =>
          let around := extender.parts.dropLast
          let ending := .compound joined :: after
          if before.isEmpty || around.isEmpty then [before ++ around ++ ending]
          else [before ++ around ++ ending, around ++ before ++ ending]
  | _ => []

/-- The selectors that an extension adds for one selector. -/
def Extension.additions (extension : Extension) (before : List SelectorPart) :
    List SelectorPart → List (List SelectorPart)
  | [] => []
  | .compound simples :: after =>
      let here :=
        if simples.contains extension.target then
          extension.extender.flatMap fun extender =>
            extendAt extension.target extender before simples after
        else []
      here ++ additions extension (before ++ [.compound simples]) after
  | part :: after => additions extension (before ++ [part]) after

/-- A list of selectors with those that one extension adds, each after the one it comes from. -/
def Extension.extend (extension : Extension) (selectors : List NestedSelector) :
    List NestedSelector :=
  (selectors.flatMap fun selector =>
    selector :: (extension.additions [] selector.parts).map fun parts =>
      ⟨parts, selector.onNewLine⟩).eraseDups

/-- Apply extensions to a list of selectors until the rounds are over. -/
def extendSelectors (extensions : List Extension) : (rounds : Nat) → List NestedSelector →
    List NestedSelector
  | 0, selectors => selectors
  | rounds + 1, selectors =>
      let extended := extensions.foldl (fun current extension => extension.extend current) selectors
      if extended.length = selectors.length then selectors
      else extendSelectors extensions rounds extended

/-- Whether a selector stands for nothing in the output. -/
def NestedSelector.isPlaceholder (selector : NestedSelector) : Bool :=
  selector.parts.any fun part =>
    match part with
    | .compound simples => simples.any (Text.hasStart "%")
    | .combinator _ => false

end Scss
end MailPress
