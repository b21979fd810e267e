import MailPress.Scss.Block
import MailPress.Scss.Expression.Reader
import MailPress.Scss.Statement

/-!
# Reading statements

A line or a block of the outline is one statement, told apart by how it starts:
an at-sign, a dollar sign, or anything else. A block is a declaration with
further ones inside when its head ends a name with a colon and a blank, and a
rule otherwise.

Reading goes once through the outline. It fails on what is no statement.
-/

namespace MailPress
namespace Scss

/-- A statement, or an alternative of the statement before it. -/
inductive Step
  /-- A statement of its own. -/
  | statement (statement : Statement)
  /-- Statements for when the conditions before did not hold, perhaps on a condition. -/
  | otherwise (condition : Option Expression) (body : List Statement)

/-- Join alternatives to the statements they belong to. -/
def joinSteps : List Step → Option (List Statement)
  | [] => some []
  | .otherwise _ _ :: _ => none
  | .statement first :: rest => join first rest
where
  /-- Join alternatives to a statement that came before. -/
  join : Statement → List Step → Option (List Statement)
    | current, [] => some [current]
    | .branch arms, .otherwise condition body :: rest =>
        join (.branch (arms ++ [(condition, body)])) rest
    | _, .otherwise _ _ :: _ => none
    | current, .statement next :: rest => (join next rest).map (current :: ·)

/-- The word at the start of an at-rule, and the text after it. -/
def takeAtName (text : List Char) : List Char × List Char :=
  (text.takeWhile isNamePart, Text.trimStart (text.dropWhile isNamePart))

/-- Collapse each run of blanks into one, outside strings. -/
def collapseBlanks : (quote : Option Char) → (afterBlank : Bool) → List Char → List Char
  | _, _, [] => []
  | some quote, _, c :: rest =>
      c :: collapseBlanks (if c = quote then none else some quote) false rest
  | none, afterBlank, c :: rest =>
      if Text.isBlank c then
        if afterBlank then collapseBlanks none true rest else ' ' :: collapseBlanks none true rest
      else c :: collapseBlanks (if c = '"' || c = '\'' then some c else none) false rest

/-- The parts of a text before and after its first colon outside holes. -/
def cutAtColon : (depth : Nat) → List Char → Option (List Char × List Char)
  | _, [] => none
  | 0, ':' :: rest => some ([], rest)
  | depth, c :: rest =>
      let depth := if c = '{' then depth + 1 else if c = '}' then depth - 1 else depth
      (cutAtColon depth rest).map fun cut => (c :: cut.1, cut.2)

/-- Whether two texts without case are the same. -/
def isWord (text : List Char) (word : String) : Bool :=
  Text.sameIgnoringCase (String.ofList text) word

/-- Take marks such as `!default` off the end of lexemes; the result has whether each was there. -/
def takeMarks : (bound : Nat) → List Lexeme → List Lexeme × Bool × Bool
  | 0, lexemes => (lexemes, false, false)
  | bound + 1, lexemes =>
      match lexemes.getLast? with
      | some ⟨.verbatim [.fixed mark], _⟩ =>
          let more := takeMarks bound lexemes.dropLast
          if isWord mark "!default" then (more.1, true, more.2.2)
          else if isWord mark "!global" then (more.1, more.2.1, true)
          else (lexemes, false, false)
      | _ => (lexemes, false, false)

/-- Read the value of a variable. -/
def readAssignment (name text : List Char) : Option Statement := do
  let lexemes ← lexemesOf text
  let (value, ifUnset, outermost) := takeMarks lexemes.length lexemes
  let expression ← Expression.ofLexemes? text.length value
  return .assign (plainName (String.ofList name)) expression ifUnset outermost

/-- Whether a name of a declaration is that of a custom property, whose value is kept as it is. -/
def isCustomName (name : List Char) : Bool :=
  Text.startsWith ['-', '-'] name

/-- Read the name and the value of a declaration. -/
def readDeclared (name value : List Char) (body : List Statement) : Option Statement := do
  let pieces ← readPieces? (Text.trim name)
  if name.all Text.isBlank then none
  else if isCustomName name then return .custom pieces (← readPieces? (Text.trim value))
  else if value.all Text.isBlank then
    if body.isEmpty then none else return .declare pieces none body
  else return .declare pieces (some (← Expression.read? value)) body

/-- The pieces of a condition in parentheses of a media query. -/
def featurePieces (inside : List Char) : Option (List Piece) :=
  match cutAtColon 0 inside with
  | some (feature, value) =>
      match readPieces? (Text.trim feature), Expression.read? value with
      | some name, some value => some (name ++ [.fixed ": ", .hole value])
      | _, _ => readPieces? (Text.trim inside)
  | none => readPieces? (Text.trim (collapseBlanks none false inside))

/-- The pieces of a media query; `limit` bounds the conditions in parentheses. -/
def mediaPieces : (limit : Nat) → List Char → Option (List Piece)
  | 0, _ => none
  | limit + 1, text =>
      let before := text.takeWhile (· != '(')
      match text.dropWhile (· != '(') with
      | [] => readPieces? before
      | _ :: rest => do
          let (inside, after) ← takeBalanced 0 rest
          let start ← readPieces? before
          let feature ← featurePieces inside.dropLast
          let more ← mediaPieces limit after
          return start ++ .fixed "(" :: feature ++ .fixed ")" :: more

/-- The words of a list of lexemes before and after a word. -/
def cutAtWord (words : List String) : List Lexeme → Option (List Lexeme × String × List Lexeme)
  | [] => none
  | lexeme :: rest =>
      match lexeme.token with
      | .word [.fixed name] =>
          if words.contains (String.ofList name) then some ([], String.ofList name, rest)
          else (cutAtWord words rest).map fun cut => (lexeme :: cut.1, cut.2)
      | _ => (cutAtWord words rest).map fun cut => (lexeme :: cut.1, cut.2)

/-- The names of variables with commas between them. -/
def readNames : List Lexeme → Option (List String)
  | [⟨.variable name, _⟩] => some [plainName name]
  | ⟨.variable name, _⟩ :: ⟨.sign ",", _⟩ :: rest => (readNames rest).map (plainName name :: ·)
  | _ => none

/-- The name of a mixin or a function with its parameters. -/
def readSignature (text : List Char) : Option (String × Parameters) := do
  match ← lexemesOf text with
  | [⟨.word [.fixed name], _⟩] => return (plainName (String.ofList name), .none)
  | ⟨.opening [.fixed name], _⟩ :: rest =>
      match ← readParameters (rest.length + 1) text.length rest with
      | (parameters, []) => return (plainName (String.ofList name), parameters)
      | _ => none
  | _ => none

/-- The parameters of the content of a mixin, after `using`. -/
def readUsing (length : Nat) : List Lexeme → Option Parameters
  | [] => some .none
  | ⟨.word [.fixed word], _⟩ :: ⟨.sign "(", _⟩ :: rest =>
      if isWord word "using" then
        match readParameters (rest.length + 1) length rest with
        | some (parameters, []) => some parameters
        | _ => none
      else none
  | ⟨.opening [.fixed word], _⟩ :: rest =>
      if isWord word "using" then
        match readParameters (rest.length + 1) length rest with
        | some (parameters, []) => some parameters
        | _ => none
      else none
  | _ => none

/-- Read what follows `@include`. -/
def readInclude (text : List Char) (body : Option (List Statement)) : Option Statement := do
  let (name, arguments, rest) ← (do
    match ← lexemesOf text with
    | ⟨.word [.fixed name], _⟩ :: rest => return (name, [], rest)
    | ⟨.opening [.fixed name], _⟩ :: rest =>
        let (arguments, rest) ← readArguments (readingBound text.length) rest
        return (name, arguments, rest)
    | _ => none)
  let parameters ← readUsing text.length rest
  return .include (plainName (String.ofList name)) arguments
    (body.map fun statements => (parameters, statements))

/-- The address of an import that stays in the output: another kind of file, another host, or one
with conditions. -/
def isPlainAddress (address : List Char) : Bool :=
  Text.endsWith ".css".toList address || Text.startsWith "http://".toList address ||
    Text.startsWith "https://".toList address || Text.startsWith "//".toList address

/-- One imported address, or the text of an import that stays. -/
def readImport (lexemes : List Lexeme) : Option (String ⊕ Unit) :=
  match lexemes with
  | [⟨.quoted [.fixed address], _⟩] =>
      if isPlainAddress address then some (.inr ()) else some (.inl (String.ofList address))
  | ⟨.quoted [.fixed _], _⟩ :: _ => some (.inr ())
  | ⟨.verbatim _, _⟩ :: _ => some (.inr ())
  | ⟨.opening _, _⟩ :: _ => some (.inr ())
  | _ => none

/-- Read what follows `@import`: each address is one statement. -/
def readImports (text : List Char) : Option (List Statement) :=
  (cut 0 text).mapM fun part => do
    match ← readImport (← lexemesOf part) with
    | .inl address => return .import [address]
    | .inr () => return .plainImport (← readPieces? (collapseBlanks none false (Text.trim part)))
where
  /-- Cut at commas outside parentheses. -/
  cut : (depth : Nat) → List Char → List (List Char)
    | _, [] => [[]]
    | depth, c :: rest =>
        if c = ',' && depth = 0 then [] :: cut depth rest
        else
          let depth := if c = '(' then depth + 1 else if c = ')' then depth - 1 else depth
          match cut depth rest with
          | part :: parts => (c :: part) :: parts
          | [] => [[c]]

/-- Read what follows `@use`. -/
def readUse (text : List Char) : Option Statement := do
  match ← lexemesOf text with
  | [⟨.quoted [.fixed address], _⟩] => return .use (String.ofList address) none
  | [⟨.quoted [.fixed address], _⟩, ⟨.word [.fixed word], _⟩, ⟨.word [.fixed space], _⟩] =>
      if isWord word "as" then return .use (String.ofList address) (some (String.ofList space))
      else none
  | [⟨.quoted [.fixed address], _⟩, ⟨.word [.fixed word], _⟩, ⟨.sign "*", _⟩] =>
      if isWord word "as" then return .use (String.ofList address) (some "") else none
  | _ => none

/-- Read what follows `@extend`. -/
def readExtend (text : List Char) : Option Statement := do
  match Text.splitLast ['!'] text with
  | some (target, mark) =>
      if isWord (Text.trim mark) "optional" then
        return .extend (← readPieces? (Text.trim target)) true
      else none
  | none => if text.isEmpty then none else return .extend (← readPieces? (Text.trim text)) false

/-- Read an at-rule without a block. -/
def readAtLine (name rest : List Char) : Option (List Statement) :=
  if isWord name "import" then readImports rest
  else
    (if isWord name "include" then readInclude rest none
    else if isWord name "extend" then readExtend rest
    else if isWord name "return" then (Expression.read? rest).map Statement.return
    else if isWord name "content" then (readArgumentList? rest).map Statement.content
    else if isWord name "use" || isWord name "forward" then readUse rest
    else if isWord name "warn" || isWord name "debug" then
      (Expression.read? rest).map Statement.message
    else if isWord name "error" then (Expression.read? rest).map Statement.refuse
    else if isWord name "charset" then
      (Expression.read? rest).map Statement.message
    else if ["if", "else", "elseif", "each", "for", "while", "mixin", "function",
        "media"].any (isWord name) then none
    else do
      let pieces ← readPieces? name
      if pieces.isEmpty then none
      else return .atRule pieces (← readPieces? (collapseBlanks none false rest)) none).map
      fun statement => [statement]

/-- Read a line. -/
def readLine (text : List Char) : Option (List Statement) :=
  match text with
  | '@' :: rest =>
      let (name, rest) := takeAtName rest
      readAtLine name rest
  | '$' :: rest => do
      let (name, value) ← cutAtColon 0 rest
      return [← readAssignment (Text.trimEnd name) value]
  | _ => do
      let (name, value) ← cutAtColon 0 text
      match Text.splitOnce ['.', '$'] name with
      | some (space, name) =>
          return [← readAssignment (space ++ '.' :: Text.trimEnd name) value]
      | none => return [← readDeclared name value []]

/-- Whether the head of a block starts a declaration: a name, a colon, and a blank or the end. -/
def declares (head : List Char) : Bool :=
  match cutAtColon 0 head with
  | some (name, value) =>
      !(Text.trim name).any Text.isBlank && startsName name &&
        (match value with
        | [] => true
        | c :: _ => Text.isBlank c)
  | none => false

/-- Read the range of a counting loop. -/
def readRange (text : List Char) (body : List Statement) : Option Statement := do
  match ← lexemesOf text with
  | ⟨.variable name, _⟩ :: ⟨.word [.fixed word], _⟩ :: rest =>
      if isWord word "from" then
        let (first, bound, last) ← cutAtWord ["through", "to"] rest
        return .count (plainName name) (← Expression.ofLexemes? text.length first)
          (← Expression.ofLexemes? text.length last) (bound == "through") body
      else none
  | _ => none

/-- Read the head of an alternative after `@else`. -/
def readElse (rest : List Char) (body : List Statement) : Option Step :=
  if rest.isEmpty then some (.otherwise none body)
  else
    let (word, condition) := takeAtName rest
    if isWord word "if" then
      (Expression.read? condition).map fun condition => .otherwise (some condition) body
    else none

/-- Read an at-rule with a block. -/
def readAtBlock (name rest : List Char) (body : List Statement) : Option Step :=
  if isWord name "else" then readElse rest body
  else if isWord name "elseif" then
    (Expression.read? rest).map fun condition => .otherwise (some condition) body
  else
    (if isWord name "media" then
      (mediaPieces (rest.length + 1) (collapseBlanks none false rest)).map (.media · body)
    else if isWord name "include" then readInclude rest (some body)
    else if isWord name "mixin" then
      (readSignature rest).map fun signature => .mixin signature.1 signature.2 body
    else if isWord name "function" then
      (readSignature rest).map fun signature => .function signature.1 signature.2 body
    else if isWord name "if" then
      (Expression.read? rest).map fun condition => .branch [(some condition, body)]
    else if isWord name "each" then do
      let (names, _, list) ← cutAtWord ["in"] (← lexemesOf rest)
      return .each (← readNames names) (← Expression.ofLexemes? rest.length list) body
    else if isWord name "for" then readRange rest body
    else if isWord name "while" then
      (Expression.read? rest).map fun condition => .while condition body
    else if isWord name "at-root" then
      if rest.isEmpty || rest.head? = some '(' then some (.atRoot none body)
      else (readPieces? rest).map fun selectors => .atRoot (some selectors) body
    else if isWord name "import" || isWord name "return" || isWord name "extend" then none
    else do
      let pieces ← readPieces? name
      if pieces.isEmpty then none
      else return .atRule pieces (← readPieces? (collapseBlanks none false rest)) (some body)).map
      Step.statement

/-- Read a block whose body is already read. -/
def readBlock (head : List Char) (body : List Statement) : Option Step :=
  match head with
  | '@' :: rest =>
      let (name, rest) := takeAtName rest
      readAtBlock name rest body
  | [] => none
  | _ =>
      if declares head then do
        let (name, value) ← cutAtColon 0 head
        if body.isEmpty && value.all Text.isBlank then
          return .statement (.declare (← readPieces? (Text.trim name)) none [])
        return .statement (← readDeclared name value body)
      else (readPieces? head).map fun selectors => .statement (.rule selectors body)

mutual

/-- Read a part of the outline. -/
def readOutline : Outline → Option (List Step)
  | .line text => (readLine text).map fun statements => statements.map Step.statement
  | .comment text column =>
      (readPieces? text).map fun pieces => [.statement (.comment pieces column)]
  | .block head body => do
      let steps ← readOutlines body
      return [← readBlock head (← joinSteps steps)]

/-- Read parts of the outline. -/
def readOutlines : List Outline → Option (List Step)
  | [] => some []
  | part :: parts => do
      let first ← readOutline part
      let rest ← readOutlines parts
      return first ++ rest

end

/-- Read a style sheet. -/
def readStatements? (source : String) : Option (List Statement) :=
  ((outlineOf source.toList).bind readOutlines).bind joinSteps

end Scss
end MailPress
