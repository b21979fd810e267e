import MailPress.Text.Ascii
import MailPress.Toml.Value

/-!
# Reading TOML

A document is cut into tokens: words, strings, marks and line ends. The tokens
are read as lines, each a header that opens a table or a key with its value, and
the lines are then put into one table.

Floating-point numbers, dates and arrays of tables are not read, since no
setting has such a value; a document with one of them is refused.
-/

namespace MailPress
namespace Toml

/-- A token of a document. -/
inductive Token
  /-- A word without quotes: a key, a boolean or an integer. -/
  | word (letters : List Char)
  /-- A string; one that spans lines cannot be a key. -/
  | quoted (value : String) (long : Bool)
  /-- A bracket, a brace, a comma, a dot or an equals sign. -/
  | mark (c : Char)
  /-- The end of a line. -/
  | lineEnd
  deriving DecidableEq, Repr, Inhabited

/-- A character that may stand in a comment or in a string on one line. -/
def isLineChar (c : Char) : Bool :=
  c == '\t' || (' ' ≤ c && c != '\x7f')

/-- The character with the given code, unless it is half of a surrogate pair or too large. -/
def charOf? (code : Nat) : Option Char :=
  if code < 0xD800 ∨ 0xE000 ≤ code ∧ code < 0x110000 then some (Char.ofNat code) else none

/-- The character that hexadecimal digits denote. -/
def escapedChar? (digits : List Char) : Option Char :=
  if digits.all Text.isHexDigit then charOf? (Text.hexadecimalValue digits) else none

/-- The character that a one-letter escape denotes. -/
def simpleEscape? (c : Char) : Option Char :=
  match c with
  | 'b' => some '\x08'
  | 't' => some '\t'
  | 'n' => some '\n'
  | 'f' => some '\x0c'
  | 'r' => some '\r'
  | '"' => some '"'
  | '\\' => some '\\'
  | _ => none

/-- A blank within a line. -/
def isSpace (c : Char) : Bool :=
  c == ' ' || c == '\t'

/-- Whether only blanks are left on the line. -/
def endsLine (text : List Char) : Bool :=
  match text.dropWhile isSpace with
  | '\n' :: _ => true
  | '\r' :: '\n' :: _ => true
  | _ => false

/-- Put a character in front of what was read. -/
def found (c : Char) (read : Option (List Char × List Char)) : Option (List Char × List Char) :=
  read.map fun parts => (c :: parts.1, parts.2)

/-- Read the rest of a string between double quotes on one line. -/
def readBasic : List Char → Option (List Char × List Char)
  | [] => none
  | '"' :: rest => some ([], rest)
  | '\\' :: 'u' :: a :: b :: c :: d :: rest =>
      (escapedChar? [a, b, c, d]).bind fun value => found value (readBasic rest)
  | '\\' :: 'U' :: a :: b :: c :: d :: e :: f :: g :: h :: rest =>
      (escapedChar? [a, b, c, d, e, f, g, h]).bind fun value => found value (readBasic rest)
  | '\\' :: c :: rest => (simpleEscape? c).bind fun value => found value (readBasic rest)
  | c :: rest => if isLineChar c then found c (readBasic rest) else none

/-- Read the rest of a string between single quotes on one line. -/
def readLiteral : List Char → Option (List Char × List Char)
  | [] => none
  | '\'' :: rest => some ([], rest)
  | c :: rest => if isLineChar c then found c (readLiteral rest) else none

/-- Read the rest of a string between triple double quotes. After a backslash at the end of a
line, blanks and line ends are skipped. -/
def readLongBasic : (skipping : Bool) → List Char → Option (List Char × List Char)
  | _, [] => none
  | _, '"' :: '"' :: '"' :: '"' :: '"' :: rest => some (['"', '"'], rest)
  | _, '"' :: '"' :: '"' :: '"' :: rest => some (['"'], rest)
  | _, '"' :: '"' :: '"' :: rest => some ([], rest)
  | skipping, '\r' :: '\n' :: rest =>
      if skipping then readLongBasic true rest else found '\n' (readLongBasic false rest)
  | _, '\\' :: 'u' :: a :: b :: c :: d :: rest =>
      (escapedChar? [a, b, c, d]).bind fun value => found value (readLongBasic false rest)
  | _, '\\' :: 'U' :: a :: b :: c :: d :: e :: f :: g :: h :: rest =>
      (escapedChar? [a, b, c, d, e, f, g, h]).bind fun value =>
        found value (readLongBasic false rest)
  | _, '\\' :: c :: rest =>
      if endsLine (c :: rest) then readLongBasic true (c :: rest)
      else (simpleEscape? c).bind fun value => found value (readLongBasic false rest)
  | skipping, c :: rest =>
      if skipping && (isSpace c || c == '\n') then readLongBasic true rest
      else if isLineChar c || c == '\n' then found c (readLongBasic false rest)
      else none

/-- Read the rest of a string between triple single quotes. -/
def readLongLiteral : List Char → Option (List Char × List Char)
  | [] => none
  | '\'' :: '\'' :: '\'' :: '\'' :: '\'' :: rest => some (['\'', '\''], rest)
  | '\'' :: '\'' :: '\'' :: '\'' :: rest => some (['\''], rest)
  | '\'' :: '\'' :: '\'' :: rest => some ([], rest)
  | '\r' :: '\n' :: rest => found '\n' (readLongLiteral rest)
  | c :: rest => if isLineChar c || c == '\n' then found c (readLongLiteral rest) else none

/-- Drop a line end at the start. -/
def dropLineEnd : List Char → List Char
  | '\n' :: rest => rest
  | '\r' :: '\n' :: rest => rest
  | text => text

/-- Read a string from its opening quote on; the result says whether it may span lines. -/
def readQuoted : List Char → Option ((List Char × List Char) × Bool)
  | '"' :: '"' :: '"' :: rest => (readLongBasic false (dropLineEnd rest)).map (·, true)
  | '\'' :: '\'' :: '\'' :: rest => (readLongLiteral (dropLineEnd rest)).map (·, true)
  | '"' :: rest => (readBasic rest).map (·, false)
  | '\'' :: rest => (readLiteral rest).map (·, false)
  | _ => none

/-- A character of a word. -/
def isWordChar (c : Char) : Bool :=
  Text.isAsciiAlphanumeric c || c == '_' || c == '-' || c == '+'

/-- A character that is a token by itself. -/
def isMark (c : Char) : Bool :=
  c == '[' || c == ']' || c == '{' || c == '}' || c == ',' || c == '.' || c == '='

/-- Cut a document into at most the given number of tokens. -/
def tokensWithin : (limit : Nat) → List Char → Option (List Token)
  | 0, text => if text.isEmpty then some [] else none
  | limit + 1, text =>
      match text with
      | [] => some []
      | '\n' :: rest => (tokensWithin limit rest).map (.lineEnd :: ·)
      | '\r' :: '\n' :: rest => (tokensWithin limit rest).map (.lineEnd :: ·)
      | c :: rest =>
          if isSpace c then tokensWithin limit rest
          else if c = '#' then tokensWithin limit (rest.dropWhile isLineChar)
          else if isMark c then (tokensWithin limit rest).map (.mark c :: ·)
          else if isWordChar c then
            (tokensWithin limit (rest.dropWhile isWordChar)).map
              (.word (c :: rest.takeWhile isWordChar) :: ·)
          else
            (readQuoted (c :: rest)).bind fun read =>
              (tokensWithin limit read.1.2).map
                (.quoted (String.ofList read.1.1) read.2 :: ·)

/-- Cut a document into tokens; each takes at least one character. -/
def tokens (text : List Char) : Option (List Token) :=
  tokensWithin text.length text

/-- The digits of a number without the underscores between them. -/
def plainDigits? (isDigit : Char → Bool) (text : List Char) : Option (List Char) :=
  match text with
  | [] => none
  | c :: rest =>
      if !isDigit c then none
      else
        let groups := (c :: rest).splitOn '_'
        if groups.all fun group => !group.isEmpty && group.all isDigit then some groups.flatten
        else none

/-- The number that digits of some base denote. -/
def numberOf (base : Nat) (digits : List Char) : Nat :=
  digits.foldl (fun value c => value * base + (Text.hexValue? c).getD 0) 0

/-- A digit of base eight. -/
def isOctalDigit (c : Char) : Bool :=
  '0' ≤ c && c ≤ '7'

/-- A digit of base two. -/
def isBinaryDigit (c : Char) : Bool :=
  c == '0' || c == '1'

/-- The size of an integer without its sign, with its digits. -/
def decimal? (text : List Char) : Option Nat :=
  (plainDigits? Text.isAsciiDigit text).bind fun digits =>
    if digits.head? = some '0' && digits.length ≠ 1 then none
    else some (numberOf 10 digits)

/-- An integer, of at most 64 bits with its sign. -/
def integer? (text : List Char) : Option Int :=
  let value : Option Int :=
    match text with
    | '0' :: 'x' :: digits => (plainDigits? Text.isHexDigit digits).map fun d => numberOf 16 d
    | '0' :: 'o' :: digits => (plainDigits? isOctalDigit digits).map fun d => numberOf 8 d
    | '0' :: 'b' :: digits => (plainDigits? isBinaryDigit digits).map fun d => numberOf 2 d
    | '-' :: digits => (decimal? digits).map fun size => -(size : Int)
    | '+' :: digits => (decimal? digits).map fun size => size
    | digits => (decimal? digits).map fun size => size
  value.filter fun value => -0x8000000000000000 ≤ value && value < 0x8000000000000000

/-- The value of a word. -/
def wordValue? (letters : List Char) : Option Value :=
  if letters = ['t', 'r', 'u', 'e'] then some (.boolean true)
  else if letters = ['f', 'a', 'l', 's', 'e'] then some (.boolean false)
  else (integer? letters).map .integer

/-- The key that a token can be. -/
def keyOf? : Token → Option String
  | .word letters => if letters.contains '+' then none else some (String.ofList letters)
  | .quoted value long => if long then none else some value
  | _ => none

/-- Read a key of one or more names with dots between them. -/
def readKey : List Token → Option (List String × List Token)
  | [] => none
  | [token] => (keyOf? token).map fun name => ([name], [])
  | token :: next :: rest =>
      match keyOf? token with
      | none => none
      | some name =>
          if next = .mark '.' then
            match readKey rest with
            | none => none
            | some (names, after) => some (name :: names, after)
          else some ([name], next :: rest)

/-- Drop line ends. -/
def dropLineEnds (input : List Token) : List Token :=
  input.dropWhile (· == .lineEnd)

theorem length_readKey_lt
    {input rest : List Token}
    {names : List String}
    (reads : readKey input = some (names, rest)) :
    rest.length < input.length := by
  fun_induction readKey input generalizing names rest <;>
    simp_all [Option.map_eq_some_iff]
  case case2 =>
    obtain ⟨_, _, _, empty⟩ := reads
    exact empty
  case case5 shorter => omega

theorem length_dropLineEnds_le (input : List Token) :
    (dropLineEnds input).length ≤ input.length :=
  (List.dropWhile_suffix _).length_le

/-- The first token of a rest, and what follows it. -/
def splitFirst?
    {bound : Nat} :
    { rest : List Token // rest.length < bound } →
      Option (Token × { rest : List Token // rest.length + 1 < bound })
  | ⟨[], _⟩ => none
  | ⟨token :: rest, shorter⟩ => some (token, ⟨rest, shorter⟩)

mutual

/-- Read one value. -/
def readValue
    (input : List Token) :
    Option (Value × { rest : List Token // rest.length < input.length }) :=
  match input with
  | .word letters :: rest => (wordValue? letters).map (·, ⟨rest, by simp⟩)
  | .quoted value _ :: rest => some (.text value, ⟨rest, by simp⟩)
  | .mark '[' :: rest =>
      match readElements rest with
      | none => none
      | some (elements, ⟨after, shorter⟩) =>
          some (.array elements, ⟨after, by simp only [List.length_cons]; omega⟩)
  | .mark '{' :: .mark '}' :: rest =>
      some (.table .inline [], ⟨rest, by simp only [List.length_cons]; omega⟩)
  | .mark '{' :: rest =>
      match readMembers rest with
      | none => none
      | some (members, ⟨after, shorter⟩) =>
          (members.foldlM (fun entries line => assign line.2 line.1 entries) []).map
            (.table .inline ·, ⟨after, by simp only [List.length_cons]; omega⟩)
  | _ => none
termination_by 2 * input.length

/-- Read the elements that are left of an array, and its closing bracket. -/
def readElements
    (input : List Token) :
    Option (List Value × { rest : List Token // rest.length < input.length }) :=
  have bound := length_dropLineEnds_le input
  match read : readValue (dropLineEnds input) with
  | none =>
      match start : dropLineEnds input with
      | .mark ']' :: rest =>
          some ([], ⟨rest, by simp only [start, List.length_cons] at bound; omega⟩)
      | _ => none
  | some (element, ⟨after, shorter⟩) =>
      have afterBound := length_dropLineEnds_le after
      match next : dropLineEnds after with
      | .mark ']' :: rest =>
          some ([element], ⟨rest, by simp only [next, List.length_cons] at afterBound; omega⟩)
      | .mark ',' :: rest =>
          have : rest.length < input.length := by
            simp only [next, List.length_cons] at afterBound; omega
          match readElements rest with
          | none => none
          | some (elements, ⟨last, later⟩) => some (element :: elements, ⟨last, by omega⟩)
      | _ => none
termination_by 2 * input.length + 1

/-- Read the members that are left of an inline table, at least one, and its closing brace. -/
def readMembers
    (input : List Token) :
    Option (List (List String × Value) × { rest : List Token // rest.length < input.length }) :=
  match key : readKey input with
  | some (names, .mark '=' :: afterKey) =>
      have : afterKey.length < input.length := by
        have bound := length_readKey_lt key
        simp only [List.length_cons] at bound
        omega
      match readValue afterKey with
      | none => none
      | some (value, behind) =>
          match splitFirst? behind with
          | some (.mark '}', ⟨rest, shorter⟩) => some ([(names, value)], ⟨rest, by omega⟩)
          | some (.mark ',', ⟨rest, shorter⟩) =>
              match readMembers rest with
              | none => none
              | some (members, ⟨last, later⟩) => some ((names, value) :: members, ⟨last, by omega⟩)
          | _ => none
  | _ => none
termination_by 2 * input.length + 1

end

/-- A line of a document. -/
inductive Line
  /-- The header of a table. -/
  | header (names : List String)
  /-- A key with its value. -/
  | entry (names : List String) (value : Value)
  deriving Inhabited, Repr

/-- Read what stands on a line. -/
def readLine (input : List Token) : Option (Line × List Token) :=
  match input with
  | .mark '[' :: rest =>
      match readKey rest with
      | some (names, .mark ']' :: after) => some (.header names, after)
      | _ => none
  | _ =>
      match readKey input with
      | some (names, .mark '=' :: rest) =>
          (readValue rest).map fun read => (.entry names read.1, read.2.1)
      | _ => none

/-- Read at most the given number of lines. -/
def linesWithin : (limit : Nat) → List Token → Option (List Line)
  | 0, input => if input.isEmpty then some [] else none
  | limit + 1, input =>
      match dropLineEnds input with
      | [] => some []
      | start =>
          match readLine start with
          | none => none
          | some (line, []) => some [line]
          | some (line, .lineEnd :: rest) => (linesWithin limit rest).map (line :: ·)
          | some _ => none

/-- Gather the entries below each header; the first part has no header. -/
def parts : List Line → List (List String × List (List String × Value))
  | [] => [([], [])]
  | line :: lines =>
      match line, parts lines with
      | .header names, (_, body) :: more => ([], []) :: (names, body) :: more
      | .entry names value, (path, body) :: more => (path, (names, value) :: body) :: more
      | _, [] => []

/-- The text without a byte order mark at its start. -/
def withoutMark : List Char → List Char
  | '\ufeff' :: rest => rest
  | text => text

/-- Read a document; none where it is not well formed. -/
def read? (text : String) : Option (List (String × Value)) := do
  let input ← tokens (withoutMark text.toList)
  let lines ← linesWithin (input.length + 1) input
  (parts lines).foldlM (fun entries part => define part.2 part.1 entries) []

end Toml
end MailPress
