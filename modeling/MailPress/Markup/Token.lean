import MailPress.Markup.Tag

/-!
# Tokens of markup

A source is a sequence of texts, references, tags and declarations. One step
reads the token at the start of a source, and the rest it leaves is shorter than
what it was given.

A step fails only when something that was opened is not closed, or when a
declaration is of no known kind. The failure keeps the source from the place
that it is reported at.
-/

namespace MailPress
namespace Markup

/-- A token of a source. -/
inductive Token
  /-- Text between markup, references excluded. -/
  | text (raw : List Char)
  /-- A character reference, without its ampersand and semicolon. -/
  | reference (name : List Char)
  /-- A start tag. -/
  | start (content : List Char)
  /-- A start tag that ends in a slash. -/
  | empty (content : List Char)
  /-- An end tag, blanks after its name removed. -/
  | finish (name : List Char)
  /-- A comment. -/
  | comment (body : List Char)
  /-- A section of character data. -/
  | cdata (body : List Char)
  /-- A processing instruction. -/
  | instruction (body : List Char)
  /-- A document type or XML declaration. -/
  | declaration (body : List Char)
  deriving DecidableEq, Repr, Inhabited

/-- What can be wrong with a source. -/
inductive Fault
  | unclosedTag
  | unclosedComment
  | unclosedCdata
  | unclosedDoctype
  | unclosedInstruction
  | unknownDeclaration
  | namelessDoctype
  | missingEndTag (name : String)
  deriving DecidableEq, Repr

/-- The wording of a fault. -/
def Fault.message : Fault → String
  | .unclosedTag => "syntax error: tag not closed: `>` not found before end of input"
  | .unclosedComment => "syntax error: comment not closed: `-->` not found before end of input"
  | .unclosedCdata => "syntax error: CDATA not closed: `]]>` not found before end of input"
  | .unclosedDoctype => "syntax error: DOCTYPE not closed: `>` not found before end of input"
  | .unclosedInstruction =>
      "syntax error: processing instruction or xml declaration not closed: " ++
        "`?>` not found before end of input"
  | .unknownDeclaration => "syntax error: unknown or missed symbol in markup"
  | .namelessDoctype =>
      "ill-formed document: `<!DOCTYPE>` declaration does not contain a name of a document type"
  | .missingEndTag name =>
      "ill-formed document: start tag not closed: `</" ++ name ++
        ">` not found before end of input"

/-- The result of reading one token from a source of the given length. -/
inductive Step (length : Nat)
  /-- A token was read, and this is left. -/
  | token (token : Token) (rest : List Char) (shorter : rest.length < length)
  /-- The source is at its end. -/
  | done
  /-- The source is faulty; `remaining` starts at the place to report. -/
  | failed (fault : Fault) (remaining : List Char)

/-- The text of a tag up to the bracket that closes it, brackets inside quotes passed over. -/
def takeTag : Option Char → List Char → Option (List Char × List Char)
  | _, [] => none
  | none, c :: rest =>
      if c = '>' then some ([], rest)
      else
        (takeTag (if c = '"' ∨ c = '\'' then some c else none) rest).map fun found =>
          (c :: found.1, found.2)
  | some quote, c :: rest =>
      (takeTag (if c = quote then none else some quote) rest).map fun found =>
        (c :: found.1, found.2)

/-- Where the scan of a document type declaration stands. -/
inductive DoctypeState
  /-- Before the internal subset, outside quotes or inside the given ones. -/
  | outside (quote : Option Char)
  /-- Between the declarations of the internal subset. -/
  | inside
  /-- In a declaration of the internal subset, outside quotes or inside the given ones. -/
  | declared (quote : Option Char)
  /-- In a comment of the internal subset. -/
  | comment
  /-- In a processing instruction of the internal subset. -/
  | instruction
  /-- After the internal subset. -/
  | after
  deriving DecidableEq, Repr

/-- The quote that is open after one more character. -/
def quoteAfter (c : Char) : Option Char → Option Char
  | none => if c = '"' ∨ c = '\'' then some c else none
  | some quote => if c = quote then none else some quote

/-- The text of a document type declaration up to the bracket that closes it. -/
def takeDoctype : DoctypeState → List Char → Option (List Char × List Char)
  | _, [] => none
  | .outside none, '>' :: rest => some ([], rest)
  | .outside none, '[' :: rest => (takeDoctype .inside rest).map (more '[')
  | .outside quote, c :: rest => (takeDoctype (.outside quote) rest).map (more c)
  | .inside, ']' :: rest => (takeDoctype .after rest).map (more ']')
  | .inside, '<' :: '!' :: '-' :: '-' :: rest =>
      (takeDoctype .comment rest).map (more '<' ∘ more '!' ∘ more '-' ∘ more '-')
  | .inside, '<' :: '?' :: rest => (takeDoctype .instruction rest).map (more '<' ∘ more '?')
  | .inside, '<' :: rest => (takeDoctype (.declared none) rest).map (more '<')
  | .inside, c :: rest => (takeDoctype .inside rest).map (more c)
  | .declared none, '>' :: rest => (takeDoctype .inside rest).map (more '>')
  | .declared quote, c :: rest => (takeDoctype (.declared (quoteAfter c quote)) rest).map (more c)
  | .comment, '-' :: '-' :: '>' :: rest =>
      (takeDoctype .inside rest).map (more '-' ∘ more '-' ∘ more '>')
  | .comment, c :: rest => (takeDoctype .comment rest).map (more c)
  | .instruction, '?' :: '>' :: rest => (takeDoctype .inside rest).map (more '?' ∘ more '>')
  | .instruction, c :: rest => (takeDoctype .instruction rest).map (more c)
  | .after, '>' :: rest => some ([], rest)
  | .after, c :: rest => (takeDoctype .after rest).map (more c)
where
  /-- Put a character in front of the text taken. -/
  more (c : Char) (found : List Char × List Char) : List Char × List Char :=
    (c :: found.1, found.2)

/-- The name of an end tag. Blanks after it do not count, unless there is nothing else. -/
def endTagName (content : List Char) : List Char :=
  let trimmed := Text.trimEndOf isTagSpace content
  if trimmed.isEmpty then content else trimmed

/-- Whether a processing instruction is the XML declaration. -/
def isXmlDeclaration : List Char → Bool
  | ['x', 'm', 'l'] => true
  | 'x' :: 'm' :: 'l' :: c :: _ => isTagSpace c
  | _ => false

/-- Character by character, the text in front of markup or a reference. -/
def isPlain (c : Char) : Bool :=
  c != '<' && c != '&'

theorem length_lt_of_splitOnce
    {pattern text before after : List Char}
    (found : Text.splitOnce pattern text = some (before, after))
    (extra : Nat) :
    after.length < text.length + extra + 1 :=
  Nat.lt_succ_of_le (Nat.le_add_right_of_le (Text.length_splitOnce_le found))

theorem length_takeTag_lt
    {quote : Option Char}
    {text content rest : List Char}
    (taken : takeTag quote text = some (content, rest)) :
    rest.length < text.length := by
  fun_induction takeTag quote text generalizing content rest <;>
    simp_all [Option.map_eq_some_iff] <;> grind

theorem length_takeDoctype_lt
    {state : DoctypeState}
    {text content rest : List Char}
    (taken : takeDoctype state text = some (content, rest)) :
    rest.length < text.length := by
  fun_induction takeDoctype state text generalizing content rest <;>
    simp_all [Option.map_eq_some_iff, takeDoctype.more] <;> grind

/-- Read what follows `<!`; the whole source is given for reports. -/
def readDeclaration (source : List Char) : (text : List Char) → Step (text.length + 2)
  | '-' :: '-' :: rest =>
      match found : Text.splitOnce ['-', '-', '>'] rest with
      | some (body, after) =>
          .token (.comment body) after (length_lt_of_splitOnce found 3)
      | none => .failed .unclosedComment source
  | '-' :: _ => .failed .unclosedComment source
  | '[' :: 'C' :: 'D' :: 'A' :: 'T' :: 'A' :: '[' :: rest =>
      match found : Text.splitOnce [']', ']', '>'] rest with
      | some (body, after) =>
          .token (.cdata body) after (length_lt_of_splitOnce found 8)
      | none => .failed .unclosedCdata source
  | '[' :: _ => .failed .unclosedCdata source
  | c :: rest =>
      if c = 'D' ∨ c = 'd' then
        match found : takeDoctype (.outside none) (c :: rest) with
        | none => .failed .unclosedDoctype source
        | some (content, after) =>
            if lowerName (content.take 7) = "doctype" then
              if (content.drop 7).all isTagSpace then .failed .namelessDoctype ('>' :: after)
              else
                .token (.declaration content) after
                  (Nat.lt_add_right 2 (length_takeDoctype_lt found))
            else .failed .unclosedDoctype source
      else .failed .unknownDeclaration source
  | [] => .failed .unknownDeclaration source

/-- Read what follows `<?`; the whole source is given for reports. -/
def readInstruction (source text : List Char) : Step (text.length + 2) :=
  if text.head? = some '>' then .failed .unclosedInstruction source
  else
    match found : Text.splitOnce ['?', '>'] text with
    | none => .failed .unclosedInstruction source
    | some (body, after) =>
        .token (if isXmlDeclaration body then .declaration body else .instruction body) after
          (length_lt_of_splitOnce found 1)

/-- The token of a tag, given the text between its brackets. -/
def tagToken (content : List Char) : Token :=
  match content with
  | '/' :: name => .finish (endTagName name)
  | _ =>
      match content.reverse with
      | '/' :: front => .empty front.reverse
      | _ => .start content

/-- Read the token at the start of a source. -/
def readToken (source : List Char) : Step source.length :=
  match source with
  | [] => .done
  | '<' :: '!' :: text =>
      match readDeclaration ('<' :: '!' :: text) text with
      | .token token rest shorter => .token token rest shorter
      | .done => .done
      | .failed fault remaining => .failed fault remaining
  | '<' :: '?' :: text =>
      match readInstruction ('<' :: '?' :: text) text with
      | .token token rest shorter => .token token rest shorter
      | .done => .done
      | .failed fault remaining => .failed fault remaining
  | '<' :: text =>
      match found : takeTag none text with
      | none => .failed .unclosedTag ('<' :: text)
      | some (content, rest) =>
          .token (tagToken content) rest (Nat.lt_succ_of_lt (length_takeTag_lt found))
  | '&' :: text =>
      match found : Text.splitOnce [';'] text with
      | none => .token (.text ['&']) text (Nat.lt_succ_self _)
      | some (name, rest) =>
          .token (.reference name) rest (length_lt_of_splitOnce found 0)
  | c :: text =>
      .token (.text (c :: text.takeWhile isPlain)) (text.dropWhile isPlain)
        (Nat.lt_succ_of_le (Text.length_dropWhile_le isPlain text))

end Markup
end MailPress
