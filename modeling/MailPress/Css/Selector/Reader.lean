import MailPress.Css.Reader
import MailPress.Css.Selector

/-!
# Reading selectors

A selector is cut into lexemes: gaps, combinators and compounds. The argument of
a functional pseudo-class is kept as text at first, and its type records that it
is shorter than the whole selector, so that reading the arguments of a negation
ends.

A text that is not understood has no selector. A pseudo-class that is not
understood has one: it is unknown, and still counts.
-/

namespace MailPress
namespace Css

/-- A test as written; arguments are shorter than `bound`. -/
inductive WrittenTest (bound : Nat)
  /-- The universal test. -/
  | universal
  /-- A test that needs no further reading. -/
  | plain (test : Simple)
  /-- A pseudo-class or pseudo-element with an argument. -/
  | functional (name : String) (argument : { text : List Char // text.length < bound })

/-- A part of a selector as written. -/
inductive Lexeme (bound : Nat)
  /-- A blank. -/
  | gap
  /-- A combinator that has a sign. -/
  | combinator (combinator : Combinator)
  /-- A compound. -/
  | compound (tests : List (WrittenTest bound))

/-- A character of a name. -/
def isNameChar (c : Char) : Bool :=
  Text.isAsciiAlphanumeric c || c == '-' || c == '_' || !Text.isAscii c

/-- Take the longest name at the start, which may be empty; a backslash takes any character. -/
def takeName : List Char → Option (List Char × List Char)
  | [] => some ([], [])
  | '\\' :: c :: rest => (takeName rest).map fun found => (c :: found.1, found.2)
  | c :: rest =>
      if c = '\\' then none
      else if isNameChar c then (takeName rest).map fun found => (c :: found.1, found.2)
      else some ([], c :: rest)

/-- Take the inside of an attribute test up to its bracket; quotes hide brackets. -/
def takeBracket : Option Char → List Char → Option (List Char × List Char)
  | _, [] => none
  | some quote, c :: rest =>
      (takeBracket (if c = quote then none else some quote) rest).map fun found =>
        (c :: found.1, found.2)
  | none, c :: rest =>
      if c = ']' then some ([], rest)
      else
        (takeBracket (if isQuote c then some c else none) rest).map fun found =>
          (c :: found.1, found.2)

/-- Take an argument up to the parenthesis that closes it; `depth` more are open inside. -/
def takeArgument : Nat → List Char → Option (List Char × List Char)
  | _, [] => none
  | depth, c :: rest =>
      if c = ')' ∧ depth = 0 then some ([], rest)
      else
        let depth := if c = '(' then depth + 1 else if c = ')' then depth - 1 else depth
        (takeArgument depth rest).map fun found => (c :: found.1, found.2)

/-- The signs of relations, in the order in which they are looked for. -/
def relationSigns : List (List Char × Relation) :=
  [(['~', '='], .includes), (['|', '='], .dashMatches), (['^', '='], .startsWith),
    (['$', '='], .endsWith), (['*', '='], .contains), (['='], .equals)]

/-- Remove a quote at each end; a value that has only one of them is left alone. -/
def unquote (value : List Char) : List Char :=
  match value with
  | first :: rest =>
      match rest.reverse with
      | last :: middle => if isQuote first && isQuote last then middle.reverse else value
      | [] => value
  | [] => value

/-- Read the inside of an attribute test. -/
def readAttributeTest (inner : List Char) : Option AttributeTest :=
  let split := relationSigns.findSome? fun sign =>
    (Text.splitOnce sign.1 inner).map fun parts => (parts, sign.2)
  match split with
  | some ((name, value), relation) =>
      some ⟨Text.lower (String.ofList (Text.trim name)), relation,
        String.ofList (unquote (Text.trim value))⟩
  | none =>
      let name := Text.lower (String.ofList (Text.trim inner))
      if name.isEmpty then none else some ⟨name, .present, ""⟩

/-- The pseudo-elements that may be written with one colon. -/
def singleColonElements : List String :=
  ["before", "after", "first-line", "first-letter"]

/-- A pseudo-class or pseudo-element without an argument. -/
def plainPseudo (doubled : Bool) (name : String) : Simple :=
  if doubled || singleColonElements.contains name then .element
  else if dynamicNames.contains name || name == "link" then .dynamic
  else
    match name with
    | "first-child" => .firstChild
    | "last-child" => .lastChild
    | "only-child" => .onlyChild
    | "first-of-type" => .firstOfType
    | "last-of-type" => .lastOfType
    | "only-of-type" => .onlyOfType
    | _ => .unknown

theorem length_takeName_le
    {text name rest : List Char}
    (taken : takeName text = some (name, rest)) :
    name.length + rest.length ≤ text.length := by
  fun_induction takeName text generalizing name rest <;>
    simp_all [Option.map_eq_some_iff] <;> grind

theorem length_takeBracket_lt
    {quote : Option Char}
    {text inner rest : List Char}
    (taken : takeBracket quote text = some (inner, rest)) :
    rest.length < text.length := by
  fun_induction takeBracket quote text generalizing inner rest <;>
    simp_all [Option.map_eq_some_iff] <;> grind

theorem length_takeArgument_lt
    {depth : Nat}
    {text argument rest : List Char}
    (taken : takeArgument depth text = some (argument, rest)) :
    argument.length + rest.length < text.length := by
  induction text generalizing depth argument rest with
  | nil => cases taken
  | cons c text inductionHypothesis =>
      rw [takeArgument] at taken
      split at taken
      · cases taken
        simp
      · obtain ⟨found, inner, eq⟩ := Option.map_eq_some_iff.mp taken
        have shorter := inductionHypothesis inner
        cases eq
        simp only [List.length_cons]
        omega

/-- Take a name that is not empty. -/
def takeName1
    (text : List Char) :
    Option (String × { rest : List Char // rest.length < text.length }) :=
  match found : takeName text with
  | some (c :: name, rest) =>
      some (String.ofList (c :: name), ⟨rest, by
        have := length_takeName_le found
        simp only [List.length_cons] at this
        omega⟩)
  | _ => none

/-- A text without the colon that it may start with. -/
def withoutColon : List Char → List Char
  | ':' :: rest => rest
  | text => text

theorem length_withoutColon_le (text : List Char) :
    (withoutColon text).length ≤ text.length := by
  fun_cases withoutColon text with
  | case1 rest => exact Nat.le_succ rest.length
  | case2 => exact Nat.le_refl _

/-- Read a pseudo-class or pseudo-element after its first colon. -/
def readPseudo
    {bound : Nat}
    (text : List Char)
    (within : text.length < bound) :
    Option (WrittenTest bound × { rest : List Char // rest.length < text.length }) :=
  let doubled := text.head? == some ':'
  let start := withoutColon text
  have startBound : start.length ≤ text.length := length_withoutColon_le text
  match takeName1 start with
  | none => none
  | some (name, ⟨rest, shorter⟩) =>
      match rest, shorter with
      | '(' :: inner, shorter =>
          match found : takeArgument 0 inner with
          | none => none
          | some (argument, after) =>
              have lengths := length_takeArgument_lt found
              have innerBound : inner.length + 1 < start.length := shorter
              some (.functional (Text.lower name) ⟨argument, by omega⟩, ⟨after, by omega⟩)
      | rest, shorter =>
          some (.plain (plainPseudo doubled (Text.lower name)),
            ⟨rest, Nat.lt_of_lt_of_le shorter startBound⟩)

/-- What stands at the start of the rest of a compound. -/
inductive TestStep (bound length : Nat)
  /-- A test, and what is left. -/
  | test (test : WrittenTest bound) (rest : List Char) (shorter : rest.length < length)
  /-- The compound ends here. -/
  | stop
  /-- The text is not understood. -/
  | failed

/-- Read one test of a compound; a name is a test only when it comes first. -/
def readTest
    {bound : Nat}
    (first : Bool)
    (text : List Char)
    (within : text.length ≤ bound) :
    TestStep bound text.length :=
  match text with
  | '*' :: rest => .test .universal rest (by simp)
  | '#' :: rest =>
      match takeName1 rest with
      | some (name, ⟨after, shorter⟩) =>
          .test (.plain (.id name)) after (Nat.lt_succ_of_lt shorter)
      | none => .failed
  | '.' :: rest =>
      match takeName1 rest with
      | some (name, ⟨after, shorter⟩) =>
          .test (.plain (.className name)) after (Nat.lt_succ_of_lt shorter)
      | none => .failed
  | '[' :: rest =>
      match found : takeBracket none rest with
      | some (inner, after) =>
          match readAttributeTest inner with
          | some test =>
              .test (.plain (.attr test)) after (Nat.lt_succ_of_lt (length_takeBracket_lt found))
          | none => .failed
      | none => .failed
  | ':' :: rest =>
      match readPseudo rest within with
      | some (test, ⟨after, shorter⟩) => .test test after (Nat.lt_succ_of_lt shorter)
      | none => .failed
  | c :: rest =>
      if first && isNameChar c then
        match takeName1 (c :: rest) with
        | some (name, ⟨after, shorter⟩) => .test (.plain (.type (Text.lower name))) after shorter
        | none => .failed
      else .stop
  | [] => .stop

/-- Read the rest of a compound. -/
def readTests
    {bound : Nat}
    (first : Bool)
    (text : List Char)
    (within : text.length ≤ bound) :
    Option (List (WrittenTest bound) × { rest : List Char // rest.length ≤ text.length }) :=
  match readTest first text within with
  | .stop => some ([], ⟨text, Nat.le_refl _⟩)
  | .failed => none
  | .test test rest shorter =>
      match readTests false rest (by omega) with
      | none => none
      | some (tests, ⟨after, less⟩) => some (test :: tests, ⟨after, by omega⟩)
termination_by text.length

/-- The combinator that a sign stands for. -/
def combinatorOfSign? (c : Char) : Option Combinator :=
  if c = '>' then some .child
  else if c = '+' then some .adjacent
  else if c = '~' then some .sibling
  else none

/-- Cut a selector into lexemes. -/
def readLexemes
    {bound : Nat}
    (text : List Char)
    (within : text.length ≤ bound) :
    Option (List (Lexeme bound)) :=
  match text with
  | [] => some []
  | c :: rest =>
      have restWithin : rest.length ≤ bound := Nat.le_of_succ_le within
      if Text.isBlank c then (readLexemes rest restWithin).map fun more => .gap :: more
      else
        match combinatorOfSign? c with
        | some sign => (readLexemes rest restWithin).map fun more => .combinator sign :: more
        | none =>
            match readTest true (c :: rest) within with
            | .test test after shorter =>
                match readTests false after (by omega) with
                | none => none
                | some (tests, ⟨left, less⟩) =>
                    have : left.length ≤ rest.length := by
                      rw [List.length_cons] at shorter
                      omega
                    (readLexemes left (by omega)).map fun more => .compound (test :: tests) :: more
            | _ => none
termination_by text.length
decreasing_by
  all_goals
    rw [List.length_cons]
    omega

/-- A selector under construction: what stands to the left, the combinator written after it,
and whether a blank was read since. -/
structure Joining where
  /-- The selector so far. -/
  left : Option Selector
  /-- The combinator that waits for its right side. -/
  pending : Option Combinator
  /-- Whether a blank was read since the last compound or combinator. -/
  spaced : Bool

/-- Join one lexeme, its tests resolved. -/
def Joining.take
    {bound : Nat}
    (resolve : List (WrittenTest bound) → List Simple)
    (joining : Joining) :
    Lexeme bound → Option Joining
  | .gap => some { joining with spaced := true }
  | .combinator sign =>
      if joining.left.isNone || joining.pending.isSome then none
      else some ⟨joining.left, some sign, false⟩
  | .compound tests =>
      match joining.left, joining.pending with
      | none, _ => some ⟨some (.compound (resolve tests)), none, false⟩
      | some left, some sign => some ⟨some (.combined left sign (resolve tests)), none, false⟩
      | some left, none =>
          if joining.spaced then
            some ⟨some (.combined left .descendant (resolve tests)), none, false⟩
          else none

/-- Join lexemes to a selector. -/
def joinLexemes
    {bound : Nat}
    (resolve : List (WrittenTest bound) → List Simple)
    (lexemes : List (Lexeme bound)) :
    Option Selector :=
  match lexemes.foldlM (Joining.take resolve) ⟨none, none, false⟩ with
  | some ⟨left, none, _⟩ => left
  | _ => none

/-- A pseudo-class of positions; without a formula it is unknown. -/
def positional (make : Nth → Simple) (argument : List Char) : Simple :=
  ((Nth.read argument).map make).getD .unknown

/-- Resolve a test, given how to read the selectors in its argument. -/
def WrittenTest.resolve
    {bound : Nat}
    (readNested : (text : List Char) → text.length < bound → Option (List Selector)) :
    WrittenTest bound → Option Simple
  | .universal => none
  | .plain test => some test
  | .functional name ⟨argument, shorter⟩ =>
      some <|
        match name with
        | "nth-child" => positional .nthChild argument
        | "nth-last-child" => positional .nthLastChild argument
        | "nth-of-type" => positional .nthOfType argument
        | "nth-last-of-type" => positional .nthLastOfType argument
        | "not" => ((readNested argument shorter).map .not).getD .unknown
        | _ => .unknown

theorem length_le_of_mem_consFirst
    {c : Char}
    {parts : List (List Char)}
    {part : List Char}
    {bound : Nat}
    (short : ∀ part ∈ parts, part.length ≤ bound)
    (mem : part ∈ consFirst c parts) :
    part.length ≤ bound + 1 := by
  cases parts with
  | nil => simp_all [consFirst]
  | cons first rest =>
      simp only [consFirst, List.mem_cons] at mem
      rcases mem with rfl | mem
      · have := short first (by simp)
        simp only [List.length_cons]
        omega
      · have := short part (by simp [mem])
        omega

theorem length_le_of_mem_cutFrom
    {separator : Char}
    {state : CutState}
    {text part : List Char}
    (mem : part ∈ cutFrom separator state text) :
    part.length ≤ text.length := by
  fun_induction cutFrom separator state text generalizing part with
  | case1 => simp_all
  | case2 state c rest ih =>
      have inner : ∀ part ∈ consFirst c (cutFrom separator state rest),
          part.length ≤ rest.length + 1 :=
        fun _ mem => length_le_of_mem_consFirst (fun _ => ih) mem
      have := length_le_of_mem_consFirst inner mem
      simp only [List.length_cons]
      omega
  | case3 => simp_all
  | case4 state c rest _ _ _ ih =>
      simp only [List.mem_cons] at mem
      rcases mem with rfl | mem
      · simp
      · have := ih mem
        simp only [List.length_cons]
        omega
  | case5 state c rest _ _ _ ih => exact length_le_of_mem_consFirst (fun _ => ih) mem

/-- Read one selector; none when its syntax is not understood. -/
def readSelector (text : List Char) : Option Selector :=
  match readLexemes (Text.trim text) (Text.length_trim_le text) with
  | none => none
  | some lexemes =>
      let resolve := fun tests : List (WrittenTest text.length) =>
        tests.filterMap <| WrittenTest.resolve fun argument shorter =>
          (cutAtTopLevel ',' argument).attach.mapM
            fun (part : { part // part ∈ cutAtTopLevel ',' argument }) =>
            have : part.1.length < text.length :=
              Nat.lt_of_le_of_lt (length_le_of_mem_cutFrom part.2) shorter
            readSelector part.1
      joinLexemes resolve lexemes
termination_by text.length

/-- Read one selector; none when its syntax is not understood. -/
def Selector.read (text : String) : Option Selector :=
  readSelector text.toList

end Css
end MailPress
