import MailPress.Jinja.Lexeme
import MailPress.Jinja.Tree

/-!
# Reading templates

Expressions are read from the lexemes of a tag, with operators that bind by their
levels and group to the left. Statements are read from the segments of a template:
a statement that opens a block reads on up to the one that closes it.

The readers take a bound on the calls that remain; the wrapper at the end gives
one that is never reached.
-/

namespace MailPress
namespace Jinja

/-- The operator that a lexeme is, with its level. -/
def operatorOf? : Lexeme → Option (Operator × Nat)
  | .name "or" => some (.either, 0)
  | .name "and" => some (.both, 1)
  | .sign "==" => some (.equal, 3)
  | .sign "!=" => some (.unequal, 3)
  | .sign "<" => some (.less, 3)
  | .sign "<=" => some (.lessEqual, 3)
  | .sign ">" => some (.greater, 3)
  | .sign ">=" => some (.greaterEqual, 3)
  | .name "in" => some (.within, 3)
  | .sign "+" => some (.plus, 4)
  | .sign "-" => some (.minus, 4)
  | .sign "~" => some (.join, 5)
  | .sign "*" => some (.times, 6)
  | .sign "/" => some (.divide, 6)
  | .sign "//" => some (.divideWhole, 6)
  | .sign "%" => some (.modulo, 6)
  | .sign "**" => some (.power, 7)
  | _ => none

/-- The level of operands that are negated by a word. -/
def negationLevel : Nat := 2

/-- The level of operands without operators between them. -/
def operandLevel : Nat := 8

/-- The constant that a name is. -/
def constantNamed? : String → Option Constant
  | "true" | "True" => some (.truth true)
  | "false" | "False" => some (.truth false)
  | "none" | "None" => some .none
  | _ => none

/-- Whether a lexeme starts the argument of a test that has no parentheses. -/
def startsTestArgument : List Lexeme → Bool
  | .name word :: _ => !(["and", "or", "not", "in", "is", "if", "else"].contains word)
  | .text _ :: _ | .integer _ :: _ | .real _ :: _ => true
  | .sign "[" :: _ | .sign "\x7b" :: _ => true
  | _ => false

mutual

/-- Read an expression. -/
def readExpression : (bound : Nat) → List Lexeme → Option (Expression × List Lexeme)
  | 0, _ => none
  | bound + 1, lexemes =>
      (readLevel bound 0 lexemes).bind fun first => readChoice bound first.1 first.2

/-- Read the alternatives after a value. -/
def readChoice : (bound : Nat) → Expression → List Lexeme → Option (Expression × List Lexeme)
  | 0, _, _ => none
  | bound + 1, value, .name "if" :: rest =>
      (readLevel bound 0 rest).bind fun condition =>
        match condition.2 with
        | .name "else" :: rest =>
            (readExpression bound rest).bind fun otherwise =>
              readChoice bound (.choice condition.1 value (some otherwise.1)) otherwise.2
        | rest => readChoice bound (.choice condition.1 value none) rest
  | _, value, rest => some (value, rest)

/-- Read operands with operators of at least a level between them. -/
def readLevel : (bound level : Nat) → List Lexeme → Option (Expression × List Lexeme)
  | 0, _, _ => none
  | bound + 1, level, lexemes =>
      if level = negationLevel then
        match lexemes with
        | .name "not" :: rest =>
            (readLevel bound level rest).map fun operand => (.negation operand.1, operand.2)
        | _ => readLevel bound (level + 1) lexemes
      else if operandLevel ≤ level then readOperand bound lexemes
      else
        (readLevel bound (level + 1) lexemes).bind fun first =>
          readOperators bound level first.1 first.2

/-- Read the operators of one level after an operand. -/
def readOperators :
    (bound level : Nat) → Expression → List Lexeme → Option (Expression × List Lexeme)
  | 0, _, _, _ => none
  | bound + 1, level, left, lexemes =>
      match lexemes with
      | .name "not" :: .name "in" :: rest =>
          if level = 3 then
            (readLevel bound (level + 1) rest).bind fun right =>
              readOperators bound level (.negation (.binary .within left right.1)) right.2
          else some (left, lexemes)
      | lexeme :: rest =>
          match operatorOf? lexeme with
          | some (operator, own) =>
              if own = level then
                (readLevel bound (level + 1) rest).bind fun right =>
                  readOperators bound level (.binary operator left right.1) right.2
              else some (left, lexemes)
          | none => some (left, lexemes)
      | [] => some (left, [])

/-- Read an operand with its filters and tests. -/
def readOperand : (bound : Nat) → List Lexeme → Option (Expression × List Lexeme)
  | 0, _ => none
  | bound + 1, lexemes =>
      (readNegative bound lexemes).bind fun operand => readFilters bound operand.1 operand.2

/-- Read an operand that may have hyphens in front of it. -/
def readNegative : (bound : Nat) → List Lexeme → Option (Expression × List Lexeme)
  | 0, _ => none
  | bound + 1, .sign "-" :: rest =>
      (readNegative bound rest).map fun operand => (.negative operand.1, operand.2)
  | bound + 1, lexemes =>
      (readPrimary bound lexemes).bind fun primary => readParts bound primary.1 primary.2

/-- Read the filters and tests after an operand. -/
def readFilters : (bound : Nat) → Expression → List Lexeme → Option (Expression × List Lexeme)
  | 0, _, _ => none
  | bound + 1, operand, .sign "|" :: .name name :: rest =>
      match rest with
      | .sign "(" :: inside =>
          (readArguments bound inside).bind fun arguments =>
            readFilters bound (.filter (some operand) name arguments.1) arguments.2
      | _ => readFilters bound (.filter (some operand) name []) rest
  | bound + 1, operand, .name "is" :: rest =>
      let (isNegated, rest) := match rest with
        | .name "not" :: more => (true, more)
        | more => (false, more)
      match rest with
      | .name name :: rest =>
          let arguments : Option (List Argument × List Lexeme) := match rest with
            | .sign "(" :: inside => readArguments bound inside
            | _ =>
                if startsTestArgument rest then
                  (readNegative bound rest).map fun argument =>
                    ([.single argument.1], argument.2)
                else some ([], rest)
          arguments.bind fun arguments =>
            let test := Expression.test operand name arguments.1
            readFilters bound (if isNegated then .negation test else test) arguments.2
      | _ => none
  | _, _, .sign "|" :: _ => none
  | _, operand, rest => some (operand, rest)

/-- Read the members, elements and calls after a value. -/
def readParts : (bound : Nat) → Expression → List Lexeme → Option (Expression × List Lexeme)
  | 0, _, _ => none
  | bound + 1, owner, .sign "." :: .name name :: rest =>
      readParts bound (.member owner name) rest
  | bound + 1, owner, .sign "(" :: rest =>
      (readArguments bound rest).bind fun arguments =>
        readParts bound (.call owner arguments.1) arguments.2
  | bound + 1, owner, .sign "[" :: rest =>
      (readSubscript bound owner rest).bind fun part => readParts bound part.1 part.2
  | _, _, .sign "." :: _ => none
  | _, owner, rest => some (owner, rest)

/-- Read a bound of a slice, if there is one. -/
def readBound : (bound : Nat) → List Lexeme → Option (Option Expression × List Lexeme)
  | 0, _ => none
  | _, .sign ":" :: rest => some (none, .sign ":" :: rest)
  | _, .sign "]" :: rest => some (none, .sign "]" :: rest)
  | bound + 1, lexemes =>
      (readExpression bound lexemes).map fun value => (some value.1, value.2)

/-- Read an element or a slice after the opening bracket. -/
def readSubscript : (bound : Nat) → Expression → List Lexeme → Option (Expression × List Lexeme)
  | 0, _, _ => none
  | bound + 1, owner, lexemes =>
      (readBound bound lexemes).bind fun start =>
        match start.2 with
        | .sign "]" :: rest => start.1.map fun key => (.item owner key, rest)
        | .sign ":" :: rest =>
            (readBound bound rest).bind fun stop =>
              match stop.2 with
              | .sign "]" :: rest => some (.slice owner start.1 stop.1 none, rest)
              | .sign ":" :: rest =>
                  (readBound bound rest).bind fun step =>
                    match step.2 with
                    | .sign "]" :: rest => some (.slice owner start.1 stop.1 step.1, rest)
                    | _ => none
              | _ => none
        | _ => none

/-- Read a value that is not put together by operators. -/
def readPrimary : (bound : Nat) → List Lexeme → Option (Expression × List Lexeme)
  | 0, _ => none
  | _, [] => none
  | bound + 1, lexeme :: rest =>
      match lexeme with
      | .name name =>
          match constantNamed? name with
          | some constant => some (.constant constant, rest)
          | none => some (.name name, rest)
      | .text content => some (.constant (.text content), rest)
      | .integer value => some (.constant (.integer value), rest)
      | .real value => some (.constant (.real value), rest)
      | .sign "(" =>
          match rest with
          | .sign ")" :: rest => some (.list [], rest)
          | _ =>
              (readExpression bound rest).bind fun first =>
                match first.2 with
                | .sign ")" :: rest => some (first.1, rest)
                | .sign "," :: rest =>
                    (readElements bound ")" rest).map fun more =>
                      (.list (first.1 :: more.1), more.2)
                | _ => none
      | .sign "[" =>
          (readElements bound "]" rest).map fun elements => (.list elements.1, elements.2)
      | .sign "\x7b" =>
          (readEntries bound rest).map fun entries => (.map entries.1, entries.2)
      | .sign _ => none

/-- Read elements up to and with a closing bracket. -/
def readElements :
    (bound : Nat) → (close : String) → List Lexeme → Option (List Expression × List Lexeme)
  | 0, _, _ => none
  | _, _, [] => none
  | bound + 1, close, lexeme :: rest =>
      if lexeme == .sign close then some ([], rest)
      else
        (readExpression bound (lexeme :: rest)).bind fun element =>
          match element.2 with
          | .sign "," :: rest =>
              (readElements bound close rest).map fun more => (element.1 :: more.1, more.2)
          | next :: rest => if next == .sign close then some ([element.1], rest) else none
          | [] => none

/-- Read the entries of a map up to and with the closing brace. -/
def readEntries :
    (bound : Nat) → List Lexeme → Option (List (Expression × Expression) × List Lexeme)
  | 0, _ => none
  | _, .sign "\x7d" :: rest => some ([], rest)
  | bound + 1, lexemes =>
      (readExpression bound lexemes).bind fun key =>
        match key.2 with
        | .sign ":" :: rest =>
            (readExpression bound rest).bind fun value =>
              match value.2 with
              | .sign "," :: rest =>
                  (readEntries bound rest).map fun more =>
                    ((key.1, value.1) :: more.1, more.2)
              | .sign "\x7d" :: rest => some ([(key.1, value.1)], rest)
              | _ => none
        | _ => none

/-- Read arguments up to and with the closing parenthesis. -/
def readArguments : (bound : Nat) → List Lexeme → Option (List Argument × List Lexeme)
  | 0, _ => none
  | _, .sign ")" :: rest => some ([], rest)
  | bound + 1, lexemes =>
      (readArgument bound lexemes).bind fun first =>
        match first.2 with
        | .sign "," :: rest =>
            (readArguments bound rest).map fun more => (first.1 :: more.1, more.2)
        | .sign ")" :: rest => some ([first.1], rest)
        | _ => none

/-- Read one argument. -/
def readArgument : (bound : Nat) → List Lexeme → Option (Argument × List Lexeme)
  | 0, _ => none
  | bound + 1, .sign "*" :: rest =>
      (readExpression bound rest).map fun value => (.spread value.1, value.2)
  | bound + 1, .sign "**" :: rest =>
      (readExpression bound rest).map fun value => (.spreadNamed value.1, value.2)
  | bound + 1, .name name :: .sign "=" :: rest =>
      (readExpression bound rest).map fun value => (.named name value.1, value.2)
  | bound + 1, lexemes =>
      (readExpression bound lexemes).map fun value => (.single value.1, value.2)

end

/-- A bound that reading so many lexemes does not reach: at most sixteen calls lie between two
of them. -/
def readingBound (count : Nat) : Nat :=
  16 * (count + 2)

/-- Read an expression at the start of a tag. -/
def takeExpression? (lexemes : List Lexeme) : Option (Expression × List Lexeme) :=
  readExpression (readingBound lexemes.length) lexemes

/-- Read an expression that may be followed by a condition of a loop. -/
def takeUnconditional? (lexemes : List Lexeme) : Option (Expression × List Lexeme) :=
  readLevel (readingBound lexemes.length) 0 lexemes

/-- Read an expression, or several with commas as a list. -/
def takeTuple? (lexemes : List Lexeme) (read? : List Lexeme → Option (Expression × List Lexeme)) :
    Option (Expression × List Lexeme) :=
  (read? lexemes).bind fun first =>
    match first.2 with
    | .sign "," :: rest =>
        (more (rest.length + 1) rest).map fun elements =>
          (.list (first.1 :: elements.1), elements.2)
    | _ => some first
where
  /-- The elements after a comma. -/
  more : Nat → List Lexeme → Option (List Expression × List Lexeme)
    | 0, _ => none
    | _, [] => some ([], [])
    | limit + 1, lexemes =>
        (read? lexemes).bind fun element =>
          match element.2 with
          | .sign "," :: rest =>
              (more limit rest).map fun rest => (element.1 :: rest.1, rest.2)
          | rest => some ([element.1], rest)

/-- Read an expression that takes up all lexemes. -/
def wholeExpression? (lexemes : List Lexeme) : Option Expression :=
  match takeExpression? lexemes with
  | some (expression, []) => some expression
  | _ => none

/-- The names that cannot be assigned to. -/
def isReserved (name : String) : Bool :=
  (constantNamed? name).isSome || name = "loop" || name = "self"

/-- Read one target of an assignment; `limit` bounds the nesting. -/
def takeTarget : (limit : Nat) → List Lexeme → Option (Target × List Lexeme)
  | 0, _ => none
  | limit + 1, .sign "(" :: rest =>
      match takeTargets limit rest with
      | some (target, .sign ")" :: rest) => some (target, rest)
      | _ => none
  | _, .name owner :: .sign "." :: .name name :: rest => some (.member owner name, rest)
  | _, .name name :: rest => if isReserved name then none else some (.name name, rest)
  | _, _ => none
where
  /-- Read targets with commas between them. -/
  takeTargets : (limit : Nat) → List Lexeme → Option (Target × List Lexeme)
    | 0, _ => none
    | limit + 1, lexemes =>
        (takeTarget limit lexemes).bind fun first =>
          match first.2 with
          | .sign "," :: rest =>
              (takeTargets limit rest).map fun more =>
                match more.1 with
                | .all targets => (.all (first.1 :: targets), more.2)
                | target => (.all [first.1, target], more.2)
          | _ => some first

/-- Read the targets of an assignment. -/
def takeAssigned? (lexemes : List Lexeme) : Option (Target × List Lexeme) :=
  takeTarget.takeTargets (2 * lexemes.length + 2) lexemes

/-- Read the filters of a block; the first stands without a bar. -/
def readBlockFilter? (lexemes : List Lexeme) : Option Expression :=
  match lexemes with
  | .name name :: rest =>
      let bound := readingBound lexemes.length
      let first := match rest with
        | .sign "(" :: inside => readArguments bound inside
        | _ => some ([], rest)
      first.bind fun arguments =>
        match readFilters bound (.filter none name arguments.1) arguments.2 with
        | some (filter, []) => some filter
        | _ => none
  | _ => none

/-- Read the parameters of a macro up to and with the closing parenthesis. -/
def readParameters : (limit : Nat) → List Lexeme → Option (List Parameter × List Lexeme)
  | 0, _ => none
  | _, .sign ")" :: rest => some ([], rest)
  | limit + 1, .name name :: rest =>
      let parameter : Option (Parameter × List Lexeme) := match rest with
        | .sign "=" :: rest =>
            (takeExpression? rest).map fun value => (Parameter.mk name (some value.1), value.2)
        | _ => some (Parameter.mk name none, rest)
      parameter.bind fun parameter =>
        match parameter.2 with
        | .sign "," :: rest =>
            (readParameters limit rest).map fun more => (parameter.1 :: more.1, more.2)
        | .sign ")" :: rest => some ([parameter.1], rest)
        | _ => none
  | _, _ => none

/-- Read the assignments of a scope. -/
def readAssignments : (limit : Nat) → List Lexeme → Option (List (Target × Expression))
  | 0, _ => none
  | _, [] => some []
  | limit + 1, lexemes =>
      (takeTarget (lexemes.length + 1) lexemes).bind fun target =>
        match target.2 with
        | .sign "=" :: rest =>
            (takeExpression? rest).bind fun value =>
              match value.2 with
              | .sign "," :: rest =>
                  (readAssignments limit rest).map ((target.1, value.1) :: ·)
              | [] => some [(target.1, value.1)]
              | _ => none
        | _ => none

/-- Read the names that are taken from another template. -/
def readNames : (limit : Nat) → List Lexeme → Option (List (String × String))
  | 0, _ => none
  | _, [] => some []
  | _, [.name "with", .name "context"] => some []
  | _, [.name "without", .name "context"] => some []
  | limit + 1, .name name :: .name "as" :: .name other :: rest =>
      match rest with
      | .sign "," :: rest => (readNames limit rest).map ((name, other) :: ·)
      | _ => (readNames limit rest).map ((name, other) :: ·)
  | limit + 1, .name name :: rest =>
      match rest with
      | .sign "," :: rest => (readNames limit rest).map ((name, name) :: ·)
      | _ => (readNames limit rest).map ((name, name) :: ·)
  | _, _ => none

/-- The words after an included template: whether it may be missing. -/
def readIncludeWords : List Lexeme → Option Bool
  | [] => some false
  | [.name "with", .name "context"] | [.name "without", .name "context"] => some false
  | .name "ignore" :: .name "missing" :: rest =>
      (readIncludeWords rest).map fun _ => true
  | _ => none

/-- Read a statement that opens no block. -/
def readSingle? (word : String) (rest : List Lexeme) : Option Node :=
  match word with
  | "include" =>
      (takeExpression? rest).bind fun template =>
        (readIncludeWords template.2).map fun mayBeMissing => .include template.1 mayBeMissing
  | "import" =>
      (takeExpression? rest).bind fun template =>
        match template.2 with
        | .name "as" :: .name name :: rest =>
            if (readIncludeWords rest).isSome then some (.import template.1 (.name name)) else none
        | _ => none
  | "from" =>
      (takeExpression? rest).bind fun template =>
        match template.2 with
        | .name "import" :: rest =>
            (readNames (rest.length + 1) rest).map fun names => .importNames template.1 names
        | _ => none
  | "extends" => (wholeExpression? rest).map Node.extends
  | "do" => (wholeExpression? rest).map Node.run
  | _ => none

/-- Read the source of a loop, its condition, and whether it may call itself. -/
def readLoopHead? (lexemes : List Lexeme) :
    Option (Target × Expression × Option Expression × Bool) :=
  (takeAssigned? lexemes).bind fun target =>
    match target.2 with
    | .name "in" :: rest =>
        (takeTuple? rest takeUnconditional?).bind fun source =>
          let condition : Option (Option Expression × List Lexeme) := match source.2 with
            | .name "if" :: rest =>
                (takeExpression? rest).map fun condition => (some condition.1, condition.2)
            | rest => some (none, rest)
          condition.bind fun condition =>
            match condition.2 with
            | [] => some (target.1, source.1, condition.1, false)
            | [.name "recursive"] => some (target.1, source.1, condition.1, true)
            | _ => none
    | _ => none

mutual

/-- Read nodes up to a statement with one of some words; the result has the nodes, the statement,
and what is left. Without words, the nodes go to the end. -/
def readNodes :
    (bound : Nat) → (stops : List String) → List Segment →
      Option (List Node × Option (String × List Lexeme) × List Segment)
  | 0, _, _ => none
  | _, stops, [] => if stops.isEmpty then some ([], none, []) else none
  | bound + 1, stops, segment :: rest =>
      match segment with
      | .text content =>
          (readNodes bound stops rest).map fun found =>
            (.text (String.ofList content) :: found.1, found.2)
      | .output lexemes =>
          (wholeExpression? lexemes).bind fun value =>
            (readNodes bound stops rest).map fun found => (.print value :: found.1, found.2)
      | .statement (.name word :: lexemes) =>
          if stops.contains word then some ([], some (word, lexemes), rest)
          else
            (readStatement bound word lexemes rest).bind fun node =>
              (readNodes bound stops node.2).map fun found => (node.1 :: found.1, found.2)
      | .statement _ => none

/-- Read a statement with its block, if it opens one. -/
def readStatement :
    (bound : Nat) → (word : String) → List Lexeme → List Segment → Option (Node × List Segment)
  | 0, _, _, _ => none
  | bound + 1, word, lexemes, rest =>
      match word with
      | "if" =>
          (wholeExpression? lexemes).bind fun condition =>
            (readArms bound condition rest).map fun arms => (.branch arms.1, arms.2)
      | "for" =>
          (readLoopHead? lexemes).bind fun (target, source, condition, isRecursive) =>
            (readNodes bound ["else", "endfor"] rest).bind fun body =>
              match body.2 with
              | (some ("else", []), rest) =>
                  (readBlock bound "endfor" rest).map fun otherwise =>
                    (.loop target source condition isRecursive body.1 otherwise.1, otherwise.2)
              | (some ("endfor", []), rest) =>
                  some (.loop target source condition isRecursive body.1 [], rest)
              | _ => none
      | "with" =>
          (readAssignments (lexemes.length + 1) lexemes).bind fun assignments =>
            (readBlock bound "endwith" rest).map fun body => (.scope assignments body.1, body.2)
      | "set" =>
          (takeAssigned? lexemes).bind fun target =>
            match target.2 with
            | .sign "=" :: value =>
                match takeTuple? value takeExpression? with
                | some (value, []) => some (.assign target.1 value, rest)
                | _ => none
            | [] =>
                (readBlock bound "endset" rest).map fun body =>
                  (.capture target.1 none body.1, body.2)
            | .sign "|" :: filter =>
                (readBlockFilter? filter).bind fun filter =>
                  (readBlock bound "endset" rest).map fun body =>
                    (.capture target.1 (some filter) body.1, body.2)
            | _ => none
      | "filter" =>
          (readBlockFilter? lexemes).bind fun filter =>
            (readBlock bound "endfilter" rest).map fun body => (.filtered filter body.1, body.2)
      | "autoescape" =>
          (wholeExpression? lexemes).bind fun mode =>
            (readBlock bound "endautoescape" rest).map fun body => (.escaping mode body.1, body.2)
      | "block" =>
          match lexemes with
          | [.name name] =>
              (readNodes bound ["endblock"] rest).bind fun body =>
                match body.2 with
                | (some (_, []), rest) => some (.block name body.1, rest)
                | (some (_, [.name other]), rest) =>
                    if other = name then some (.block name body.1, rest) else none
                | _ => none
          | _ => none
      | "macro" =>
          match lexemes with
          | .name name :: .sign "(" :: parameters =>
              match readParameters (parameters.length + 1) parameters with
              | some (parameters, []) =>
                  (readNodes bound ["endmacro"] rest).bind fun body =>
                    match body.2 with
                    | (some (_, []), rest) => some (.routine name parameters body.1, rest)
                    | (some (_, [.name other]), rest) =>
                        if other = name then some (.routine name parameters body.1, rest) else none
                    | _ => none
              | _ => none
          | _ => none
      | "call" =>
          let head := match lexemes with
            | .sign "(" :: parameters => readParameters (parameters.length + 1) parameters
            | _ => some ([], lexemes)
          head.bind fun head =>
            (wholeExpression? head.2).bind fun call =>
              match call with
              | .call _ _ =>
                  (readBlock bound "endcall" rest).map fun body =>
                    (.callWith call head.1 body.1, body.2)
              | _ => none
      | word => (readSingle? word lexemes).map fun node => (node, rest)

/-- Read the arms of a condition. -/
def readArms :
    (bound : Nat) → (condition : Expression) → List Segment →
      Option (List (Option Expression × List Node) × List Segment)
  | 0, _, _ => none
  | bound + 1, condition, segments =>
      (readNodes bound ["elif", "else", "endif"] segments).bind fun body =>
        let arm := (some condition, body.1)
        match body.2 with
        | (some ("elif", next), rest) =>
            (wholeExpression? next).bind fun next =>
              (readArms bound next rest).map fun more => (arm :: more.1, more.2)
        | (some ("else", []), rest) =>
            (readBlock bound "endif" rest).map fun otherwise =>
              ([arm, (none, otherwise.1)], otherwise.2)
        | (some ("endif", []), rest) => some ([arm], rest)
        | _ => none

/-- Read nodes up to a statement that is one word. -/
def readBlock :
    (bound : Nat) → (stop : String) → List Segment → Option (List Node × List Segment)
  | 0, _, _ => none
  | bound + 1, stop, segments =>
      (readNodes bound [stop] segments).bind fun body =>
        match body.2 with
        | (some (_, []), rest) => some (body.1, rest)
        | _ => none

end

/-- Read a template. -/
def readTemplate? (source : String) : Option (List Node) :=
  (segmentsOf source).bind fun segments =>
    (readNodes (4 * (segments.length + 1)) [] segments).map Prod.fst

end Jinja
end MailPress
