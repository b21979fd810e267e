import MailPress.Scss.Calculation
import MailPress.Scss.Environment
import MailPress.Scss.Statement.Reader

/-!
# Evaluating style sheets

Statements are carried out one after another, in an environment that they
change. Rules inside rules come out behind the rule around them, and media rules
come out of all rules.

A style sheet may compute without end. Evaluation takes a bound on how deeply
statements and expressions may be nested while they are carried out, and fails
where it is reached.
-/

namespace MailPress
namespace Scss

/-- A computation that fails unless there is a value. -/
def need {α : Type} (value : Option α) : Evaluation α :=
  StateT.lift value

/-- The parts of a block as parts of the output: its own declarations in a rule with the selectors
around it, and all else as it is. -/
def wrapOwn (parents : Option (List NestedSelector)) (nodes : List Node) : List Node :=
  match parents with
  | none => nodes
  | some selectors =>
      let own := nodes.filter Node.isOwn
      let others := nodes.filter fun node => !node.isOwn
      if own.isEmpty then others else .rule selectors own false :: others

/-- Put the stretches of parts that stay inside a media rule into it. -/
def splitMedia (query : String) (leaves : Bool) : (inside : List Node) → List Node → List Node
  | [], [] => []
  | inside, [] => [.media query inside false leaves]
  | inside, node :: nodes =>
      if node.leavesMedia then
        (if inside.isEmpty then [] else [.media query inside false leaves]) ++
          node :: splitMedia query leaves [] nodes
      else splitMedia query leaves (inside ++ [node]) nodes

/-- Whether a value prints as nothing. -/
def isBlankText (text : String) : Bool :=
  text.toList.all Text.isBlank

/-- The name of an at-rule without the part that a maker puts in front. -/
def unprefixed (name : String) : String :=
  match name.toList with
  | '-' :: rest => String.ofList ((rest.dropWhile (· != '-')).drop 1)
  | _ => name

/-- Whether an operand keeps the slash of a quotient. -/
def keepsSlash : Expression → Bool
  | .literal (.number _) => true
  | .binary .divide left right => keepsSlash left && keepsSlash right
  | .call [.fixed name] _ => ["calc", "min", "max", "clamp"].contains name
  | _ => false

/-- The operator of a calculation that an operator stands for. -/
def calculationSign? : BinaryOperator → Option CalculationSign
  | .plus => some .plus
  | .minus => some .minus
  | .times => some .times
  | .divide => some .divide
  | _ => none

/-- The keyword that tells whether something with a name exists. -/
def existsFunction? (environment : Environment) (function name : String) : Option Bool :=
  match function with
  | "variable-exists" => some (environment.lookup? name).isSome
  | "global-variable-exists" => some (environment.outermost.lookup name).isSome
  | "mixin-exists" => some (environment.mixins.lookup name).isSome
  | "function-exists" =>
      some ((environment.functions.lookup name).isSome || (builtins.lookup name).isSome)
  | "content-exists" => some environment.content.isSome
  | _ => none

/-- The values of a counting loop. -/
def countValues (first last : Int) (withLast : Bool) : List Int :=
  let size := (last - first).natAbs + (if withLast then 1 else 0)
  (List.range size).map fun (step : Nat) =>
    if first ≤ last then first + (step : Int) else first - (step : Int)

/-- The stem of an address of a module: the name it is used under. -/
def moduleName (address : String) : String :=
  let last := ((Text.splitAtEach (fun c => c == '/' || c == ':') address.toList).getLast?).getD []
  let name := last.takeWhile (· != '.')
  String.ofList (match name with
    | '_' :: rest => rest
    | other => other)

variable (library : Library)

mutual

/-- The text of pieces, their holes filled. -/
def evaluatePieces : (bound : Nat) → Position → List Piece → Evaluation String
  | 0, _, _ => need none
  | _, _, [] => pure ""
  | bound + 1, position, .fixed content :: pieces => do
      return content ++ (← evaluatePieces bound position pieces)
  | bound + 1, position, .hole inner :: pieces => do
      let value ← evaluate bound position inner
      let text ← need value.inline?
      return text ++ (← evaluatePieces bound position pieces)

/-- The value of an expression. -/
def evaluate : (bound : Nat) → Position → Expression → Evaluation Value
  | 0, _, _ => need none
  | bound + 1, position, expression =>
      match expression with
      | .literal value => pure value
      | .text pieces quoted => do return .text (← evaluatePieces bound position pieces) quoted
      | .variable name => do need ((← get).lookup? name)
      | .parent =>
          match position.parents with
          | none => pure .null
          | some selectors =>
              pure (.list (selectors.map fun selector => .word selector.write) .comma false)
      | .list elements separator bracketed => do
          return .list (← evaluateAll bound position elements) separator bracketed
      | .map entries => do
          return .map (← evaluateEntries bound position entries)
      | .group inner => do return (← evaluate bound position inner).computed
      | .unary operator operand => do
          need (applyUnary? operator (← evaluate bound position operand))
      | .binary .either left right => do
          let first ← evaluate bound position left
          if first.isTrue then return first else evaluate bound position right
      | .binary .both left right => do
          let first ← evaluate bound position left
          if first.isTrue then evaluate bound position right else return first
      | .binary operator left right => do
          let first ← evaluate bound position left
          let second ← evaluate bound position right
          let result ← need (applyOperator? operator first second)
          match operator, result with
          | .divide, .number quotient =>
              if keepsSlash left && keepsSlash right then
                let above ← need first.css?
                let below ← need second.css?
                return .number { quotient with spelling := some (above ++ "/" ++ below) }
              else return result
          | _, _ => return result
      | .call name arguments => do
          let name ← evaluatePieces bound position name
          evaluateCall bound position name arguments

/-- The values of some expressions. -/
def evaluateAll : (bound : Nat) → Position → List Expression → Evaluation (List Value)
  | 0, _, _ => need none
  | _, _, [] => pure []
  | bound + 1, position, expression :: expressions => do
      let value ← evaluate bound position expression
      return value :: (← evaluateAll bound position expressions)

/-- The entries of a map; two equal keys are refused. -/
def evaluateEntries :
    (bound : Nat) → Position → List (Expression × Expression) →
      Evaluation (List (Value × Value))
  | 0, _, _ => need none
  | _, _, [] => pure []
  | bound + 1, position, (key, value) :: entries => do
      let key ← evaluate bound position key
      let value ← evaluate bound position value
      let rest ← evaluateEntries bound position entries
      if (lookupKey? key rest).isSome then need none else return (key, value.computed) :: rest

/-- The values of arguments, by position and by name. -/
def evaluateArguments :
    (bound : Nat) → Position → List Argument →
      Evaluation (List Value × List (String × Value))
  | 0, _, _ => need none
  | _, _, [] => pure ([], [])
  | bound + 1, position, .one name value :: arguments => do
      let value := (← evaluate bound position value).computed
      let rest ← evaluateArguments bound position arguments
      match name with
      | some name => return (rest.1, (name, value) :: rest.2)
      | none => return (value :: rest.1, rest.2)
  | bound + 1, position, .spread value :: arguments => do
      let value ← evaluate bound position value
      let rest ← evaluateArguments bound position arguments
      match value with
      | .map entries =>
          let named ← need (entries.mapM fun entry =>
            (Value.text? entry.1).map fun text => (plainName text.1, entry.2))
          return (rest.1, named ++ rest.2)
      | other => return (other.elements ++ rest.1, rest.2)

/-- The value of a function applied to arguments. -/
def evaluateCall : (bound : Nat) → Position → String → List Argument → Evaluation Value
  | 0, _, _, _ => need none
  | bound + 1, position, name, arguments => do
      let environment ← get
      let (module, member) := environment.resolveName (plainName name)
      match environment.functions.lookup member with
      | some definition =>
          if module.isNone then
            let (positional, named) ← evaluateArguments bound position arguments
            return ← callDefined bound definition positional named
          else need none
      | none =>
      let known := match module with
        | some module => memberName module member
        | none => member
      match known, arguments with
      | "if", [.one _ condition, .one _ first, .one _ second] => do
          let chosen := if (← evaluate bound position condition).isTrue then first else second
          return (← evaluate bound position chosen).computed
      | "calc", [.one none argument] => do
          need (← evaluateCalculation bound position argument).value?
      | _, _ =>
          if ["min", "max", "clamp"].contains known && module.isNone then
            match (evaluateArguments bound position arguments).run environment with
            | some ((positional, named), after) =>
                set after
                match (builtins.lookup known).bind fun function =>
                    function.call? positional named with
                | some value => return value
                | none => need (plainCall? name positional)
            | none => do
                let texts ← evaluateCalculations bound position arguments
                return .word (name ++ "(" ++ String.intercalate ", " texts ++ ")")
          else
            let (positional, named) ← evaluateArguments bound position arguments
            match existsFunction? environment known
                ((positional.head?.bind Value.text?).elim "" fun text => plainName text.1) with
            | some holds => return .truth holds
            | none =>
                match builtins.lookup known with
                | some function => need (function.call? positional named)
                | none =>
                    if module.isNone && named.isEmpty then need (plainCall? name positional)
                    else need none

/-- The texts of arguments that are calculations. -/
def evaluateCalculations : (bound : Nat) → Position → List Argument → Evaluation (List String)
  | 0, _, _ => need none
  | _, _, [] => pure []
  | bound + 1, position, .one none argument :: arguments => do
      let calculation ← evaluateCalculation bound position argument
      let text ← need calculation.write?
      return text :: (← evaluateCalculations bound position arguments)
  | _, _, _ => need none

/-- What a calculation comes to. -/
def evaluateCalculation : (bound : Nat) → Position → Expression → Evaluation Calculation
  | 0, _, _ => need none
  | bound + 1, position, expression =>
      match expression with
      | .group inner => evaluateCalculation bound position inner
      | .binary operator left right => do
          let sign ← need (calculationSign? operator)
          let first ← evaluateCalculation bound position left
          let second ← evaluateCalculation bound position right
          return first.join sign second
      | other => do need (Calculation.ofValue? (← evaluate bound position other))

/-- Set the parameters of a definition to arguments, in the scope that was just entered. -/
def bindParameters :
    (bound : Nat) → List Parameter → (rest : Option String) → List Value →
      List (String × Value) → Evaluation Unit
  | 0, _, _, _, _ => need none
  | _, [], none, positional, named =>
      if positional.isEmpty && named.isEmpty then pure () else need none
  | _, [], some rest, positional, _ =>
      modify fun environment => environment.define rest (.list positional .comma false)
  | bound + 1, parameter :: parameters, rest, value :: positional, named => do
      modify fun environment => environment.define parameter.name value
      bindParameters bound parameters rest positional named
  | bound + 1, parameter :: parameters, rest, [], named => do
      let value ← match named.lookup parameter.name with
        | some value => pure value
        | none => do
            let fallback ← need parameter.fallback
            evaluate bound {} fallback
      modify fun environment => environment.define parameter.name value.computed
      bindParameters bound parameters rest []
        (named.filter fun argument => argument.1 != parameter.name)

/-- The value of a function of the style sheet. -/
def callDefined :
    (bound : Nat) → Definition → List Value → List (String × Value) → Evaluation Value
  | 0, _, _, _ => need none
  | bound + 1, definition, positional, named => do
      let saved := (← get).scopes
      modify fun environment => { environment with scopes := [⟨false, []⟩] }
      bindParameters bound definition.parameters.single definition.parameters.rest positional named
      let outcome ← runAll bound {} definition.body
      modify fun environment => { environment with scopes := saved }
      return (← need outcome.returned).computed

/-- Carry out statements up to one that returns. -/
def runAll : (bound : Nat) → Position → List Statement → Evaluation Outcome
  | 0, _, _ => need none
  | _, _, [] => pure {}
  | bound + 1, position, statement :: statements => do
      let first ← run bound position statement
      match first.returned with
      | some _ => return first
      | none =>
          let rest ← runAll bound position statements
          return { rest with nodes := first.nodes ++ rest.nodes }

/-- Carry out statements in a scope of their own. -/
def runInside : (bound : Nat) → (steers : Bool) → Position → List Statement → Evaluation Outcome
  | 0, _, _, _ => need none
  | bound + 1, steers, position, statements => do
      modify fun environment => environment.enter steers
      let outcome ← runAll bound position statements
      modify Environment.leave
      return outcome

/-- Carry out the body of a loop for each of some values of its variables. -/
def runEach :
    (bound : Nat) → Position → List String → List Value → List Statement → Evaluation Outcome
  | 0, _, _, _, _ => need none
  | _, _, _, [], _ => pure {}
  | bound + 1, position, names, value :: values, body => do
      modify fun environment => environment.enter true
      let parts := match names with
        | [_] => [value]
        | _ => value.elements
      modify fun environment =>
        (names.zipIdx).foldl
          (fun environment (name, place) => environment.define name ((parts[place]?).getD .null))
          environment
      let first ← runAll bound position body
      modify Environment.leave
      match first.returned with
      | some _ => return first
      | none =>
          let rest ← runEach bound position names values body
          return { rest with nodes := first.nodes ++ rest.nodes }

/-- Carry out the body of a loop as long as its condition holds. -/
def runWhile : (bound : Nat) → Position → Expression → List Statement → Evaluation Outcome
  | 0, _, _, _ => need none
  | bound + 1, position, condition, body => do
      if (← evaluate bound position condition).isTrue then
        let first ← runInside bound true position body
        match first.returned with
        | some _ => return first
        | none =>
            let rest ← runWhile bound position condition body
            return { rest with nodes := first.nodes ++ rest.nodes }
      else return {}

/-- Carry out the first of some alternatives whose condition holds. -/
def runBranch :
    (bound : Nat) → Position → List (Option Expression × List Statement) → Evaluation Outcome
  | 0, _, _ => need none
  | _, _, [] => pure {}
  | bound + 1, position, (none, body) :: _ => runInside bound true position body
  | bound + 1, position, (some condition, body) :: arms => do
      if (← evaluate bound position condition).isTrue then runInside bound true position body
      else runBranch bound position arms

/-- Put a mixin at a place. -/
def runMixin :
    (bound : Nat) → Position → Definition → List Value → List (String × Value) →
      Option (Parameters × List Statement) → Evaluation Outcome
  | 0, _, _, _, _, _ => need none
  | bound + 1, position, definition, positional, named, content => do
      let environment ← get
      let block := content.map fun content =>
        Content.block content.1 content.2 environment.scopes environment.content
      set { environment with scopes := [⟨false, []⟩], content := block }
      bindParameters bound definition.parameters.single definition.parameters.rest positional named
      let outcome ← runAll bound position definition.body
      modify fun after =>
        { after with
          scopes := match after.content with
            | some (.block _ _ scopes _) => scopes
            | none => environment.scopes
          content := environment.content }
      return outcome

/-- Put the content of the mixin around a place there. -/
def runContent :
    (bound : Nat) → Position → List Value → List (String × Value) → Evaluation Outcome
  | 0, _, _, _ => need none
  | bound + 1, position, positional, named => do
      let environment ← get
      match environment.content with
      | none => return {}
      | some (.block parameters body scopes outer) =>
          set { environment with scopes := ⟨false, []⟩ :: scopes, content := outer }
          bindParameters bound parameters.single parameters.rest positional named
          let outcome ← runAll bound position body
          modify fun after =>
            { after with
              content := some (.block parameters body (after.scopes.drop 1) outer)
              scopes := environment.scopes }
          return outcome

/-- Put another style sheet at a place. -/
def runFile : (bound : Nat) → Position → String → Evaluation Outcome
  | 0, _, _ => need none
  | bound + 1, position, address => do
      let (path, source) ← need (library (position.files.headD "") address)
      if position.files.contains path then need none
      else
        let statements ← need (readStatements? source)
        runAll bound { position with files := path :: position.files } statements

/-- Put other style sheets at a place. -/
def runFiles : (bound : Nat) → Position → List String → Evaluation Outcome
  | 0, _, _ => need none
  | _, _, [] => pure {}
  | bound + 1, position, address :: addresses => do
      let first ← runFile bound position address
      let rest ← runFiles bound position addresses
      return { rest with nodes := first.nodes ++ rest.nodes }

/-- The declaration of a value, and those below its name. -/
def runDeclaration :
    (bound : Nat) → Position → List Piece → Option Expression → List Statement →
      Evaluation Outcome
  | 0, _, _, _, _ => need none
  | bound + 1, position, name, value, body => do
      if !position.holdsDeclarations then need none
      let name := position.stem ++ (← evaluatePieces bound position name)
      let own ← match value with
        | none => pure []
        | some expression => do
            let value ← evaluate bound position expression
            let text ← need value.css?
            pure (if isBlankText text then [] else [Node.declaration name text])
      let below ← runInside bound false { position with stem := name ++ "-" } body
      return { below with nodes := own ++ below.nodes }

/-- Carry out a rule. -/
def runRule : (bound : Nat) → Position → List Piece → List Statement → Evaluation Outcome
  | 0, _, _, _ => need none
  | bound + 1, position, selectors, body => do
      let text ← evaluatePieces bound position selectors
      if position.inAnimation then
        let outcome ← runInside bound false { position with holdsDeclarations := true } body
        let moments := (Css.cutAtTopLevel ',' text.toList).map Text.trim
        return { outcome with
          nodes := [.frame (String.ofList ([',', ' '].intercalate moments)) outcome.nodes] }
      else
        let written ← need (readSelectors? text)
        let nested ← need (nestSelectors? position.parents written)
        let inside := { position with parents := some nested, holdsDeclarations := true }
        let outcome ← runInside bound false inside body
        let nodes := wrapOwn (some nested) outcome.nodes
        return { outcome with nodes := if position.parents.isNone then markEnd nodes else nodes }

/-- Carry out a media rule. -/
def runMedia : (bound : Nat) → Position → List Piece → List Statement → Evaluation Outcome
  | 0, _, _, _ => need none
  | bound + 1, position, query, body => do
      let written := readQueries (← evaluatePieces bound position query)
      let merged := position.media.bind fun outer => mergeQueries? outer written
      if merged = some [] then return {}
      let queries := merged.getD written
      let outcome ← runInside bound false { position with media := some queries } body
      let nodes := wrapOwn position.parents outcome.nodes
      return { outcome with
        nodes := splitMedia (writeQueries queries) merged.isSome [] nodes }

/-- Carry out an at-rule other than a media rule. -/
def runAtRule :
    (bound : Nat) → Position → List Piece → List Piece → Option (List Statement) →
      Evaluation Outcome
  | 0, _, _, _, _ => need none
  | bound + 1, position, name, prelude, body => do
      let name ← evaluatePieces bound position name
      let prelude ← evaluatePieces bound position prelude
      match body with
      | none => return { nodes := [.atRule name prelude none false] }
      | some statements =>
          let isAnimation := name = "keyframes" || unprefixed name = "keyframes"
          let parents := if isAnimation || name = "font-face" then none else position.parents
          let inside := { position with
            parents := parents, inAnimation := isAnimation, holdsDeclarations := true }
          let outcome ← runInside bound false inside statements
          return { outcome with
            nodes := [.atRule name prelude (some (wrapOwn parents outcome.nodes)) false] }

/-- Carry out a statement. -/
def run : (bound : Nat) → Position → Statement → Evaluation Outcome
  | 0, _, _ => need none
  | bound + 1, position, statement => do
      match statement with
      | .comment text column =>
          return { nodes := [.comment (← evaluatePieces bound position text) column] }
      | .assign name value ifUnset outermost => do
          let environment ← get
          let (_, name) := environment.resolveName name
          let old := if outermost then environment.outermost.lookup name
            else environment.lookup? name
          if ifUnset && old.any fun value => !(value matches .null) then return {}
          let value := (← evaluate bound position value).computed
          modify fun environment =>
            if outermost then environment.setOutermost name value
            else environment.assign name value
          return {}
      | .declare name value body => runDeclaration bound position name value body
      | .custom name value => do
          if !position.holdsDeclarations then need none
          let name ← evaluatePieces bound position name
          return { nodes := [.declaration name (← evaluatePieces bound position value)] }
      | .rule selectors body => runRule bound position selectors body
      | .media query body => runMedia bound position query body
      | .atRule name prelude body => runAtRule bound position name prelude body
      | .atRoot selectors body => do
          match selectors with
          | none =>
              let outcome ← runInside bound false { position with parents := none } body
              return outcome
          | some selectors =>
              let written ← need (readSelectors? (← evaluatePieces bound position selectors))
              let nested := written.flatMap fun selector =>
                if selector.parts.any SelectorPart.isParent then
                  (position.parents.getD []).map selector.below
                else [selector]
              let inside := { position with parents := some nested, holdsDeclarations := true }
              let outcome ← runInside bound false inside body
              return { outcome with nodes := wrapOwn (some nested) outcome.nodes }
      | .mixin name parameters body => do
          modify fun environment =>
            { environment with mixins := (name, ⟨parameters, body⟩) :: environment.mixins }
          return {}
      | .function name parameters body => do
          modify fun environment =>
            { environment with functions := (name, ⟨parameters, body⟩) :: environment.functions }
          return {}
      | .include name arguments content => do
          let (_, name) := (← get).resolveName name
          let definition ← need ((← get).mixins.lookup name)
          let (positional, named) ← evaluateArguments bound position arguments
          runMixin bound position definition positional named content
      | .content arguments => do
          let (positional, named) ← evaluateArguments bound position arguments
          runContent bound position positional named
      | .return value => do
          return { returned := some (← evaluate bound position value) }
      | .branch arms => runBranch bound position arms
      | .each names list body => do
          let list ← evaluate bound position list
          runEach bound position names list.elements body
      | .count name first last withLast body => do
          let first ← need (← evaluate bound position first).integer?
          let last ← need (← evaluate bound position last).integer?
          let values := (countValues first last withLast).map fun (value : Int) => ofRational value
          runEach bound position [name] values body
      | .while condition body => runWhile bound position condition body
      | .import addresses => runFiles bound position addresses
      | .plainImport text => do
          return { nodes := [.atRule "import" (← evaluatePieces bound position text) none false] }
      | .extend target mayBeAbsent => do
          let parents ← need position.parents
          let targets ← need (readSelectors? (← evaluatePieces bound position target))
          let extensions := targets.filterMap fun selector =>
            match selector.parts with
            | [.compound (simple :: _)] => some (⟨simple, parents, mayBeAbsent⟩ : Extension)
            | _ => none
          modify fun environment =>
            { environment with extensions := environment.extensions ++ extensions }
          return {}
      | .use address space => do
          let space := space.getD (moduleName address)
          if Text.hasStart "sass:" address then
            modify fun environment =>
              { environment with
                modules := (space, some (moduleName address)) :: environment.modules }
            return {}
          else
            modify fun environment =>
              { environment with modules := (space, none) :: environment.modules }
            runFile bound position address
      | .message _ => return {}
      | .refuse _ => need none

end

/-- How deeply an evaluation may be nested. -/
def evaluationBound : Nat := 20000

/-- Whether every extension that must find its target does. -/
def areFound (extensions : List Extension) (nodes : List Node) : Bool :=
  let selectors := selectorsOf nodes ++ extensions.flatMap Extension.extender
  extensions.all fun extension =>
    extension.mayBeAbsent ||
      selectors.any fun selector => selector.parts.any (SelectorPart.has extension.target)

/-- Put the extensions into the selectors of the output, and take placeholders out of it. -/
def applyExtensions (extensions : List Extension) (nodes : List Node) : List Node :=
  mapAll
    (fun selectors =>
      (extendSelectors extensions (extensions.length + 1) selectors).filter
        fun selector => !selector.isPlaceholder)
    nodes

/-- Compile a style sheet with a path. None when it is at fault. -/
def compile? (path source : String) : Option String := do
  let statements ← readStatements? source
  let (outcome, environment) ←
    (runAll library evaluationBound { files := [path] } statements).run {}
  if outcome.returned.isSome || !areFound environment.extensions outcome.nodes then none
  else return writeSheet (applyExtensions environment.extensions outcome.nodes)

end Scss
end MailPress
