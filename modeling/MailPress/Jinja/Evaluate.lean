import MailPress.Jinja.Filter
import MailPress.Jinja.Reader

/-!
# Rendering templates

A template is rendered node by node. Variables are looked up in scopes, innermost
first, then in the data, and then among the functions. A loop, a macro and a
block have scopes of their own.

Templates may include one another and macros may call one another, up to a limit
of depth. What is not defined prints as nothing, but has no members.
-/

namespace MailPress
namespace Jinja

/-- The variables of a scope. -/
abbrev Scope :=
  List (String × Value)

/-- What rendering remembers. -/
structure State where
  /-- The scopes, innermost first. -/
  scopes : List Scope := [[]]
  /-- The namespaces by number. -/
  spaces : List (Nat × Scope) := []
  /-- The next number of a namespace or a loop. -/
  next : Nat := 0
  /-- What the loops were last asked about. -/
  asked : List (Nat × Value) := []
  /-- Whether printed values are escaped. -/
  escapes : Bool := false
  /-- How deeply templates and macros are nested. -/
  depth : Nat := 0
  /-- How deeply loops are nested. -/
  loops : Nat := 0
  /-- The bodies of each block, the one that counts first. -/
  blocks : List (String × List (List Node)) := []
  /-- The block that is rendered, with the bodies that it replaces. -/
  current : Option (String × List (List Node)) := none
  /-- Whether blocks are left out, because they belong into another template. -/
  skipsBlocks : Bool := false

/-- What rendering finds and does not change. -/
structure Setting where
  /-- The templates by name. -/
  templates : List (String × List Node)
  /-- The data. -/
  data : Value

/-- A computation that uses and changes the state, or fails. -/
abbrev Rendering :=
  StateT State Option

/-- A computation that fails unless there is a value. -/
def need {α : Type} (value : Option α) : Rendering α :=
  StateT.lift value

/-- The functions that every template may use. -/
def functionNames : List String :=
  ["range", "dict", "namespace", "debug"]

/-- How deeply templates and macros may be nested, and what each counts for. -/
def depthLimit : Nat := 500

/-- What an included template counts for. -/
def includeCost : Nat := 10

/-- What a macro counts for. -/
def macroCost : Nat := 4

/-- Set a variable in a scope. -/
def setIn (name : String) (value : Value) : Scope → Scope
  | [] => [(name, value)]
  | entry :: rest =>
      if entry.1 = name then (name, value) :: rest else entry :: setIn name value rest

namespace State

/-- The variable with a name, in the scopes. -/
def lookup? (state : State) (name : String) : Option Value :=
  state.scopes.findSome? fun scope => scope.lookup name

/-- Set a variable of the innermost scope. -/
def define (state : State) (name : String) (value : Value) : State :=
  match state.scopes with
  | scope :: scopes => { state with scopes := setIn name value scope :: scopes }
  | [] => { state with scopes := [[(name, value)]] }

/-- The state with a new innermost scope. -/
def enter (state : State) : State :=
  { state with scopes := [] :: state.scopes }

/-- The state without its innermost scope. -/
def leave (state : State) : State :=
  { state with scopes := state.scopes.drop 1 }

/-- The variables of all scopes; inner ones hide outer ones. -/
def surroundings (state : State) : Scope :=
  state.scopes.flatten

/-- Put the blocks of a template behind those that replace them. -/
def addBlocks (state : State) (blocks : List (String × List Node)) : State :=
  { state with
    blocks := blocks.foldl
      (fun known block =>
        match known.lookup block.1 with
        | some bodies =>
            known.map fun entry =>
              if entry.1 = block.1 then (block.1, bodies ++ [block.2]) else entry
        | none => known ++ [(block.1, [block.2])])
      state.blocks }

end State

mutual

/-- The blocks in a node, outer ones first. -/
def Node.blocks : Node → List (String × List Node)
  | .block name body => (name, body) :: blocksOf body
  | .branch arms => blocksOfArms arms
  | .loop _ _ _ _ body otherwise => blocksOf body ++ blocksOf otherwise
  | .scope _ body | .capture _ _ body | .filtered _ body | .escaping _ body => blocksOf body
  | _ => []

/-- The blocks in some nodes. -/
def blocksOf : List Node → List (String × List Node)
  | [] => []
  | node :: nodes => node.blocks ++ blocksOf nodes

/-- The blocks in the arms of a condition. -/
def blocksOfArms : List (Option Expression × List Node) → List (String × List Node)
  | [] => []
  | (_, body) :: arms => blocksOf body ++ blocksOfArms arms

end

/-- The state of a loop at an element. -/
def loopState (elements : List Value) (place depth : Nat) : List (String × Value) :=
  let length := elements.length
  let number := fun (value : Nat) => Value.integer value
  [("index0", number place), ("index", number (place + 1)), ("length", number length),
    ("revindex", number (length - place)), ("revindex0", number (length - place - 1)),
    ("first", .truth (place == 0)), ("last", .truth (place + 1 == length)),
    ("depth", number (depth + 1)), ("depth0", number depth),
    ("previtem", if place = 0 then .undefined else elements.getD (place - 1) .undefined),
    ("nextitem", elements.getD (place + 1) .undefined)]

/-- The numbers of a range. -/
def rangeOf? (arguments : List Value) : Option Value := do
  let numbers ← arguments.mapM Value.integer?
  let (first, last, step) ← match numbers with
    | [last] => some (0, last, 1)
    | [first, last] => some (first, last, 1)
    | [first, last, step] => some (first, last, step)
    | _ => none
  if step = 0 then none
  else
    let span := if 0 < step then last - first else first - last
    let count := if span ≤ 0 then 0 else ((span + step.natAbs - 1) / step.natAbs).toNat
    if 100000 < count then none
    else return .list ((List.range count).map fun (place : Nat) =>
      .integer (first + step * (place : Int)))

variable (setting : Setting)

mutual

/-- The value of an expression. `inner` is the text that a filter without a value applies to. -/
def evaluate : (bound : Nat) → (inner : Value) → Expression → Rendering Value
  | 0, _, _ => need none
  | bound + 1, inner, expression =>
      match expression with
      | .constant constant =>
          pure (match constant with
            | .none => .none
            | .truth holds => .truth holds
            | .integer value => .integer value
            | .real value => .real value
            | .text content => .plain content)
      | .name name => do
          match (← get).lookup? name with
          | some value => return value
          | none =>
              match memberOf? setting.data name with
              | some .undefined | none =>
                  return if functionNames.contains name then .function name else .undefined
              | some value => return value
      | .list elements => do return .list (← evaluateAll bound inner elements)
      | .map entries => do return .ofEntries (← evaluateEntries bound inner entries)
      | .negative operand => do need (negative? (← evaluate bound inner operand))
      | .negation operand => do return .truth !(← evaluate bound inner operand).isTrue
      | .binary .either left right => do
          let first ← evaluate bound inner left
          if first.isTrue then return first else evaluate bound inner right
      | .binary .both left right => do
          let first ← evaluate bound inner left
          if first.isTrue then evaluate bound inner right else return first
      | .binary operator left right => do
          let first ← evaluate bound inner left
          let second ← evaluate bound inner right
          need (applyOperator? operator first second)
      | .choice condition ifTrue otherwise => do
          if (← evaluate bound inner condition).isTrue then evaluate bound inner ifTrue
          else
            match otherwise with
            | some otherwise => evaluate bound inner otherwise
            | none => return .undefined
      | .member owner name => do
          match ← evaluate bound inner owner with
          | .space id => return (((← get).spaces.lookup id).bind (·.lookup name)).getD .undefined
          | value => need (memberOf? value name)
      | .item owner key => do
          let owner ← evaluate bound inner owner
          let key ← evaluate bound inner key
          match owner with
          | .space id =>
              return (((← get).spaces.lookup id).bind (·.lookup key.display)).getD .undefined
          | value => need (itemOf? value key)
      | .slice owner start stop step => do
          let owner ← evaluate bound inner owner
          let start ← evaluateOption bound inner start
          let stop ← evaluateOption bound inner stop
          let step ← evaluateOption bound inner step
          need (sliceOf? owner start stop step)
      | .filter operand name arguments => do
          let value ← match operand with
            | some operand => evaluate bound inner operand
            | none => pure inner
          let arguments ← evaluateArguments bound inner arguments
          need (applyFilter? 8 name value arguments)
      | .test operand name arguments => do
          let value ← evaluate bound inner operand
          let arguments ← evaluateArguments bound inner arguments
          return .truth (← need (applyTest? name value arguments))
      | .call (.name "super") [] => do
          match (← get).current with
          | some (name, body :: rest) => do
              let saved := (← get).current
              modify fun state => { state with current := some (name, rest) }
              let text ← renderInside bound body
              modify fun state => { state with current := saved }
              return .plain text
          | _ => need none
      | .call (.member (.name "self") name) [] => do
          return .plain (← renderBlock bound name)
      | .call (.member owner name) arguments => do
          let owner ← evaluate bound inner owner
          let arguments ← evaluateArguments bound inner arguments
          callMember bound owner name arguments
      | .call callee arguments => do
          let callee ← evaluate bound inner callee
          let arguments ← evaluateArguments bound inner arguments
          callValue bound callee arguments

/-- The value of an expression that may be missing. -/
def evaluateOption : (bound : Nat) → (inner : Value) → Option Expression → Rendering Value
  | 0, _, _ => need none
  | _, _, none => pure .none
  | bound + 1, inner, some expression => evaluate bound inner expression

/-- The values of some expressions. -/
def evaluateAll : (bound : Nat) → (inner : Value) → List Expression → Rendering (List Value)
  | 0, _, _ => need none
  | _, _, [] => pure []
  | bound + 1, inner, expression :: expressions => do
      let value ← evaluate bound inner expression
      return value :: (← evaluateAll bound inner expressions)

/-- The entries of a map. -/
def evaluateEntries :
    (bound : Nat) → (inner : Value) → List (Expression × Expression) →
      Rendering (List (Value × Value))
  | 0, _, _ => need none
  | _, _, [] => pure []
  | bound + 1, inner, (key, value) :: entries => do
      let key ← evaluate bound inner key
      let value ← evaluate bound inner value
      return (key, value) :: (← evaluateEntries bound inner entries)

/-- The values of arguments. -/
def evaluateArguments : (bound : Nat) → (inner : Value) → List Argument → Rendering Arguments
  | 0, _, _ => need none
  | _, _, [] => pure .none
  | bound + 1, inner, argument :: arguments => do
      match argument with
      | .single value => do
          let value ← evaluate bound inner value
          let rest ← evaluateArguments bound inner arguments
          return { rest with positional := value :: rest.positional }
      | .named name value => do
          let value ← evaluate bound inner value
          let rest ← evaluateArguments bound inner arguments
          return { rest with named := (name, value) :: rest.named }
      | .spread value => do
          let elements ← need (← evaluate bound inner value).elements?
          let rest ← evaluateArguments bound inner arguments
          return { rest with positional := elements ++ rest.positional }
      | .spreadNamed value => do
          match ← evaluate bound inner value with
          | .map entries => do
              let rest ← evaluateArguments bound inner arguments
              let named := entries.map fun entry => (entry.1.display, entry.2)
              return { rest with named := named ++ rest.named }
          | _ => need none

/-- Call a member of a value. -/
def callMember : (bound : Nat) → Value → String → Arguments → Rendering Value
  | 0, _, _, _ => need none
  | bound + 1, owner, name, arguments => do
      match owner, name with
      | .loop _ state _, "cycle" =>
          let place := (((state.lookup "index0").bind Value.integer?).getD 0).toNat
          let values := arguments.positional
          if values.isEmpty then need none
          else return values.getD (place % values.length) .undefined
      | .loop id _ _, "changed" => do
          let now := Value.list arguments.positional
          let before := (← get).asked.lookup id
          modify fun state =>
            { state with asked := (id, now) :: state.asked.filter fun entry => entry.1 != id }
          return .truth (!before.any now.same)
      | .map entries, _ =>
          match Value.lookupKey? (.plain name) entries with
          | some callee => callValue bound callee arguments
          | none => need none
      | _, _ => need none

/-- Call a value. -/
def callValue : (bound : Nat) → Value → Arguments → Rendering Value
  | 0, _, _ => need none
  | bound + 1, callee, arguments => do
      match callee with
      | .function "range" => need (rangeOf? arguments.positional)
      | .function "dict" =>
          let start := match arguments.positional with
            | .map entries :: _ => entries
            | _ => []
          return .ofEntries (start ++ arguments.named.map fun entry => (.plain entry.1, entry.2))
      | .function "namespace" => do
          let start := match arguments.positional with
            | .map entries :: _ => entries.map fun entry => (entry.1.display, entry.2)
            | _ => []
          let id := (← get).next
          modify fun state =>
            { state with
              next := id + 1
              spaces := (id, arguments.named ++ start) :: state.spaces }
          return .space id
      | .routine name parameters body surroundings => do
          let text ← callMacro bound name parameters body surroundings arguments
          return .plain text
      | .loop _ _ (some body) =>
          match arguments.positional with
          | [source] => do
              let elements ← need source.elements?
              return .plain (← renderLoop bound body elements)
          | _ => need none
      | _ => need none

/-- What a macro comes to. -/
def callMacro :
    (bound : Nat) → String → List Parameter → List Node → Scope → Arguments → Rendering String
  | 0, _, _, _, _, _ => need none
  | bound + 1, name, parameters, body, surroundings, arguments => do
      let saved ← get
      let self := Value.routine name parameters body surroundings
      if depthLimit < saved.depth + macroCost || parameters.length < arguments.positional.length
          || arguments.named.any (fun argument =>
            argument.1 != "caller" && !parameters.any fun parameter => parameter.name == argument.1)
      then need none
      let caller := (arguments.named.lookup "caller").map fun value => ("caller", value)
      set { saved with
        scopes := [caller.toList, (name, self) :: surroundings], depth := saved.depth + macroCost }
      bindParameters bound parameters arguments
      let text ← renderAll bound body
      modify fun state => { state with scopes := saved.scopes, depth := saved.depth }
      return text

/-- Set the parameters of a macro. -/
def bindParameters : (bound : Nat) → List Parameter → Arguments → Rendering Unit
  | 0, _, _ => need none
  | _, [], _ => pure ()
  | bound + 1, parameter :: parameters, arguments => do
      let given := match arguments.positional with
        | value :: _ => some value
        | [] => arguments.named.lookup parameter.name
      let value ← match given, parameter.fallback with
        | some value, _ => pure value
        | none, some fallback => evaluate bound .undefined fallback
        | none, none => pure .undefined
      modify fun state => state.define parameter.name value
      bindParameters bound parameters (arguments.drop 1)

/-- Assign a value. -/
def assign : (bound : Nat) → Target → Value → Rendering Unit
  | 0, _, _ => need none
  | bound + 1, target, value => do
      match target with
      | .name name => modify fun state => state.define name value
      | .member owner name => do
          match (← get).lookup? owner with
          | some (.space id) =>
              modify fun state =>
                { state with
                  spaces := state.spaces.map fun entry =>
                    if entry.1 = id then (id, setIn name value entry.2) else entry }
          | _ => need none
      | .all targets => do
          let elements ← need value.elements?
          if elements.length = targets.length then assignAll bound targets elements else need none

/-- Assign values one by one. -/
def assignAll : (bound : Nat) → List Target → List Value → Rendering Unit
  | 0, _, _ => need none
  | bound + 1, target :: targets, value :: values => do
      assign bound target value
      assignAll bound targets values
  | _, _, _ => pure ()

/-- Render nodes one after another. -/
def renderAll : (bound : Nat) → List Node → Rendering String
  | 0, _ => need none
  | _, [] => pure ""
  | bound + 1, .extends template :: nodes => do
      let name ← evaluate bound .undefined template
      let parent ← need (setting.templates.lookup name.display)
      modify fun state => { state with skipsBlocks := true }
      let _ ← renderAll bound nodes
      modify fun state => { state.addBlocks (blocksOf parent) with skipsBlocks := false }
      renderNested bound parent
  | bound + 1, node :: nodes => do
      let first ← render bound node
      return first ++ (← renderAll bound nodes)

/-- Render nodes in a scope of their own. -/
def renderInside : (bound : Nat) → List Node → Rendering String
  | 0, _ => need none
  | bound + 1, nodes => do
      modify State.enter
      let text ← renderAll bound nodes
      modify State.leave
      return text

/-- Render the nodes of another template. -/
def renderNested : (bound : Nat) → List Node → Rendering String
  | 0, _ => need none
  | bound + 1, nodes => do
      let depth := (← get).depth
      if depthLimit < depth + includeCost then need none
      modify fun state => { state with depth := depth + includeCost }
      let text ← renderInside bound nodes
      modify fun state => { state with depth := depth }
      return text

/-- Render the block with a name. -/
def renderBlock : (bound : Nat) → String → Rendering String
  | 0, _ => need none
  | bound + 1, name => do
      let saved := (← get).current
      match (← get).blocks.lookup name with
      | some (body :: rest) => do
          modify fun state => { state with current := some (name, rest) }
          let text ← renderInside bound body
          modify fun state => { state with current := saved }
          return text
      | _ => need none

/-- The elements that meet a condition. -/
def filterElements :
    (bound : Nat) → Target → Expression → List Value → Rendering (List Value)
  | 0, _, _, _ => need none
  | _, _, _, [] => pure []
  | bound + 1, target, condition, element :: elements => do
      modify State.enter
      assign bound target element
      let holds := (← evaluate bound .undefined condition).isTrue
      modify State.leave
      let rest ← filterElements bound target condition elements
      return if holds then element :: rest else rest

/-- Render a loop over elements. -/
def renderLoop : (bound : Nat) → LoopBody → List Value → Rendering String
  | 0, _, _ => need none
  | bound + 1, body, elements => do
      let elements ← match body.condition with
        | some condition => filterElements bound body.target condition elements
        | none => pure elements
      if elements.isEmpty then renderAll bound body.otherwise
      else
        let saved ← get
        if depthLimit < saved.depth + 1 then need none
        set { saved.enter with
          next := saved.next + 1, loops := saved.loops + 1, depth := saved.depth + 1 }
        let text ← renderElements bound body elements saved.next saved.loops 0 elements
        modify fun state => { state.leave with loops := saved.loops, depth := saved.depth }
        return text

/-- Render the elements of a loop from a place on. -/
def renderElements :
    (bound : Nat) → LoopBody → (all : List Value) → (id depth place : Nat) → List Value →
      Rendering String
  | 0, _, _, _, _, _, _ => need none
  | _, _, _, _, _, _, [] => pure ""
  | bound + 1, body, all, id, depth, place, element :: elements => do
      let recursion := if body.isRecursive then some body else none
      modify fun state => state.define "loop" (.loop id (loopState all place depth) recursion)
      assign bound body.target element
      let first ← renderAll bound body.body
      return first ++ (← renderElements bound body all id depth (place + 1) elements)

/-- Render the first of some alternatives whose condition holds. -/
def renderArms : (bound : Nat) → List (Option Expression × List Node) → Rendering String
  | 0, _ => need none
  | _, [] => pure ""
  | bound + 1, (none, body) :: _ => renderAll bound body
  | bound + 1, (some condition, body) :: arms => do
      if (← evaluate bound .undefined condition).isTrue then renderAll bound body
      else renderArms bound arms

/-- Assign the variables of a scope. -/
def assignScope : (bound : Nat) → List (Target × Expression) → Rendering Unit
  | 0, _ => need none
  | _, [] => pure ()
  | bound + 1, (target, value) :: assignments => do
      assign bound target (← evaluate bound .undefined value)
      assignScope bound assignments

/-- The macros and variables of another template. -/
def exports : (bound : Nat) → Expression → Rendering Scope
  | 0, _ => need none
  | bound + 1, template => do
      let name ← evaluate bound .undefined template
      let nodes ← need (setting.templates.lookup name.display)
      let saved ← get
      if depthLimit < saved.depth + includeCost then need none
      set { saved.enter with depth := saved.depth + includeCost }
      let _ ← renderAll bound nodes
      let exported := (← get).scopes.headD []
      modify fun state => { state with scopes := saved.scopes, depth := saved.depth }
      return exported

/-- Render the first of some templates that exists. -/
def renderIncluded : (bound : Nat) → (mayBeMissing : Bool) → List Value → Rendering String
  | 0, _, _ => need none
  | _, mayBeMissing, [] => if mayBeMissing then pure "" else need none
  | bound + 1, mayBeMissing, name :: names => do
      match setting.templates.lookup name.display with
      | some nodes => renderNested bound nodes
      | none => renderIncluded bound mayBeMissing names

/-- Render a node. -/
def render : (bound : Nat) → Node → Rendering String
  | 0, _ => need none
  | bound + 1, node => do
      match node with
      | .text content => return content
      | .print value => do
          let value ← evaluate bound .undefined value
          return if (← get).escapes then escapeValue value else value.display
      | .branch arms => renderArms bound arms
      | .loop target source condition isRecursive body otherwise => do
          let elements ← need (← evaluate bound .undefined source).elements?
          renderLoop bound ⟨target, condition, body, otherwise, isRecursive⟩ elements
      | .scope assignments body => do
          modify State.enter
          assignScope bound assignments
          let text ← renderAll bound body
          modify State.leave
          return text
      | .assign target value => do
          assign bound target (← evaluate bound .undefined value)
          return ""
      | .capture target filter body => do
          let text ← renderInside bound body
          let value ← match filter with
            | some filter => evaluate bound (.plain text) filter
            | none => pure (.plain text)
          assign bound target value
          return ""
      | .filtered filter body => do
          let text ← renderInside bound body
          return (← evaluate bound (.plain text) filter).display
      | .block name _ => do if (← get).skipsBlocks then return "" else renderBlock bound name
      | .extends _ => need none
      | .include template mayBeMissing => do
          match ← evaluate bound .undefined template with
          | .list names => renderIncluded bound mayBeMissing names
          | name => renderIncluded bound mayBeMissing [name]
      | .import template target => do
          let exported ← exports bound template
          let entries := exported.map fun entry => (Value.plain entry.1, entry.2)
          assign bound target (.ofEntries entries)
          return ""
      | .importNames template names => do
          let exported ← exports bound template
          modify fun state =>
            names.foldl
              (fun state name =>
                state.define name.2 ((exported.lookup name.1).getD .undefined))
              state
          return ""
      | .routine name parameters body => do
          let surroundings := (← get).surroundings
          modify fun state => state.define name (.routine name parameters body surroundings)
          return ""
      | .callWith call parameters body => do
          match call with
          | .call callee arguments => do
              let callee ← evaluate bound .undefined callee
              let arguments ← evaluateArguments bound .undefined arguments
              let caller := Value.routine "caller" parameters body (← get).surroundings
              let value ← callValue bound callee
                { arguments with named := ("caller", caller) :: arguments.named }
              return value.display
          | _ => need none
      | .run value => do
          let _ ← evaluate bound .undefined value
          return ""
      | .escaping mode body => do
          let saved := (← get).escapes
          let escapes := (← evaluate bound .undefined mode).isTrue
          modify fun state => { state with escapes := escapes }
          let text ← renderInside bound body
          modify fun state => { state with escapes := saved }
          return text

end

/-- How many steps a rendering may be nested. -/
def renderingBound : Nat := 1000000

/-- Render nodes with data. None when something in them has no result. -/
def renderTemplate? (templates : List (String × List Node)) (data : Json) (nodes : List Node) :
    Option String :=
  let start := State.addBlocks {} (blocksOf nodes)
  ((renderAll ⟨templates, .ofJson data⟩ renderingBound nodes).run start).map Prod.fst

end Jinja
end MailPress
