import MailPress.Settings.Reader

/-!
# The command line

A command line has options, the word `build`, and then the options and template
names of the build. An option takes its value from the next argument or from its
own, after an equals sign; a switch may stand alone, which means yes.

An option's value is looked at only when the next option or name begins, so of
two faults the earlier one is found first, except that a fault after the word
`build` is found before one in the option that stands directly in front of it.
-/

namespace MailPress

/-- Why a command line cannot be acted on. -/
inductive Refusal
  /-- Help was asked for. -/
  | help
  /-- The version was asked for. -/
  | version
  /-- There is nothing on the command line. -/
  | empty
  /-- No command is named. -/
  | missingCommand
  /-- A word is not a command. -/
  | unknownCommand
  /-- There is no such option. -/
  | unknownOption
  /-- An option has no value, or one that it cannot have. -/
  | badValue
  /-- A value is given to something that has none. -/
  | needlessValue
  /-- An option is given twice. -/
  | repeated
  deriving DecidableEq, Repr

/-- What a command line asks for. -/
structure Request where
  /-- The project root. -/
  root : Option String := none
  /-- The directory of templates. -/
  templates : Option String := none
  /-- The output directory. -/
  output : Option String := none
  /-- The name of the settings file. -/
  config : String := Settings.fileName
  /-- Whether markup is minified. -/
  minify : Option Bool := none
  /-- Whether content is formatted as Markdown. -/
  markdown : Option Bool := none
  /-- The templates to build; none means all. -/
  only : List String := []
  deriving DecidableEq, Repr, Inhabited

namespace CommandLine

/-- The options with values, and the two that end the reading. -/
inductive Flag
  | root
  | templates
  | output
  | config
  | minify
  | markdown
  | help
  | version
  deriving DecidableEq, Repr, Inhabited

/-- An option as it is spelled: by one letter, by a word, or by both. -/
structure Spelling where
  /-- The letter after one dash. -/
  letter : Option Char
  /-- The word after two dashes. -/
  word : String
  /-- The option. -/
  flag : Flag

/-- The options in front of the command. -/
def outerOptions : List Spelling :=
  [⟨some 'r', "root", .root⟩, ⟨some 't', "templates", .templates⟩,
    ⟨some 'o', "output", .output⟩, ⟨some 'C', "config", .config⟩,
    ⟨some 'h', "help", .help⟩, ⟨some 'V', "version", .version⟩]

/-- The options of a build. -/
def buildOptions : List Spelling :=
  [⟨some 'm', "minify", .minify⟩, ⟨none, "markdown", .markdown⟩, ⟨some 'h', "help", .help⟩]

/-- The option with a letter. -/
def byLetter? (options : List Spelling) (letter : Char) : Option Flag :=
  (options.find? fun spelling => spelling.letter = some letter).map (·.flag)

/-- The option with a word. -/
def byWord? (options : List Spelling) (word : String) : Option Flag :=
  (options.find? fun spelling => spelling.word = word).map (·.flag)

/-- How far a command line has been read. -/
structure State where
  /-- What was asked for so far. -/
  request : Request := {}
  /-- The options that were settled. -/
  given : List Flag := []
  /-- An option that is not settled yet, with its value if that was there. -/
  pending : Option (Flag × Option String) := none
  deriving Inhabited

/-- The path that an option has as its value. -/
def path? (value : Option String) : Option String :=
  value.filter fun path => !path.isEmpty

/-- The answer that a switch has as its value. -/
def answer? : Option String → Option Bool
  | none => some true
  | some "true" => some true
  | some "false" => some false
  | some _ => none

/-- Record the value of an option; none where it cannot have that value. -/
def record (request : Request) (flag : Flag) (value : Option String) : Option Request :=
  match flag with
  | .root => (path? value).map fun path => { request with root := some path }
  | .templates => (path? value).map fun path => { request with templates := some path }
  | .output => (path? value).map fun path => { request with output := some path }
  | .config => (path? value).map fun path => { request with config := path }
  | .minify => (answer? value).map fun answer => { request with minify := some answer }
  | .markdown => (answer? value).map fun answer => { request with markdown := some answer }
  | .help => some request
  | .version => some request

/-- Whether an option must have a value. -/
def needsValue (flag : Flag) : Bool :=
  flag == .root || flag == .templates || flag == .output || flag == .config

/-- Settle the option that is pending. -/
def State.settle (state : State) : Except Refusal State :=
  match state.pending with
  | none => .ok state
  | some (flag, value) =>
      if needsValue flag && value.isNone then .error .badValue
      else if state.given.contains flag then .error .repeated
      else
        match record state.request flag value with
        | none => .error .badValue
        | some request => .ok ⟨request, flag :: state.given, none⟩

/-- Begin an option, with a value where one is attached to it. -/
def State.begin (state : State) (flag : Flag) (attached : Option String) :
    Except Refusal State := do
  let settled ← state.settle
  match flag, attached with
  | .help, _ => .error .help
  | .version, _ => .error .version
  | _, none => .ok { settled with pending := some (flag, none) }
  | _, some _ => State.settle { settled with pending := some (flag, attached) }

/-- Whether the pending option takes the next argument as its value. -/
def State.awaits (state : State) : Bool :=
  state.pending.any fun pending => pending.2.isNone

/-- Give the pending option its value. -/
def State.give (state : State) (value : String) : State :=
  { state with pending := state.pending.map fun pending => (pending.1, some value) }

/-- Read an option that is spelled by a word. -/
def readWord (options : List Spelling) (state : State) (text : List Char) :
    Except Refusal State :=
  let word := text.takeWhile (· != '=')
  let attached := (Text.splitOnce ['='] text).map fun parts => String.ofList parts.2
  match byWord? options (String.ofList word) with
  | none => .error .unknownOption
  | some flag =>
      if (flag == .help || flag == .version) && attached.isSome then .error .needlessValue
      else state.begin flag attached

/-- Read an option that is spelled by a letter; what follows the letter is its value. -/
def readLetter (options : List Spelling) (state : State) (letter : Char) (rest : List Char) :
    Except Refusal State :=
  match byLetter? options letter with
  | none => .error .unknownOption
  | some flag =>
      let attached :=
        match rest with
        | [] => none
        | '=' :: value => some (String.ofList value)
        | value => some (String.ofList value)
      state.begin flag attached

/-- Read an argument that is no command: an option, or the value of one. None where it is
neither. -/
def readArgument (options : List Spelling) (state : State) (argument : String) :
    Option (Except Refusal State) :=
  match argument.toList with
  | '-' :: '-' :: text => some (readWord options state text)
  | '-' :: letter :: rest => some (readLetter options state letter rest)
  | _ => if state.awaits then some (.ok (state.give argument)) else none

/-- Add a template name. -/
def State.name (state : State) (argument : String) : Except Refusal State := do
  let settled ← state.settle
  let only := settled.request.only ++ [argument]
  .ok { settled with request := { settled.request with only } }

/-- Read the arguments after the command. -/
def readBuild (state : State) : List String → Except Refusal State
  | [] => state.settle
  | "--" :: names => do
      let named ← names.foldlM State.name state
      named.settle
  | argument :: arguments =>
      match readArgument buildOptions state argument with
      | some (.ok next) => readBuild next arguments
      | some (.error refusal) => .error refusal
      | none =>
          match state.name argument with
          | .ok next => readBuild next arguments
          | .error refusal => .error refusal

/-- The commands. -/
def commands : List String :=
  ["build", "help"]

/-- What a request for help leads to, given the commands it is about. -/
def helpAbout : List String → Refusal
  | [] => .help
  | ["build"] => .help
  | ["help"] => .help
  | _ => .unknownCommand

/-- Read the arguments in front of the command, and then those after it. -/
def readOuter (state : State) : List String → Except Refusal Request
  | [] => do
      let settled ← state.settle
      .error (if settled.given.isEmpty then .empty else .missingCommand)
  | "--" :: [] => do
      let settled ← state.settle
      .error (if settled.given.isEmpty then .empty else .missingCommand)
  | "--" :: argument :: _ =>
      .error (if commands.contains argument then .unknownOption else .unknownCommand)
  | argument :: arguments =>
      if !state.awaits && argument = "build" then do
        let built ← readBuild {} arguments
        let settled ← state.settle
        .ok { settled.request with
          minify := built.request.minify
          markdown := built.request.markdown
          only := built.request.only }
      else if !state.awaits && argument = "help" then .error (helpAbout arguments)
      else
        match readArgument outerOptions state argument with
        | some (.ok next) => readOuter next arguments
        | some (.error refusal) => .error refusal
        | none => .error .unknownCommand

/-- Read a command line. -/
def read (arguments : List String) : Except Refusal Request :=
  readOuter {} arguments

end CommandLine

/-- Settings as a command line changes them. -/
def Settings.withRequest (settings : Settings) (disk : Disk) (request : Request) : Settings :=
  let root := request.root.getD settings.root
  let places := { settings.places with
    templates := request.templates.getD settings.places.templates
    output := request.output.getD settings.places.output }
  let resolved := Settings.resolve { settings with places := places } disk root request.config
  { resolved with
    finish := { resolved.finish with minify := request.minify.getD resolved.finish.minify }
    rendering := { resolved.rendering with
      markdown := request.markdown.getD resolved.rendering.markdown } }

end MailPress
