import MailPress.Project.Run

/-!
# The program

The outermost layer: it reads the places of a project from the file system, runs the
build on them, writes back what changed, and prints what was said.
-/

namespace MailPress
namespace Program

/-- How the program is called. -/
def usage : String :=
  String.intercalate "\n"
    ["Usage: mailkiln [OPTIONS] <COMMAND>",
      "",
      "Commands:",
      "  build  Compile every template into html, dev html and text artifacts",
      "  help   Print this message",
      "",
      "Options:",
      "  -r, --root <ROOT>            Project root directory",
      "  -t, --templates <TEMPLATES>  Templates directory path (relative to project root)",
      "  -o, --output <OUTPUT>        Output directory path (relative to project root)",
      "  -C, --config <CONFIG>        Config file name [default: mailkiln.toml]",
      "  -h, --help                   Print help",
      "  -V, --version                Print version"]

/-- The version of the program. -/
def version : String :=
  "mailkiln 0.1.0"

/-- What is said about a command line that is not acted on. -/
def refusalText : Refusal → String
  | .help => usage
  | .version => version
  | .empty => usage
  | .missingCommand => "error: a command is required\n\n" ++ usage
  | .unknownCommand => "error: unrecognized command\n\n" ++ usage
  | .unknownOption => "error: unexpected argument found\n\n" ++ usage
  | .badValue => "error: invalid value for an option\n\n" ++ usage
  | .needlessValue => "error: an option takes no value\n\n" ++ usage
  | .repeated => "error: an option cannot be used multiple times\n\n" ++ usage

/-- Read a directory with everything below it. -/
partial def readTree (disk : Disk) (path : String) : IO Disk := do
  let mut disk := (disk.makeDirectory? path).getD disk
  let directory ← IO.FS.realPath path
  for entry in ← directory.readDir do
    let place := Path.join path entry.fileName
    if ← entry.path.isDir then
      disk ← readTree disk place
    else
      disk := disk.put place (← IO.FS.readBinFile entry.path)
  return disk

/-- Read what is at a path: a file, or a directory with everything below it. -/
def readPlace (disk : Disk) (path : String) : IO Disk := do
  try
    let place ← IO.FS.realPath path
    if ← place.isDir then readTree disk path
    else return disk.put path (← IO.FS.readBinFile place)
  catch _ => return disk

/-- The places of a project that a build looks at. -/
def placesOf (settings : Settings) : List String :=
  [settings.places.templates, settings.places.common, settings.places.cache,
    settings.places.output] ++ settings.rendering.components

/-- Read what a request is about. -/
def readProject (request : Request) : IO Disk := do
  let place ← IO.currentDir
  let start := (Disk.empty.makeDirectory? place.toString).getD Disk.empty
  let start := { start with workingDirectory := Path.components place.toString }
  let root := request.root.getD Settings.defaultRoot
  let start := (start.makeDirectory? root).getD start
  let disk ← readPlace start (Path.join root request.config)
  match Settings.ofRequest disk request with
  | .ok settings => (placesOf settings).foldlM readPlace disk
  | .error (.noDirectory _ templates) =>
      let disk ← readPlace disk templates
      match Settings.ofRequest disk request with
      | .ok settings => (placesOf settings).foldlM readPlace disk
      | .error _ => return disk
  | .error _ => return disk

/-- Write the files that a build wrote or changed. -/
def writeChanges (before after : Disk) : IO Unit := do
  for file in after.filesBelow [] do
    let path := "/" ++ Path.ofComponents file.1
    if before.read? path != some file.2 then
      IO.FS.createDirAll ((Path.parent? path).getD "/")
      IO.FS.writeBinFile path file.2

/-- Whether colours are wanted on a terminal. -/
def wantsColours : IO Bool := do
  if (← IO.getEnv "NO_COLOR").isSome then return false
  (← IO.getStdout).isTty

/-- Print messages. -/
def printMessages (colours : Bool) (messages : List Console.Message) : IO Unit :=
  IO.print (Console.encode
    (messages.flatMap (Console.Message.print Console.fallbackColumns colours)))

/-- A time in milliseconds with two places. -/
def elapsedText (milliseconds : Nat) : String :=
  let places := fun (hundredths : Nat) =>
    let digits := toString (hundredths % 100)
    toString (hundredths / 100) ++ "." ++ (if digits.length < 2 then "0" ++ digits else digits)
  if milliseconds < 1000 then places (milliseconds * 100) ++ "ms"
  else places (milliseconds / 10) ++ "s"

/-- Do what a request asks for. -/
def runRequest (request : Request) : IO UInt32 := do
  let started ← IO.monoMsNow
  let disk ← readProject request
  let some report := request.run? .own Image.Network.silent disk
    | IO.eprintln "attempt to calculate the remainder with overflow"
      return 134
  writeChanges disk report.disk
  let elapsed := elapsedText ((← IO.monoMsNow) - started)
  let closing := report.summary.toList.map fun summary =>
    (⟨"build", toString summary.built ++ " built, " ++ toString summary.failed ++
      " failed in " ++ elapsed⟩ : Console.Message)
  printMessages (← wantsColours) (report.messages ++ closing)
  match report.failure with
  | none => return 0
  | some failure =>
      IO.eprintln ("Error: " ++ failure.message)
      return 1

end Program
end MailPress

/-- The program. -/
def main (arguments : List String) : IO UInt32 := do
  match MailPress.CommandLine.read arguments with
  | .ok request => MailPress.Program.runRequest request
  | .error refusal =>
      let text := MailPress.Program.refusalText refusal
      if refusal.exitCode = 0 then IO.println text else IO.eprintln text
      return refusal.exitCode.toUInt32
