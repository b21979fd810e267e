import MailPress.CommandLine
import MailPress.Project.Build

/-!
# Runs

A run is the program from its command line to its end: the settings are read and
changed as the command line asks, the templates are found and chosen, and built.

What stops a run before the end is told in one line. A template that fails does not
stop the others, but then the run as a whole fails. A run that ends the program leaves
no report.
-/

namespace MailPress

/-- Why a run fails. -/
inductive Failure
  /-- The settings cannot be used. -/
  | settings (fault : Settings.Fault)
  /-- The directory of templates cannot be read. -/
  | unreadableTemplates (path : String)
  /-- No template has a name that was asked for. -/
  | unknownTemplate (name : String)
  /-- The build cannot begin. -/
  | start (fault : StartFault)
  /-- So many templates failed. -/
  | failedTemplates (count : Nat)
  deriving DecidableEq, Repr

/-- The wording of a failure. -/
def Failure.message : Failure → String
  | .settings fault => fault.message
  | .unreadableTemplates path => Template.unreadableDirectory path
  | .unknownTemplate name => "template `" ++ name ++ "` not found"
  | .start fault => fault.message
  | .failedTemplates count => toString count ++ " template(s) failed to build"

/-- What a run leaves. -/
structure Report where
  /-- The files. -/
  disk : Disk
  /-- What was said. -/
  messages : List Console.Message
  /-- How many templates were built and failed, if it came to that. -/
  summary : Option Summary
  /-- Why the run fails, if it does. -/
  failure : Option Failure

/-- A run that fails before anything is built. -/
def Report.failed (disk : Disk) (failure : Failure) : Report :=
  ⟨disk, [], none, some failure⟩

/-- The settings for a request: those of the settings file, if there is one, as the request
changes them. -/
def Settings.ofRequest (disk : Disk) (request : Request) : Except Settings.Fault Settings :=
  let path := Path.join (request.root.getD Settings.defaultRoot) request.config
  let read :=
    if Style.isPresent disk path then Settings.ofFile disk path else .ok {}
  match read with
  | .error fault => .error fault
  | .ok settings =>
      let settings := settings.withRequest disk request
      match settings.fault? disk with
      | some fault => .error fault
      | none => .ok settings

/-- The templates that were asked for, or all. -/
def chooseTemplates (templates : List Template) (names : List String) :
    Except Failure (List Template) :=
  if names.isEmpty then .ok templates
  else
    match names.find? fun name => !templates.any fun template => template.name = name with
    | some name => .error (.unknownTemplate name)
    | none => .ok (templates.filter fun template => names.contains template.name)

/-- What building templates leaves. -/
def Report.ofSummary (summary : Summary) (session : Session) : Report :=
  let failure := if summary.failed = 0 then none else some (.failedTemplates summary.failed)
  ⟨session.space.disk, session.messages, some summary, failure⟩

/-- Do what a request asks for; none when that ends the program. -/
def Request.run?
    (request : Request)
    (engines : Engines)
    (network : Image.Network)
    (disk : Disk) :
    Option Report :=
  match Settings.ofRequest disk request with
  | .error fault => some (.failed disk (.settings fault))
  | .ok settings =>
      let root := settings.places.templates
      match Template.discover disk root settings.rendering.endings with
      | none => some (.failed disk (.unreadableTemplates root))
      | some found =>
          match chooseTemplates found request.only with
          | .error failure => some (.failed disk failure)
          | .ok templates =>
              match Session.start engines disk settings with
              | .error fault => some (.failed disk (.start fault))
              | .ok session =>
                  (session.buildAll? network templates).map fun (summary, session) =>
                    .ofSummary summary session

/-- The exit code of a refused command line. -/
def Refusal.exitCode : Refusal → Nat
  | .help => 0
  | .version => 0
  | _ => 2

end MailPress
