import MailPress.Disk.Writer
import MailPress.Image.Cache
import MailPress.Image.Source
import MailPress.Markup.Document
import MailPress.Project.Template

/-!
# Finding image sizes

Images without both size attributes are sized from the cache, from a remote
server or from a file below the template, in this order. A remote image is asked
for once, whatever the answer, and a local image is copied to the output once.

An image whose size is not found is no failure; there is a warning about it.
-/

namespace MailPress
namespace Image

/-- What a server answers. -/
structure Reply where
  /-- The status of the answer. -/
  status : Nat
  /-- The content of the answer. -/
  content : ByteArray

/-- The servers within reach: what each address answers, or why there is no answer. -/
def Network : Type :=
  String → Except String Reply

/-- A network in which nothing answers. -/
def Network.silent : Network :=
  fun _ => .error "io: Connection refused"

/-- Why the size of an image is not found. -/
inductive Fault
  /-- There is no answer from the address. -/
  | unanswered (address reason : String)
  /-- The answer from the address is a refusal. -/
  | refused (address : String) (status : Nat)
  /-- The image cannot be read. -/
  | unreadable (source reason : String)
  /-- There is no such file. -/
  | missing (source : String)
  deriving DecidableEq, Repr

/-- The wording of a fault. -/
def Fault.message : Fault → String
  | .unanswered address reason => "failed to fetch `" ++ address ++ "`: " ++ reason
  | .refused address status => "`" ++ address ++ "` responded with HTTP " ++ toString status
  | .unreadable source reason => "cannot read dimensions of `" ++ source ++ "`: " ++ reason
  | .missing source => "image `" ++ source ++ "` not found"

/-- Ask an address for an image and read its size. -/
def fetch (network : Network) (address : String) : Except Fault Size :=
  match network address with
  | .error reason => .error (.unanswered address reason)
  | .ok reply =>
      if reply.status < 200 ∨ 300 ≤ reply.status then .error (.refused address reply.status)
      else
        let bytes := reply.content.toList
        match sizeOfBytes? bytes with
        | some size => .ok size
        | none => .error (.unreadable address (undecoded (Format.ofBytes? bytes)))

/-- Read the size of the image in a file; the ending of its name tells the format. -/
def measure (disk : Disk) (source path : String) : Except Fault Size :=
  if !disk.isFile path then .error (.missing source)
  else
    let format := ((Path.fileName? path).bind Path.ending?).bind Format.ofEnding?
    match format, disk.read? path with
    | some format, some content =>
        match format.size? content.toList with
        | some size => .ok size
        | none => .error (.unreadable source (undecoded format))
    | _, _ => .error (.unreadable source (undecoded format))

/-- What is known about images during a build. -/
structure Sizer where
  /-- The sizes that are kept. -/
  cache : Cache
  /-- What was found out about remote sources. -/
  asked : List (String × Except Fault Size)
  /-- The local images that were copied, by the components of their paths. -/
  copied : List (List String)
  /-- Whether local images are copied. -/
  copyLocal : Bool
  deriving Inhabited

/-- What is known before anything was looked for. -/
def Sizer.start (disk : Disk) (cachePath : String) (copyLocal : Bool) : Sizer :=
  ⟨Cache.load disk cachePath, [], [], copyLocal⟩

/-- A search for sizes: what is known, the files, and the warnings so far. -/
structure Search where
  /-- What is known about images. -/
  sizer : Sizer
  /-- The files. -/
  space : Workspace
  /-- The warnings, in the order they arose. -/
  warnings : List String
  deriving Inhabited

namespace Search

/-- Add warnings. -/
def warn (search : Search) (warnings : List String) : Search :=
  { search with warnings := search.warnings ++ warnings }

/-- Find the size of a remote image, asking only once. -/
def findRemote
    (search : Search)
    (network : Network)
    (source address : String) :
    Except Fault Size × Search :=
  match search.sizer.asked.lookup source with
  | some answer => (answer, search)
  | none =>
      let answer := fetch network address
      let sizer := { search.sizer with asked := (source, answer) :: search.sizer.asked }
      match answer with
      | .error _ => (answer, { search with sizer := sizer })
      | .ok size =>
          let (cache, disk) := sizer.cache.record search.space.disk source size
          (answer, { search with
            sizer := { sizer with cache := cache }
            space := { search.space with disk := disk } })

/-- The warning about a local image. -/
def localWarning (source : String) : String :=
  "local image `" ++ source ++ "` copied to output, local references will not work in production"

/-- Copy a local image to the output, unless that was done before. -/
def copyLocal (search : Search) (template : Template) (source : String) : Search :=
  let place := localPath source
  let path := Path.join template.directory place
  let names := Path.components path
  if !search.sizer.copyLocal || search.sizer.copied.contains names then search
  else
    let (outcome, space) := search.space.copy path (Path.join template.name place)
    let sizer := { search.sizer with copied := names :: search.sizer.copied }
    let warning :=
      match outcome with
      | .ok _ => localWarning source
      | .error error => error.message
    ⟨sizer, space, search.warnings ++ [warning]⟩

/-- Find the size of a local image. -/
def findLocal
    (search : Search)
    (template : Template)
    (source : String) :
    Except Fault Size × Search :=
  let path := Path.join template.directory (localPath source)
  match measure search.space.disk source path with
  | .error fault => (.error fault, search)
  | .ok size => (.ok size, search.copyLocal template source)

/-- Find the size of an image in its file. -/
def findNatural
    (search : Search)
    (network : Network)
    (template : Template)
    (source : String) :
    Except Fault Size × Search :=
  match search.sizer.cache.get? source with
  | some size => (.ok size, search)
  | none =>
      match address? source with
      | some address => search.findRemote network source address
      | none => search.findLocal template source

/-- Find the size at which an image is shown. -/
def find
    (search : Search)
    (network : Network)
    (template : Template)
    (source : String) :
    Option Size × Search :=
  match search.findNatural network template source with
  | (.error fault, after) => (none, after.warn [fault.message])
  | (.ok size, after) =>
      let (shown, warnings) := shownSize source size
      (some shown, after.warn warnings)

end Search

/-- Whether a source is left alone: it is empty, made by a later template, or holds its data. -/
def isSkipped (source : String) : Bool :=
  source.isEmpty || Text.holds "\x7b\x7b" source || Text.holds "\x7b%" source ||
    Text.hasStart "data:" source

/-- The source of an element that is an image without both size attributes. -/
def unsizedSource? (element : Markup.Element) : Option String :=
  if element.hasAttr "width" && element.hasAttr "height" then none
  else
    ((element.decodedAttr? "src").map Text.trimmed).filter fun source => !isSkipped source

/-- The images without both size attributes, in document order, with their sources. -/
def unsized (document : Markup.Document) : List (Nat × String) :=
  (document.findAll "img").filterMap fun id =>
    ((document.element? id).bind unsizedSource?).map fun source => (id, source)

/-- Insert a text into sorted texts, each occurring once. -/
def insertSource (source : String) : List String → List String
  | [] => [source]
  | other :: others =>
      if source < other then source :: other :: others
      else if source = other then other :: others
      else other :: insertSource source others

/-- The sources without sizes in a document, sorted. -/
def unsizedSources (document : Markup.Document) : List String :=
  (unsized document).foldl (fun sources image => insertSource image.2 sources) []

/-- What was found for one document. -/
structure Resolved where
  /-- The sizes by source. -/
  sizes : List (String × Size)
  /-- The warnings, sorted. -/
  warnings : List String
  deriving DecidableEq, Repr, Inhabited

/-- Nothing is found. -/
def Resolved.none : Resolved :=
  ⟨[], []⟩

/-- The size of a source. -/
def Resolved.get? (resolved : Resolved) (source : String) : Option Size :=
  resolved.sizes.lookup source

/-- Find the sizes of the images of a document. -/
def resolve
    (network : Network)
    (sizer : Sizer)
    (space : Workspace)
    (document : Markup.Document)
    (template : Template) :
    Resolved × Sizer × Workspace :=
  let step := fun (state : List (String × Size) × Search) source =>
    let (size, search) := state.2.find network template source
    ((size.map fun size => (source, size)).toList ++ state.1, search)
  let (sizes, search) := (unsizedSources document).foldl step ([], ⟨sizer, space, []⟩)
  (⟨sizes, search.warnings.mergeSort fun first second => first ≤ second⟩,
    search.sizer, search.space)

end Image
end MailPress
