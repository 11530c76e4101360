import RpcContract.Json.Reader
import RpcContract.Json.Fault
import RpcContract.Failure

/-!
# Manifest files

A manifest may stand in a file, as JSON or in the part of YAML that is JSON.  The end of the file's
name says which.
-/

namespace RpcContract

/-! ## Paths -/

/-- A path without the parts that lead nowhere else. -/
structure FilePath where
  /-- The slashes that the path begins with: none where it starts from the working directory, and
  two only where it is written with exactly two. -/
  root : Text
  steps : List Text
  deriving Repr, DecidableEq

namespace FilePath

/-- The path that a text writes. -/
def ofText (t : Text) : FilePath where
  root :=
    match (t.takeWhile (· == .char '/')).length with
    | 0 => []
    | 2 => "//".text
    | _ => "/".text
  steps := (Text.split '/' t).filter fun step => !step.isEmpty && step != ".".text

/-- The path as it is written. -/
def shown (p : FilePath) : Text :=
  if p.root.isEmpty && p.steps.isEmpty then ".".text else p.root ++ Text.join "/".text p.steps

/-- The last name of the path. -/
def name (p : FilePath) : Text := p.steps.getLastD []

/-- The end of the last name from its last point on.  A point at either end of the name does not
count. -/
def suffix (p : FilePath) : Text :=
  let behind := p.name.reverse.takeWhile (· != .char '.')
  if behind.isEmpty || p.name.length ≤ behind.length + 1 then []
  else ".".text ++ behind.reverse

end FilePath

/-! ## What paths lead to -/

/-- The files and directories that there are, by their paths: from the root for those whose paths
begin with a slash, from the working directory for the others. -/
structure Files where
  contents : Assoc Text
  /-- Directories that need not hold any of the files. -/
  directories : List Text
  deriving Repr

/-- What a path leads to. -/
inductive Found where
  | file (content : Text)
  | directory
  /-- The path, or a name on the way, has more bytes than the system takes. -/
  | tooLong
  | nothing
  deriving Repr

/-- A place on the way: so many steps above where the way starts, and then down by names. -/
structure Waypoint where
  above : Nat
  names : List Text
  deriving Repr

namespace Waypoint

/-- One step up. -/
def up (w : Waypoint) : Waypoint :=
  if w.names.isEmpty then { w with above := w.above + 1 } else { w with names := w.names.dropLast }

/-- One step down. -/
def down (w : Waypoint) (name : Text) : Waypoint := { w with names := w.names ++ [name] }

end Waypoint

namespace Files

/-- The greatest number of bytes of a name. -/
def nameLimit : Nat := 255

/-- The greatest number of bytes of a path. -/
def pathLimit : Nat := 4095

/-- Whether there is a directory with a path that is not empty. -/
def hasDirectory (files : Files) (path : Text) : Bool :=
  files.directories.contains path
    || files.contents.any fun file => (path ++ "/".text).isPrefixOf file.1

/-- Whether a place is a directory.  Above the root is the root itself; of what lies above the
working directory only the directories on the way to it are known. -/
def isDirectory (files : Files) (rooted : Bool) (w : Waypoint) : Bool :=
  w.names.isEmpty
    || ((rooted || w.above == 0) &&
      files.hasDirectory ((if rooted then "/".text else []) ++ Text.join "/".text w.names))

/-- What stands at the end of the way. -/
def arrive (files : Files) (rooted : Bool) (w : Waypoint) : Found :=
  if files.isDirectory rooted w then .directory
  else if rooted || w.above == 0 then
    match Assoc.find? ((if rooted then "/".text else []) ++ Text.join "/".text w.names)
        files.contents with
    | some content => .file content
    | none => .nothing
  else .nothing

/-- Follows steps from a place.  Every step but the last must lead to a directory. -/
def follow (files : Files) (rooted : Bool) : Waypoint → List Text → Found
  | w, [] => files.arrive rooted w
  | w, step :: rest =>
    if !files.isDirectory rooted w then .nothing
    else if step = "..".text then files.follow rooted w.up rest
    else if nameLimit < step.utf8Size then .tooLong
    else files.follow rooted (w.down step) rest

/-- What a path leads to. -/
def find (files : Files) (path : FilePath) : Found :=
  let shown := path.shown
  if shown.contains (.char '\x00') then .nothing
  else if pathLimit < shown.utf8Size then .tooLong
  else files.follow (!path.root.isEmpty) ⟨0, []⟩ path.steps

end Files

/-! ## Reading -/

namespace Manifest

/-- The value that a JSON text stands for. -/
def readJson (source : Text) : Except Failure Value :=
  match Json.read source with
  | .ok v => .ok v
  | .error fault =>
    .error (.error (if fault.complaint.isFormal then .jsonDecode else .value)
      (fault.message source).text)

/-- The value of a file where an empty object may be left unsaid. -/
def readLenient (source : Text) : Except Failure Value :=
  if (Json.skipSpace source).isEmpty then .ok (.record [])
  else (readJson source).map fun v => if v.isTrue then v else .record []

/-- The value that stands in a file. -/
def readFile (files : Files) (path : Text) : Except Failure Value :=
  let place := FilePath.ofText path
  match files.find place with
  | .nothing => .error (.error .fileNotFound ("Manifest file not found: ".text ++ path))
  | .directory =>
    .error (.error .isDirectory ("[Errno 21] Is a directory: ".text ++ Text.quoted place.shown))
  | .tooLong =>
    .error (.error .system ("[Errno 36] File name too long: ".text ++ Text.quoted place.shown))
  | .file content =>
    let content := Text.unifyLines content
    if place.suffix = ".json".text then readJson content
    else if place.suffix = ".yaml".text ∨ place.suffix = ".yml".text then readLenient content
    else .error (.error .value
      ("Unsupported manifest format: ".text ++ place.suffix ++ ". Use .json or .yaml".text))

end Manifest

end RpcContract
