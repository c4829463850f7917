import CallerGraph.Files.Fault
import CallerGraph.Files.Path

/-!
# A file system

A tree of directories and files, as a table from places to what is there.
A place is the list of names that leads to it from the root, which is
always a directory. There are no links.

A path is walked part by part from the current directory, or from the root
if it is absolute. Every part but the last has to lead to a directory, a
dot stays, and two dots go up.

* `writeFile` replaces the whole content of one file, or makes it, or
  fails and changes nothing.
* `makeDirectories` makes a directory with what is missing above it. It
  changes no file.
-/

namespace CallerGraph

/-- What is at a place. -/
inductive Entry where
  | directory
  | file (content : ByteArray)

/-- A tree of directories and files. -/
structure FileSystem where
  entries : List (List String × Entry)
  /-- The place from which relative paths start. -/
  current : List String

namespace FileSystem

/-- The longest name of a part, in bytes. -/
def maxNameBytes : Nat := 255

/-- The longest path, in bytes. -/
def maxPathBytes : Nat := 4095

/-- What is at a place. -/
def entry? (files : FileSystem) (place : List String) : Option Entry :=
  if place = [] then some .directory else files.entries.lookup place

/-- The content of the file at a place. -/
def content? (files : FileSystem) (place : List String) : Option ByteArray :=
  match files.entry? place with
  | some (.file content) => some content
  | _ => none

/-- The files with their places. -/
def regularFiles (files : FileSystem) : List (List String × ByteArray) :=
  files.entries.filterMap fun (place, entry) =>
    match entry with
    | .file content => some (place, content)
    | .directory => none

/-- Puts something at a place. -/
def put (files : FileSystem) (place : List String) (entry : Entry) : FileSystem :=
  if (files.entries.lookup place).isSome then
    { files with entries := files.entries.map fun known =>
        if known.1 = place then (place, entry) else known }
  else { files with entries := files.entries ++ [(place, entry)] }

/-- Walks from a directory. -/
def walk (files : FileSystem) : List String → List String → Except Fault (List String)
  | place, [] => .ok place
  | place, "." :: parts => walk files place parts
  | place, ".." :: parts => walk files place.dropLast parts
  | place, name :: parts =>
      if maxNameBytes < name.utf8ByteSize then .error .nameTooLong
      else
        match files.entry? (place ++ [name]) with
        | none => .error .missing
        | some .directory => walk files (place ++ [name]) parts
        | some (.file _) => if parts = [] then .ok (place ++ [name]) else .error .notDirectory

/-- Refuses paths that can lead nowhere. -/
def checkPath (path : String) : Except Fault Unit :=
  if path.toList.contains '\x00' then .error .nulInName
  else if path = "" then .error .missing
  else if maxPathBytes < path.utf8ByteSize then .error .nameTooLong
  else .ok ()

/-- The place from which a path starts. -/
def startOf (files : FileSystem) (path : String) : List String :=
  if Path.isAbsolute path then [] else files.current

/-- The place that a path leads to. -/
def locate (files : FileSystem) (path : String) : Except Fault (List String) := do
  checkPath path
  let place ← files.walk (files.startOf path) (Path.parts path)
  match files.entry? place, Path.endsInSlash path with
  | some (.file _), true => .error .notDirectory
  | _, _ => .ok place

/-- The absolute path without dots of the place that a path leads to. -/
def canonicalPath (files : FileSystem) (path : String) : Except Fault String := do
  let place ← files.locate path
  .ok ("/" ++ "/".intercalate place)

/-- The content of a file. -/
def readFile (files : FileSystem) (path : String) : Except Fault ByteArray := do
  let place ← files.locate path
  match files.content? place with
  | some content => .ok content
  | none => .error .isDirectory

/-- The place of a new name, or of what bears it, by the parts of a path.
`none` for parts that end in dots and so name no entry of a directory. -/
def target (files : FileSystem) (start parts : List String) :
    Except Fault (Option (List String)) := do
  match parts.getLast? with
  | none | some "." | some ".." =>
      let _ ← files.walk start parts
      .ok none
  | some name =>
      let place ← files.walk start parts.dropLast
      match files.entry? place with
      | some .directory =>
          if maxNameBytes < name.utf8ByteSize then .error .nameTooLong
          else .ok (some (place ++ [name]))
      | _ => .error .notDirectory

/-- Writes a file. -/
def writeFile (files : FileSystem) (path : String) (content : ByteArray) :
    Except Fault FileSystem := do
  checkPath path
  match ← files.target (files.startOf path) (Path.parts path) with
  | none => .error .isDirectory
  | some place =>
      match files.entry? place, Path.endsInSlash path with
      | some .directory, _ => .error .isDirectory
      | some (.file _), true => .error .notDirectory
      | none, true => .error .isDirectory
      | _, false => .ok (files.put place (.file content))

/-- Makes one directory in a directory. -/
def makeDirectory (files : FileSystem) (start parts : List String) : Except Fault FileSystem := do
  match ← files.target start parts with
  | none => .error .alreadyExists
  | some place =>
      match files.entry? place with
      | some _ => .error .alreadyExists
      | none => .ok (files.put place .directory)

/-- Do the parts lead to a directory? -/
def isDirectory (files : FileSystem) (start parts : List String) : Bool :=
  match files.walk start parts with
  | .ok place => (files.entry? place matches some .directory)
  | .error _ => false

/-- Makes a directory and, as far as they are missing, the ones above it;
at most `levels` of them. What was made stays when a later step fails. -/
def makeParts (start : List String) : Nat → FileSystem → List String →
    Except Fault Unit × FileSystem
  | 0, files, _ => (.error .missing, files)
  | levels + 1, files, parts =>
      if parts = [] then (.ok (), files)
      else
        match files.makeDirectory start parts with
        | .ok files => (.ok (), files)
        | .error .missing =>
            match makeParts start levels files (Path.parentParts parts) with
            | (.error fault, files) => (.error fault, files)
            | (.ok _, files) =>
                match files.makeDirectory start parts with
                | .ok files => (.ok (), files)
                | .error fault =>
                    (if files.isDirectory start parts then .ok () else .error fault, files)
        | .error fault => (if files.isDirectory start parts then .ok () else .error fault, files)

/-- Makes the directory of a path with what is missing above it. The
directory without a name is always there. -/
def makeDirectories (files : FileSystem) (path : String) : Except Fault Unit × FileSystem :=
  if path = "" then (.ok (), files)
  else
    match checkPath path with
    | .error fault => (.error fault, files)
    | .ok _ =>
        let parts := Path.parts path
        makeParts (files.startOf path) (parts.length + 1) files parts

end FileSystem

end CallerGraph
