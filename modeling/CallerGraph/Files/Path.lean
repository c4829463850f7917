import CallerGraph.Text.Pieces

/-!
# Paths

A path is a text whose parts are separated by slashes; one that starts
with a slash is absolute. Joining does not normalise anything.
-/

namespace CallerGraph

namespace Path

/-- Does the path start at the root? -/
def isAbsolute (path : String) : Bool :=
  path.toList.head? == some '/'

/-- A path taken from a directory. An absolute path stands for itself, and
the directory without a name adds nothing. -/
def join (directory path : String) : String :=
  if isAbsolute path then path
  else if directory = "" then path
  else if directory.toList.getLast? = some '/' then directory ++ path
  else directory ++ "/" ++ path

/-- The parts of a path, without the empty ones. -/
def parts (path : String) : List String :=
  ((Text.pieces '/' path.toList).filter (· ≠ [])).map String.ofList

/-- Does the path end in a slash, so that it can only name a directory? -/
def endsInSlash (path : String) : Bool :=
  path.toList.getLast? == some '/'

/-- The parts without dots at the end, which name no other place. -/
def withoutDots (parts : List String) : List String :=
  (parts.reverse.dropWhile (· == ".")).reverse

/-- The parts of the directory that a path is in. -/
def parentParts (parts : List String) : List String :=
  withoutDots (withoutDots parts).dropLast

/-- The directory of an absolute path without dots. -/
def parent (path : String) : String :=
  "/" ++ "/".intercalate (parts path).dropLast

/-- What stands behind the last dot of a name, unless the name starts with
it. -/
def extension? (path : String) : Option String := do
  let name ← (parts path).getLast?
  let behind := name.toList.reverse.takeWhile (· != '.')
  if behind.length + 1 < name.length then pure (String.ofList behind.reverse) else none

end Path

end CallerGraph
