import CallerGraph.Json.Basic

/-!
# TOML documents

A document is a list of statements, one for each line that says something.
Its values are kept as the JSON values that they stand for: a number that
is not finite stands for null, and a date or a time, for which JSON has
nothing, stands for an object with its text.

There are two editions of the language, TOML 1.0 and TOML 1.1. The newer
one allows all that the older one does, and more ways to write it.
-/

namespace CallerGraph

namespace Toml

/-- An edition of the language. -/
inductive Edition where
  | older
  | newer
deriving DecidableEq, Repr

/-- Up to this many names make a key, and up to this many arrays and
inline tables lie in each other. -/
def Edition.depthLimit : Edition → Nat
  | older => 79
  | newer => 80

/-- What a line of a document says. A key is a path of names. -/
inductive Statement where
  /-- In the table that the lines are about the key has the value. -/
  | assign (key : List String) (value : Json)
  /-- The lines that follow are about the table. -/
  | openTable (key : List String)
  /-- The lines that follow are about a new table, the last of an array of
  tables. -/
  | openNext (key : List String)
deriving Repr

/-- The value of a date or a time. -/
def ofMoment (written : String) : Json :=
  .object [("moment", .string written)]

end Toml

end CallerGraph
