/-!
# Log formats
-/

namespace CallerGraph

/-- How events are written to the log. -/
inductive LogFormat where
  | json
  | compact
deriving DecidableEq, Repr, Inhabited

/-- Why a text names no log format. -/
inductive LogFormatError where
  | unknownName
deriving DecidableEq, Repr

/-- The wording of the error. -/
def LogFormatError.message : LogFormatError → String
  | unknownName => "Matching variant not found"

namespace LogFormat

/-- The name of a format. -/
def name : LogFormat → String
  | json => "json"
  | compact => "compact"

/-- The formats by their names. -/
def names : List (String × LogFormat) :=
  [json, compact].map fun format => (format.name, format)

/-- Reads a name, with ASCII letters in either case. -/
def parse (text : String) : Except LogFormatError LogFormat :=
  match names.lookup (text.map Char.toLower) with
  | some format => .ok format
  | none => .error .unknownName

end LogFormat

end CallerGraph
