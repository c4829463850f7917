import CallerGraph.Json.Basic
import CallerGraph.Settings.Basic
import CallerGraph.Settings.LogFilter

/-!
# The log

A line of the log tells one event, either in words or as a JSON object.
-/

namespace CallerGraph

namespace Event

/-- The text of a field. -/
def fieldText : FieldValue → String
  | .text value => value
  | .number value => value.repr
  | .flag true => "true"
  | .flag false => "false"

/-- A field as a JSON value. -/
def fieldJson : FieldValue → Json
  | .text value => .string value
  | .number value => .ofNat value
  | .flag value => .bool value

/-- An event in words. -/
def compactLine (event : Event) : String :=
  event.level.name ++ " " ++ event.topic ++ ": " ++ event.message ++
    String.join (event.fields.map fun (name, value) => " " ++ name ++ "=" ++ fieldText value)

/-- An event as a JSON object. -/
def jsonLine (event : Event) : String :=
  (Json.object ([("level", .string event.level.name), ("message", .string event.message)] ++
    (event.fields.map fun (name, value) => (name, fieldJson value)) ++
    [("target", .string event.topic)])).write .compact

/-- The lines of the log that settings ask for. -/
def logLines (settings : Settings) (events : List Event) : List String :=
  match LogFilter.parse? settings.logFilter with
  | none => []
  | some filter =>
      (events.filter filter.allows).map fun event =>
        match settings.logFormat with
        | .json => event.jsonLine
        | .compact => event.compactLine

end Event

end CallerGraph
