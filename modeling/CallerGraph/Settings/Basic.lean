import CallerGraph.Json.Record
import CallerGraph.Settings.LogFormat

/-!
# Settings

What can be set for all commands alike: what is logged and how, where
graphs are written, and how wide a level of an indented hierarchy is.
-/

namespace CallerGraph

/-- The settings of a run. -/
structure Settings where
  logFilter : String
  logFormat : LogFormat
  outputDir : String
  indentWidth : Nat
deriving DecidableEq, Repr

namespace Settings

/-- The bound for widths. -/
def widthBound : Nat := UInt64.size

/-- The settings where nothing is set. -/
def standard : Settings where
  logFilter := "info"
  logFormat := .compact
  outputDir := "callchain-output"
  indentWidth := 4

/-- The width of a level of a hierarchy, which is at least one space. -/
def levelWidth (settings : Settings) : Nat :=
  max settings.indentWidth 1

/-- The names of the settings, in order. -/
def fieldNames : List String :=
  ["log_filter", "log_format", "output_dir", "indent_width"]

/-- Settings as a JSON object. -/
def toJson (settings : Settings) : Json :=
  .object (fieldNames.zip
    [.string settings.logFilter, .string settings.logFormat.name, .string settings.outputDir,
      .ofNat settings.indentWidth])

/-- Reads settings; what is missing has its standard value. -/
def ofJson? (value : Json) : Option Settings := do
  match ← value.slots? fieldNames false with
  | [logFilter, logFormat, outputDir, indentWidth] =>
      let logFilter ← Json.optional standard.logFilter Json.text? logFilter
      let logFormat ← Json.optional standard.logFormat (Json.named? LogFormat.names) logFormat
      let outputDir ← Json.optional standard.outputDir Json.text? outputDir
      let indentWidth ← Json.optional standard.indentWidth (Json.natural? widthBound) indentWidth
      pure ⟨logFilter, logFormat, outputDir, indentWidth⟩
  | _ => none

end Settings

end CallerGraph
