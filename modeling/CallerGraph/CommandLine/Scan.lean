import CallerGraph.CommandLine.Split

/-!
# Splitting in one pass

The command line can also be split while it is read, one argument after the
other.  The pass keeps what it has taken for the settings, how many arguments
that is, and whether the last of them waits for its value.  At the first
argument that is neither a settings flag nor a value it stops, and the command
is found by counting.

Arguments come from outside and need not be text.  They are handed on as they
are; `text` is how they read.
-/

namespace CallerGraph

/-- What a pass over the arguments has taken so far. -/
structure ArgumentScan (α : Type) where
  /-- The name of the program and the arguments taken for the settings. -/
  settings : List α
  /-- The number of arguments taken. -/
  count : Nat
  /-- The last argument is a flag that waits for its value. -/
  pending : Bool

namespace ArgumentScan

/-- Does an argument belong to the settings, and does its value follow as an
argument of its own? -/
def valueFollows? (argument : String) : Option Bool :=
  let cs := argument.toList
  if "--".toList.isPrefixOf cs ∧
      ArgumentSplit.settingsFlags.contains (String.ofList (cs.takeWhile (· != '='))) then
    some !cs.contains '='
  else none

variable {α : Type} (text : α → String)

/-- Takes one argument more, or stops. -/
def step? (scan : ArgumentScan α) (argument : α) : Option (ArgumentScan α) :=
  if scan.pending then some ⟨scan.settings ++ [argument], scan.count + 1, false⟩
  else (valueFollows? (text argument)).map fun pending =>
    ⟨scan.settings ++ [argument], scan.count + 1, pending⟩

/-- Takes arguments until the pass stops. -/
def run (scan : ArgumentScan α) : List α → ArgumentScan α
  | [] => scan
  | argument :: arguments =>
      match scan.step? text argument with
      | some next => next.run arguments
      | none => scan

/-- Splits the arguments of a run, the settings first. -/
def split : List α → List α × List α
  | [] => ([], [])
  | program :: arguments =>
      let scan := run text ⟨[program], 0, false⟩ arguments
      (scan.settings, program :: arguments.drop scan.count)

end ArgumentScan

end CallerGraph
