import CallerGraph.CommandLine.Log
import CallerGraph.CommandLine.Run

/-!
# The program
-/

namespace CallerGraph

/-- The fault behind an error of the operating system. -/
def faultOf : IO.Error → Fault
  | .noFileOrDirectory _ _ _ => .missing
  | .alreadyExists _ _ _ => .alreadyExists
  | .inappropriateType _ _ details =>
      if details = "is a directory" then .isDirectory else .notDirectory
  | error => .other (toString error)

/-- What came of an action that can fail. -/
def outcomeOf {α : Type} (action : IO α) : IO (Except Fault α) := do
  match ← action.toBaseIO with
  | .ok value => pure (.ok value)
  | .error error => pure (.error (faultOf error))

/-- The file in which the system lists the variables of the process, each
with a NUL character behind it. -/
def variableList : String := "/proc/self/environ"

/-- The variables of the process. -/
def variablesOfProcess : IO (List (String × String)) := do
  match ← (IO.FS.readBinFile variableList).toBaseIO with
  | .error _ => pure []
  | .ok content =>
      let lines := Text.pieces '\x00' ((String.fromUTF8? content).getD "").toList
      pure (lines.filterMap fun line =>
        match line.dropWhile (· != '=') with
        | _ :: value => some (String.ofList (line.takeWhile (· != '=')), String.ofList value)
        | [] => none)

/-- The machine that the program runs on. -/
def realHost : Host IO where
  readFile path := outcomeOf (IO.FS.readBinFile path)
  canonicalPath path := outcomeOf (do return (← IO.FS.realPath path).toString)
  makeDirectories path := if path = "" then pure (.ok ()) else outcomeOf (IO.FS.createDirAll path)
  writeFile path content := outcomeOf (IO.FS.writeBinFile path content)
  environment := variablesOfProcess
  print text := do
    match ← (do (← IO.getStdout).putStr text : IO Unit).toBaseIO with
    | .ok _ => pure (.ok ())
    | .error error => pure (.error (toString error))
  printError text := do
    let _ ← (do (← IO.getStderr).putStr text : IO Unit).toBaseIO
    pure ()
  freshSeed := do
    let bytes ← IO.getRandomBytes 8
    pure (bytes.foldl (fun seed byte => seed * 256 + byte.toUInt64) 0)
  isLogging := pure false
  isInterrupted := pure false
  interruptsAt := pure fun _ => false

end CallerGraph

/-- Runs the program, writes its log, and answers its status. -/
def main (arguments : List String) : IO UInt32 := do
  let finish ← CallerGraph.run CallerGraph.realHost ("callchain" :: arguments)
  match finish.settings with
  | none => pure ()
  | some settings =>
      for line in CallerGraph.Event.logLines settings finish.events do
        CallerGraph.realHost.printError (line ++ "\n")
  pure finish.status.toUInt32
