import CallerGraph.Files.FileSystem

/-!
# What a program asks of its surroundings

A host is what a run of the program can see and change: files, variables,
the two outputs, and whether somebody asked it to stop. The program is
written against any host in any monad, so that it runs on a real machine
and can be reasoned about on a machine that is a value, `Machine`.
-/

namespace CallerGraph

/-- The services of the surroundings. -/
structure Host (m : Type → Type) where
  readFile : String → m (Except Fault ByteArray)
  /-- The absolute path without dots and links of what is at a path. -/
  canonicalPath : String → m (Except Fault String)
  makeDirectories : String → m (Except Fault Unit)
  writeFile : String → ByteArray → m (Except Fault Unit)
  /-- All variables by their names. -/
  environment : m (List (String × String))
  /-- Writes to the standard output; the error says why it cannot. -/
  print : String → m (Except String Unit)
  /-- Writes to the standard error output. -/
  printError : String → m Unit
  /-- A seed that nobody has chosen. -/
  freshSeed : m UInt64
  /-- Has a log been set up by an earlier run? -/
  isLogging : m Bool
  /-- Did somebody ask the run to stop? -/
  isInterrupted : m Bool
  /-- Will somebody ask it while question number `n` of an analysis is
  answered? -/
  interruptsAt : m (Nat → Bool)

/-- The content of a file as text. -/
def Host.readText {m : Type → Type} [Monad m] (host : Host m) (path : String) :
    m (Except Fault String) := do
  match ← host.readFile path with
  | .error fault => pure (.error fault)
  | .ok content =>
      match String.fromUTF8? content with
      | some text => pure (.ok text)
      | none => pure (.error .notText)

/-- A machine as a value. -/
structure Machine where
  files : FileSystem
  environment : List (String × String)
  /-- What was written to the standard output. -/
  output : String
  /-- Why the standard output takes nothing, if it does not. -/
  outputFault : Option String
  /-- What was written to the standard error output. -/
  errorOutput : String
  /-- The seed that nobody has chosen. -/
  seed : UInt64
  isLogging : Bool
  /-- Somebody asks for a stop when the file at this place is opened. -/
  interruptOnRead : Option (List String)
  /-- Somebody asks for a stop while a question of an analysis is
  answered. -/
  interruptOnQuestion : Nat → Bool
  interrupted : Bool

namespace Machine

/-- Opens a file and reads it. -/
def readFile (path : String) : StateM Machine (Except Fault ByteArray) := do
  let machine ← get
  let opened := match machine.files.locate path with
    | .ok place => machine.interruptOnRead == some place
    | .error _ => false
  set { machine with interrupted := machine.interrupted || opened }
  pure (machine.files.readFile path)

/-- Makes a directory. -/
def makeDirectories (path : String) : StateM Machine (Except Fault Unit) :=
  modifyGet fun machine =>
    let (made, files) := machine.files.makeDirectories path
    (made, { machine with files })

/-- Writes a file. -/
def writeFile (path : String) (content : ByteArray) : StateM Machine (Except Fault Unit) :=
  modifyGet fun machine =>
    match machine.files.writeFile path content with
    | .ok files => (.ok (), { machine with files })
    | .error fault => (.error fault, machine)

/-- Writes to the standard output. -/
def print (text : String) : StateM Machine (Except String Unit) :=
  modifyGet fun machine =>
    match machine.outputFault with
    | some reason => (.error reason, machine)
    | none => (.ok (), { machine with output := machine.output ++ text })

/-- The services of a machine. -/
def host : Host (StateM Machine) where
  readFile := readFile
  canonicalPath path := do return (← get).files.canonicalPath path
  makeDirectories := makeDirectories
  writeFile := writeFile
  environment := do return (← get).environment
  print := print
  printError text := modify fun machine =>
    { machine with errorOutput := machine.errorOutput ++ text }
  freshSeed := do return (← get).seed
  isLogging := do return (← get).isLogging
  isInterrupted := do return (← get).interrupted
  interruptsAt := do return (← get).interruptOnQuestion

end Machine

end CallerGraph
