import CallerGraph.Error
import CallerGraph.Files.Host
import CallerGraph.Graph.Document

/-!
# Handing a graph over

A sink says where a finished graph goes: a directory and the name of a
file in it, without its extension. A target is what takes a graph to a
sink; it answers the path of what it made.

The usual target writes the document of the graph to a file. It puts the
graph into words first, then makes the directory, then writes the file, so
a graph that cannot be put into words leaves no trace.
-/

namespace CallerGraph

/-- Where a graph goes. -/
structure Sink where
  directory : String
  filename : String
deriving DecidableEq, Repr

/-- The path of the file with an extension. A file name that is an
absolute path is taken as it is. -/
def Sink.path (sink : Sink) (extension : String) : String :=
  Path.join sink.directory (sink.filename ++ "." ++ extension)

/-- What takes a graph to a sink. -/
abbrev Target (m : Type → Type) := Graph → Sink → m (Except RenderError String)

namespace Target

variable {m : Type → Type} [Monad m]

/-- Writes the words that `encode` has for a graph to a file. -/
def writing (host : Host m) (encode : Graph → Except RenderError String) : Target m :=
  fun graph sink => do
    match encode graph with
    | .error error => pure (.error error)
    | .ok payload =>
        match ← host.makeDirectories sink.directory with
        | .error fault => pure (.error (.io sink.directory fault))
        | .ok _ =>
            let path := sink.path "json"
            match ← host.writeFile path payload.toUTF8 with
            | .error fault => pure (.error (.io path fault))
            | .ok _ => pure (.ok path)

/-- Writes the document of a graph to a file. -/
def jsonFile (host : Host m) : Target m :=
  writing host fun graph => .ok graph.payload

end Target

end CallerGraph
