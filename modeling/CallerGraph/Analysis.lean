import CallerGraph.Exploration.Explore
import CallerGraph.Graph.Finalise
import CallerGraph.Rendering

/-!
# Analysing a method's callers

An analysis explores the callers of entry methods, finishes the graph and
hands it to a target. It does all of that or nothing: the target sees a
graph only when the exploration came to its end and nobody has asked for
cancellation by then, and it sees it once.
-/

namespace CallerGraph

/-- What to analyse. -/
structure Request where
  entries : List Label
  sink : Sink
  pruned : Bool
  options : ExploreOptions

/-- What an analysis made. -/
structure Report where
  graph : Graph
  /-- The path that the target answered. -/
  written : String
deriving DecidableEq, Repr

/-- Explores and finishes the graph, without a target. -/
def buildGraph {σ : Type} (resolver : Resolver σ) (request : Request) (session : Session σ) :
    Except GraphError Graph × Session σ :=
  let session := session.tell [.analysisStarted request.entries.length request.options.scope]
  match explore resolver request.options request.entries session with
  | (.error error, session) =>
      (.error error,
        if error.isCancellation then session.tell [.analysisCancelled] else session)
  | (.ok draft, session) =>
      let graph := draft.toGraph request.pruned
      let session := session.tell (draft.toGraphEvents request.pruned)
      (.ok graph, session.tell [.analysisCompleted graph.nodes.length graph.calls.length])

/-- Explores, finishes the graph and hands it to the target. -/
def analyse {m : Type → Type} [Monad m] {σ : Type} (resolver : Resolver σ) (request : Request)
    (target : Target m) (session : Session σ) : m (Except GraphError Report × Session σ) :=
  match buildGraph resolver request session with
  | (.error error, session) => pure (.error error, session)
  | (.ok graph, session) =>
      if session.cancelled then pure (.error .cancelled, session)
      else do
        match ← target graph request.sink with
        | .error error => pure (.error (.render error), session)
        | .ok written => pure (.ok ⟨graph, written⟩, session.tell [.graphRendered written])

end CallerGraph
