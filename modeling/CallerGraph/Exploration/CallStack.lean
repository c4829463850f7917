import CallerGraph.Exploration.Explore
import Std.Data.ExtHashSet

/-!
# Exploring with a call stack

The visits of an exploration are calls. One is made for every entry, and a
visit makes another for each caller that it follows, and waits until that one is
over. Here they are taken apart into steps: a state says what is done next and
which visits wait.

All visits share one set of labels, the path. A method is put into it before its
callers are looked up and taken out when they were examined, in whatever way
that ends, and a caller that is in it closes a cycle. Nothing in the set says
that it holds the methods of the visits that wait. `Explore.visit` is what the
calls look like from outside.
-/

namespace CallerGraph

/-- A visit whose callers are followed. -/
structure OpenVisit where
  method : Label
  /-- The identifier of the method. -/
  target : NodeId
  /-- The number of hops from the entry. -/
  depth : Nat
  /-- The callers that were found. -/
  callers : List Label
  /-- The number of callers that were taken up. -/
  position : Nat

/-- What an exploration does next. -/
inductive CallStack.Control where
  /-- It turns to the next entry. -/
  | choosing
  /-- It begins a visit, so many hops from the entry. -/
  | entering (method : Label) (depth : Nat)
  /-- It looks up the callers of a method. -/
  | expanding (visit : OpenVisit)
  /-- It examines the next caller of a method. -/
  | examining (visit : OpenVisit)
  /-- It has done with the callers of a method. -/
  | closing (visit : OpenVisit) (outcome : Except GraphError Unit)
  /-- It has done with a visit. -/
  | returning (outcome : Except GraphError Unit)
  /-- It has done with everything. -/
  | finished (outcome : Except GraphError Unit)

/-- A moment of an exploration. -/
structure CallStack (σ : Type) where
  control : CallStack.Control
  /-- The visits that wait for one that they made, the newest first. -/
  waiting : List OpenVisit
  /-- The set that all visits share. -/
  path : Std.ExtHashSet Label
  /-- The entries to come. -/
  remaining : List Label
  found : Exploration σ

namespace CallStack

variable {σ : Type}

/-- The methods of the visits that wait. -/
def chain (stack : CallStack σ) : List Label :=
  stack.waiting.map OpenVisit.method

/-- The beginning of an exploration. -/
def start (options : ExploreOptions) (entries : List Label) (session : Session σ) : CallStack σ :=
  ⟨.choosing, [], ∅, entries, ⟨.fresh options.colors, session⟩⟩

/-- Does something that cannot fail. -/
def perform (action : Explore σ Unit) (stack : CallStack σ) : CallStack σ :=
  match action.run stack.found with
  | .ok _ found | .error _ found => { stack with found }

/-- Turns to the next entry, with an empty path. -/
def choose (stack : CallStack σ) : CallStack σ :=
  match stack.remaining with
  | [] => { stack with control := .finished (.ok ()) }
  | entry :: remaining => { stack with control := .entering entry 0, path := ∅, remaining }

/-- Begins a visit. The method joins the path unless the depth limit is
reached. -/
def enter (options : ExploreOptions) (entries : List Label) (method : Label) (depth : Nat)
    (stack : CallStack σ) : CallStack σ :=
  let arrive : Explore σ NodeId := do
    Explore.check
    Explore.register entries method
  match arrive.run stack.found with
  | .error error found => { stack with control := .returning (.error error), found }
  | .ok target found =>
      if options.maxDepth.any (· ≤ depth) then
        { stack with control := .returning (.ok ()), found }
      else
        { stack with
          control := .expanding ⟨method, target, depth, [], 0⟩
          path := stack.path.insert method
          found }

/-- Looks up the callers of a method. -/
def expand (resolver : Resolver σ) (options : ExploreOptions) (visit : OpenVisit)
    (stack : CallStack σ) : CallStack σ :=
  let search : Explore σ (List Label) := do
    let callers ← Explore.callersInScope resolver options.scope visit.method stack.chain
    Explore.tell (.expanding visit.method callers.length visit.depth)
    pure callers
  match search.run stack.found with
  | .error error found => { stack with control := .closing visit (.error error), found }
  | .ok callers found => { stack with control := .examining { visit with callers }, found }

/-- What is done about a caller that is on the path. -/
def closeCycle (options : ExploreOptions) (entries : List Label) (visit : OpenVisit)
    (caller : Label) : Explore σ Unit := do
  Explore.tell (.recursiveCall visit.method caller)
  if options.cycles = .mark then
    let source ← Explore.register entries caller
    Explore.link ⟨source, visit.target, true⟩

/-- Links a caller that is about to be followed. -/
def linkCaller (entries : List Label) (visit : OpenVisit) (caller : Label) : Explore σ Unit := do
  let source ← Explore.register entries caller
  Explore.link ⟨source, visit.target, false⟩

/-- Examines the next caller of a method, if there is one. -/
def examine (options : ExploreOptions) (entries : List Label) (visit : OpenVisit)
    (stack : CallStack σ) : CallStack σ :=
  match visit.callers[visit.position]? with
  | none => { stack with control := .closing visit (.ok ()) }
  | some caller =>
      let taken := { visit with position := visit.position + 1 }
      if stack.path.contains caller then
        { stack.perform (closeCycle options entries visit caller) with
          control := .examining taken }
      else
        { stack.perform (linkCaller entries visit caller) with
          control := .entering caller (visit.depth + 1)
          waiting := taken :: stack.waiting }

/-- Has done with the callers of a method. -/
def close (visit : OpenVisit) (outcome : Except GraphError Unit) (stack : CallStack σ) :
    CallStack σ :=
  { stack with control := .returning outcome, path := stack.path.erase visit.method }

/-- Has done with a visit. The one that waits for it goes on, or fails as it
did. -/
def resume (outcome : Except GraphError Unit) (stack : CallStack σ) : CallStack σ :=
  match stack.waiting, outcome with
  | [], .ok _ => { stack with control := .choosing }
  | [], .error error => { stack with control := .finished (.error error) }
  | visit :: waiting, .ok _ => { stack with control := .examining visit, waiting }
  | visit :: waiting, .error error =>
      { stack with control := .closing visit (.error error), waiting }

/-- What an exploration has come to, at its end. -/
def result? (stack : CallStack σ) : Option (Except GraphError Draft × Session σ) :=
  match stack.control with
  | .finished (.ok _) => some (.ok stack.found.draft, stack.found.session)
  | .finished (.error error) => some (.error error, stack.found.session)
  | _ => none

/-- Makes a step; there is none at the end. -/
def step (resolver : Resolver σ) (options : ExploreOptions) (entries : List Label)
    (stack : CallStack σ) : Option (CallStack σ) :=
  match stack.control with
  | .choosing => some stack.choose
  | .entering method depth => some (stack.enter options entries method depth)
  | .expanding visit => some (stack.expand resolver options visit)
  | .examining visit => some (stack.examine options entries visit)
  | .closing visit outcome => some (stack.close visit outcome)
  | .returning outcome => some (stack.resume outcome)
  | .finished _ => none

end CallStack

end CallerGraph
