import CallerGraph.Error
import CallerGraph.Exploration.Resolver
import CallerGraph.Graph.Draft

/-!
# Exploring the callers of entry methods

An exploration starts at each entry method in turn and follows callers
outwards, depth first. It goes along chains: a chain is a list of methods
in which each calls the one before, from an entry on, and no method comes
twice. Every chain is followed, so a method that several chains lead to is
looked up once for each of them.

At the end of a chain

* the method is registered, as an entry if it is one of the entries;
* unless the chain has reached the depth limit its callers are looked up,
  repeated ones and those out of scope are left out, and of the others, in
  order, each one that is on the chain closes a cycle, and each one that
  is not is linked to the method and followed.

Cancellation is noticed before a method is registered, before it is looked
up and directly after; a lookup that fails is told as a failure even so.

`visit` follows one chain. Its first argument is the number of further
hops that it may make, which is what its recursion is on. Without a depth
limit there are as many as any chain without repetition can have, so the
limit is never met.
-/

namespace CallerGraph

/-- What to explore, and how. -/
structure ExploreOptions where
  scope : Scope
  cycles : CyclePolicy
  /-- The number of hops to follow from an entry. -/
  maxDepth : Option Nat
  /-- Where the colours of classes come from. -/
  colors : ColorSource

/-- An exploration under way: what it has gathered, and the talk with the
resolver. -/
structure Exploration (σ : Type) where
  draft : Draft
  session : Session σ

/-- A step of an exploration. When it fails the exploration so far is
still there. -/
abbrev Explore (σ : Type) := EStateM GraphError (Exploration σ)

namespace Explore

variable {σ : Type}

/-- Fails if cancellation was asked for. -/
def check : Explore σ Unit := do
  if (← get).session.cancelled then throw .cancelled

/-- Tells an event. -/
def tell (event : Event) : Explore σ Unit :=
  modify fun found => { found with session := found.session.tell [event] }

/-- Registers a method. -/
def register (entries : List Label) (method : Label) : Explore σ NodeId :=
  modifyGet fun found =>
    let (id, draft) := found.draft.register method (entries.contains method)
    (id, ⟨draft, found.session.tell (found.draft.notices method)⟩)

/-- Links a caller to a method. -/
def link (call : Call) : Explore σ Unit :=
  modify fun found => { found with draft := found.draft.link call }

/-- Looks up the callers of a method. -/
def lookup (resolver : Resolver σ) (method : Label) (below : List Label) :
    Explore σ (List Label) := do
  let answer ← modifyGet fun found =>
    let (answer, session) := found.session.askCallers resolver method below
    (answer, { found with session })
  match answer with
  | .ok callers => pure callers
  | .error message => throw (.lookupFailed method message)

/-- The different callers of a method that are in scope. -/
def callersInScope (resolver : Resolver σ) (scope : Scope) (method : Label)
    (below : List Label) : Explore σ (List Label) := do
  check
  let callers ← lookup resolver method below
  check
  modifyGet fun found =>
    let (accepted, session) := found.session.screen resolver scope callers.eraseDups
    (accepted, { found with session })

/-- Follows the chain that ends in `method` and goes on, towards the entry,
with `below`, for at most `hops` further hops. -/
def visit (resolver : Resolver σ) (options : ExploreOptions) (entries : List Label) :
    (hops : Nat) → (below : List Label) → (method : Label) → Explore σ Unit
  | 0, _, method => do
      check
      let _ ← register entries method
  | hops + 1, below, method => do
      check
      let target ← register entries method
      let callers ← callersInScope resolver options.scope method below
      tell (.expanding method callers.length below.length)
      callers.forM fun caller => do
        if (method :: below).contains caller then
          tell (.recursiveCall method caller)
          if options.cycles = .mark then
            let source ← register entries caller
            link ⟨source, target, true⟩
        else
          let source ← register entries caller
          link ⟨source, target, false⟩
          visit resolver options entries hops (method :: below) caller

/-- The number of hops to follow from an entry. -/
def reach (resolver : Resolver σ) (options : ExploreOptions) : Nat :=
  options.maxDepth.getD (resolver.span + 1)

/-- Visits the entries in order. -/
def visitEntries (resolver : Resolver σ) (options : ExploreOptions) (entries : List Label) :
    Explore σ Unit :=
  entries.forM (visit resolver options entries (reach resolver options) [])

end Explore

/-- Explores from the entries. The session goes on whether or not there is
a draft at the end. -/
def explore {σ : Type} (resolver : Resolver σ) (options : ExploreOptions) (entries : List Label)
    (session : Session σ) : Except GraphError Draft × Session σ :=
  match (Explore.visitEntries resolver options entries).run ⟨.fresh options.colors, session⟩ with
  | .ok _ found => (.ok found.draft, found.session)
  | .error error found => (.error error, found.session)

end CallerGraph
