import CallerGraph.Event
import CallerGraph.Exploration.Scope
import CallerGraph.Label.Basic

/-!
# Sources of callers

A resolver answers two questions: which methods call a given method, and
where a method comes from. It may remember what it was asked, so an answer
is given together with the state that the resolver is in afterwards. A
lookup can fail. While a question is answered somebody can ask for the
exploration to be cancelled; the reply tells.

A session is the talk with a resolver so far: the state of the resolver,
whether cancellation was asked for, which it can be only once and for all,
the questions in order, and the events in order.
-/

namespace CallerGraph

/-- An answer, with the state behind it and whether cancellation was asked
for meanwhile. -/
structure Reply (σ α : Type) where
  answer : α
  state : σ
  trips : Bool

/-- A source of callers. -/
structure Resolver (σ : Type) where
  /-- The callers of a method, or why they cannot be found. -/
  callers : Label → σ → Reply σ (Except String (List Label))
  /-- Where a method comes from. -/
  origin : Label → σ → Reply σ Origin
  /-- At least as many as there are labels that can be answered. No chain
  of callers without repetition is longer by more than its entry. -/
  span : Nat

namespace Resolver

/-- The resolver that answers from two fixed tables and remembers
nothing. -/
def ofTables (callers : Label → List Label) (origin : Label → Origin) (span : Nat) :
    Resolver Unit where
  callers method _ := ⟨.ok (callers method), (), false⟩
  origin method _ := ⟨origin method, (), false⟩
  span := span

end Resolver

/-- A question to a resolver. -/
inductive Query where
  /-- Who calls the method, reached by way of the methods below it: first
  the one it calls, last an entry. -/
  | callers (method : Label) (below : List Label)
  /-- Where does a caller come from? -/
  | origin (caller : Label)
deriving DecidableEq, Repr

/-- The method of a lookup. -/
def Query.lookup? : Query → Option Label
  | callers method _ => some method
  | origin _ => none

/-- The talk with a resolver so far. -/
structure Session (σ : Type) where
  state : σ
  cancelled : Bool
  queries : Array Query
  events : Array Event

namespace Session

variable {σ : Type}

/-- A session without questions. -/
def start (state : σ) (cancelled : Bool) : Session σ :=
  ⟨state, cancelled, #[], #[]⟩

/-- The methods looked up so far. -/
def lookups (session : Session σ) : List Label :=
  session.queries.toList.filterMap Query.lookup?

/-- Tells events. -/
def tell (session : Session σ) (events : List Event) : Session σ :=
  { session with events := session.events ++ events }

/-- The session behind a question and its reply. -/
def heard {α : Type} (session : Session σ) (query : Query) (reply : Reply σ α) : Session σ :=
  { session with
    state := reply.state
    cancelled := session.cancelled || reply.trips
    queries := session.queries.push query }

/-- Asks for the callers of a method. -/
def askCallers (session : Session σ) (resolver : Resolver σ) (method : Label)
    (below : List Label) : Except String (List Label) × Session σ :=
  let reply := resolver.callers method session.state
  (reply.answer, session.heard (.callers method below) reply)

/-- Asks where a caller comes from. -/
def askOrigin (session : Session σ) (resolver : Resolver σ) (caller : Label) :
    Origin × Session σ :=
  let reply := resolver.origin caller session.state
  (reply.answer, session.heard (.origin caller) reply)

/-- The callers of interest. Every caller is asked about, whatever the
scope. -/
def screen (resolver : Resolver σ) (scope : Scope) :
    List Label → Session σ → List Label × Session σ
  | [], session => ([], session)
  | caller :: callers, session =>
      let (origin, session) := session.askOrigin resolver caller
      let (accepted, session) := screen resolver scope callers session
      (if scope.accepts origin then caller :: accepted else accepted, session)

end Session

end CallerGraph
