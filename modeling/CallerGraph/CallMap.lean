import CallerGraph.Exploration.Resolver
import CallerGraph.Json.Record

/-!
# Call maps

A call map is a JSON document that lists the callers of methods and the
origins of methods. It is one of the sources that can be explored: a
method that it does not list has no callers and an unknown origin, and no
lookup fails.
-/

namespace CallerGraph

/-- The callers and the origins of methods. -/
structure CallMap where
  callers : List (Label × List Label)
  origins : List (Label × Origin)
deriving DecidableEq, Repr, Inhabited

namespace CallMap

/-- The names of the fields of a call map, in order. -/
def fieldNames : List String :=
  ["callers", "origins"]

/-- Reads a map from labels. -/
def labelled? {α : Type} (read : Json → Option α) (value : Json) : Option (List (Label × α)) :=
  (value.entries? read).map (·.map fun (name, found) => (Label.mk name, found))

/-- Reads an array of labels. -/
def labels? (value : Json) : Option (List Label) :=
  value.texts?.map (·.map Label.mk)

/-- Reads a call map; both of its fields may be missing, and it has no
others. -/
def ofJson? (value : Json) : Option CallMap := do
  match ← value.slots? fieldNames true with
  | [callers, origins] =>
      let callers ← Json.optional [] (labelled? labels?) callers
      let origins ← Json.optional [] (labelled? (Json.named? Origin.names)) origins
      pure ⟨callers, origins⟩
  | _ => none

/-- The callers of a method. -/
def callersOf (map : CallMap) (method : Label) : List Label :=
  (map.callers.lookup method).getD []

/-- The origin of a method. -/
def originOf (map : CallMap) (method : Label) : Origin :=
  (map.origins.lookup method).getD .unknown

/-- The number of callers listed, repetitions counted. -/
def span (map : CallMap) : Nat :=
  map.callers.foldl (fun count entry => count + entry.2.length) 0

/-- A call map as a source of callers. It counts the questions; `interrupts`
tells during which of them somebody asks for a stop. -/
def resolver (map : CallMap) (interrupts : Nat → Bool) : Resolver Nat where
  callers method asked := ⟨.ok (map.callersOf method), asked + 1, interrupts asked⟩
  origin method asked := ⟨map.originOf method, asked + 1, interrupts asked⟩
  span := map.span

end CallMap

end CallerGraph
