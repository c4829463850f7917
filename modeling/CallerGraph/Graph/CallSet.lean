import CallerGraph.Graph.Node

/-!
# Sets of calls

A set of calls holds at most one call between any two nodes, in the order
in which the pairs first came. When a pair comes again the set keeps one
call for it, which is recursive only as long as all that came were.
-/

namespace CallerGraph

/-- Calls in the order in which their pairs first came. -/
structure CallSet where
  calls : List Call
deriving DecidableEq, Repr, Inhabited

namespace CallSet

/-- No calls. -/
def empty : CallSet := ⟨[]⟩

/-- Is there a call between the two nodes? -/
def contains (set : CallSet) (source target : NodeId) : Bool :=
  set.calls.any fun call => call.ends == (source, target)

/-- Does the call join two nodes that no call of the set joins? -/
def isNew (set : CallSet) (call : Call) : Bool :=
  !set.contains call.source call.target

/-- The call that stays when another comes between the same nodes. -/
def settle (stored arrived : Call) : Call :=
  if stored.ends = arrived.ends ∧ stored.recursive ∧ !arrived.recursive then arrived else stored

/-- Adds a call. -/
def add (set : CallSet) (call : Call) : CallSet :=
  if set.isNew call then ⟨set.calls ++ [call]⟩
  else ⟨set.calls.map (settle · call)⟩

/-- Adds the calls one after the other. -/
def addAll (set : CallSet) (calls : List Call) : CallSet :=
  calls.foldl add set

/-- The set of the calls in a list. -/
def ofList (calls : List Call) : CallSet :=
  empty.addAll calls

/-- The number of pairs. -/
def size (set : CallSet) : Nat :=
  set.calls.length

@[simp] theorem ends_settle (stored arrived : Call) :
    (settle stored arrived).ends = stored.ends := by
  unfold settle
  split
  case isTrue h => exact h.1.symm
  case isFalse => rfl

/-- Whether a pair is in the set depends on the pairs alone. -/
theorem contains_iff {set : CallSet} {source target : NodeId} :
    set.contains source target = true ↔ (source, target) ∈ set.calls.map Call.ends := by
  simp [contains]

/-- Adding a call adds its pair at the end, unless the pair is there. -/
theorem ends_add (set : CallSet) (call : Call) :
    (set.add call).calls.map Call.ends =
      if set.isNew call then set.calls.map Call.ends ++ [call.ends]
      else set.calls.map Call.ends := by
  unfold add
  split
  case isTrue => simp
  case isFalse => simp [Function.comp_def]

end CallSet

end CallerGraph
