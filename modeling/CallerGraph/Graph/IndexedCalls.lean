import CallerGraph.Graph.CallSet
import Std.Data.HashMap

/-!
# Sets of calls with positions

Who adds many calls keeps a table of the positions of their pairs beside them.  A
call whose pair is in the table goes to the position that is written there, and
takes the place of the call that it finds if that one is recursive and it is not
itself.  Any other call goes to the end, and its position into the table.

Nothing in the table says that it has the right positions.  `CallSet` is what the
set looks like from outside.
-/

namespace CallerGraph

/-- A set of calls and the positions of their pairs. -/
structure IndexedCalls extends CallSet where
  positions : Std.HashMap (NodeId × NodeId) Nat

namespace IndexedCalls

/-- No calls. -/
def empty : IndexedCalls :=
  { CallSet.empty with positions := ∅ }

/-- Has the table the pair? -/
def knows (indexed : IndexedCalls) (source target : NodeId) : Bool :=
  indexed.positions.contains (source, target)

/-- Puts a call that is not recursive in the place of one that is. -/
def settleAt (indexed : IndexedCalls) (position : Nat) (arrived : Call) : IndexedCalls :=
  match indexed.calls[position]? with
  | some stored =>
      if stored.recursive && !arrived.recursive then
        { indexed with calls := indexed.calls.set position arrived }
      else indexed
  | none => indexed

/-- Adds a call, and tells whether its pair is new. -/
def add (indexed : IndexedCalls) (call : Call) : Bool × IndexedCalls :=
  match indexed.positions[call.ends]? with
  | some position => (false, indexed.settleAt position call)
  | none =>
      (true, { indexed with
        calls := indexed.calls ++ [call]
        positions := indexed.positions.insert call.ends indexed.calls.length })

/-- Adds the calls one after the other, and tells of each whether its pair is
new. -/
def addAll (indexed : IndexedCalls) : List Call → List Bool × IndexedCalls
  | [] => ([], indexed)
  | call :: calls =>
      let (isNew, next) := indexed.add call
      let (answers, last) := next.addAll calls
      (isNew :: answers, last)

end IndexedCalls

end CallerGraph
