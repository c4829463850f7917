/-!
# Which callers count

The source that knows the callers also tells where a method comes from.
A scope says which origins are of interest; a cycle policy says what
becomes of a call that closes a cycle.
-/

namespace CallerGraph

/-- Where a method comes from. -/
inductive Origin where
  | production
  | test
  | unknown
deriving DecidableEq, Repr, Inhabited

/-- Which callers an exploration follows. -/
inductive Scope where
  | all
  | productionOnly
  | testOnly
deriving DecidableEq, Repr, Inhabited

namespace Origin

/-- The name of an origin. -/
def name : Origin → String
  | production => "production"
  | test => "test"
  | unknown => "unknown"

/-- The origins by their names. -/
def names : List (String × Origin) :=
  [production, test, unknown].map fun origin => (origin.name, origin)

end Origin

namespace Scope

/-- Is a caller of this origin of interest? A caller of unknown origin is
so only when every caller is. -/
def accepts : Scope → Origin → Bool
  | all, _ => true
  | productionOnly, origin => origin == .production
  | testOnly, origin => origin == .test

/-- The short name of a scope. -/
def name : Scope → String
  | all => "all"
  | productionOnly => "production"
  | testOnly => "test"

/-- The full name of a scope. -/
def fullName : Scope → String
  | all => "all"
  | productionOnly => "production_only"
  | testOnly => "test_only"

/-- The scopes by their full names. -/
def fullNames : List (String × Scope) :=
  [all, productionOnly, testOnly].map fun scope => (scope.fullName, scope)

end Scope

/-- What becomes of a call that closes a cycle. -/
inductive CyclePolicy where
  /-- It is left out. -/
  | drop
  /-- It becomes a recursive call. -/
  | mark
deriving DecidableEq, Repr, Inhabited

namespace CyclePolicy

/-- The name of a cycle policy. -/
def name : CyclePolicy → String
  | drop => "drop"
  | mark => "mark"

/-- The cycle policies by their names. -/
def names : List (String × CyclePolicy) :=
  [drop, mark].map fun policy => (policy.name, policy)

end CyclePolicy

end CallerGraph
