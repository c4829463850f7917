import CallerGraph.Json.Basic
import CallerGraph.Text.Decimal

/-!
# Numbers as JSON values

JSON has no infinite numbers; null stands for them.
-/

namespace CallerGraph

namespace Json

/-- The number of an integer. -/
def ofInt (n : Int) : Json :=
  number n.repr

/-- The number of a decimal number, or null if it is not finite. -/
def ofDecimal (decimal : Decimal) : Json :=
  if decimal.isFinite then number decimal.literal else null

end Json

end CallerGraph
