import CallerGraph.Json.Basic

/-!
# Merging JSON values

A value is laid over another one: objects are merged field by field, and
any other value takes the place of what is below it.
-/

namespace CallerGraph

namespace Json

/-- Gives a field a value, in the place of the one it has. -/
def putField (fields : List (String × Json)) (name : String) (value : Json) :
    List (String × Json) :=
  if (fields.lookup name).isSome then
    fields.map fun field => if field.1 = name then (name, value) else field
  else fields ++ [(name, value)]

mutual

/-- Lays a value over another one. -/
def merge (below : Json) : Json → Json
  | object fields =>
      match below with
      | object known => object (mergeFields known fields)
      | _ => object fields
  | value => value

/-- Lays fields over others, one after the other. -/
def mergeFields (known : List (String × Json)) : List (String × Json) → List (String × Json)
  | [] => known
  | (name, value) :: fields =>
      let merged := match known.lookup name with
        | some old => merge old value
        | none => value
      mergeFields (putField known name merged) fields

end

end Json

end CallerGraph
