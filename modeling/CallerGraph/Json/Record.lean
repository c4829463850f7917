import CallerGraph.Json.Basic
import CallerGraph.Text.Digit

/-!
# Reading values out of JSON

A record is written as an object with named fields or as an array with the
fields in order. `Json.slots?` brings both to the same form, one optional
value for each field, and refuses what no record can be: a repeated field,
more items than fields, and for a closed record a field it does not have.
What a missing field means is left to the record.

One of several names is written as a string, or as an object whose only
field has that name and the value null.
-/

namespace CallerGraph

namespace Json

/-- The text of a string. -/
def text? : Json → Option String
  | string text => some text
  | _ => none

/-- The value of a truth value. -/
def flag? : Json → Option Bool
  | bool value => some value
  | _ => none

/-- A natural number below a bound, spelled with digits alone. -/
def natural? (bound : Nat) : Json → Option Nat
  | number literal => (Text.decimal? literal.toList).filter (· < bound)
  | _ => none

/-- The items of an array of texts. -/
def texts? : Json → Option (List String)
  | array items => items.mapM text?
  | _ => none

/-- The value with a name, by the table of all names. -/
def named? {α : Type} (table : List (String × α)) : Json → Option α
  | string name => table.lookup name
  | object [(name, null)] => table.lookup name
  | _ => none

/-- The entries of a map, later ones in the place of earlier ones of the
same name. All of them have to be readable, also those that do not count. -/
def entries? {α : Type} (read : Json → Option α) : Json → Option (List (String × α))
  | object fields => do
      let entries ← fields.mapM fun (name, value) => (read value).map fun found => (name, found)
      pure (entries.foldl (fun known entry => known.filter (·.1 != entry.1) ++ [entry]) [])
  | _ => none

/-- The values of a record by the names of its fields. -/
def slots? (names : List String) (closed : Bool) : Json → Option (List (Option Json))
  | object fields =>
      let known := (fields.map (·.1)).filter names.contains
      if known.eraseDups.length ≠ known.length then none
      else if closed ∧ known.length ≠ fields.length then none
      else some (names.map fun name => fields.lookup name)
  | array items =>
      if names.length < items.length then none
      else some ((List.range names.length).map fun i => items[i]?)
  | _ => none

/-- The value of a field that has to be there. -/
def required {α : Type} (read : Json → Option α) (slot : Option Json) : Option α :=
  slot.bind read

/-- The value of a field that may be missing. -/
def optional {α : Type} (missing : α) (read : Json → Option α) : Option Json → Option α
  | none => some missing
  | some value => read value

end Json

end CallerGraph
