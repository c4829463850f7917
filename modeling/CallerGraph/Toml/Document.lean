import CallerGraph.Toml.Basic

/-!
# What the statements of a document make

The statements of a document fill a tree of tables, `Toml.Fields`. Not all
of them fit together: no key gets two values, no value has fields, and a
table is made in one way only.

A table can be implied by a header for a table inside it, and then have a
header of its own later on. A table that a key with dots has made can be
filled by such keys alone. On its way to the table that it fills such a
key may lead through tables that are implied and through the last table of
an array, but not through one that has a header.
-/

namespace CallerGraph

namespace Toml

/-- How a table came about. -/
inductive Standing where
  /-- A header for a table inside it leads through it. -/
  | implied
  /-- A key with dots leads through it. -/
  | dotted
  /-- It has a header of its own. -/
  | opened
deriving DecidableEq, Repr

/-- What stands at a name of a table. -/
inductive Item where
  | value (value : Json)
  | table (standing : Standing) (fields : List (String × Item))
  /-- An array of tables, of which only the last can still be filled. -/
  | tables (done : List Json) (last : List (String × Item))

/-- The items of a table by their names. -/
abbrev Fields := List (String × Item)

mutual

/-- The value that an item stands for. -/
def Item.toJson : Item → Json
  | .value value => value
  | .table _ fields => .object (itemsToJson fields)
  | .tables done last => .array (done ++ [.object (itemsToJson last)])

/-- The values of the items of a table. -/
def itemsToJson : List (String × Item) → List (String × Json)
  | [] => []
  | (name, item) :: items => (name, item.toJson) :: itemsToJson items

end

namespace Fields

/-- The object that a table stands for. -/
def toJson (fields : Fields) : Json :=
  .object (itemsToJson fields)

/-- Puts an item at a name, in the place of what was there. -/
def put (fields : Fields) (name : String) (item : Item) : Fields :=
  fields.filter (·.1 != name) ++ [(name, item)]

/-- Changes the table that a path of names leads to. Tables that are
missing on the way are implied. -/
def within (change : Fields → Option Fields) : List String → Fields → Option Fields
  | [], fields => change fields
  | name :: names, fields =>
      match fields.lookup name with
      | none => (within change names []).map fun inner => fields.put name (.table .implied inner)
      | some (.table standing inner) =>
          (within change names inner).map fun inner => fields.put name (.table standing inner)
      | some (.tables done last) =>
          (within change names last).map fun last => fields.put name (.tables done last)
      | some (.value _) => none

/-- Gives a value to a key. With `mayFill` a value can be put into this
very table. -/
def assign (value : Json) (mayFill : Bool) : List String → Fields → Option Fields
  | [], _ => none
  | [name], fields =>
      if mayFill && (fields.lookup name).isNone then some (fields.put name (.value value))
      else none
  | name :: names, fields =>
      match fields.lookup name with
      | none => (assign value true names []).map fun inner => fields.put name (.table .dotted inner)
      | some (.table .dotted inner) =>
          (assign value true names inner).map fun inner => fields.put name (.table .dotted inner)
      | some (.table .implied inner) =>
          (assign value false names inner).map fun inner => fields.put name (.table .implied inner)
      | some (.tables done last) =>
          (assign value false names last).map fun last => fields.put name (.tables done last)
      | some (.table .opened _) | some (.value _) => none

/-- Opens the table at a name. -/
def openTable (name : String) (fields : Fields) : Option Fields :=
  match fields.lookup name with
  | none => some (fields.put name (.table .opened []))
  | some (.table .implied inner) => some (fields.put name (.table .opened inner))
  | some _ => none

/-- Opens a new table in the array of tables at a name. -/
def openNext (name : String) (fields : Fields) : Option Fields :=
  match fields.lookup name with
  | none => some (fields.put name (.tables [] []))
  | some (.tables done last) =>
      some (fields.put name (.tables (done ++ [.object (itemsToJson last)]) []))
  | some _ => none

/-- The table of assignments alone. -/
def ofAssignments? (assignments : List (List String × Json)) : Option Fields :=
  assignments.foldlM (fun fields (key, value) => fields.assign value true key) []

end Fields

/-- The fields that statements make, from the last header and the fields
so far. -/
def Statement.applyAll : List Statement → List String → Fields → Option Fields
  | [], _, fields => some fields
  | .assign key value :: statements, header, fields => do
      let fields ← fields.within (Fields.assign value true key) header
      applyAll statements header fields
  | .openTable key :: statements, _, fields => do
      let fields ← fields.within (Fields.openTable (key.getLastD "")) key.dropLast
      applyAll statements key fields
  | .openNext key :: statements, _, fields => do
      let fields ← fields.within (Fields.openNext (key.getLastD "")) key.dropLast
      applyAll statements key fields

/-- The fields of a whole document. -/
def Fields.ofStatements? (statements : List Statement) : Option Fields :=
  Statement.applyAll statements [] []

end Toml

end CallerGraph
