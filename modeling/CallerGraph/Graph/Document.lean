import CallerGraph.Graph.Basic
import CallerGraph.Json.Record

/-!
# Graphs as documents

A viewer reads a graph as a JSON object with its nodes and its calls, both
in order. A call is marked as recursive only when it is.

`Graph.payload` is the text of that document. Nodes and calls can be read
back, one by one, with `Node.ofJson?` and `Call.ofJson?`.
-/

namespace CallerGraph

/-- The roles by their names. -/
def Role.names : List (String × Role) :=
  [Role.root, Role.leaf, Role.intermediate].map fun role => (role.name, role)

/-- The names of the fields of a node, in order. -/
def Node.fieldNames : List String :=
  ["id", "className", "methodName", "params", "packageName", "classColor", "isEntry",
    "nodeType", "isOverride"]

/-- A node as a JSON object. -/
def Node.toJson (node : Node) : Json :=
  .object (Node.fieldNames.zip
    [.string node.id.text, .string node.className, .string node.methodName,
      .string node.params, .string node.packageName, .string node.classColor,
      .bool node.isEntry, .string node.role.name, .bool node.isOverride])

/-- Reads a node; every field has to be there. -/
def Node.ofJson? (value : Json) : Option Node := do
  match ← value.slots? Node.fieldNames false with
  | [id, className, methodName, params, packageName, classColor, isEntry, role, isOverride] =>
      let id ← Json.required Json.text? id
      let className ← Json.required Json.text? className
      let methodName ← Json.required Json.text? methodName
      let params ← Json.required Json.text? params
      let packageName ← Json.required Json.text? packageName
      let classColor ← Json.required Json.text? classColor
      let isEntry ← Json.required Json.flag? isEntry
      let role ← Json.required (Json.named? Role.names) role
      let isOverride ← Json.required Json.flag? isOverride
      pure ⟨⟨id⟩, className, methodName, params, packageName, classColor, isEntry, role, isOverride⟩
  | _ => none

/-- The names of the fields of a call, in order. -/
def Call.fieldNames : List String :=
  ["source", "target", "recursive"]

/-- A call as a JSON object. -/
def Call.toJson (call : Call) : Json :=
  .object ([("source", .string call.source.text), ("target", .string call.target.text)] ++
    if call.recursive then [("recursive", .bool true)] else [])

/-- Reads a call; one that does not say so is not recursive. -/
def Call.ofJson? (value : Json) : Option Call := do
  match ← value.slots? Call.fieldNames false with
  | [source, target, recursive] =>
      let source ← Json.required Json.text? source
      let target ← Json.required Json.text? target
      let recursive ← Json.optional false Json.flag? recursive
      pure ⟨⟨source⟩, ⟨target⟩, recursive⟩
  | _ => none

namespace Graph

/-- A graph as a JSON object. -/
def toJson (graph : Graph) : Json :=
  .object [("nodes", .array (graph.nodes.map Node.toJson)),
    ("edges", .array (graph.calls.map Call.toJson))]

/-- The text of a graph for a viewer. -/
def payload (graph : Graph) : String :=
  graph.toJson.write .indented

end Graph

end CallerGraph
