import CallerGraph.Graph.Document
import CallerGraph.Proofs.FirstAppearance
import CallerGraph.Proofs.WrittenJson

/-!
# A graph's document loses nothing

A node is read back from the object that it was written as, and so is a call,
whether it is marked as recursive or not.  Their objects are textual, so a whole
graph is read back from its payload, and graphs with one payload are one graph.

A record that reads an object with its own fields, none of them twice, looks
each of them up; this is `Json.slots?_object`.
-/

namespace CallerGraph

namespace Json

variable {names : List String} {fields : List (String × Json)}

/-- A record looks its fields up in an object that has some of them, in
order. -/
theorem slots?_object (hfields : (fields.map (·.1)).Sublist names) (hnodup : names.Nodup)
    (closed : Bool) :
    (object fields).slots? names closed = some (names.map fun name => fields.lookup name) := by
  have hknown : (fields.map (·.1)).filter names.contains = fields.map (·.1) := by
    apply List.filter_eq_self.2
    intro name hname
    exact List.contains_iff_mem.2 (hfields.subset hname)
  have hdistinct : (fields.map (·.1)).eraseDups = fields.map (·.1) :=
    eraseDups_of_nodup (hfields.nodup hnodup)
  unfold slots?
  simp only [hknown, hdistinct, List.length_map, ne_eq, not_true_eq_false, if_false, and_false]

/-- Does an object have a field with the name? -/
def hasField (name : String) : Json → Bool
  | object fields => (fields.lookup name).isSome
  | _ => false

end Json

namespace Node

/-- **A node is read back.** -/
theorem ofJson?_toJson (node : Node) : ofJson? node.toJson = some node := by
  have hslots : node.toJson.slots? fieldNames false = some
      [some (.string node.id.text), some (.string node.className),
        some (.string node.methodName), some (.string node.params),
        some (.string node.packageName), some (.string node.classColor),
        some (.bool node.isEntry), some (.string node.role.name), some (.bool node.isOverride)] := by
    unfold toJson
    rw [Json.slots?_object]
    · rfl
    · exact List.Sublist.refl fieldNames
    · decide
  have hrole : Json.named? Role.names (.string node.role.name) = some node.role := by
    cases node.role <;> decide
  unfold ofJson?
  rw [hslots]
  change (Json.named? Role.names (.string node.role.name)).bind _ = _
  rw [hrole]
  rfl

theorem textual_toJson (node : Node) : node.toJson.Textual := by
  apply Json.Textual.object
  have hvalues : ∀ value ∈ [Json.string node.id.text, .string node.className,
      .string node.methodName, .string node.params, .string node.packageName,
      .string node.classColor, .bool node.isEntry, .string node.role.name,
      .bool node.isOverride], value.Textual := by
    simp only [List.forall_mem_cons, Json.Textual.string, Json.Textual.bool, true_and]
    exact List.forall_mem_nil _
  exact fun field hfield => hvalues field.2 (List.of_mem_zip hfield).2

end Node

namespace Call

/-- **A call is read back.** -/
theorem ofJson?_toJson (call : Call) : ofJson? call.toJson = some call := by
  obtain ⟨source, target, recursive⟩ := call
  cases recursive with
  | true =>
      have hslots : (toJson ⟨source, target, true⟩).slots? fieldNames false = some
          [some (.string source.text), some (.string target.text), some (.bool true)] := by
        unfold toJson
        rw [Json.slots?_object]
        · rfl
        · exact List.Sublist.refl fieldNames
        · decide
      unfold ofJson?
      rw [hslots]
      rfl
  | false =>
      have hslots : (toJson ⟨source, target, false⟩).slots? fieldNames false = some
          [some (.string source.text), some (.string target.text), none] := by
        unfold toJson
        rw [Json.slots?_object]
        · rfl
        · exact List.take_sublist 2 fieldNames
        · decide
      unfold ofJson?
      rw [hslots]
      rfl

/-- A call says that it is recursive when it is, and only then. -/
theorem hasField_toJson (call : Call) : call.toJson.hasField "recursive" = call.recursive := by
  obtain ⟨source, target, recursive⟩ := call
  cases recursive <;> rfl

theorem textual_toJson (call : Call) : call.toJson.Textual := by
  apply Json.Textual.object
  obtain ⟨source, target, recursive⟩ := call
  cases recursive with
  | true => simp [Json.Textual.string, Json.Textual.bool]
  | false => simp [Json.Textual.string]

/-- A call that does not say so is not recursive. -/
theorem recursive_of_lookup {fields : List (String × Json)} {call : Call}
    (hread : ofJson? (.object fields) = some call) (hmissing : fields.lookup "recursive" = none) :
    call.recursive = false := by
  obtain ⟨slots, hslots, hcall⟩ := Option.bind_eq_some_iff.1 hread
  have hlooked : slots = [fields.lookup "source", fields.lookup "target", none] := by
    rw [← hmissing]
    unfold Json.slots? at hslots
    simp only [Bool.false_eq_true, false_and, if_false] at hslots
    by_cases hrepeats : ((fields.map (·.1)).filter fieldNames.contains).eraseDups.length ≠
        ((fields.map (·.1)).filter fieldNames.contains).length
    · rw [if_pos hrepeats] at hslots
      cases hslots
    · rw [if_neg hrepeats] at hslots
      exact (Option.some.inj hslots).symm
  subst hlooked
  simp only [Option.bind_eq_bind, Option.bind_eq_some_iff] at hcall
  obtain ⟨source, -, target, -, recursive, hrecursive, heq⟩ := hcall
  cases hrecursive
  cases heq
  rfl

end Call

namespace Graph

theorem textual_toJson (graph : Graph) : graph.toJson.Textual := by
  have hnodes : (Json.array (graph.nodes.map Node.toJson)).Textual :=
    .array (List.forall_mem_map.2 fun node _ => node.textual_toJson)
  have hcalls : (Json.array (graph.calls.map Call.toJson)).Textual :=
    .array (List.forall_mem_map.2 fun call _ => call.textual_toJson)
  apply Json.Textual.object
  simp [hnodes, hcalls]

/-- A payload is read back as the document that it was written for. -/
theorem parse?_payload (graph : Graph) : Json.parse? graph.payload = some graph.toJson :=
  graph.textual_toJson.parse?_written .indented

/-- **Graphs with one document are one graph.** -/
theorem toJson_injective : Function.Injective toJson := by
  intro graph other heq
  obtain ⟨nodes, calls⟩ := graph
  obtain ⟨otherNodes, otherCalls⟩ := other
  simp only [toJson, Json.object.injEq, List.cons.injEq, Prod.mk.injEq, Json.array.injEq,
    true_and, and_true] at heq
  have hnodes := Json.mapM_map_of_forall Node.ofJson?_toJson nodes
  have hcalls := Json.mapM_map_of_forall Call.ofJson?_toJson calls
  rw [heq.1, Json.mapM_map_of_forall Node.ofJson?_toJson] at hnodes
  rw [heq.2, Json.mapM_map_of_forall Call.ofJson?_toJson] at hcalls
  rw [Option.some.inj hnodes, Option.some.inj hcalls]

end Graph

/-- **The payload of a graph loses nothing.**  Whatever texts its nodes have, the
payload is a JSON document: an object with an array of nodes and an array of
calls.  Read item by item these give back the nodes and the calls of the graph,
in order.  A call has the field that marks it as recursive when it is recursive
and only then, and whatever is read as a call without that field is not
recursive.  Graphs with the same payload are the same. -/
theorem payload_loses_nothing (graph : Graph) :
    (∃ nodes calls : List Json,
      Json.parse? graph.payload =
          some (.object [("nodes", .array nodes), ("edges", .array calls)]) ∧
        nodes.mapM Node.ofJson? = some graph.nodes ∧
        calls.mapM Call.ofJson? = some graph.calls ∧
        calls.map (Json.hasField "recursive") = graph.calls.map Call.recursive) ∧
      (∀ (fields : List (String × Json)) (call : Call),
        Call.ofJson? (.object fields) = some call → fields.lookup "recursive" = none →
          call.recursive = false) ∧
      ∀ other : Graph, other.payload = graph.payload → other = graph := by
  refine ⟨⟨graph.nodes.map Node.toJson, graph.calls.map Call.toJson, graph.parse?_payload,
    Json.mapM_map_of_forall Node.ofJson?_toJson graph.nodes,
    Json.mapM_map_of_forall Call.ofJson?_toJson graph.calls, ?_⟩,
    fun fields call => Call.recursive_of_lookup, fun other hpayload => ?_⟩
  · rw [List.map_map]
    exact List.map_congr_left fun call _ => call.hasField_toJson
  · have hread := other.parse?_payload
    rw [hpayload, graph.parse?_payload] at hread
    exact Graph.toJson_injective (Option.some.inj hread).symm

/-- A graph with quotes, backslashes, line feeds and control characters in its
texts, and with one call of each kind. -/
def awkwardGraph : Graph where
  nodes := [⟨⟨"node1"⟩, "A\"", "a\\n\n", "\x01\t", "\x7b\x7d", "#0a0b0c", true, .intermediate, false⟩]
  calls := [⟨⟨"node1"⟩, ⟨"node1"⟩, true⟩, ⟨⟨"node1"⟩, ⟨""⟩, false⟩]

theorem payload_loses_nothing_awkwardGraph :
    (∃ nodes calls : List Json,
      Json.parse? awkwardGraph.payload =
          some (.object [("nodes", .array nodes), ("edges", .array calls)]) ∧
        nodes.mapM Node.ofJson? = some awkwardGraph.nodes ∧
        calls.map (Json.hasField "recursive") = [true, false]) ∧
      (∃ call, Call.ofJson? (.object [("source", .string "a"), ("target", .string "b")]) =
          some call ∧ call.recursive = false) ∧
      Graph.empty.payload ≠ awkwardGraph.payload := by
  obtain ⟨⟨nodes, calls, hparse, hnodes, -, hmarks⟩, hplain, hsame⟩ :=
    payload_loses_nothing awkwardGraph
  have hread : Call.ofJson? (.object [("source", .string "a"), ("target", .string "b")]) =
      some ⟨⟨"a"⟩, ⟨"b"⟩, false⟩ := rfl
  refine ⟨⟨nodes, calls, hparse, hnodes, hmarks⟩, ⟨_, hread, hplain _ _ hread rfl⟩, ?_⟩
  exact fun hpayload => absurd (hsame Graph.empty hpayload) (by decide)

end CallerGraph
