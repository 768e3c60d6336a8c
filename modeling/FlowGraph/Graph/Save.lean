import FlowGraph.Graph.Basic

/-! # Saving

    The saved form of a live graph.  A placeholder is saved as it was loaded; any
    other node with its simple fields and, among them, its variables. -/

namespace FlowGraph

namespace GraphNode

/-- The simple fields as an object: a value of another kind becomes the field
    `value`, and `null` has no fields. -/
def objectFields : Json → List (String × Json)
  | .obj fields => fields
  | .null => []
  | other => [("value", other)]

/-- The fields of a node, with its variables among them. -/
def savedFields (n : GraphNode) (vs : Variables) : Json :=
  .obj (n.vars.foldl (fun fields v => Json.insertField v.1 (vs.toData v.2).toJson.sorted fields)
    (objectFields n.behavior.fields))

/-- The saved form. -/
def toData (n : GraphNode) (vs : Variables) : NodeData :=
  match n.invalid with
  | some invalid =>
    ⟨n.guid, invalid.type, invalid.genericArguments, n.position, invalid.serializedData, n.records⟩
  | none =>
    ⟨n.guid, n.type, n.genericArguments.map PortType.text, n.position,
      (n.savedFields vs).compact, n.records⟩

end GraphNode

namespace Graph

mutual

/-- The saved form. -/
def toData (vs : Variables) : Graph → GraphData
  | ⟨network, groups, functions, _⟩ =>
    { name := network.name
      nodes := network.placed.map fun e => e.2.toData vs
      vars := network.blackboard.map vs.toData
      nodeGroups := groups
      functions := functionsToData vs functions }

/-- The saved form of each function. -/
def functionsToData (vs : Variables) : List (String × Graph) → List (String × GraphData)
  | [] => []
  | (name, g) :: rest => (name, toData vs g) :: functionsToData vs rest

end

end Graph
end FlowGraph
