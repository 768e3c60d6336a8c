import FlowGraph.Proofs.Graph.Building
import FlowGraph.Proofs.Json.Printing
import FlowGraph.Proofs.Json.Records
import FlowGraph.Proofs.Variable.Normal

/-! # Saved graphs are read back

    Records leave out what is empty or absent, and their readers take what is not there for
    just that.  So a saved graph is read back from its text, with its functions at every
    depth, up to one thing: a port constant that is `null` is no constant
    (`GraphData.withoutNulls`).

    Main statements: `GraphData.decode_toJson` for the JSON form, and `GraphData.parse_pretty`
    for the text. -/

namespace FlowGraph

/-! ## Section 1: Records of ports and positions -/

theorem PortConnection.decode_toJson (c : PortConnection) :
    decode (Source.ofJson c.toJson) = .ok c := by
  refine Record.decode_present [("nodeGuid", some (.str c.nodeGuid)),
    ("portName", some (.str c.portName)), ("portIndex", some (.int c.portIndex))]
    (by simp) _ (mk c.nodeGuid c.portName c.portIndex) ?_
  rintro r ⟨hguid, hport, hindex⟩
  refine Placed.seq_pure (Placed.seq_pure (Placed.map_pure mk ?_) ?_) ?_
  · exact hguid.required rfl
  · exact hport.required rfl
  · exact hindex.withDefault (by rintro j ⟨⟩; rfl) (by rintro ⟨⟩)

theorem Position.decode_toJson (p : Position) : decode (Source.ofJson p.toJson) = .ok p := by
  refine Record.decode_present [("x", some (.float p.x)), ("y", some (.float p.y))]
    (by simp) _ (mk p.x p.y) ?_
  rintro r ⟨hx, hy⟩
  refine Placed.seq_pure (Placed.map_pure mk ?_) ?_
  · exact hx.required rfl
  · exact hy.required rfl

/-- A list that is written if it is not empty. -/
def listed {α : Type} (write : α → Json) (xs : List α) : Option Json :=
  if xs.isEmpty then none else some (.arr (xs.map write))

/-- A list is read back, also if it is not written. -/
theorem Record.Holds.withDefault_listed {α β : Type} {r : Record} {name : String}
    {reader : Source → Except Fault β} {write : α → Json} (read : α → β) {xs : List α}
    (h : r.Holds name (listed write xs))
    (hread : ∀ x ∈ xs, reader (Source.ofJson (write x)) = .ok (read x)) :
    r.withDefault name [] (Source.list reader) = pure (xs.map read) := by
  refine h.withDefault (fun j hj => ?_) (fun hnone => ?_)
  · unfold listed at hj
    split at hj
    · cases hj
    · cases hj
      exact Source.list_ofJson reader write read xs hread
  · unfold listed at hnone
    split at hnone
    · rename_i hempty
      rw [List.isEmpty_iff.mp hempty]
      rfl
    · cases hnone

namespace PortData

/-- A constant `null` counts as absent. -/
def withoutNull (p : PortData) : PortData :=
  { p with value := if p.value = some .null then none else p.value }

/-- What is written of each field. -/
def written (p : PortData) : List (String × Option Json) :=
  [("name", some (.str p.name)), ("index", some (.int p.index)), ("value", p.value),
    ("connections", listed PortConnection.toJson p.connections)]

theorem toJson_eq (p : PortData) : p.toJson = .obj (Record.present p.written) := by
  unfold toJson written listed
  cases p.value <;> cases p.connections <;> rfl

theorem decode_toJson (p : PortData) (hvalue : ∀ j, p.value = some j → j.sorted = j) :
    decode (Source.ofJson p.toJson) = .ok p.withoutNull := by
  rw [toJson_eq]
  refine Record.decode_present p.written (by simp [written]) _
    (mk p.name p.index p.withoutNull.value p.connections) ?_
  rintro r ⟨hname, hindex, hconstant, hconnections⟩
  refine Placed.seq_pure (Placed.seq_pure (Placed.seq_pure (Placed.map_pure mk ?_) ?_) ?_) ?_
  · exact hname.required rfl
  · exact hindex.withDefault (by rintro j ⟨⟩; rfl) (by rintro ⟨⟩)
  · refine hconstant.withDefault (fun j hj => ?_) (fun hnone => ?_)
    · have hread := Source.value_ofJson j
      rw [hvalue j hj] at hread
      -- an optional field takes a null for none
      cases j <;> simp_all [withoutNull, Source.optional, Source.ofJson, Except.map]
    · have hnone : p.value = none := hnone
      simp [withoutNull, hnone]
  · have hread := hconnections.withDefault_listed id fun c _ => c.decode_toJson
    rwa [List.map_id] at hread

end PortData

/-! ## Section 2: Nodes, groups and variables -/

namespace NodeData

/-- The constants that are `null` count as absent. -/
def withoutNulls (n : NodeData) : NodeData := { n with ports := n.ports.map PortData.withoutNull }

/-- What is written of each field. -/
def written (n : NodeData) : List (String × Option Json) :=
  [("guid", some (.str n.guid)), ("type", some (.str n.type)),
    ("genericArguments", listed .str n.genericArguments), ("position", some n.position.toJson),
    ("serializedData", some (.str n.serializedData)), ("ports", listed PortData.toJson n.ports)]

theorem toJson_eq (n : NodeData) : n.toJson = .obj (Record.present n.written) := by
  unfold toJson written listed
  cases n.genericArguments <;> cases n.ports <;> rfl

theorem decode_toJson (n : NodeData)
    (hvalues : ∀ p ∈ n.ports, ∀ j, p.value = some j → j.sorted = j) :
    decode (Source.ofJson n.toJson) = .ok n.withoutNulls := by
  rw [toJson_eq]
  refine Record.decode_present n.written (by simp [written]) _
    (mk n.guid n.type n.genericArguments n.position n.serializedData n.withoutNulls.ports) ?_
  rintro r ⟨hguid, htype, harguments, hposition, hdata, hports⟩
  refine Placed.seq_pure (Placed.seq_pure (Placed.seq_pure (Placed.seq_pure (Placed.seq_pure
    (Placed.map_pure mk ?_) ?_) ?_) ?_) ?_) ?_
  · exact hguid.required rfl
  · exact htype.required rfl
  · have hread : r.withDefault "genericArguments" [] (Source.list Source.text) =
        pure (n.genericArguments.map id) := harguments.withDefault_listed id fun _ _ => rfl
    rwa [List.map_id] at hread
  · exact hposition.withDefault (by rintro j ⟨⟩; exact n.position.decode_toJson) (by rintro ⟨⟩)
  · exact hdata.withDefault (by rintro j ⟨⟩; rfl) (by rintro ⟨⟩)
  · exact hports.withDefault_listed PortData.withoutNull fun p hp => p.decode_toJson (hvalues p hp)

end NodeData

namespace NodeGroup

/-- What is written of each field. -/
def written (g : NodeGroup) : List (String × Option Json) :=
  [("id", some (.str g.id)), ("name", some (.str g.name)), ("nodes", some (.arr (g.nodes.map .str))),
    ("position", some g.position.toJson), ("color", g.color.map .str),
    ("description", g.description.map .str)]

theorem toJson_eq (g : NodeGroup) : g.toJson = .obj (Record.present g.written) := by
  unfold toJson written
  cases g.color <;> cases g.description <;> rfl

/-- A text that may be absent is read back. -/
theorem withDefault_text {r : Record} {name : String} {text : Option String}
    (h : r.Holds name (text.map .str)) :
    r.withDefault name none (Source.optional Source.text) = pure text := by
  refine h.withDefault (fun j hj => ?_) (fun hnone => ?_)
  · obtain ⟨s, rfl, rfl⟩ := Option.map_eq_some_iff.mp hj
    rfl
  · exact (Option.map_eq_none_iff.mp hnone).symm

theorem decode_toJson (g : NodeGroup) : decode (Source.ofJson g.toJson) = .ok g := by
  rw [toJson_eq]
  refine Record.decode_present g.written (by simp [written]) _
    (mk g.id g.name g.nodes g.position g.color g.description) ?_
  rintro r ⟨hid, hname, hnodes, hposition, hcolor, hdescription⟩
  refine Placed.seq_pure (Placed.seq_pure (Placed.seq_pure (Placed.seq_pure (Placed.seq_pure
    (Placed.map_pure mk ?_) ?_) ?_) ?_) ?_) ?_
  · exact hid.required rfl
  · exact hname.required rfl
  · exact hnodes.withDefault (by rintro j ⟨⟩; exact Source.list_text g.nodes) (by rintro ⟨⟩)
  · exact hposition.withDefault (by rintro j ⟨⟩; exact g.position.decode_toJson) (by rintro ⟨⟩)
  · exact withDefault_text hcolor
  · exact withDefault_text hdescription

end NodeGroup

namespace VariableData

/-- What is written of each field. -/
def written (d : VariableData) : List (String × Option Json) :=
  [("name", some (.str d.name)), ("valueType", some (.str d.valueType.text)),
    ("value", some d.value), ("isShared", some (.bool d.isShared)),
    ("isGlobal", some (.bool d.isGlobal)), ("isExposed", some (.bool d.isExposed))]

theorem decode_type (type : PortType) (htype : ∀ n, type = .generic n → n < twoTo 64) :
    PortType.decode (.str type.text) = .ok type := by
  unfold PortType.decode
  simp [Source.text, PortType.parse_text type htype, bind, Except.bind]

theorem decode_toJson (d : VariableData) (htype : ∀ n, d.valueType = .generic n → n < twoTo 64)
    (hvalue : d.value.sorted = d.value) : decode (Source.ofJson d.toJson) = .ok d := by
  refine Record.decode_present d.written (by simp [written]) _
    (mk d.name d.valueType d.value d.isShared d.isGlobal d.isExposed) ?_
  rintro r ⟨hname, htype', hvalue', hshared, hglobal, hexposed⟩
  refine Placed.seq_pure (Placed.seq_pure (Placed.seq_pure (Placed.seq_pure (Placed.seq_pure
    (Placed.map_pure mk ?_) ?_) ?_) ?_) ?_) ?_
  · exact hname.required rfl
  · exact htype'.required (decode_type d.valueType htype)
  · refine hvalue'.withDefault ?_ (by rintro ⟨⟩)
    rintro j ⟨⟩
    rw [Source.value_ofJson, hvalue]
  · exact hshared.withDefault (by rintro j ⟨⟩; rfl) (by rintro ⟨⟩)
  · exact hglobal.withDefault (by rintro j ⟨⟩; rfl) (by rintro ⟨⟩)
  · exact hexposed.withDefault (by rintro j ⟨⟩; rfl) (by rintro ⟨⟩)

end VariableData

/-! ## Section 3: Graphs -/

namespace GraphData

mutual

/-- The constants that are `null` count as absent, in the functions too. -/
def withoutNulls : GraphData → GraphData
  | ⟨name, nodes, vars, groups, functions⟩ =>
    ⟨name, nodes.map NodeData.withoutNulls, vars, groups, functionsWithoutNulls functions⟩

/-- Each function without such constants. -/
def functionsWithoutNulls : List (String × GraphData) → List (String × GraphData)
  | [] => []
  | (name, graph) :: rest => (name, withoutNulls graph) :: functionsWithoutNulls rest

end

/-- What the fields of a saved graph can hold: JSON values in sorted form, and types whose
    indices are machine words. -/
structure Regular (d : GraphData) : Prop where
  constants : ∀ n ∈ d.nodes, ∀ p ∈ n.ports, ∀ j, p.value = some j → j.sorted = j
  values : ∀ v ∈ d.vars, v.value.sorted = v.value
  types : ∀ v ∈ d.vars, ∀ n, v.valueType = .generic n → n < twoTo 64

/-- The JSON form of a function. -/
def functionJson (f : String × GraphData) : Json :=
  .obj [("name", .str f.1), ("graph", f.2.toJson)]

theorem functionsToJson_eq (functions : List (String × GraphData)) :
    functionsToJson functions = functions.map functionJson := by
  induction functions with
  | nil => rfl
  | cons f rest ih => exact congrArg _ ih

theorem functionsWithoutNulls_eq (functions : List (String × GraphData)) :
    functionsWithoutNulls functions = functions.map fun f => (f.1, f.2.withoutNulls) := by
  induction functions with
  | nil => rfl
  | cons f rest ih => exact congrArg _ ih

/-- What is written of each field. -/
def written (d : GraphData) : List (String × Option Json) :=
  [("name", some (.str d.name)), ("nodes", some (.arr (d.nodes.map NodeData.toJson))),
    ("variables", some (.arr (d.vars.map VariableData.toJson))),
    ("nodeGroups", listed NodeGroup.toJson d.nodeGroups),
    ("functions", listed functionJson d.functions)]

theorem toJson_eq (d : GraphData) : d.toJson = .obj (Record.present d.written) := by
  obtain ⟨name, nodes, vars, groups, functions⟩ := d
  unfold toJson written listed
  rw [functionsToJson_eq]
  cases groups <;> cases functions <;> rfl

/-- Functions are nested deeper than the graph. -/
theorem depth_function (d : GraphData) (f : String × GraphData) (hf : f ∈ d.functions) :
    (Source.ofJson f.2.toJson).depth < (Source.ofJson d.toJson).depth := by
  have hgraph : (Source.ofJson f.2.toJson).depth < (Source.ofJson (functionJson f)).depth :=
    Nat.lt_succ_of_le (Source.depth_le_depthFields _ ("graph", f.2.toJson)
      (List.mem_cons_of_mem _ List.mem_cons_self))
  have hitem : (Source.ofJson (functionJson f)).depth <
      (Source.ofJson (.arr (d.functions.map functionJson))).depth :=
    Nat.lt_succ_of_le (Source.depth_le_depthItems _ _ (List.mem_map_of_mem hf))
  have hwritten : listed functionJson d.functions = some (.arr (d.functions.map functionJson)) := by
    unfold listed
    rw [if_neg]
    intro hempty
    rw [List.isEmpty_iff.mp hempty] at hf
    cases hf
  have hfield : ("functions", Json.arr (d.functions.map functionJson)) ∈
      Record.present d.written := by
    refine List.mem_filterMap.mpr ⟨("functions", listed functionJson d.functions), ?_, ?_⟩
    · simp [written]
    · rw [hwritten]
      rfl
  have hlist := Nat.lt_succ_of_le (Source.depth_le_depthFields _ _ hfield)
  rw [d.toJson_eq]
  exact (hgraph.trans hitem).trans hlist

theorem decodeFunction_toJson (decodeGraph : Source → Except Fault GraphData)
    (f : String × GraphData) (g : GraphData)
    (hg : decodeGraph (Source.ofJson f.2.toJson) = .ok g) :
    decodeFunction decodeGraph (Source.ofJson (functionJson f)) = .ok (f.1, g) := by
  refine Record.decode_present [("name", some (.str f.1)), ("graph", some f.2.toJson)]
    (by simp) _ (f.1, g) ?_
  rintro r ⟨hname, hgraph⟩
  refine Placed.seq_pure (Placed.map_pure Prod.mk ?_) ?_
  · exact hname.required rfl
  · exact hgraph.required hg

/-- A graph is read back, whatever bound on the nesting is enough for it. -/
theorem decodeWithin_toJson (d : GraphData) (hd : d.All Regular) (bound : Nat)
    (hbound : (Source.ofJson d.toJson).depth < bound) :
    decodeWithin bound (Source.ofJson d.toJson) = .ok d.withoutNulls := by
  -- by induction on the nesting of the functions, which are read with a smaller bound
  induction hd generalizing bound with
  | intro d hregular _ ih =>
    obtain ⟨bound, rfl⟩ : ∃ b, bound = b + 1 := ⟨bound - 1, by omega⟩
    have hfunctions : ∀ f ∈ d.functions, decodeFunction (decodeWithin bound)
        (Source.ofJson (functionJson f)) = .ok (f.1, f.2.withoutNulls) := by
      intro f hf
      have hdeeper := d.depth_function f hf
      exact decodeFunction_toJson _ f _ (ih f hf bound (by omega))
    have hnormal : d.withoutNulls = mk d.name (d.nodes.map NodeData.withoutNulls) d.vars
        d.nodeGroups (d.functions.map fun f => (f.1, f.2.withoutNulls)) := by
      rw [← functionsWithoutNulls_eq]
      cases d
      rfl
    rw [toJson_eq, hnormal]
    refine Record.decode_present d.written (by simp [written]) _ _ ?_
    rintro r ⟨hname, hnodes, hvars, hgroups, hlocals⟩
    refine Placed.seq_pure (Placed.seq_pure (Placed.seq_pure (Placed.seq_pure
      (Placed.map_pure mk ?_) ?_) ?_) ?_) ?_
    · exact hname.withDefault (by rintro j ⟨⟩; rfl) (by rintro ⟨⟩)
    · refine hnodes.withDefault ?_ (by rintro ⟨⟩)
      rintro j ⟨⟩
      exact Source.list_ofJson _ _ _ _ fun n hn => n.decode_toJson (hregular.constants n hn)
    · refine hvars.withDefault ?_ (by rintro ⟨⟩)
      rintro j ⟨⟩
      have hread := Source.list_ofJson VariableData.decode VariableData.toJson id d.vars
        fun v hv => v.decode_toJson (hregular.types v hv) (hregular.values v hv)
      rwa [List.map_id] at hread
    · have hread := hgroups.withDefault_listed id fun g _ => g.decode_toJson
      rwa [List.map_id] at hread
    · exact hlocals.withDefault_listed _ hfunctions

/-- A graph is read back from its JSON form. -/
theorem decode_toJson (d : GraphData) (hd : d.All Regular) :
    decode (Source.ofJson d.toJson) = .ok d.withoutNulls :=
  decodeWithin_toJson d hd _ (Nat.lt_succ_self _)

/-! ## Section 4: Texts -/

/-- **Main theorem: saving loses nothing.**  The text of a graph is read as the graph, up to
    constants that are `null`, if the text of each number in it is read as the number and the
    reader follows its nesting. -/
theorem parse_pretty (d : GraphData) (hd : d.All Regular)
    (hnumbers : ∀ n ∈ d.toJson.numbers, n.Legible)
    (hdepth : (Source.ofJson d.toJson).depth ≤ Source.maxDepth) :
    parse d.pretty = .ok d.withoutNulls := by
  have htext : Document.ofText d.pretty = ⟨Source.ofJson d.toJson, false⟩ :=
    Json.ofText_pretty d.toJson hnumbers hdepth
  have hdecode := decode_toJson d hd
  unfold parse Document.decode
  rw [htext]
  dsimp only
  rw [hdecode]
  rfl

/-- A graph with a function in it, whose inner node has a constant that is `null`. -/
def nested : GraphData where
  name := "ou\ter \"é\""
  nodes := [{
    guid := "a", type := "Call", position := ⟨2.5, -120⟩, serializedData := "\x7b\n\x7d"
    ports := [
      { name := "out", connections := [⟨"b", "in", 18446744073709551615⟩] },
      { name := "in", value := some (.obj [("k", .arr [.int (-3), .float 0.1])]) }] }]
  vars := [{ name := "v", valueType := .generic 2, value := .arr [], isExposed := true }]
  nodeGroups := [{ id := "g", name := "", nodes := ["a"], color := some "red" }]
  functions := [("f", {
    nodes := [{
      guid := "b", type := "Print", genericArguments := ["int"], position := ⟨0, 0⟩
      ports := [{ name := "in", index := 1, value := some .null }] }] })]

theorem nested_regular : nested.All Regular := by
  refine .intro _ ⟨?_, ?_, ?_⟩ ?_
  · decide +kernel
  · decide +kernel
  · intro v hv n hn
    rw [List.mem_singleton.mp hv] at hn
    cases hn
    decide
  · intro f hf
    rw [List.mem_singleton.mp hf]
    refine .intro _ ⟨?_, ?_, ?_⟩ ?_
    · decide +kernel
    · simp
    · simp
    · simp

theorem parse_pretty_nested :
    parse nested.pretty = .ok nested.withoutNulls ∧
      ((nested.function? "f").bind (·.node? "b")).map (·.ports) =
        some [{ name := "in", index := 1, value := some .null }] ∧
      ((nested.withoutNulls.function? "f").bind (·.node? "b")).map (·.ports) =
        some [{ name := "in", index := 1 }] :=
  ⟨parse_pretty nested nested_regular (by decide +kernel) (by decide +kernel),
    by decide +kernel, by decide +kernel⟩

end GraphData
end FlowGraph
