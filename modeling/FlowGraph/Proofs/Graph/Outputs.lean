import FlowGraph.Proofs.Graph.Slotted

/-! # Outputs of the library's nodes

    A node writes some of its ports by name (`Behavior.writes`).  The types of the library
    declare these ports as outputs (`Registry.resolve_outputs`), so in a graph whose nodes have
    such types every slot that a node finds by one of these names is an output
    (`GraphNode.Typed.direction_of_portIndex`). -/

namespace FlowGraph

/-- The names of the ports that a node writes. -/
def Behavior.writes : Behavior → List String
  | .executionEvent _ => ["args"]
  | .functionInput _ => ["args"]
  | .forLoop => ["index"]
  | .delay => ["handle"]
  | .literal _ _ => ["value"]
  | .add => ["result"]
  | .multiply => ["result"]
  | .compare _ => ["result"]
  | .getVariable => ["value"]
  | .invokeFunction _ => ["result"]
  | .describeTarget => ["kind", "valid", "object"]
  | _ => []

/-- All declared ports of these names are outputs. -/
def NodeDescriptor.Outputs (d : NodeDescriptor) (names : List String) : Prop :=
  ∀ p ∈ d.ports, p.name ∈ names → p.direction = .output

instance (d : NodeDescriptor) (names : List String) : Decidable (d.Outputs names) := by
  unfold NodeDescriptor.Outputs
  infer_instance

/-- Only the outline of the ports matters. -/
theorem NodeDescriptor.Outputs.of_outline {d e : NodeDescriptor} {names : List String}
    (he : e.Outputs names)
    (h : d.ports.map PortDescriptor.outline = e.ports.map PortDescriptor.outline) :
    d.Outputs names := by
  intro p hp hname
  have hmem : p.outline ∈ e.ports.map PortDescriptor.outline := by
    rw [← h]
    exact List.mem_map_of_mem hp
  obtain ⟨q, hq, hqp⟩ := List.mem_map.mp hmem
  obtain ⟨hnames, hdirections, _⟩ : q.name = p.name ∧ q.direction = p.direction ∧
      q.array = p.array := by simpa [PortDescriptor.outline] using hqp
  rw [← hdirections]
  exact he q hq (hnames ▸ hname)

namespace Registry

/-- What the library's factories make writes outputs of its type. -/
theorem builtin_outputs : ∀ t ∈ Builtin.types,
    Factory.Makes (fun b => t.descriptor.Outputs b.writes) t.factory := by
  have plain := fun (t : NodeType) b h =>
    Factory.makes_plain (fun b => t.descriptor.Outputs b.writes) b h
  simp only [Builtin.types, List.forall_mem_cons]
  refine ⟨?event, plain _ _ (by decide), plain _ _ (by decide), plain _ _ (by decide),
    plain _ _ (by decide), ?log, ?literal, plain _ _ (by decide), plain _ _ (by decide), ?compare,
    plain _ _ (by decide), plain _ _ (by decide), ?input, plain _ _ (by decide), ?invoke,
    plain _ _ (by decide), List.forall_mem_nil _⟩
  case event =>
    refine Factory.makes_withField _ _ _ _ _ fun name => ?_
    show Builtin.executionEvent.descriptor.Outputs ["args"]
    decide
  case log =>
    refine Factory.makes_withField _ _ _ _ _ fun level => ?_
    show Builtin.log.descriptor.Outputs []
    decide
  case literal =>
    refine Factory.makes_literal _ fun type raw => ?_
    show Builtin.literal.descriptor.Outputs ["value"]
    decide
  case compare =>
    refine Factory.makes_withField _ _ _ _ _ fun op => ?_
    show Builtin.compare.descriptor.Outputs ["result"]
    decide
  case input =>
    refine Factory.makes_withField _ _ _ _ _ fun name => ?_
    show Builtin.functionInput.descriptor.Outputs ["args"]
    decide
  case invoke =>
    refine Factory.makes_withField _ _ _ _ _ fun name => ?_
    show Builtin.invokeFunction.descriptor.Outputs ["result"]
    decide

theorem resolve_outputs (data : NodeData) :
    (builtin.resolve data).descriptor.Outputs (builtin.resolve data).behavior.writes := by
  unfold resolve
  cases hr : builtin.tryResolve data with
  | error e =>
    intro p hp
    cases hp
  | ok r =>
    obtain ⟨id, t, _, ht, _, hd, hb, _⟩ := builtin.tryResolve_eq_ok data r hr
    -- type arguments do not change the slots of the type
    have houtputs := builtin_outputs t (builtin.mem_types_of_find? id t ht) data.fields _ _ hb
    exact houtputs.of_outline (instantiate_outline data t _ _ hd).2

end Registry

namespace GraphNode

/-- Every slot is one of a declared port. -/
theorem Slotted.declared {x : GraphNode} (hx : x.Slotted) (q : Port) (hq : q ∈ x.ports) :
    ∃ d ∈ x.descriptor.ports, d.name = q.name ∧ d.direction = q.direction := by
  obtain ⟨records, hrecords⟩ := hx
  have hmem : q.unlinked ∈ Layout.portsOf records x.descriptor.ports := by
    rw [← hrecords]
    exact List.mem_map_of_mem hq
  unfold Layout.portsOf Layout.slots at hmem
  obtain ⟨⟨d, index⟩, hslot, heq⟩ := List.mem_map.mp hmem
  obtain ⟨d', hd', hslots⟩ := List.mem_flatMap.mp hslot
  obtain ⟨_, _, hsame⟩ := List.mem_map.mp hslots
  cases hsame
  exact ⟨d, hd', congrArg Port.name heq, congrArg Port.direction heq⟩

/-- A slot that is found by the name of a port that the node writes is an output. -/
theorem Typed.direction_of_portIndex {x : GraphNode} (hx : x.Typed) (hslotted : x.Slotted)
    (name : String) (hname : name ∈ x.behavior.writes) (index i : Nat)
    (hi : x.portIndex name index = some i) :
    ∃ q, x.ports[i]? = some q ∧ q.direction = .output := by
  obtain ⟨q, hq, hqname, _⟩ : ∃ q : Port,
      x.ports[i]? = some q ∧ q.name = name ∧ q.index = index := by
    obtain ⟨hlt, hslot, _⟩ := List.findIdx?_eq_some_iff_getElem.mp hi
    exact ⟨x.ports[i], List.getElem?_eq_getElem hlt, by simpa [Port.isSlot] using hslot⟩
  obtain ⟨d, hd, hdname, hdirection⟩ := hslotted.declared q (List.mem_of_getElem? hq)
  obtain ⟨data, hdescriptor, hbehavior⟩ := hx
  have houtputs := Registry.resolve_outputs data
  rw [← hdescriptor, ← hbehavior] at houtputs
  refine ⟨q, hq, hdirection.symm.trans (houtputs d hd ?_)⟩
  rw [hdname, hqname]
  exact hname

end GraphNode
end FlowGraph
