import FlowGraph.Registry
import Mathlib

/-! # Signatures of nodes that run on demand

    Six types of the library run on demand: they neither continue a chain nor wait, and
    compute their outputs from their inputs.  A signature lists the slots of such a node,
    in order; none of its ports is an array.  Whatever the registry resolves to a node on
    demand has the slots that its behavior's signature lists (`resolve_signature`). -/

namespace FlowGraph

/-- The slots of a behavior that runs on demand. -/
def Behavior.signature : Behavior → Option (List (String × PortDirection))
  | .literal _ _ => some [("value", .output)]
  | .add => some [("a", .input), ("b", .input), ("result", .output)]
  | .multiply => some [("a", .input), ("b", .input), ("result", .output)]
  | .compare _ => some [("a", .input), ("b", .input), ("result", .output)]
  | .getVariable => some [("value", .output)]
  | .describeTarget =>
    some [("target", .input), ("object", .output), ("kind", .output), ("valid", .output)]
  | _ => none

theorem Behavior.signature_nodup (b : Behavior) (signature : List (String × PortDirection))
    (h : b.signature = some signature) : (signature.map Prod.fst).Nodup := by
  cases b with
  | literal _ _ => cases h; decide
  | add => cases h; decide
  | multiply => cases h; decide
  | compare _ => cases h; decide
  | getVariable => cases h; decide
  | describeTarget => cases h; decide
  | _ => cases h

/-- The name, the direction and whether it is an array. -/
def PortDescriptor.outline (p : PortDescriptor) : String × PortDirection × Bool :=
  (p.name, p.direction, p.array)

/-- A descriptor declares the slots of a behavior. -/
def NodeDescriptor.Declares (d : NodeDescriptor) (b : Behavior) : Prop :=
  ∃ signature, b.signature = some signature ∧
    d.ports.map PortDescriptor.outline = signature.map fun slot => (slot.1, slot.2, false)

/-! ## Section 1: What factories make -/

theorem bind_eq_ok {ε α β : Type} (x : Except ε α) (f : α → Except ε β) (b : β)
    (h : x >>= f = .ok b) : ∃ a, x = .ok a ∧ f a = .ok b := by
  cases x with
  | error e => cases h
  | ok a => exact ⟨a, rfl, h⟩

theorem decodeWith_eq_ok {α : Type} (reader : Source → Except Fault α) (j : Json) (a : α)
    (h : Json.decodeWith reader j = .ok a) : reader (Source.ofJson j) = .ok a := by
  unfold Json.decodeWith at h
  cases hr : reader (Source.ofJson j) with
  | ok b =>
    rw [hr] at h
    cases h
    rfl
  | error e =>
    rw [hr] at h
    cases h

theorem finish_eq_ok {α : Type} (r : Record) (result : Placed α) (a : α)
    (h : r.finish result = .ok a) : result = Except.ok a := by
  unfold Record.finish at h
  split at h
  · cases h
    rfl
  · cases h
  · cases h
  · cases h

namespace Factory

/-- A behavior that is made was read from the fields. -/
theorem reading_eq_ok (reader : Source → Except Fault Behavior) (fields : Json)
    (arguments : List PortType) (b : Behavior) (h : reading reader fields arguments = .ok b) :
    reader (Source.ofJson fields) = .ok b := by
  unfold reading at h
  cases hd : Json.decodeWith reader fields with
  | ok b' =>
    rw [hd] at h
    cases h
    exact decodeWith_eq_ok reader fields b hd
  | error e =>
    rw [hd] at h
    cases h

theorem plain_eq_ok (behavior b : Behavior) (fields : Json) (arguments : List PortType)
    (h : plain behavior fields arguments = .ok b) : b = behavior := by
  have hread := reading_eq_ok _ fields arguments b h
  cases hr : Record.ofSource [] (Source.ofJson fields) with
  | error e =>
    simp only [hr] at hread
    cases hread
  | ok r =>
    simp only [hr] at hread
    exact (Except.ok.inj (finish_eq_ok r _ b hread)).symm

theorem withField_eq_ok {α : Type} (name : String) (default : α)
    (decode : Source → Except Fault α) (behavior : α → Behavior) (b : Behavior) (fields : Json)
    (arguments : List PortType)
    (h : withField name default decode behavior fields arguments = .ok b) :
    ∃ a, b = behavior a := by
  have hread := reading_eq_ok _ fields arguments b h
  cases hr : Record.ofSource [name] (Source.ofJson fields) with
  | error e =>
    simp only [hr] at hread
    cases hread
  | ok r =>
    simp only [hr] at hread
    have hmade := finish_eq_ok r _ b hread
    cases hf : r.withDefault name default decode with
    | error e =>
      rw [hf] at hmade
      cases hmade
    | ok a =>
      rw [hf] at hmade
      exact ⟨a, (Except.ok.inj hmade).symm⟩

theorem literal_eq_ok (b : Behavior) (fields : Json) (arguments : List PortType)
    (h : literal fields arguments = .ok b) : ∃ type raw, b = .literal type raw := by
  unfold literal at h
  cases arguments with
  | nil => cases h
  | cons type rest =>
    cases h
    exact ⟨type, _, rfl⟩

end Factory

/-! ## Section 2: What the registry resolves -/

/-- Filling in type arguments does not change the outline of a port. -/
theorem mapM_instantiatePort (arguments : List PortType) (ports filled : List PortDescriptor)
    (h : ports.mapM (NodeDescriptor.instantiatePort arguments) = some filled) :
    filled.map PortDescriptor.outline = ports.map PortDescriptor.outline := by
  induction ports generalizing filled with
  | nil =>
    cases h
    rfl
  | cons p rest ih =>
    rw [List.mapM_cons] at h
    obtain ⟨q, hq, h⟩ := Option.bind_eq_some_iff.mp h
    obtain ⟨qs, hqs, h⟩ := Option.bind_eq_some_iff.mp h
    cases h
    obtain ⟨type, _, rfl⟩ := Option.map_eq_some_iff.mp hq
    rw [List.map_cons, List.map_cons, ih qs hqs]
    rfl

theorem instantiate_outline (n : NodeData) (t : NodeType) (arguments : List PortType)
    (d : NodeDescriptor) (h : Registry.instantiate n t arguments = .ok d) :
    d.path = t.descriptor.path ∧
      d.ports.map PortDescriptor.outline = t.descriptor.ports.map PortDescriptor.outline := by
  unfold Registry.instantiate at h
  split at h
  · cases h
    exact ⟨rfl, rfl⟩
  · split at h
    · rename_i filled hfilled
      cases h
      unfold NodeDescriptor.instantiate at hfilled
      split at hfilled
      · cases hfilled
      · obtain ⟨ports, hports, hfilled⟩ := Option.bind_eq_some_iff.mp hfilled
        obtain ⟨vars, _, hfilled⟩ := Option.bind_eq_some_iff.mp hfilled
        cases hfilled
        exact ⟨rfl, mapM_instantiatePort arguments _ ports hports⟩
    · cases h

/-- The types of the library that run on demand. -/
theorem onDemand_types : Builtin.types.filter (fun t => t.descriptor.path = .dependency)
    = [Builtin.literal, Builtin.add, Builtin.multiply, Builtin.compare, Builtin.getVariable,
      Builtin.describeTarget] := rfl

/-- Each of them makes behaviors that have its slots. -/
theorem builtin_signature (t : NodeType) (ht : t ∈ Builtin.types)
    (hpath : t.descriptor.path = .dependency) (fields : Json) (arguments : List PortType)
    (b : Behavior) (hb : t.factory fields arguments = .ok b) : t.descriptor.Declares b := by
  -- one case for each type, by what its factory makes
  have hmem : t ∈ Builtin.types.filter fun t => t.descriptor.path = .dependency :=
    List.mem_filter.mpr ⟨ht, by simpa using hpath⟩
  rw [onDemand_types] at hmem
  simp only [List.mem_cons, List.not_mem_nil, or_false] at hmem
  rcases hmem with rfl | rfl | rfl | rfl | rfl | rfl
  · obtain ⟨type, raw, rfl⟩ := Factory.literal_eq_ok b fields arguments hb
    exact ⟨_, rfl, rfl⟩
  · obtain rfl := Factory.plain_eq_ok _ b fields arguments hb
    exact ⟨_, rfl, rfl⟩
  · obtain rfl := Factory.plain_eq_ok _ b fields arguments hb
    exact ⟨_, rfl, rfl⟩
  · obtain ⟨op, rfl⟩ := Factory.withField_eq_ok _ _ _ _ b fields arguments hb
    exact ⟨_, rfl, rfl⟩
  · obtain rfl := Factory.plain_eq_ok _ b fields arguments hb
    exact ⟨_, rfl, rfl⟩
  · obtain rfl := Factory.plain_eq_ok _ b fields arguments hb
    exact ⟨_, rfl, rfl⟩

namespace Registry

/-- A node that is resolved has a known type, arguments for it, and fields that the factory
    of the type takes. -/
theorem tryResolve_eq_ok (registry : Registry) (data : NodeData) (node : ResolvedNode)
    (h : registry.tryResolve data = .ok node) :
    ∃ id t, registry.resolveIdentity (TypeIdentity.parse data.type) = some id ∧
      registry.find? id = some t ∧ parseArguments data = .ok node.genericArguments ∧
      instantiate data t node.genericArguments = .ok node.descriptor ∧
      t.factory data.fields node.genericArguments = .ok node.behavior ∧
      node.identity = t.descriptor.identity ∧
      node.redirectedFrom = (if (TypeIdentity.parse data.type).agrees id then none
        else some (TypeIdentity.parse data.type)) ∧
      node.invalid = none := by
  unfold tryResolve at h
  cases hid : registry.resolveIdentity (TypeIdentity.parse data.type) with
  | none =>
    simp only [hid] at h
    cases h
  | some id =>
    cases ht : registry.find? id with
    | none =>
      simp only [hid, ht] at h
      cases h
    | some t =>
      simp only [hid, ht] at h
      obtain ⟨arguments, harguments, h⟩ := bind_eq_ok _ _ _ h
      obtain ⟨d, hd, h⟩ := bind_eq_ok _ _ _ h
      obtain ⟨b, hb, h⟩ := bind_eq_ok _ _ _ h
      cases h
      exact ⟨id, t, rfl, ht, harguments, hd, hb, rfl, rfl, rfl⟩

theorem mem_types_of_find? (registry : Registry) (id : TypeIdentity) (t : NodeType)
    (h : registry.find? id = some t) : t ∈ registry.types := by
  unfold find? at h
  exact List.mem_of_find?_eq_some (Option.filter_eq_some_iff.mp h).1

/-- A saved node that the library resolves to one on demand has the slots of its
    behavior; what cannot be resolved does not run on demand. -/
theorem resolve_signature (data : NodeData)
    (hpath : (builtin.resolve data).descriptor.path = .dependency) :
    (builtin.resolve data).descriptor.Declares (builtin.resolve data).behavior := by
  unfold resolve at hpath ⊢
  cases hr : builtin.tryResolve data with
  | error e =>
    simp only [hr] at hpath
    cases hpath
  | ok r =>
    simp only [hr] at hpath ⊢
    obtain ⟨id, t, _, ht, _, hd, hb, _⟩ := builtin.tryResolve_eq_ok data r hr
    -- type arguments change neither the path nor the slots of the type
    obtain ⟨hsame, hports⟩ := instantiate_outline data t _ _ hd
    obtain ⟨signature, hsignature, hdeclared⟩ :=
      builtin_signature t (builtin.mem_types_of_find? id t ht) (hsame ▸ hpath) _ _ _ hb
    exact ⟨signature, hsignature, hports.trans hdeclared⟩

end Registry

end FlowGraph
