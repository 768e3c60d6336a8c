import FlowGraph.Proofs.Graph.Reviving

/-! # Fields that cannot be read

    A text of fields that is no JSON is read as one without any fields, so a node of a type of
    the library does not become a placeholder for it: it is live, as it is without a text, and
    is saved with the fields that it has by default (`Replaced`).  What its text held is gone
    when the graph is saved.

    The text is kept where the arguments of the node do not suit its type: then the node is a
    placeholder (`Kept`).  Main statement: `malformed_resaved`. -/

namespace FlowGraph

/-! ## Section 1: Nodes without a text -/

/-- The text of the fields is neither blank nor JSON. -/
structure NodeData.Malformed (n : NodeData) : Prop where
  written : Text.trim n.serializedData ≠ ""
  unread : ∀ j, Json.parse n.serializedData ≠ .ok j

/-- The node without a text. -/
def NodeData.blank (n : NodeData) : NodeData := { n with serializedData := "" }

namespace NodeData

theorem Malformed.fields {n : NodeData} (hn : n.Malformed) : n.fields = .empty := by
  unfold NodeData.fields
  rw [if_neg hn.written]
  cases hparse : Json.parse n.serializedData with
  | error e => rfl
  | ok j => exact absurd hparse (hn.unread j)

theorem fields_blank (n : NodeData) : n.blank.fields = .empty := by
  have htrim : Text.trim "" = "" := by decide
  unfold NodeData.fields
  exact if_pos htrim

end NodeData

/-! ## Section 2: Types of the library without fields -/

/-- A variable that a type declares, where the fields say nothing about it. -/
def VariableDescriptor.unnamed (v : VariableDescriptor) : String × Json :=
  (v.field, ({ name := v.field, valueType := v.type } : VariableData).field)

/-- What a node is saved with that was made without fields. -/
def Behavior.blankText (b : Behavior) (vars : List VariableDescriptor) : String :=
  (Json.obj (b.fieldsWith (vars.map VariableDescriptor.unnamed))).compact

/-- What a node without fields is saved with. -/
theorem ResolvedNode.savedFields_of_empty (r : ResolvedNode) (d : NodeData)
    (hfields : d.fields = .empty) :
    (r.savedFields d).compact = r.behavior.blankText r.descriptor.vars := by
  have hvars : (r.declaredVars d).map (fun v => (v.1, v.2.field))
      = r.descriptor.vars.map VariableDescriptor.unnamed := by
    unfold declaredVars
    rw [List.map_map, hfields]
    rfl
  unfold savedFields Behavior.blankText
  rw [hvars]

theorem eq_ok_of_toOption {ε α : Type} {x : Except ε α} {a : α} (h : x.toOption = some a) :
    x = .ok a := by
  cases x with
  | error e => cases h
  | ok b =>
    cases h
    rfl

theorem exists_ok_of_isSome {ε α : Type} {x : Except ε α} (h : x.toOption.isSome = true) :
    ∃ a, x = .ok a := by
  obtain ⟨a, ha⟩ := Option.isSome_iff_exists.mp h
  exact ⟨a, eq_ok_of_toOption ha⟩

namespace Builtin

/-- The types of the library with parameters. -/
theorem generic_types : types.filter (fun t => t.descriptor.genericParameters ≠ 0) = [literal] :=
  rfl

/-- The factories of the others make a behavior without any fields, and what the node is saved
    with then is JSON. -/
theorem plain_blank : ∀ t ∈ types, t.descriptor.genericParameters = 0 →
    ∃ b, (t.factory .empty []).toOption = some b ∧
      (Json.parse (b.blankText t.descriptor.vars)).toOption.isSome = true := by
  simp only [← Option.any_eq_true]
  decide +kernel

theorem exists_blank (t : NodeType) (ht : t ∈ types) (arguments : List PortType)
    (hcount : arguments.length = t.descriptor.genericParameters) (filled : NodeDescriptor)
    (hfilled : t.descriptor.instantiate arguments = some filled) :
    ∃ b, t.factory .empty arguments = .ok b ∧ ∃ j, Json.parse (b.blankText filled.vars) = .ok j := by
  by_cases hplain : t.descriptor.genericParameters = 0
  · obtain rfl : arguments = [] := List.length_eq_zero_iff.mp (hcount.trans hplain)
    obtain ⟨b, hb, hparse⟩ := plain_blank t ht hplain
    rw [instantiate_nil t.descriptor filled hfilled]
    exact ⟨b, eq_ok_of_toOption hb, exists_ok_of_isSome hparse⟩
  · have hmem : t ∈ types.filter fun t => t.descriptor.genericParameters ≠ 0 :=
      List.mem_filter.mpr ⟨ht, by simpa using hplain⟩
    rw [generic_types, List.mem_singleton] at hmem
    subst hmem
    obtain ⟨type, rfl⟩ := List.length_eq_one_iff.mp hcount
    cases hfilled
    -- what a literal is saved with does not depend on its type
    have htext : (Behavior.literal type .null).blankText []
        = (Behavior.literal .any .null).blankText [] := rfl
    have hparse : (Json.parse ((Behavior.literal .any .null).blankText [])).toOption.isSome
        = true := by decide +kernel
    exact ⟨.literal type .null, rfl, htext ▸ exists_ok_of_isSome hparse⟩

end Builtin

/-! ## Section 3: What is lost and what is kept -/

/-- The node is live, just as it is without a text, and saved as if it had been without one. -/
structure NodeData.Replaced (r : Registry) (n saved : NodeData) : Prop where
  live : (r.resolve n).isPlaceholder = false
  asBlank : r.resolve n = r.resolve n.blank
  text : saved.serializedData = (n.blank.normal r).serializedData
  json : ∃ j, Json.parse saved.serializedData = .ok j

/-- The node is a placeholder, and saved with its text. -/
structure NodeData.Kept (r : Registry) (n saved : NodeData) : Prop where
  placeholder : r.resolve n = .placeholder n
  text : saved.serializedData = n.serializedData

namespace Registry

variable {r : Registry} {n : NodeData} {id : TypeIdentity} {t : NodeType}
  {arguments : List PortType}

/-- A node of a type of the library is live without fields. -/
theorem Applies.resolve_of_empty (h : r.Applies n id t arguments) (ht : t ∈ Builtin.types)
    (hfields : n.fields = .empty) :
    ∃ filled b, t.descriptor.instantiate arguments = some filled ∧
      t.factory .empty arguments = .ok b ∧
      r.resolve n = ⟨t.descriptor.identity, arguments, filled, b,
        if (TypeIdentity.parse n.type).agrees id then none else some (TypeIdentity.parse n.type),
        none⟩ ∧
      ∃ j, Json.parse (b.blankText filled.vars) = .ok j := by
  have hfillable := (builtin_wellFormed t ht).fillable
  obtain ⟨filled, hfilled⟩ := hfillable.exists_instantiate arguments h.count
  obtain ⟨b, hb, hjson⟩ := Builtin.exists_blank t ht arguments h.count filled hfilled
  have hfits : r.Fits n id t arguments b := ⟨h, hfields ▸ hb⟩
  obtain ⟨filled', hfilled', hresolve⟩ := resolve_of_fits hfits hfillable
  rw [hfilled, Option.some.injEq] at hfilled'
  subst hfilled'
  exact ⟨filled, b, hfilled, hb, hresolve, hjson⟩

theorem Applies.replaced (h : r.Applies n id t arguments) (ht : t ∈ Builtin.types)
    (hn : n.Malformed) {saved : NodeData} (hsaved : n.Rewritten r saved) :
    n.Replaced r saved := by
  have hblank : r.Applies n.blank id t arguments :=
    ⟨h.designates, h.known, h.parsed, h.count⟩
  obtain ⟨filled, b, hfilled, hb, hresolve, hjson⟩ := h.resolve_of_empty ht hn.fields
  obtain ⟨filled', b', hfilled', hb', hresolve', _⟩ := hblank.resolve_of_empty ht n.fields_blank
  rw [hfilled, Option.some.injEq] at hfilled'
  rw [hb, Except.ok.injEq] at hb'
  subst hfilled' hb'
  have hlive : (r.resolve n).isPlaceholder = false := by
    rw [hresolve]
    rfl
  have hsame : r.resolve n = r.resolve n.blank := hresolve.trans hresolve'.symm
  -- both are saved with the text of a node without fields
  have htext : ∀ d : NodeData, r.resolve d = r.resolve n → d.fields = .empty →
      (d.normal r).serializedData = b.blankText filled.vars := by
    intro d hd hfields
    rw [d.normal_of_live (hd ▸ hlive)]
    show ((r.resolve d).savedFields d).compact = _
    rw [ResolvedNode.savedFields_of_empty _ d hfields, hd, hresolve]
  obtain ⟨guid, records, rfl⟩ := hsaved
  have hwritten := htext n rfl hn.fields
  exact ⟨hlive, hsame, hwritten.trans (htext n.blank hsame.symm n.fields_blank).symm,
    hwritten ▸ hjson⟩

theorem kept_of_not_applies (h : ∀ id t arguments, ¬ r.Applies n id t arguments) {saved : NodeData}
    (hsaved : n.Rewritten r saved) : n.Kept r saved := by
  have hresolve : r.resolve n = .placeholder n :=
    resolve_of_not_fits fun id t arguments _ hfits => h id t arguments hfits.toApplies
  obtain ⟨guid, records, rfl⟩ := hsaved
  refine ⟨hresolve, ?_⟩
  have hplaceholder : (r.resolve n).isPlaceholder = true := by
    rw [hresolve]
    rfl
  show (n.normal r).serializedData = n.serializedData
  rw [n.normal_of_placeholder hplaceholder]

end Registry

namespace GraphData

/-- **Main theorem: malformed fields.**  In a graph that is hydrated and saved, the text of a node
    whose type is one of the library and whose fields are no JSON is replaced by that of a node
    without fields, if the type takes the arguments of the node; and else it is kept. -/
theorem malformed_resaved (r : Registry) (data : GraphData) (s : Store) :
    data.Corresponds (fun d e => List.Forall₂ (fun n saved => n.Malformed →
        (∀ id t arguments, t ∈ Builtin.types → r.Applies n id t arguments → n.Replaced r saved) ∧
        ((∀ id t arguments, ¬ r.Applies n id t arguments) → n.Kept r saved))
      d.nodes e.nodes) (data.resaved r s) := by
  refine (data.rewritten_resaved r s).mono data.all_true fun d e _ hnodes => hnodes.imp ?_
  intro n saved hsaved hn
  constructor
  · intro id t arguments ht happlies
    exact happlies.replaced ht hn hsaved
  · intro hnone
    exact Registry.kept_of_not_applies hnone hsaved

/-- A branch with a text that is no JSON. -/
def corruptBranch : NodeData where
  guid := "if"
  type := "Ceres.Flow.Branch"
  serializedData := "\x7boops"

/-- A literal with such a text, and without the argument that its type needs. -/
def corruptLiteral : NodeData where
  guid := "one"
  type := "Ceres.Values.Literal"
  serializedData := "\x7boops"

/-- The graph of both. -/
def corrupt : GraphData where
  name := "corrupt"
  nodes := [corruptBranch, corruptLiteral]

theorem malformed_resaved_corrupt :
    ∃ branch literal, (corrupt.resaved .builtin default).nodes = [branch, literal] ∧
      corruptBranch.Replaced .builtin branch ∧ corruptLiteral.Kept .builtin literal := by
  have hparse : (Json.parse "\x7boops").toOption = none := by decide +kernel
  have hmalformed : ∀ n : NodeData, n.serializedData = "\x7boops" → n.Malformed := by
    intro n hn
    refine ⟨hn ▸ by decide, fun j hj => ?_⟩
    rw [hn] at hj
    rw [hj] at hparse
    cases hparse
  have hbranch : Registry.builtin.Applies corruptBranch ⟨"Ceres.Flow", "Branch", none⟩
      Builtin.branch [] :=
    ⟨(Registry.resolveIdentity_eq_some_iff _ _ _).mp (by decide +kernel), rfl, .nil, rfl⟩
  have hliteral : ∀ id t arguments, ¬ Registry.builtin.Applies corruptLiteral id t arguments := by
    intro id t arguments h
    have hid := (Registry.resolveIdentity_eq_some_iff _ _ _).mpr h.designates
    have hknown : Registry.builtin.resolveIdentity (TypeIdentity.parse corruptLiteral.type)
        = some ⟨"Ceres.Values", "Literal", none⟩ := by decide +kernel
    rw [hknown, Option.some.injEq] at hid
    subst hid
    -- there is no argument to read, and the type has a parameter
    have ht : some t = some Builtin.literal := h.known.symm
    rw [Option.some.injEq] at ht
    subst ht
    have hlength := h.parsed.length_eq
    rw [h.count] at hlength
    cases hlength
  obtain ⟨_, _, hnodes, _, _⟩ := malformed_resaved .builtin corrupt default
  generalize (corrupt.resaved .builtin default).nodes = saved at hnodes ⊢
  cases hnodes with
  | cons hfirst hrest =>
    cases hrest with
    | cons hsecond hnil =>
      cases hnil
      exact ⟨_, _, rfl,
        (hfirst (hmalformed _ rfl)).1 _ _ _ (List.mem_of_getElem? (i := 1) rfl) hbranch,
        (hsecond (hmalformed _ rfl)).2 hliteral⟩

/-- The malformed text of a branch does not make it a placeholder, and is not saved. -/
theorem malformed_forgotten :
    Builtin.types[1]?.map (·.descriptor.identity) = some (TypeIdentity.parse corruptBranch.type) ∧
    Text.trim corruptBranch.serializedData ≠ "" ∧
    (Json.parse corruptBranch.serializedData).toOption = none ∧
    (Registry.builtin.resolve corruptBranch).isPlaceholder = false ∧
    (corrupt.resaved .builtin default).nodes[0]?.map (·.serializedData) = some "\x7b\x7d" := by
  decide +kernel

end GraphData
end FlowGraph
