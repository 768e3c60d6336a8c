import FlowGraph.Proofs.Registry.Redirecting
import FlowGraph.Proofs.Validation.Faithful

/-! # Resolving saved nodes

    When a saved node is live, and what it is then, without the order in which the registry
    looks at its parts.  Its type text designates a type: the end of the redirects if that is
    known, else the type that the text itself names (`Designates`).  The type applies if the
    arguments of the node can be read and are as many as its parameters (`Applies`), and the node
    fits it if the factory takes its fields, too (`Fits`).

    A node that fits a type is resolved to a live one of this type (`resolve_of_fits`), and any
    other node to a placeholder that keeps it (`resolve_of_not_fits`). -/

namespace FlowGraph
namespace Registry

/-! ## Section 1: The type that is meant -/

/-- What an identity of a saved node stands for. -/
inductive Designates (r : Registry) (saved : TypeIdentity) : TypeIdentity → Prop where
  /-- The end of its redirects, which is known. -/
  | redirected {last : TypeIdentity} (hend : r.redirects.EndsAt saved last)
      (hknown : r.has last = true) : Designates r saved last
  /-- Itself, which is known, as the end of its redirects is not. -/
  | itself {last : TypeIdentity} (hend : r.redirects.EndsAt saved last)
      (hunknown : r.has last = false) (hknown : r.has saved = true) : Designates r saved saved

theorem resolveIdentity_eq_some_iff (r : Registry) (saved id : TypeIdentity) :
    r.resolveIdentity saved = some id ↔ r.Designates saved id := by
  have hend := r.redirects.endsAt_resolve saved
  obtain ⟨last, hlast⟩ : ∃ last, (r.redirects.resolve saved).getD saved = last := ⟨_, rfl⟩
  rw [hlast] at hend
  -- an identity without redirects is the end of its own chain
  have hresolve : r.resolveIdentity saved
      = if r.has last then some last else if r.has saved then some saved else none := by
    unfold resolveIdentity
    cases htarget : r.redirects.resolve saved with
    | none =>
      rw [htarget, Option.getD_none] at hlast
      subst hlast
      simp
    | some target =>
      rw [htarget, Option.getD_some] at hlast
      subst hlast
      rfl
  rw [hresolve]
  constructor
  · intro h
    by_cases hknown : r.has last = true
    · rw [if_pos hknown, Option.some.injEq] at h
      exact h ▸ .redirected hend hknown
    · rw [if_neg hknown] at h
      by_cases hitself : r.has saved = true
      · rw [if_pos hitself, Option.some.injEq] at h
        exact h ▸ .itself hend (by simpa using hknown) hitself
      · rw [if_neg hitself] at h
        cases h
  · intro h
    cases h with
    | redirected hend' hknown =>
      rw [hend.unique hend', if_pos hknown]
    | itself hend' hunknown hknown =>
      rw [← hend.unique hend'] at hunknown
      rw [if_neg (by simp [hunknown]), if_pos hknown]

/-! ## Section 2: Nodes that fit a type -/

/-- The type of an identity is that of a saved node, and takes the arguments of the node. -/
structure Applies (r : Registry) (n : NodeData) (id : TypeIdentity) (t : NodeType)
    (arguments : List PortType) : Prop where
  designates : r.Designates (TypeIdentity.parse n.type) id
  known : r.find? id = some t
  parsed : List.Forall₂ (fun text type => PortType.parse text = .ok type) n.genericArguments
    arguments
  count : arguments.length = t.descriptor.genericParameters

/-- A saved node fits a type: it applies, and makes a behavior from the fields. -/
structure Fits (r : Registry) (n : NodeData) (id : TypeIdentity) (t : NodeType)
    (arguments : List PortType) (b : Behavior) : Prop extends r.Applies n id t arguments where
  accepted : t.factory n.fields arguments = .ok b

/-- The types have a parameter for every placeholder. -/
def Fillable (r : Registry) : Prop := ∀ t ∈ r.types, t.descriptor.Fillable

theorem builtin_fillable : builtin.Fillable := fun t ht => (builtin_wellFormed t ht).fillable

theorem parseArguments_eq_ok_iff (n : NodeData) (arguments : List PortType) :
    parseArguments n = .ok arguments ↔
      List.Forall₂ (fun text type => PortType.parse text = .ok type) n.genericArguments
        arguments := by
  unfold parseArguments
  generalize n.genericArguments = texts
  induction texts generalizing arguments with
  | nil =>
    constructor
    · intro h
      cases h
      exact .nil
    · intro h
      cases h
      rfl
  | cons text rest ih =>
    rw [List.mapM_cons]
    constructor
    · intro h
      obtain ⟨type, htype, h⟩ := bind_eq_ok _ _ _ h
      obtain ⟨others, hothers, h⟩ := bind_eq_ok _ _ _ h
      cases h
      cases hparse : PortType.parse text with
      | error e =>
        rw [hparse] at htype
        cases htype
      | ok parsed =>
        rw [hparse] at htype
        cases htype
        exact .cons hparse ((ih others).mp hothers)
    · intro h
      cases h with
      | cons hparse hrest =>
        simp only [hparse, (ih _).mpr hrest]
        rfl

/-- That a type applies, in terms of what the registry looks at. -/
theorem applies_iff {r : Registry} {n : NodeData} {id : TypeIdentity} {t : NodeType}
    {arguments : List PortType} :
    r.Applies n id t arguments ↔
      r.resolveIdentity (TypeIdentity.parse n.type) = some id ∧ r.find? id = some t ∧
        parseArguments n = .ok arguments ∧
        arguments.length = t.descriptor.genericParameters := by
  rw [resolveIdentity_eq_some_iff, parseArguments_eq_ok_iff]
  constructor
  · intro h
    exact ⟨h.designates, h.known, h.parsed, h.count⟩
  · intro ⟨hdesignates, hknown, hparsed, hcount⟩
    exact ⟨hdesignates, hknown, hparsed, hcount⟩

/-- A descriptor is filled in with one argument for each parameter. -/
theorem count_of_instantiate {d filled : NodeDescriptor} {arguments : List PortType}
    (h : d.instantiate arguments = some filled) : arguments.length = d.genericParameters := by
  by_contra hlength
  unfold NodeDescriptor.instantiate at h
  rw [if_pos hlength] at h
  cases h

/-- So is a type that is instantiated, also if it is used as it is. -/
theorem length_of_instantiate (n : NodeData) (t : NodeType) (arguments : List PortType)
    (d : NodeDescriptor) (h : instantiate n t arguments = .ok d) :
    arguments.length = t.descriptor.genericParameters := by
  unfold instantiate at h
  split at h
  · rename_i hplain
    rw [Bool.and_eq_true, decide_eq_true_eq, List.isEmpty_iff] at hplain
    rw [hplain.1, hplain.2, List.length_nil]
  · cases hfilled : t.descriptor.instantiate arguments with
    | none =>
      rw [hfilled] at h
      cases h
    | some filled => exact count_of_instantiate hfilled

/-- A type that is used as it is has nothing to fill in, if it is fillable. -/
theorem instantiate_of_fillable (n : NodeData) (t : NodeType) (arguments : List PortType)
    (ht : t.descriptor.Fillable) (hlength : arguments.length = t.descriptor.genericParameters) :
    ∃ filled, t.descriptor.instantiate arguments = some filled ∧
      instantiate n t arguments = .ok filled := by
  obtain ⟨filled, hfilled⟩ := ht.exists_instantiate arguments hlength
  refine ⟨filled, hfilled, ?_⟩
  unfold instantiate
  split
  · rename_i hplain
    rw [Bool.and_eq_true, List.isEmpty_iff] at hplain
    rw [hplain.2] at hfilled
    rw [instantiate_nil t.descriptor filled hfilled]
  · rw [hfilled]

/-! ## Section 3: Live nodes and placeholders -/

/-- A node that fits a type is a live one of this type, if the type can be instantiated. -/
theorem Fits.resolve_eq {r : Registry} {n : NodeData} {id : TypeIdentity} {t : NodeType}
    {arguments : List PortType} {b : Behavior} (h : r.Fits n id t arguments b)
    {filled : NodeDescriptor} (hfilled : instantiate n t arguments = .ok filled) :
    r.resolve n = ⟨t.descriptor.identity, arguments, filled, b,
      if (TypeIdentity.parse n.type).agrees id then none else some (TypeIdentity.parse n.type),
      none⟩ := by
  obtain ⟨hid, hknown, harguments, _⟩ := applies_iff.mp h.toApplies
  unfold resolve tryResolve
  simp only [hid, hknown, harguments, hfilled, h.accepted, bind, Except.bind]

/-- A fillable type can be instantiated. -/
theorem resolve_of_fits {r : Registry} {n : NodeData} {id : TypeIdentity} {t : NodeType}
    {arguments : List PortType} {b : Behavior} (h : r.Fits n id t arguments b)
    (ht : t.descriptor.Fillable) :
    ∃ filled, t.descriptor.instantiate arguments = some filled ∧
      r.resolve n = ⟨t.descriptor.identity, arguments, filled, b,
        if (TypeIdentity.parse n.type).agrees id then none else some (TypeIdentity.parse n.type),
        none⟩ := by
  obtain ⟨filled, hfilled, hinstantiate⟩ := instantiate_of_fillable n t arguments ht h.count
  exact ⟨filled, hfilled, h.resolve_eq hinstantiate⟩

/-- What is resolved to a live node fits a type, which is instantiated. -/
theorem exists_fits_of_tryResolve {r : Registry} {n : NodeData} {node : ResolvedNode}
    (h : r.tryResolve n = .ok node) :
    ∃ id t, r.Fits n id t node.genericArguments node.behavior ∧
      instantiate n t node.genericArguments = .ok node.descriptor := by
  obtain ⟨id, t, hid, ht, harguments, hd, hb, _⟩ := r.tryResolve_eq_ok n node h
  have happlies : r.Applies n id t node.genericArguments :=
    applies_iff.mpr ⟨hid, ht, harguments, length_of_instantiate n t _ _ hd⟩
  exact ⟨id, t, ⟨happlies, hb⟩, hd⟩

/-- A node that fits no type is a placeholder. -/
theorem resolve_of_not_fits {r : Registry} {n : NodeData}
    (h : ∀ id t arguments b, ¬ r.Fits n id t arguments b) : r.resolve n = .placeholder n := by
  unfold resolve
  cases hresolve : r.tryResolve n with
  | error e => rfl
  | ok node =>
    obtain ⟨id, t, hfits, _⟩ := exists_fits_of_tryResolve hresolve
    exact absurd hfits (h id t _ _)

end Registry
end FlowGraph
