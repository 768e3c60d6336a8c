import FlowGraph.Proofs.Graph.Building
import FlowGraph.Proofs.Registry.Resolving
import FlowGraph.Proofs.Validation.Cycles

/-! # Unknown types and placeholders

    The report and the registry look for the type of a node in the same way, but fill it in
    differently: the report fills in every type, and the registry leaves a type without parameters
    as it is if the node has no arguments.  For such a type with a placeholder in a port or a
    variable, filling in fails and leaving it does not (`TakenAsIs`).

    So a node is reported to be of an unknown type just where it becomes a placeholder, and
    besides where its type is taken as it is, and it is live (`unknown_reported_iff`).  It is
    assumed that the factory takes the fields, at which the report does not look. -/

namespace FlowGraph

/-! ## Section 1: What can be filled in -/

theorem fillable_of_instantiate {type filled : PortType} {arguments : List PortType}
    (h : type.instantiate arguments = some filled) : type.fillable arguments.length = true := by
  cases type with
  | generic index =>
    have hlt : index < arguments.length := (List.getElem?_eq_some_iff.mp h).1
    exact decide_eq_true hlt
  | _ => rfl

theorem exists_of_mapM_eq_some {α β : Type} {f : α → Option β} {xs : List α} {ys : List β}
    (h : xs.mapM f = some ys) : ∀ x ∈ xs, ∃ y, f x = some y := by
  induction xs generalizing ys with
  | nil => exact fun x hx => by cases hx
  | cons x rest ih =>
    rw [List.mapM_cons] at h
    obtain ⟨y, hy, h⟩ := Option.bind_eq_some_iff.mp h
    obtain ⟨zs, hzs, _⟩ := Option.bind_eq_some_iff.mp h
    intro z hz
    rcases List.mem_cons.mp hz with rfl | hz
    · exact ⟨y, hy⟩
    · exact ih hzs z hz

/-- A type can be filled in with the right number of arguments just if it is fillable. -/
theorem NodeDescriptor.exists_instantiate_iff (d : NodeDescriptor) (arguments : List PortType)
    (hlength : arguments.length = d.genericParameters) :
    (∃ filled, d.instantiate arguments = some filled) ↔ d.Fillable := by
  constructor
  · rintro ⟨filled, h⟩
    unfold instantiate at h
    rw [if_neg (not_not_intro hlength)] at h
    obtain ⟨ports, hports, h⟩ := Option.bind_eq_some_iff.mp h
    obtain ⟨vars, hvars, _⟩ := Option.bind_eq_some_iff.mp h
    refine ⟨fun p hp => ?_, fun v hv => ?_⟩
    · obtain ⟨q, hq⟩ := exists_of_mapM_eq_some hports p hp
      obtain ⟨type, htype, _⟩ := Option.map_eq_some_iff.mp hq
      exact hlength ▸ fillable_of_instantiate htype
    · obtain ⟨w, hw⟩ := exists_of_mapM_eq_some hvars v hv
      obtain ⟨type, htype, _⟩ := Option.map_eq_some_iff.mp hw
      exact hlength ▸ fillable_of_instantiate htype
  · exact fun hd => hd.exists_instantiate arguments hlength

/-! ## Section 2: The report and the registry -/

namespace Registry

variable {r : Registry} {n : NodeData}

theorem Applies.unique {id id' : TypeIdentity} {t t' : NodeType} {arguments arguments' : List PortType}
    (h : r.Applies n id t arguments) (h' : r.Applies n id' t' arguments') :
    id = id' ∧ t = t' ∧ arguments = arguments' := by
  obtain ⟨hid, ht, harguments, _⟩ := applies_iff.mp h
  obtain ⟨hid', ht', harguments', _⟩ := applies_iff.mp h'
  rw [hid, Option.some.injEq] at hid'
  subst hid'
  rw [ht, Option.some.injEq] at ht'
  rw [harguments, Except.ok.injEq] at harguments'
  exact ⟨rfl, ht', harguments'⟩

/-- The report has a descriptor of the node just if a type applies and can be filled in. -/
theorem exists_declare_iff (r : Registry) (n : NodeData) :
    (∃ d, Validation.declare r n = .ok d) ↔
      ∃ id t arguments, r.Applies n id t arguments ∧ t.descriptor.Fillable := by
  constructor
  · rintro ⟨d, h⟩
    unfold Validation.declare at h
    split at h
    · cases h
    · rename_i t htype
      obtain ⟨id, hid, ht⟩ := Option.bind_eq_some_iff.mp htype
      split at h
      · rename_i filled hfilled
        obtain ⟨arguments, harguments, hinstantiate⟩ := Option.bind_eq_some_iff.mp hfilled
        have hcount := count_of_instantiate hinstantiate
        have hparsed := parseArguments_of_argument? n arguments harguments
        refine ⟨id, t, arguments, applies_iff.mpr ⟨hid, ht, hparsed, hcount⟩, ?_⟩
        exact (t.descriptor.exists_instantiate_iff arguments hcount).mp ⟨filled, hinstantiate⟩
      · cases h
  · rintro ⟨id, t, arguments, happlies, hfillable⟩
    obtain ⟨hid, hknown, hparsed, hcount⟩ := applies_iff.mp happlies
    have harguments := argument?_of_parseArguments n arguments hparsed
    obtain ⟨filled, hfilled⟩ := hfillable.exists_instantiate arguments hcount
    refine ⟨filled, ?_⟩
    unfold Validation.declare
    simp only [hid, hknown, Option.bind_some, harguments, hfilled]

/-- The factory of the node's type takes its fields. -/
def Accepts (r : Registry) (n : NodeData) : Prop :=
  ∀ id t arguments, r.Applies n id t arguments → ∃ b, t.factory n.fields arguments = .ok b

/-- The node has no arguments, and its type has no parameters, but a placeholder. -/
def TakenAsIs (r : Registry) (n : NodeData) : Prop :=
  ∃ id t, r.Applies n id t [] ∧ ¬ t.descriptor.Fillable

/-- The node is live just if a type applies that can be filled in, or is taken as it is. -/
theorem live_iff (haccepts : r.Accepts n) :
    (r.resolve n).isPlaceholder = false ↔
      (∃ d, Validation.declare r n = .ok d) ∨ r.TakenAsIs n := by
  rw [exists_declare_iff]
  constructor
  · intro hlive
    obtain ⟨id, t, hfits, hd⟩ := exists_fits_of_tryResolve (r.tryResolve_of_live n hlive)
    have happlies := hfits.toApplies
    generalize (r.resolve n).genericArguments = arguments at happlies hd
    by_cases hfillable : t.descriptor.Fillable
    · exact .inl ⟨id, t, arguments, happlies, hfillable⟩
    · -- it was not filled in, so it is used as it is
      right
      unfold instantiate at hd
      split at hd
      · rename_i hplain
        rw [Bool.and_eq_true, List.isEmpty_iff] at hplain
        obtain rfl := hplain.2
        exact ⟨id, t, happlies, hfillable⟩
      · have hnone : t.descriptor.instantiate arguments = none := by
          by_contra hsome
          obtain ⟨filled, hfilled⟩ := Option.ne_none_iff_exists'.mp hsome
          exact hfillable ((t.descriptor.exists_instantiate_iff _ happlies.count).mp ⟨_, hfilled⟩)
        rw [hnone] at hd
        cases hd
  · rintro (⟨id, t, arguments, happlies, hfillable⟩ | ⟨id, t, happlies, _⟩)
    · obtain ⟨b, hb⟩ := haccepts id t arguments happlies
      obtain ⟨filled, _, hresolve⟩ := resolve_of_fits ⟨happlies, hb⟩ hfillable
      rw [hresolve]
      rfl
    · obtain ⟨b, hb⟩ := haccepts id t [] happlies
      have hd : instantiate n t [] = .ok t.descriptor := by
        unfold instantiate
        exact if_pos (by simp [← happlies.count])
      have hfits : r.Fits n id t [] b := ⟨happlies, hb⟩
      rw [hfits.resolve_eq hd]
      rfl

end Registry

/-! ## Section 3: Networks in networks -/

namespace GraphData

/-- A graph, or one of its functions, or one of their functions, and so on. -/
inductive Level : GraphData → GraphData → Prop where
  | self (g : GraphData) : Level g g
  | function {g l : GraphData} (f : String × GraphData) (hf : f ∈ g.functions)
      (hl : Level f.2 l) : Level g l

/-- A report lists the problems of all levels. -/
theorem mem_validate_iff (r : Registry) (conversions : Conversions) (g : GraphData)
    (e : ValidationError) :
    e ∈ g.validate r conversions ↔ ∃ l, g.Level l ∧ e ∈ Validation.ofNetwork r conversions l := by
  have hfunctions : ∀ functions : List (String × GraphData),
      e ∈ validateFunctions r conversions functions ↔
        ∃ f ∈ functions, e ∈ f.2.validate r conversions := by
    intro functions
    induction functions with
    | nil => simp [validateFunctions]
    | cons f rest ih =>
      unfold validateFunctions
      rw [List.mem_append, ih]
      simp
  have hsplit : ∀ d : GraphData, e ∈ d.validate r conversions ↔
      e ∈ Validation.ofNetwork r conversions d ∨
        ∃ f ∈ d.functions, e ∈ f.2.validate r conversions := by
    intro d
    obtain ⟨name, nodes, vars, groups, functions⟩ := d
    rw [validate, List.mem_append, hfunctions]
  constructor
  · intro h
    induction g.all_true with
    | intro g _ _ ih =>
      rcases (hsplit g).mp h with hself | ⟨f, hf, hin⟩
      · exact ⟨g, .self g, hself⟩
      · obtain ⟨l, hl, he⟩ := ih f hf hin
        exact ⟨l, .function f hf hl, he⟩
  · rintro ⟨l, hl, he⟩
    induction hl with
    | self g => exact (hsplit g).mpr (.inl he)
    | function f hf _ ih => exact (hsplit _).mpr (.inr ⟨f, hf, ih he⟩)

/-- A node of some level whose guid no other node has, on any level. -/
structure Owns (g : GraphData) (n : NodeData) : Prop where
  node : ∃ l, g.Level l ∧ n ∈ l.nodes
  unique : ∀ l, g.Level l → ∀ m ∈ l.nodes, m.guid = n.guid → m = n

/-- The node is reported to be of an unknown type. -/
def ReportsUnknown (g : GraphData) (r : Registry) (conversions : Conversions) (n : NodeData) :
    Prop :=
  ∃ type, .unknownNodeType n.guid type ∈ g.validate r conversions

theorem Owns.reportsUnknown_iff {g : GraphData} {n : NodeData} (hn : g.Owns n) (r : Registry)
    (conversions : Conversions) :
    g.ReportsUnknown r conversions n ↔ ¬ ∃ d, Validation.declare r n = .ok d := by
  constructor
  · rintro ⟨type, hmem⟩ ⟨d, hd⟩
    obtain ⟨l, hl, he⟩ := (g.mem_validate_iff r conversions _).mp hmem
    obtain ⟨m, hm, hdeclare⟩ := (Validation.mem_ofNetwork_of_types r conversions l rfl).mp he
    -- the guid tells which node it is
    obtain ⟨type', heq⟩ := Validation.declare_eq_error hdeclare
    rw [ValidationError.unknownNodeType.injEq] at heq
    rw [hn.unique l hl m hm heq.1.symm, hd] at hdeclare
    cases hdeclare
  · intro hnone
    obtain ⟨l, hl, hin⟩ := hn.node
    cases hdeclare : Validation.declare r n with
    | ok d => exact absurd ⟨d, hdeclare⟩ hnone
    | error e =>
      obtain ⟨type, rfl⟩ := Validation.declare_eq_error hdeclare
      exact ⟨type, (g.mem_validate_iff r conversions _).mpr ⟨l, hl,
        (Validation.mem_ofNetwork_of_types r conversions l rfl).mpr ⟨n, hin, hdeclare⟩⟩⟩

/-- **Main theorem: unknown types.**  Take a node with a guid of its own whose fields its type
    takes.  It is reported to be of an unknown type exactly if it becomes a placeholder, or if its
    type is taken as it is although it has placeholders: then it is live. -/
theorem unknown_reported_iff (r : Registry) (conversions : Conversions) (g : GraphData)
    (n : NodeData) (hn : g.Owns n) (haccepts : r.Accepts n) :
    (g.ReportsUnknown r conversions n ↔
      (r.resolve n).isPlaceholder = true ∨ r.TakenAsIs n) ∧
    (r.TakenAsIs n → (r.resolve n).isPlaceholder = false) := by
  have hlive := Registry.live_iff haccepts
  -- a type that is taken as it is has no descriptor in the report
  have hasis : r.TakenAsIs n → ¬ ∃ d, Validation.declare r n = .ok d := by
    rintro ⟨id, t, happlies, hnot⟩ hdeclared
    obtain ⟨id', t', arguments, happlies', hfillable⟩ := (r.exists_declare_iff n).mp hdeclared
    obtain ⟨_, rfl, _⟩ := happlies.unique happlies'
    exact hnot hfillable
  refine ⟨?_, fun h => hlive.mpr (.inr h)⟩
  rw [hn.reportsUnknown_iff, ← Bool.not_eq_false, hlive]
  constructor
  · intro hnone
    by_cases htaken : r.TakenAsIs n
    · exact .inr htaken
    · exact .inl fun h => h.elim hnone htaken
  · rintro (hnone | htaken)
    · exact fun h => hnone (.inl h)
    · exact hasis htaken

/-- A type without parameters, with a placeholder in a port. -/
def box : NodeType where
  descriptor :=
    (NodeDescriptor.dependency ⟨"Acme", "Box", none⟩ "Box" .object).withPort
      (.input "content" (.generic 0))
  factory := .script

/-- A node of this type. -/
def boxed : NodeData where
  guid := "box"
  type := "Acme.Box"

/-- The graph of this node. -/
def boxes : GraphData where
  name := "boxes"
  nodes := [boxed]

theorem unknown_reported_iff_box :
    let r := Registry.builtin.register box
    boxes.Owns boxed ∧ r.Accepts boxed ∧ r.TakenAsIs boxed ∧
      boxes.ReportsUnknown r .standard boxed ∧ (r.resolve boxed).isPlaceholder = false := by
  intro r
  have howns : boxes.Owns boxed := by
    refine ⟨⟨boxes, .self boxes, List.mem_singleton_self _⟩, fun l hl m hm _ => ?_⟩
    cases hl with
    | self => exact List.mem_singleton.mp hm
    | function f hf _ => cases hf
  have happlies : r.Applies boxed ⟨"Acme", "Box", none⟩ box [] :=
    ⟨(Registry.resolveIdentity_eq_some_iff _ _ _).mp (by decide +kernel), rfl, .nil, rfl⟩
  have haccepts : r.Accepts boxed := by
    intro id t arguments h
    obtain ⟨_, rfl, _⟩ := happlies.unique h
    exact ⟨_, rfl⟩
  have htaken : r.TakenAsIs boxed := by
    refine ⟨_, box, happlies, fun hfillable => ?_⟩
    cases hfillable.ports _ (List.mem_singleton_self _)
  obtain ⟨hreported, hlive⟩ := unknown_reported_iff r .standard boxes boxed howns haccepts
  exact ⟨howns, haccepts, htaken, hreported.mpr (.inr htaken), hlive htaken⟩

/-- The registry takes the type as it is, and the report cannot fill it in. -/
theorem unknown_but_live :
    let r := Registry.builtin.register box
    boxes.guids.Nodup ∧ (box.factory boxed.fields []).toOption.isSome = true ∧
      .unknownNodeType "box" "Acme.Box<>" ∈ boxes.validate r .standard ∧
      (r.resolve boxed).isPlaceholder = false ∧
      (Registry.instantiate boxed box []).toOption = some box.descriptor ∧
      box.descriptor.instantiate [] = none := by
  decide +kernel

end GraphData
end FlowGraph
