import FlowGraph.Proofs.Validation.Faithful
import FlowGraph.Proofs.Variable.Normal

/-! # Saved nodes in normal form

    The normal form of a saved node is what it is saved as once it was live
    (`NodeData.normal`): the type that a redirect leads to, its arguments as they are
    printed, and one text with its own fields and its variables.  A node that cannot be
    resolved stays as it is.

    The types of the library take the fields that they write (`Factory.Resumes`), so that a
    node in normal form is resolved to what it was, and is in normal form already
    (`NodeData.normal_idem`).  For JSON it is assumed that the text that is written is read
    as the value it was written from. -/

namespace FlowGraph

/-! ## Section 1: Factories take what they write -/

/-- The fields of a behavior, with some variables among them. -/
def Behavior.fieldsWith (b : Behavior) (vars : List (String × Json)) : List (String × Json) :=
  vars.foldl (fun fields v => Json.insertField v.1 v.2 fields) (GraphNode.objectFields b.fields)

/-- A factory makes the same behavior from the fields that the behavior is saved with, whatever
    the variables of those names are. -/
def Factory.Resumes (factory : Factory) (names : List String) : Prop :=
  ∀ fields arguments b, factory fields arguments = .ok b → ∀ vars : List (String × Json),
    vars.map Prod.fst = names → factory (.obj (b.fieldsWith vars)) arguments = .ok b

namespace Source

mutual

/-- What was never text is passed over. -/
theorem skip_ofJson (j : Json) : (ofJson j).skip = none := by
  match j with
  | .null => rfl
  | .bool _ => rfl
  | .int _ => rfl
  | .float _ => rfl
  | .str _ => rfl
  | .arr items => simp [ofJson, skip, skipItems_ofItems items]
  | .obj fields => simp [ofJson, skip, skipFields_ofFields fields]

theorem skipItems_ofItems (items : List Json) : skipItems (ofItems items) = none := by
  match items with
  | [] => rfl
  | j :: rest => simp [ofItems, skipItems, skip_ofJson j, skipItems_ofItems rest]

theorem skipFields_ofFields (fields : List (String × Json)) :
    skipFields (ofFields fields) = none := by
  match fields with
  | [] => rfl
  | (k, j) :: rest => simp [ofFields, skipFields, skip_ofJson j, skipFields_ofFields rest]

end

end Source

/-- A record without known fields passes over all of them. -/
theorem Record.gather_nil (fields : List (String × Json)) (place : Nat) :
    Record.gather [] [] place none (Source.ofFields fields)
      = ⟨[], none, place + fields.length⟩ := by
  induction fields generalizing place with
  | nil => rfl
  | cons f rest ih =>
    obtain ⟨k, j⟩ := f
    unfold Source.ofFields Record.gather
    rw [if_neg (by simp), Source.skip_ofJson]
    simp only [ih, List.length_cons]
    rw [Nat.add_right_comm, Nat.add_assoc]

namespace Factory

theorem reading_of_ok (reader : Source → Except Fault Behavior) (fields : Json)
    (arguments : List PortType) (b : Behavior) (h : reader (Source.ofJson fields) = .ok b) :
    reading reader fields arguments = .ok b := by
  unfold reading Json.decodeWith
  rw [h]
  rfl

/-- Behaviors without fields take any object. -/
theorem plain_resumes (behavior : Behavior) (names : List String) :
    (plain behavior).Resumes names := by
  intro fields arguments b hb vars _
  obtain rfl := plain_eq_ok behavior b fields arguments hb
  refine reading_of_ok _ _ _ _ ?_
  simp only [Source.ofJson, Record.ofSource, Record.gather_nil]
  rfl

/-- A behavior with one field takes it as it is written. -/
theorem withField_resumes {α : Type} (name : String) (default : α)
    (decode : Source → Except Fault α) (behavior : α → Behavior) (encode : α → Json)
    (hfields : ∀ a, (behavior a).fields = .obj [(name, encode a)])
    (hdecode : ∀ a, decode (Source.ofJson (encode a)) = .ok a) :
    (withField name default decode behavior).Resumes [] := by
  intro fields arguments b hb vars hvars
  obtain rfl := List.map_eq_nil_iff.mp hvars
  obtain ⟨a, rfl⟩ := withField_eq_ok name default decode behavior b fields arguments hb
  have hwritten : (behavior a).fieldsWith [] = [(name, encode a)] := by
    unfold Behavior.fieldsWith
    rw [hfields]
    rfl
  rw [hwritten]
  refine reading_of_ok _ _ _ _ ?_
  simp [Source.ofJson, Source.ofFields, Record.ofSource, Record.gather, bind, Except.bind,
    Record.withDefault, Record.find?, Record.placed, hdecode]
  rfl

theorem literal_resumes : literal.Resumes [] := by
  intro fields arguments b hb vars hvars
  obtain rfl := List.map_eq_nil_iff.mp hvars
  cases arguments with
  | nil => cases hb
  | cons type rest =>
    cases hb
    rfl

end Factory

theorem LogLevel.decode_name (level : LogLevel) :
    decode (Source.ofJson (.str level.name)) = .ok level := by
  cases level <;> rfl

theorem CompareOp.decode_name (op : CompareOp) :
    decode (Source.ofJson (.str op.name)) = .ok op := by
  cases op <;> rfl

/-- All types are declared well, with variables in distinct fields, and take the fields that
    they write. -/
structure Registry.Restorable (registry : Registry) : Prop where
  wellFormed : registry.WellFormed
  fields : ∀ t ∈ registry.types, (t.descriptor.vars.map (·.field)).Nodup
  resumes : ∀ t ∈ registry.types, t.factory.Resumes (t.descriptor.vars.map (·.field))

/-- The types of the library do. -/
theorem Registry.builtin_restorable : builtin.Restorable := by
  refine ⟨builtin_wellFormed, ?_, ?_⟩
  · decide
  · -- one case for each type, by how its factory is made
    have htext : ∀ name : String, Source.text (Source.ofJson (.str name)) = .ok name := fun _ => rfl
    intro t ht
    simp only [builtin, Builtin.types, List.mem_cons, List.not_mem_nil, or_false] at ht
    rcases ht with rfl | rfl | rfl | rfl | rfl | rfl | rfl | rfl | rfl | rfl | rfl | rfl | rfl | rfl
      | rfl | rfl
    · exact Factory.withField_resumes _ _ _ _ .str (fun _ => rfl) htext
    · exact Factory.plain_resumes _ _
    · exact Factory.plain_resumes _ _
    · exact Factory.plain_resumes _ _
    · exact Factory.plain_resumes _ _
    · exact Factory.withField_resumes _ _ _ _ (fun l => .str l.name) (fun _ => rfl)
        LogLevel.decode_name
    · exact Factory.literal_resumes
    · exact Factory.plain_resumes _ _
    · exact Factory.plain_resumes _ _
    · exact Factory.withField_resumes _ _ _ _ (fun op => .str op.name) (fun _ => rfl)
        CompareOp.decode_name
    · exact Factory.plain_resumes _ _
    · exact Factory.plain_resumes _ _
    · exact Factory.withField_resumes _ _ _ _ .str (fun _ => rfl) htext
    · exact Factory.plain_resumes _ _
    · exact Factory.withField_resumes _ _ _ _ .str (fun _ => rfl) htext
    · exact Factory.plain_resumes _ _

/-- A type is known by the text of its own identity. -/
def Registry.Knows (registry : Registry) (t : NodeType) : Prop :=
  ∃ id, registry.resolveIdentity (TypeIdentity.parse t.descriptor.identity.text) = some id ∧
    registry.find? id = some t ∧ (TypeIdentity.parse t.descriptor.identity.text).agrees id = true

theorem Registry.builtin_knows (t : NodeType) (ht : t ∈ Builtin.types) : builtin.Knows t := by
  simp only [Builtin.types, List.mem_cons, List.not_mem_nil, or_false] at ht
  rcases ht with rfl | rfl | rfl | rfl | rfl | rfl | rfl | rfl | rfl | rfl | rfl | rfl | rfl | rfl
    | rfl | rfl <;> exact ⟨_, rfl, rfl, rfl⟩

/-! ## Section 2: The normal form -/

namespace ResolvedNode

/-- The variables of a saved node, by field. -/
def declaredVars (r : ResolvedNode) (d : NodeData) : List (String × VariableData) :=
  r.descriptor.vars.map fun v => (v.field, (Graph.declaredVariable d.guid d.fields v).1)

/-- The fields that the live node is saved with. -/
def savedFields (r : ResolvedNode) (d : NodeData) : Json :=
  .obj (r.behavior.fieldsWith ((r.declaredVars d).map fun v => (v.1, v.2.field)))

/-- The type text that the live node is saved with. -/
def savedType (r : ResolvedNode) (d : NodeData) : String :=
  if r.redirectedFrom.isSome then r.identity.text else d.type

/-- What the live node is saved as, without slots that were opened. -/
def saved (r : ResolvedNode) (d : NodeData) : NodeData :=
  { d with
    type := r.savedType d
    genericArguments := r.genericArguments.map PortType.text
    serializedData := (r.savedFields d).compact }

end ResolvedNode

namespace NodeData

/-- What a saved node is saved as once it was hydrated. -/
def normal (registry : Registry) (d : NodeData) : NodeData :=
  if (registry.resolve d).isPlaceholder then d else (registry.resolve d).saved d

/-- The text of the fields is read as what it was written from. -/
def ReadsBack (registry : Registry) (d : NodeData) : Prop :=
  let r := registry.resolve d
  r.isPlaceholder = false → Json.parse (r.savedFields d).compact = .ok (r.savedFields d)

instance (registry : Registry) (d : NodeData) : Decidable (d.ReadsBack registry) :=
  inferInstanceAs (Decidable ((registry.resolve d).isPlaceholder = false → _ = _))

/-- The variables of the node hold no numbers beyond the doubles. -/
def Finite (registry : Registry) (d : NodeData) : Prop :=
  ∀ v ∈ (registry.resolve d).declaredVars d, v.2.Finite

instance (registry : Registry) (d : NodeData) : Decidable (d.Finite registry) :=
  inferInstanceAs (Decidable (∀ v ∈ (registry.resolve d).declaredVars d, v.2.Finite))

end NodeData

/-! ## Section 3: Resolving what was saved -/

theorem Text.trim_ne_empty (c : Char) (cs : List Char) (hc : Text.isBlank c = false) :
    Text.trim (String.ofList (c :: cs)) ≠ "" := by
  intro h
  have hnil := congrArg String.toList h
  unfold Text.trim Text.trimEnd Text.trimStart at hnil
  rw [String.toList_ofList, String.toList_ofList, List.dropWhile_cons_of_neg (by simp [hc])] at hnil
  have hall : ∀ x ∈ (c :: cs).reverse, Text.isBlank x = true := by
    rw [← List.dropWhile_eq_nil_iff]
    simpa using hnil
  have hblank := hall c (by simp)
  rw [hc] at hblank
  cases hblank

/-- The fields of a node with a text that reads back. -/
theorem NodeData.fields_of_text (d : NodeData) (fields : List (String × Json))
    (htext : d.serializedData = (Json.obj fields).compact)
    (hparse : Json.parse (Json.obj fields).compact = .ok (.obj fields)) : d.fields = .obj fields := by
  have hsome : Text.trim d.serializedData ≠ "" := by
    rw [htext]
    exact Text.trim_ne_empty '{' _ (by decide)
  unfold NodeData.fields
  rw [if_neg hsome, htext, hparse]

theorem get?_fieldsWith (b : Behavior) (vars : List (String × Json))
    (hnodup : (vars.map Prod.fst).Nodup) (name : String) (j : Json) (h : (name, j) ∈ vars) :
    Json.get? name (.obj (b.fieldsWith vars)) = some j := by
  -- a field stays as it is once it was put in
  have hkept : ∀ (rest : List (String × Json)) (fields : List (String × Json)),
      name ∉ rest.map Prod.fst →
      (rest.foldl (fun fields v => Json.insertField v.1 v.2 fields) fields).find? (·.1 = name)
        = fields.find? (·.1 = name) := by
    intro rest
    induction rest with
    | nil => exact fun _ _ => rfl
    | cons v rest ih =>
      intro fields hnot
      rw [List.map_cons, List.mem_cons, not_or] at hnot
      rw [List.foldl_cons, ih _ hnot.2, Json.find?_insertField_of_ne _ _ _ _ hnot.1]
  have hput : ∀ fields : List (String × Json),
      (vars.foldl (fun fields v => Json.insertField v.1 v.2 fields) fields).find? (·.1 = name)
        = some (name, j) := by
    induction vars with
    | nil => cases h
    | cons v rest ih =>
      intro fields
      rw [List.map_cons, List.nodup_cons] at hnodup
      rcases List.mem_cons.mp h with rfl | h
      · rw [List.foldl_cons, hkept rest _ hnodup.1, Json.find?_insertField_self]
      · exact ih hnodup.2 h _
  show ((b.fieldsWith vars).find? (·.1 = name)).map Prod.snd = some j
  unfold Behavior.fieldsWith
  rw [hput]
  rfl

namespace Registry

/-- Each argument is read from its own text. -/
theorem parse_text_of_arguments (d : NodeData) (arguments : List PortType)
    (h : parseArguments d = .ok arguments) :
    ∀ type ∈ arguments, PortType.parse type.text = .ok type := by
  have hread := argument?_of_parseArguments d arguments h
  clear h
  generalize d.genericArguments = texts at hread
  induction texts generalizing arguments with
  | nil =>
    cases hread
    exact List.forall_mem_nil _
  | cons text rest ih =>
    rw [List.mapM_cons] at hread
    obtain ⟨type, htype, hread⟩ := Option.bind_eq_some_iff.mp hread
    obtain ⟨others, hothers, hread⟩ := Option.bind_eq_some_iff.mp hread
    cases hread
    have hparse : PortType.parse text = .ok type := by
      unfold Validation.argument? at htype
      cases hp : PortType.parse text with
      | error e =>
        rw [hp] at htype
        cases htype
      | ok parsed =>
        rw [hp] at htype
        cases htype
        rfl
    rintro other hmem
    rcases List.mem_cons.mp hmem with rfl | hmem
    · exact PortType.parse_text_of_parse text _ hparse
    · exact ih others hothers other hmem

/-- Arguments are read from their own texts. -/
theorem parseArguments_text (d d' : NodeData) (arguments : List PortType)
    (h : parseArguments d = .ok arguments)
    (htexts : d'.genericArguments = arguments.map PortType.text) :
    parseArguments d' = .ok arguments := by
  have htypes := parse_text_of_arguments d arguments h
  unfold parseArguments
  rw [htexts]
  clear h htexts
  induction arguments with
  | nil => rfl
  | cons type rest ih =>
    rw [List.map_cons, List.mapM_cons, htypes type List.mem_cons_self,
      ih fun other hother => htypes other (List.mem_cons_of_mem type hother)]
    rfl

/-- What is instantiated does not depend on the other fields of the node. -/
theorem instantiate_of_ok (d d' : NodeData) (t : NodeType) (arguments : List PortType)
    (descriptor : NodeDescriptor) (h : instantiate d t arguments = .ok descriptor) :
    instantiate d' t arguments = .ok descriptor := by
  unfold instantiate at h ⊢
  split at h
  · rename_i hplain
    rw [if_pos hplain]
    exact h
  · rename_i hplain
    rw [if_neg hplain]
    split at h
    · exact h
    · cases h

theorem mapM_instantiateVariable (arguments : List PortType)
    (harguments : ∀ type ∈ arguments, PortType.parse type.text = .ok type)
    (vars filled : List VariableDescriptor)
    (h : vars.mapM (NodeDescriptor.instantiateVariable arguments) = some filled) :
    filled.map (·.field) = vars.map (·.field) ∧
      ∀ v ∈ filled, PortType.parse v.type.text = .ok v.type := by
  induction vars generalizing filled with
  | nil =>
    cases h
    exact ⟨rfl, List.forall_mem_nil _⟩
  | cons v rest ih =>
    rw [List.mapM_cons] at h
    obtain ⟨w, hw, h⟩ := Option.bind_eq_some_iff.mp h
    obtain ⟨ws, hws, h⟩ := Option.bind_eq_some_iff.mp h
    cases h
    obtain ⟨type, htype, rfl⟩ := Option.map_eq_some_iff.mp hw
    obtain ⟨hfields, htypes⟩ := ih ws hws
    refine ⟨by rw [List.map_cons, List.map_cons, hfields], fun u hu => ?_⟩
    rcases List.mem_cons.mp hu with rfl | hu
    · -- a placeholder is filled with an argument, and other types stay
      cases hv : v.type with
      | generic index =>
        rw [hv] at htype
        exact harguments _ (List.mem_of_getElem? htype)
      | _ =>
        rw [hv] at htype
        cases htype
        exact PortType.parse_text _ fun n hn => by cases hn
    · exact htypes u hu

/-- The variables of an instantiated type are those of the type, with types that are read from
    their texts if the type is declared well. -/
theorem instantiate_vars (d : NodeData) (t : NodeType) (arguments : List PortType)
    (descriptor : NodeDescriptor) (h : parseArguments d = .ok arguments)
    (hd : instantiate d t arguments = .ok descriptor) :
    descriptor.vars.map (·.field) = t.descriptor.vars.map (·.field) ∧
      (t.descriptor.WellFormed →
        ∀ v ∈ descriptor.vars, PortType.parse v.type.text = .ok v.type) := by
  have hplain : ∀ type : PortType, type.fillable 0 = true → PortType.parse type.text = .ok type := by
    intro type hfillable
    refine PortType.parse_text type fun n hn => ?_
    subst hn
    have hlt : n < 0 := of_decide_eq_true hfillable
    exact absurd hlt (Nat.not_lt_zero n)
  unfold instantiate at hd
  split at hd
  · rename_i hnone
    simp only [Bool.and_eq_true, decide_eq_true_eq] at hnone
    cases hd
    exact ⟨rfl, fun ht v hv => hplain v.type (hnone.1 ▸ ht.vars v hv)⟩
  · split at hd
    · rename_i filled hfilled
      cases hd
      unfold NodeDescriptor.instantiate at hfilled
      split at hfilled
      · cases hfilled
      · obtain ⟨ports, _, hfilled⟩ := Option.bind_eq_some_iff.mp hfilled
        obtain ⟨vars, hvars, hfilled⟩ := Option.bind_eq_some_iff.mp hfilled
        cases hfilled
        obtain ⟨hfields, htypes⟩ :=
          mapM_instantiateVariable arguments (parse_text_of_arguments d arguments h) _ vars hvars
        exact ⟨hfields, fun _ => htypes⟩
    · cases hd

/-- A node that is saved with the type and the arguments of another one is resolved to the same
    type, if its factory takes the fields. -/
theorem exists_type_of_saved (registry : Registry) (d d' : NodeData) (r : ResolvedNode)
    (hr : registry.tryResolve d = .ok r)
    (hknown : r.redirectedFrom = none ∨ ∀ t ∈ registry.types, registry.Knows t)
    (htype : d'.type = r.savedType d)
    (harguments : d'.genericArguments = r.genericArguments.map PortType.text) :
    ∃ t ∈ registry.types, t.factory d.fields r.genericArguments = .ok r.behavior ∧
      r.descriptor.vars.map (·.field) = t.descriptor.vars.map (·.field) ∧
      ∀ b, t.factory d'.fields r.genericArguments = .ok b →
        registry.tryResolve d' = .ok { r with behavior := b, redirectedFrom := none } := by
  obtain ⟨id, t, hid, ht, hparsed, hd, hb, hidentity, hredirected, hinvalid⟩ :=
    registry.tryResolve_eq_ok d r hr
  have hmem := registry.mem_types_of_find? id t ht
  -- the saved type leads to the same type
  obtain ⟨id', hid', ht', hagrees⟩ : ∃ id', registry.resolveIdentity (TypeIdentity.parse d'.type)
      = some id' ∧ registry.find? id' = some t ∧ (TypeIdentity.parse d'.type).agrees id' = true := by
    rw [htype]
    unfold ResolvedNode.savedType
    cases hfrom : r.redirectedFrom with
    | none =>
      rw [hfrom] at hredirected
      refine ⟨id, hid, ht, ?_⟩
      by_contra hnot
      rw [if_neg (show ¬ (TypeIdentity.parse d.type).agrees id = true from hnot)] at hredirected
      cases hredirected
    | some source =>
      rcases hknown with hnone | hknown
      · rw [hfrom] at hnone
        cases hnone
      · have hknows := hknown t hmem
        unfold Knows at hknows
        rw [← hidentity] at hknows
        exact hknows
  have hparsed' := parseArguments_text d d' _ hparsed harguments
  have hd' := instantiate_of_ok d d' t _ _ hd
  refine ⟨t, hmem, hb, (instantiate_vars d t _ _ hparsed hd).1, fun b hb' => ?_⟩
  unfold tryResolve
  simp only [hid', ht', hparsed', hagrees, bind, Except.bind, hd', hb', if_true]
  rw [← hidentity, ← hinvalid]

/-- A node that is saved in normal form is resolved to what it was. -/
theorem Restorable.tryResolve_saved {registry : Registry} (hregistry : registry.Restorable)
    (d d' : NodeData) (r : ResolvedNode) (hr : registry.tryResolve d = .ok r)
    (hknown : r.redirectedFrom = none ∨ ∀ t ∈ registry.types, registry.Knows t)
    (htype : d'.type = r.savedType d)
    (harguments : d'.genericArguments = r.genericArguments.map PortType.text)
    (hfields : d'.fields = r.savedFields d) :
    registry.tryResolve d' = .ok { r with redirectedFrom := none } := by
  obtain ⟨t, hmem, hb, hvars, hresolved⟩ :=
    registry.exists_type_of_saved d d' r hr hknown htype harguments
  refine hresolved r.behavior ?_
  rw [hfields]
  refine hregistry.resumes t hmem _ _ _ hb _ ?_
  rw [← hvars]
  simp [ResolvedNode.declaredVars, Function.comp_def]

/-- Its fields are then saved as they were. -/
theorem Restorable.savedFields_saved {registry : Registry} (hregistry : registry.Restorable)
    (d d' : NodeData) (r : ResolvedNode) (hr : registry.tryResolve d = .ok r)
    (hfinite : ∀ v ∈ r.declaredVars d, v.2.Finite) (hfields : d'.fields = r.savedFields d) :
    ({ r with redirectedFrom := none } : ResolvedNode).savedFields d' = r.savedFields d := by
  obtain ⟨id, t, _, ht, hparsed, hd, _⟩ := registry.tryResolve_eq_ok d r hr
  have hmem := registry.mem_types_of_find? id t ht
  obtain ⟨hnames, htypes⟩ := instantiate_vars d t _ _ hparsed hd
  have hnodup : (((r.declaredVars d).map fun v => (v.1, v.2.field)).map Prod.fst).Nodup := by
    have hsame : ((r.declaredVars d).map fun v => (v.1, v.2.field)).map Prod.fst
        = t.descriptor.vars.map (·.field) := by
      rw [← hnames]
      simp [ResolvedNode.declaredVars, Function.comp_def]
    rw [hsame]
    exact hregistry.fields t hmem
  -- each variable is found among the fields, and declared as before
  have hvars : (r.declaredVars d').map (fun v => (v.1, v.2.field))
      = (r.declaredVars d).map fun v => (v.1, v.2.field) := by
    unfold ResolvedNode.declaredVars
    rw [List.map_map, List.map_map]
    refine List.map_congr_left fun v hv => ?_
    have hdeclared : (v.field, (Graph.declaredVariable d.guid d.fields v).1) ∈ r.declaredVars d :=
      List.mem_map_of_mem hv
    have hfound : d'.fields.get? v.field
        = some (Graph.declaredVariable d.guid d.fields v).1.field := by
      rw [hfields]
      exact get?_fieldsWith r.behavior _ hnodup _ _
        (List.mem_map_of_mem (f := fun v => (v.1, v.2.field)) hdeclared)
    have hbounded := hfinite _ hdeclared
    have hsame := Graph.field_declaredVariable d'.guid d'.fields v _
      (Graph.parse_text_of_declared d.guid d.fields v (htypes (hregistry.wellFormed t hmem) v hv))
      hbounded hfound
    exact congrArg (Prod.mk v.field) hsame
  unfold ResolvedNode.savedFields
  exact congrArg (fun vars => Json.obj (r.behavior.fieldsWith vars)) hvars

/-- A placeholder keeps the saved node. -/
theorem resolve_of_placeholder (registry : Registry) (d : NodeData)
    (h : (registry.resolve d).isPlaceholder = true) :
    registry.resolve d = .placeholder d := by
  unfold resolve at h ⊢
  cases hr : registry.tryResolve d with
  | error e => rfl
  | ok r =>
    obtain ⟨_, _, _, _, _, _, _, _, _, hinvalid⟩ := registry.tryResolve_eq_ok d r hr
    simp [hr, ResolvedNode.isPlaceholder, hinvalid] at h

/-- Slots do not matter for what a node is resolved to. -/
theorem resolve_ports (registry : Registry) (d : NodeData) (ports : List PortData) :
    registry.resolve { d with ports } = registry.resolve d := rfl

end Registry

namespace NodeData

variable {registry : Registry}

theorem resolve_of_ok (d : NodeData) (r : ResolvedNode) (h : registry.tryResolve d = .ok r) :
    registry.resolve d = r := by
  unfold Registry.resolve
  rw [h]

theorem normal_of_placeholder (d : NodeData) (h : (registry.resolve d).isPlaceholder = true) :
    d.normal registry = d := by
  unfold normal
  rw [if_pos h]

theorem normal_of_live (d : NodeData) (h : (registry.resolve d).isPlaceholder = false) :
    d.normal registry = (registry.resolve d).saved d := by
  unfold normal
  rw [h, if_neg Bool.false_ne_true]

@[simp] theorem normal_guid (d : NodeData) : (d.normal registry).guid = d.guid := by
  unfold normal
  split <;> rfl

@[simp] theorem normal_ports (d : NodeData) : (d.normal registry).ports = d.ports := by
  unfold normal
  split <;> rfl

theorem normal_withPorts (d : NodeData) (ports : List PortData) :
    ({ d with ports } : NodeData).normal registry = { d.normal registry with ports } := by
  have hsame := registry.resolve_ports d ports
  cases h : (registry.resolve d).isPlaceholder with
  | true => rw [normal_of_placeholder d h, normal_of_placeholder _ (hsame ▸ h)]
  | false =>
    rw [normal_of_live d h, normal_of_live _ (hsame ▸ h), hsame]
    rfl

/-- A node in normal form is resolved to what it was, and nothing is redirected any more. -/
theorem resolve_normal (hregistry : registry.Restorable) (d : NodeData)
    (hknown : (registry.resolve d).redirectedFrom = none ∨ ∀ t ∈ registry.types, registry.Knows t)
    (hreads : d.ReadsBack registry) :
    registry.resolve (d.normal registry) = { registry.resolve d with redirectedFrom := none } := by
  cases hlive : (registry.resolve d).isPlaceholder with
  | true =>
    rw [normal_of_placeholder d hlive, registry.resolve_of_placeholder d hlive]
    rfl
  | false =>
    have hr := registry.tryResolve_of_live d hlive
    have hfields : ((registry.resolve d).saved d).fields = (registry.resolve d).savedFields d :=
      fields_of_text _ _ rfl (hreads hlive)
    rw [normal_of_live d hlive]
    exact resolve_of_ok _ _ (hregistry.tryResolve_saved d _ _ hr hknown rfl rfl hfields)

/-- A saved node that was live and is saved again stays as it is. -/
theorem normal_idem (hregistry : registry.Restorable) (d : NodeData)
    (hknown : (registry.resolve d).redirectedFrom = none ∨ ∀ t ∈ registry.types, registry.Knows t)
    (hfinite : d.Finite registry) (hreads : d.ReadsBack registry) :
    (d.normal registry).normal registry = d.normal registry := by
  cases hlive : (registry.resolve d).isPlaceholder with
  | true =>
    have hsame := normal_of_placeholder d hlive
    rw [hsame, hsame]
  | false =>
    have hagain := resolve_normal hregistry d hknown hreads
    have hfields : ((registry.resolve d).saved d).fields = (registry.resolve d).savedFields d :=
      fields_of_text _ _ rfl (hreads hlive)
    have hsaved := hregistry.savedFields_saved d _ _ (registry.tryResolve_of_live d hlive) hfinite
      hfields
    rw [normal_of_live d hlive] at hagain ⊢
    rw [normal_of_live _ (by rw [hagain]; exact hlive), hagain]
    -- only the fields are written anew
    show ({ (registry.resolve d).saved d with serializedData := Json.compact _ } : NodeData) = _
    rw [hsaved]
    rfl

end NodeData
end FlowGraph
