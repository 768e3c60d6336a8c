import FlowGraph.Graph.Edit
import FlowGraph.Proofs.Json.Sorted
import FlowGraph.Proofs.Node.Signature

/-! # Saved variables

    A variable is saved with its value read as its type and written again
    (`VariableData.normal`).  Doing that twice is doing it once (`normal_idem`), as long as
    the value is no number beyond the doubles.

    Among the fields of a node a variable may stand in several ways, and is saved in one.
    Read back, that one declares the same variable, and it is saved as before
    (`Graph.field_declaredVariable`). -/

namespace FlowGraph

/-! ## Section 1: Texts of types -/

namespace PortType

theorem after?_append (lead : String) (cs : List Char) :
    after? lead (lead.toList ++ cs) = some cs := by
  unfold after?
  rw [if_pos (List.isPrefixOf_iff_prefix.mpr (List.prefix_append _ _)), List.drop_left]

theorem parseIndex?_toDigits (n : Nat) (hn : n < twoTo 64) :
    parseIndex? (Nat.toDigits 10 n) = some n := by
  have hdigits : (Nat.toDigits 10 n).all Char.isDigit = true :=
    List.all_eq_true.mpr fun c hc => Nat.isDigit_of_mem_toDigits (by decide) (by decide) hc
  have hvalue : Decimal.digitsValue 0 (Nat.toDigits 10 n) = n := Nat.ofDigitChars_ten_toDigits
  have hsome : (Nat.toDigits 10 n).isEmpty = false := by
    simp [Nat.toDigits_ne_nil]
  unfold parseIndex?
  split
  · -- a plus sign is no digit
    rename_i rest heq
    rw [heq] at hdigits
    simp at hdigits
  · simp [hdigits, hvalue, hsome, hn]

/-- The text of a type is read as that type, if a machine word holds its index. -/
theorem parse_text (type : PortType) (h : ∀ n, type = .generic n → n < twoTo 64) :
    parse type.text = .ok type := by
  cases type with
  | object kind =>
    have hlead := after?_append "object:" kind.toList
    rw [← String.toList_append] at hlead
    unfold parse text
    split <;> simp_all [String.ext_iff]
  | custom name =>
    have hlead := after?_append "custom:" name.toList
    rw [← String.toList_append] at hlead
    have hobject : after? "object:" ("custom:" ++ name).toList = none := by
      simp [after?, String.toList_append]
    unfold parse text
    split <;> simp_all [String.ext_iff]
  | generic n =>
    have hlead := after?_append "generic:" (Nat.toDigits 10 n)
    rw [← String.toList_ofList (l := Nat.toDigits 10 n), ← String.toList_append] at hlead
    have hobject : after? "object:" ("generic:" ++ String.ofList (Nat.toDigits 10 n)).toList
        = none := by
      simp [after?, String.toList_append]
    have hcustom : after? "custom:" ("generic:" ++ String.ofList (Nat.toDigits 10 n)).toList
        = none := by
      simp [after?, String.toList_append]
    have hindex := parseIndex?_toDigits n (h n rfl)
    unfold parse text
    split <;> simp_all [String.ext_iff]
  | _ => rfl

theorem parseIndex?_lt (cs : List Char) (n : Nat) (h : parseIndex? cs = some n) :
    n < twoTo 64 := by
  unfold parseIndex? at h
  extract_lets digits value at h
  split at h
  · cases h
  · split at h
    · rename_i hlt
      exact Option.some.inj h ▸ hlt
    · cases h

/-- A type that was read is read again from its own text. -/
theorem parse_text_of_parse (s : String) (type : PortType) (h : parse s = .ok type) :
    parse type.text = .ok type := by
  refine parse_text type fun n hn => ?_
  subst hn
  unfold parse at h
  split at h <;> try cases h
  split at h
  · cases h
  · split at h
    · cases h
    · split at h
      · split at h
        · rename_i hindex
          cases h
          exact parseIndex?_lt _ n hindex
        · cases h
      · cases h

end PortType

/-! ## Section 2: Values of a type -/

namespace Value

/-- The JSON form of what a declared type makes of a value. -/
def normal (type : PortType) (j : Json) : Json := (ofJsonTyped j type).toJson

/-- The value is no number beyond the doubles. -/
def Finite (j : Json) : Prop := ∀ x, jsonFloat? j = some x → x.isFinite = true

instance (j : Json) : Decidable (Finite j) :=
  decidable_of_iff ((jsonFloat? j).all Float.isFinite = true) (by
    unfold Finite
    cases jsonFloat? j <;> simp)

theorem jsonInt?_toInt (n : Int64) : jsonInt? (.int n.toInt) = some n := by
  have hlow := n.le_toInt
  have hhigh := n.toInt_lt
  have hin : (decide (-9223372036854775808 ≤ n.toInt) && decide (n.toInt < 9223372036854775808))
      = true := by
    simp
    omega
  unfold jsonInt?
  dsimp only
  rw [if_pos hin, Int64.ofInt_toInt]

/-- An integer is written as one. -/
theorem normal_int (n : Int64) : normal .int (.int n.toInt) = .int n.toInt := by
  have hread : ofJsonTyped (.int n.toInt) .int = .int n := by
    show ((jsonInt? (.int n.toInt)).map Value.int).getD _ = _
    rw [jsonInt?_toInt]
    rfl
  unfold normal
  rw [hread]
  rfl

/-- A float is written as itself, or not at all. -/
theorem toJson_float (x : Float) :
    toJson (.float x) = if x.isFinite then .float x else .null := rfl

/-- What is read by its shape and written is written so again. -/
theorem toJson_ofJson_idem (j : Json) : (ofJson (ofJson j).toJson).toJson = (ofJson j).toJson := by
  have hfloat : ∀ x, (ofJson (toJson (.float x))).toJson = toJson (.float x) := by
    intro x
    rw [toJson_float]
    split
    · rename_i hx
      show toJson (.float x) = _
      rw [toJson_float, if_pos hx]
    · rfl
  cases j with
  | int n =>
    unfold ofJson
    dsimp only
    cases hn : jsonInt? (.int n) with
    | some i =>
      show (ofJson (.int i.toInt)).toJson = .int i.toInt
      unfold ofJson
      simp only [jsonInt?_toInt]
      rfl
    | none => exact hfloat _
  | float x => exact hfloat x
  | _ => rfl

/-- A value that was read as a type and written is written so again. -/
theorem normal_idem (type : PortType) (j : Json) (hj : Finite j) :
    normal type (normal type j) = normal type j := by
  cases type with
  | bool => cases j <;> rfl
  | string => cases j <;> rfl
  | int =>
    have hread : ∃ n : Int64, normal .int j = .int n.toInt := by
      show ∃ n : Int64, toJson (((jsonInt? j).map Value.int).getD (.int 0)) = .int n.toInt
      cases jsonInt? j with
      | none => exact ⟨0, rfl⟩
      | some n => exact ⟨n, rfl⟩
    obtain ⟨n, hn⟩ := hread
    rw [hn, normal_int]
  | float =>
    have hread : ∃ x : Float, x.isFinite = true ∧ normal .float j = toJson (.float x) := by
      show ∃ x : Float, _ ∧ toJson (((jsonFloat? j).map Value.float).getD (.float 0.0)) = _
      cases hx : jsonFloat? j with
      | none => exact ⟨0.0, by decide, rfl⟩
      | some x => exact ⟨x, hj x hx, rfl⟩
    obtain ⟨x, hx, heq⟩ := hread
    rw [heq, toJson_float, if_pos hx]
    show toJson (.float x) = _
    rw [toJson_float, if_pos hx]
  | json => rfl
  | any => exact toJson_ofJson_idem j
  | custom name => exact toJson_ofJson_idem j
  | _ => rfl

/-- Sorting keeps normal values normal. -/
theorem normal_sorted (type : PortType) (j : Json) (h : normal type j = j) :
    normal type j.sorted = j.sorted := by
  cases j with
  | arr items =>
    cases type <;> first | rfl | cases h
  | obj fields =>
    cases type <;> first | rfl | cases h
  | _ => exact h

end Value

/-! ## Section 3: Saved variables -/

namespace VariableData

/-- The variable with its value read as its type and written again. -/
def normal (d : VariableData) : VariableData := { d with value := Value.normal d.valueType d.value }

/-- The value is no number beyond the doubles. -/
def Finite (d : VariableData) : Prop := Value.Finite d.value

instance (d : VariableData) : Decidable d.Finite := inferInstanceAs (Decidable (Value.Finite d.value))

theorem normal_idem (d : VariableData) (hd : d.Finite) : d.normal.normal = d.normal := by
  unfold normal
  rw [Value.normal_idem d.valueType d.value hd]

/-- The field of a saved variable. -/
def field (d : VariableData) : Json := d.normal.toJson.sorted

theorem sorted_toJson (d : VariableData) : d.toJson.sorted =
    .obj [("isExposed", .bool d.isExposed), ("isGlobal", .bool d.isGlobal),
      ("isShared", .bool d.isShared), ("name", .str d.name), ("value", d.value.sorted),
      ("valueType", .str d.valueType.text)] := by
  simp +decide only [toJson, Json.sorted, Json.sortedFields, Json.sortFields, Json.insertField,
    List.foldl, if_true, if_false]

/-- A variable is read back, with its value in sorted form. -/
theorem decode_sorted (d : VariableData)
    (htype : PortType.parse d.valueType.text = .ok d.valueType) :
    Json.decodeWith decode d.toJson.sorted = .ok { d with value := d.value.sorted } := by
  have hvalue : Source.value (Source.ofJson d.value.sorted) = .ok d.value.sorted := by
    unfold Source.value
    rw [Source.read_ofJson]
    exact congrArg Except.ok d.value.sorted_idem
  have hdecode : PortType.decode (.str d.valueType.text) = .ok d.valueType := by
    unfold PortType.decode
    simp [Source.text, htype, bind, Except.bind]
  -- each field stands once, at its place
  have hrecord : Record.ofSource fieldNames (Source.ofJson d.toJson.sorted) = .ok
      ⟨[("isExposed", 0, .bool d.isExposed), ("isGlobal", 1, .bool d.isGlobal),
        ("isShared", 2, .bool d.isShared), ("name", 3, .str d.name),
        ("value", 4, Source.ofJson d.value.sorted), ("valueType", 5, .str d.valueType.text)],
        none, 6⟩ := by
    rw [sorted_toJson]
    rfl
  unfold Json.decodeWith decode
  rw [hrecord]
  simp only [bind, Except.bind, Record.required, Record.withDefault, Record.find?, Record.placed]
  simp +decide [hvalue, hdecode, Source.text, Source.truth]
  rfl

theorem both_eq_ok {α β : Type} (f : Placed (α → β)) (a : Placed α) (b : β)
    (h : Placed.both f a = Except.ok b) : ∃ g x, f = Except.ok g ∧ a = Except.ok x ∧ b = g x := by
  unfold Placed.both at h
  split at h
  · cases h
    exact ⟨_, _, rfl, rfl, rfl⟩
  · cases h
  · cases h
  · cases h

theorem required_eq_ok {α : Type} (r : Record) (name : String) (reader : Source → Except Fault α)
    (a : α) (h : r.required name reader = Except.ok a) : ∃ s, reader s = .ok a := by
  unfold Record.required Record.placed at h
  split at h
  · rename_i place s _
    split at h
    · rename_i b hb
      cases h
      exact ⟨s, hb⟩
    · cases h
  · cases h

theorem decode_type_eq_ok (s : Source) (type : PortType) (h : PortType.decode s = .ok type) :
    ∃ text, PortType.parse text = .ok type := by
  unfold PortType.decode at h
  obtain ⟨text, _, h⟩ := bind_eq_ok _ _ _ h
  cases hparse : PortType.parse text with
  | error e =>
    rw [hparse] at h
    cases h
  | ok parsed =>
    rw [hparse] at h
    cases h
    exact ⟨text, hparse⟩

/-- The type of a variable that was read is read from its own text. -/
theorem parse_text_of_decode (j : Json) (d : VariableData)
    (h : Json.decodeWith decode j = .ok d) : PortType.parse d.valueType.text = .ok d.valueType := by
  have hread := decodeWith_eq_ok decode j d h
  unfold decode at hread
  obtain ⟨r, _, hread⟩ := bind_eq_ok _ _ _ hread
  have hfields := finish_eq_ok r _ d hread
  obtain ⟨_, _, h5, _, rfl⟩ := both_eq_ok _ _ _ hfields
  obtain ⟨_, _, h4, _, rfl⟩ := both_eq_ok _ _ _ h5
  obtain ⟨_, _, h3, _, rfl⟩ := both_eq_ok _ _ _ h4
  obtain ⟨_, _, h2, _, rfl⟩ := both_eq_ok _ _ _ h3
  obtain ⟨_, type, h1, htype, rfl⟩ := both_eq_ok _ _ _ h2
  obtain ⟨_, name, h0, _, rfl⟩ := both_eq_ok _ _ _ h1
  cases h0
  obtain ⟨s, htype⟩ := required_eq_ok r _ _ _ htype
  obtain ⟨text, htext⟩ := decode_type_eq_ok s type htype
  exact PortType.parse_text_of_parse text type htext

end VariableData

/-! ## Section 4: Variables among the fields of a node -/

namespace Graph

/-- The type of a declared variable is that of the descriptor, or was read. -/
theorem parse_text_of_declared (guid : String) (fields : Json) (v : VariableDescriptor)
    (htype : PortType.parse v.type.text = .ok v.type) :
    PortType.parse (declaredVariable guid fields v).1.valueType.text
      = .ok (declaredVariable guid fields v).1.valueType := by
  unfold declaredVariable
  extract_lets named
  cases fields.get? v.field with
  | none => exact htype
  | some j =>
    cases j with
    | str name => exact htype
    | _ =>
      dsimp only
      split
      · rename_i data hdata
        exact VariableData.parse_text_of_decode _ data hdata
      · exact htype

/-- A variable that stands among the fields as it is saved is declared so again. -/
theorem declaredVariable_field (guid : String) (fields : Json) (v : VariableDescriptor)
    (d : VariableData) (htype : PortType.parse d.valueType.text = .ok d.valueType)
    (hfield : fields.get? v.field = some d.field) :
    (declaredVariable guid fields v).1 = { d.normal with value := d.normal.value.sorted } := by
  have hdecode : Json.decodeWith VariableData.decode d.field
      = .ok { d.normal with value := d.normal.value.sorted } := d.normal.decode_sorted htype
  have hobject : ∃ entries, d.field = .obj entries := ⟨_, d.normal.sorted_toJson⟩
  obtain ⟨entries, hentries⟩ := hobject
  unfold declaredVariable
  extract_lets named
  rw [hentries] at hfield hdecode
  simp only [hfield, hdecode]
  rfl

/-- Such a variable is saved as before. -/
theorem field_declaredVariable (guid : String) (fields : Json) (v : VariableDescriptor)
    (d : VariableData) (htype : PortType.parse d.valueType.text = .ok d.valueType)
    (hd : d.Finite) (hfield : fields.get? v.field = some d.field) :
    (declaredVariable guid fields v).1.field = d.field := by
  have hvalue : Value.normal d.valueType d.normal.value.sorted = d.normal.value.sorted :=
    Value.normal_sorted _ _ (Value.normal_idem d.valueType d.value hd)
  rw [declaredVariable_field guid fields v d htype hfield]
  unfold VariableData.field
  rw [VariableData.sorted_toJson, VariableData.sorted_toJson]
  show Json.obj [_, _, _, _, ("value", (Value.normal d.valueType d.normal.value.sorted).sorted), _] = _
  rw [hvalue, Json.sorted_idem]
  rfl

end Graph

namespace Variables

/-- Everything that the one table holds is in the other one. -/
def Extends (vs ws : Variables) : Prop := ∀ v x, vs.find? v = some x → ws.find? v = some x

theorem Extends.refl (vs : Variables) : vs.Extends vs := fun _ _ h => h

theorem Extends.trans {vs ws us : Variables} (h : vs.Extends ws) (h' : ws.Extends us) :
    vs.Extends us := fun v x hx => h' v x (h v x hx)

theorem extends_add (vs : Variables) (x : Variable) : vs.Extends (vs.add x).2 := by
  intro v y hy
  have hlt : v < vs.cells.size := (Array.getElem?_eq_some_iff.mp hy).1
  show (vs.cells.push x)[v]? = some y
  rw [Array.getElem?_push, if_neg hlt.ne]
  exact hy

theorem find?_add (vs : Variables) (x : Variable) : (vs.add x).2.find? (vs.add x).1 = some x := by
  show (vs.cells.push x)[vs.cells.size]? = some x
  exact Array.getElem?_push_size

/-- A variable that is bound to none is saved in normal form. -/
theorem toData_ofData (vs : Variables) (v : VarId) (d : VariableData)
    (h : vs.find? v = some (Variable.ofData d)) : vs.toData v = d.normal := by
  have hroot : vs.root v = v := by
    unfold root
    cases vs.cells.size with
    | zero => rfl
    | succ n =>
      unfold chase targetOf
      rw [h]
      rfl
  unfold toData get
  rw [hroot, h]
  rfl

end Variables

end FlowGraph
