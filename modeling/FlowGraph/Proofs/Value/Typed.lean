import FlowGraph.Proofs.Value.Doubles
import FlowGraph.Proofs.Variable.Normal

/-! # Values and their types

    A value fits a type if it is one of those that reading JSON as this type gives; these are the
    values that are read back from their own JSON (`Value.ofJsonTyped_toJson_iff`).  Object
    references and floats that are not finite have no JSON, and fit no type.

    What is read as a type fits it, whatever the JSON was, so reading it again changes nothing
    (`Value.ofJsonTyped_normal`).  An integer beyond 64 bits becomes a double, which is finite. -/

namespace FlowGraph

/-- A JSON number as it is held: an integer of 64 bits, signed or not, or a finite double. -/
def Json.Held : Json → Prop
  | .int n => -9223372036854775808 ≤ n ∧ n < 18446744073709551616
  | .float x => x.isFinite = true
  | _ => True

/-! ## Section 1: Values that fit -/

namespace Value

/-- The value is no object reference and no float that is not finite. -/
def Plain : Value → Prop
  | .object _ => False
  | .float x => x.isFinite = true
  | _ => True

/-- If the value is JSON, it is an array or an object. -/
def Shaped (v : Value) : Prop :=
  ∀ j, v = .json j → (∃ items, j = .arr items) ∨ ∃ fields, j = .obj fields

/-- The value is one of those that are read as the type.  Numbers, texts and the like are JSON only
    where that is the type, and some types have no saved values. -/
def Fits (v : Value) : PortType → Prop
  | .any => v.Shaped
  | .custom _ => v.Shaped
  | .object _ => v = .null
  | .node => v = .null
  | .generic _ => v = .null
  | type => v.portType = type

/-- Without a type, JSON is read by its shape. -/
theorem ofJson_toJson_iff (v : Value) (hv : v.Plain) : ofJson v.toJson = v ↔ v.Shaped := by
  cases v with
  | null => simp [toJson, ofJson, Shaped]
  | bool b => simp [toJson, ofJson, Shaped]
  | int n => simp [toJson, ofJson, Shaped, jsonInt?_toInt]
  | float x =>
    have hfinite : x.isFinite = true := hv
    simp [toJson, ofJson, Shaped, hfinite]
  | string s => simp [toJson, ofJson, Shaped]
  | json j =>
    -- JSON numbers, texts and the like are read as values of their own kind
    cases j with
    | int n => cases hint : jsonInt? (.int n) <;> simp [toJson, ofJson, Shaped, hint]
    | _ => simp [toJson, ofJson, Shaped]
  | object ref => exact hv.elim

/-- What is read as a type with values of its own is such a value. -/
theorem portType_ofJsonTyped (j : Json) (type : PortType)
    (htype : type ∈ [PortType.bool, .int, .float, .string, .json]) :
    (ofJsonTyped j type).portType = type := by
  unfold ofJsonTyped
  simp only [List.mem_cons, List.not_mem_nil, or_false] at htype
  rcases htype with rfl | rfl | rfl | rfl | rfl
  · cases j <;> rfl
  · show (((jsonInt? j).map Value.int).getD _).portType = _
    cases jsonInt? j <;> rfl
  · show (((jsonFloat? j).map Value.float).getD _).portType = _
    cases jsonFloat? j <;> rfl
  · cases j <;> rfl
  · rfl

/-- A value is read back as its own type. -/
theorem ofJsonTyped_toJson_self (v : Value) (hv : v.Plain) :
    ofJsonTyped v.toJson v.portType = v := by
  cases v with
  | null => rfl
  | bool b => rfl
  | int n => simp [toJson, portType, ofJsonTyped, ofJsonTyped?, jsonInt?_toInt]
  | float x =>
    have hfinite : x.isFinite = true := hv
    simp [toJson, portType, ofJsonTyped, ofJsonTyped?, jsonFloat?, hfinite]
  | string s => rfl
  | json j => rfl
  | object ref => exact hv.elim

/-- Reading the JSON of a value gives the value back if and only if it fits the type. -/
theorem ofJsonTyped_toJson_iff (v : Value) (hv : v.Plain) (type : PortType) :
    ofJsonTyped v.toJson type = v ↔ v.Fits type := by
  have hown : type ∈ [PortType.bool, .int, .float, .string, .json] →
      (ofJsonTyped v.toJson type = v ↔ v.portType = type) := by
    refine fun htype => ⟨fun heq => ?_, fun heq => ?_⟩
    · rw [← heq]
      exact portType_ofJsonTyped v.toJson type htype
    · rw [← heq]
      exact ofJsonTyped_toJson_self v hv
  -- types without saved values read as null
  have hnone : ofJsonTyped? v.toJson type = none → defaultFor type = .null →
      (ofJsonTyped v.toJson type = v ↔ v = .null) := by
    intro hread hdefault
    unfold ofJsonTyped
    rw [hread, Option.getD_none, hdefault]
    exact eq_comm
  cases type with
  | any => exact ofJson_toJson_iff v hv
  | custom name => exact ofJson_toJson_iff v hv
  | bool => exact hown (by decide)
  | int => exact hown (by decide)
  | float => exact hown (by decide)
  | string => exact hown (by decide)
  | json => exact hown (by decide)
  | object kind => exact hnone rfl rfl
  | node => exact hnone rfl rfl
  | generic index => exact hnone rfl rfl

/-! ## Section 2: What is read -/

theorem finite_of_held {j : Json} (hj : j.Held) : Finite j := by
  intro x hx
  cases j with
  | int n =>
    obtain rfl := Option.some.inj hx
    obtain ⟨hlow, hhigh⟩ : -9223372036854775808 ≤ n ∧ n < 18446744073709551616 := hj
    exact Doubles.isFinite_ofInt (by omega)
  | float y =>
    obtain rfl := Option.some.inj hx
    exact hj
  | _ => cases hx

theorem plain_ofJson {j : Json} (hj : Finite j) : (ofJson j).Plain := by
  cases j with
  | int n =>
    unfold ofJson
    dsimp only
    cases jsonInt? (.int n) with
    | none => exact hj _ rfl
    | some i => trivial
  | float x => exact hj x rfl
  | _ => trivial

theorem shaped_ofJson (j : Json) : (ofJson j).Shaped := by
  intro k hk
  cases j with
  | int n =>
    unfold ofJson at hk
    dsimp only at hk
    cases hint : jsonInt? (.int n) <;> rw [hint] at hk <;> cases hk
  | arr items =>
    cases hk
    exact .inl ⟨items, rfl⟩
  | obj fields =>
    cases hk
    exact .inr ⟨fields, rfl⟩
  | _ => cases hk

/-- No object reference is read, and no float that is not finite. -/
theorem plain_ofJsonTyped {j : Json} (hj : Finite j) (type : PortType) :
    (ofJsonTyped j type).Plain := by
  cases type with
  | bool => cases j <;> trivial
  | string => cases j <;> trivial
  | int =>
    change (((jsonInt? j).map Value.int).getD (.int 0)).Plain
    cases jsonInt? j <;> trivial
  | float =>
    change (((jsonFloat? j).map Value.float).getD (.float 0.0)).Plain
    cases hx : jsonFloat? j with
    | none => exact (by decide : (0.0 : Float).isFinite = true)
    | some x => exact hj x hx
  | any => exact plain_ofJson hj
  | custom name => exact plain_ofJson hj
  | _ => trivial

theorem fits_ofJsonTyped (j : Json) (type : PortType) : (ofJsonTyped j type).Fits type := by
  have hown : type ∈ [PortType.bool, .int, .float, .string, .json] →
      (ofJsonTyped j type).portType = type := portType_ofJsonTyped j type
  cases type with
  | any => exact shaped_ofJson j
  | custom name => exact shaped_ofJson j
  | object kind => rfl
  | node => rfl
  | generic index => rfl
  | _ => exact hown (by decide)

/-- **Main theorem: reading values of a type.**  What is read as a type fits it, is no object
    reference and no float that is not finite, and is read back from its own JSON.  And each value
    but these is read back from its JSON as its natural type. -/
theorem ofJsonTyped_normal (j : Json) (hj : j.Held) (type : PortType) :
    (ofJsonTyped j type).Fits type ∧ (ofJsonTyped j type).Plain ∧
      ofJsonTyped (ofJsonTyped j type).toJson type = ofJsonTyped j type ∧
      ∀ v : Value, v.Plain → ofJsonTyped v.toJson v.portType = v := by
  have hfits := fits_ofJsonTyped j type
  have hplain := plain_ofJsonTyped (finite_of_held hj) type
  exact ⟨hfits, hplain, (ofJsonTyped_toJson_iff _ hplain type).mpr hfits,
    ofJsonTyped_toJson_self⟩

theorem ofJsonTyped_normal_unsigned :
    let j : Json := .int 18446744073709551615
    let v : Value := .float (-0.0)
    j.Held ∧ v.Plain ∧ (ofJsonTyped j .any).Fits .any ∧
      ofJsonTyped (ofJsonTyped j .any).toJson .any = ofJsonTyped j .any ∧
      ofJsonTyped v.toJson .float = v := by
  intro j v
  have hj : j.Held := ⟨by decide, by decide⟩
  have hv : v.Plain := (by decide : (-0.0 : Float).isFinite = true)
  obtain ⟨hfits, _, hagain, hself⟩ := ofJsonTyped_normal j hj .any
  exact ⟨hj, hv, hfits, hagain, hself v hv⟩

end Value
end FlowGraph
