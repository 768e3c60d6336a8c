import FlowGraph.Json.Decode
import Mathlib

/-! # Records from their JSON form

    A record is written as an object with those of its fields that are there, in the order
    of their declaration (`Record.present`).  Whoever reads it by the declared names finds
    each field that was written, and no other (`Record.decode_present`). -/

namespace FlowGraph

/-! ## Section 1: Lists -/

namespace Source

theorem ofItems_eq_map (items : List Json) : ofItems items = items.map ofJson := by
  induction items with
  | nil => rfl
  | cons j rest ih => exact congrArg _ ih

theorem each_map {α β : Type} (reader : Source → Except Fault β) (write : α → Json) (read : α → β)
    (xs : List α) (h : ∀ x ∈ xs, reader (ofJson (write x)) = .ok (read x)) :
    each reader ((xs.map write).map ofJson) = .ok (xs.map read) := by
  induction xs with
  | nil => rfl
  | cons x rest ih =>
    simp only [List.map_cons, each, h x List.mem_cons_self,
      ih fun y hy => h y (List.mem_cons_of_mem x hy), bind, Except.bind]

/-- A list is read item by item. -/
theorem list_ofJson {α β : Type} (reader : Source → Except Fault β) (write : α → Json)
    (read : α → β) (xs : List α) (h : ∀ x ∈ xs, reader (ofJson (write x)) = .ok (read x)) :
    list reader (ofJson (.arr (xs.map write))) = .ok (xs.map read) := by
  have heach := each_map reader write read xs h
  rw [← ofItems_eq_map] at heach
  simp only [ofJson, list, heach, bind, Except.bind]

theorem list_text (xs : List String) : list text (ofJson (.arr (xs.map .str))) = .ok xs := by
  have h := list_ofJson text .str id xs fun _ _ => rfl
  rwa [List.map_id] at h

theorem depth_le_depthItems (items : List Json) (j : Json) (hj : j ∈ items) :
    (ofJson j).depth ≤ depthItems (ofItems items) := by
  induction items with
  | nil => cases hj
  | cons k rest ih =>
    rw [ofItems, depthItems]
    rcases List.mem_cons.mp hj with rfl | hj
    · exact Nat.le_max_left _ _
    · exact (ih hj).trans (Nat.le_max_right _ _)

theorem depth_le_depthFields (fields : List (String × Json)) (f : String × Json) (hf : f ∈ fields) :
    (ofJson f.2).depth ≤ depthFields (ofFields fields) := by
  induction fields with
  | nil => cases hf
  | cons g rest ih =>
    obtain ⟨name, j⟩ := g
    rw [ofFields, depthFields]
    rcases List.mem_cons.mp hf with rfl | hf
    · exact Nat.le_max_left _ _
    · exact (ih hf).trans (Nat.le_max_right _ _)

theorem value_ofJson (j : Json) : value (ofJson j) = .ok j.sorted := by
  unfold value
  rw [read_ofJson]
  rfl

end Source

/-! ## Section 2: Fields -/

namespace Placed

variable {α β : Type}

theorem map_pure {p : Placed α} {a : α} (f : α → β) (h : p = pure a) : f <$> p = pure (f a) := by
  rw [h]
  rfl

theorem seq_pure {p : Placed (α → β)} {q : Placed α} {f : α → β} {a : α} (hp : p = pure f)
    (hq : q = pure a) : p <*> q = pure (f a) := by
  rw [hp, hq]
  rfl

end Placed

namespace Record

/-- The fields that are there. -/
def present (fields : List (String × Option Json)) : List (String × Json) :=
  fields.filterMap fun e => e.2.map (e.1, ·)

theorem present_cons (f : String × Option Json) (rest : List (String × Option Json)) :
    present (f :: rest) = (f.2.map (f.1, ·)).toList ++ present rest := by
  unfold present
  cases hf : f.2 <;> simp [hf]

theorem present_sublist (fields : List (String × Option Json)) :
    ((present fields).map Prod.fst).Sublist (fields.map Prod.fst) := by
  induction fields with
  | nil => exact List.Sublist.refl []
  | cons f rest ih =>
    rw [present_cons, List.map_append, List.map_cons]
    cases f.2 with
    | none => exact ih.cons f.1
    | some j => exact ih.cons_cons f.1

theorem find?_present (fields : List (String × Option Json)) (hnodup : (fields.map Prod.fst).Nodup)
    (e : String × Option Json) (he : e ∈ fields) :
    (present fields).find? (·.1 = e.1) = e.2.map (e.1, ·) := by
  induction fields with
  | nil => cases he
  | cons f rest ih =>
    rw [List.map_cons, List.nodup_cons] at hnodup
    rw [present_cons, List.find?_append]
    rcases List.mem_cons.mp he with rfl | he
    · -- later fields have other names
      have hnone : (present rest).find? (·.1 = e.1) = none := by
        refine List.find?_eq_none.mpr fun g hg heq => hnodup.1 ?_
        obtain ⟨f, hf, hfg⟩ := List.mem_filterMap.mp hg
        obtain ⟨j, _, rfl⟩ := Option.map_eq_some_iff.mp hfg
        exact List.mem_map.mpr ⟨f, hf, of_decide_eq_true heq⟩
      rw [hnone]
      cases e.2 <;> simp
    · have hne : f.1 ≠ e.1 := fun heq => hnodup.1 (heq ▸ List.mem_map_of_mem he)
      rw [ih hnodup.2 he]
      cases f.2 <;> simp [hne]

/-- The places of fields, from the first one's on. -/
def numbered (place : Nat) (fields : List (String × Json)) : List (String × Nat × Source) :=
  (fields.zipIdx place).map fun e => (e.1.1, e.2, Source.ofJson e.1.2)

theorem gather_ofFields (names : List String) (fields : List (String × Json))
    (found : List (String × Nat × Source)) (place : Nat) (hnames : ∀ f ∈ fields, f.1 ∈ names)
    (hnodup : (found.map Prod.fst ++ fields.map Prod.fst).Nodup) :
    gather names found place none (Source.ofFields fields) =
      ⟨found ++ numbered place fields, none, place + fields.length⟩ := by
  induction fields generalizing found place with
  | nil => simp [Source.ofFields, gather, numbered]
  | cons f rest ih =>
    obtain ⟨name, value⟩ := f
    have hknown : names.contains name = true := by
      simpa using hnames (name, value) List.mem_cons_self
    have hfirst : found.any (·.1 = name) = false := by
      rw [List.any_eq_false]
      intro e he heq
      have hmem : name ∈ found.map Prod.fst :=
        List.mem_map.mpr ⟨e, he, of_decide_eq_true heq⟩
      exact (List.nodup_append.mp hnodup).2.2 name hmem name (by simp) rfl
    have hrest := ih (found ++ [(name, place, Source.ofJson value)]) (place + 1)
      (fun e he => hnames e (List.mem_cons_of_mem _ he)) (by simpa using hnodup)
    unfold Source.ofFields gather
    rw [if_pos hknown, if_neg (by simp [hfirst]), hrest]
    simp [numbered, Nat.add_assoc, Nat.add_comm 1]

theorem find?_numbered (place : Nat) (fields : List (String × Json)) (name : String) :
    ((numbered place fields).find? (·.1 = name)).map (·.2.2) =
      (fields.find? (·.1 = name)).map fun f => Source.ofJson f.2 := by
  have hfst : fields = (fields.zipIdx place).map Prod.fst := (List.zipIdx_map_fst place fields).symm
  conv_rhs => rw [hfst]
  unfold numbered
  rw [List.find?_map, List.find?_map, Option.map_map, Option.map_map]
  rfl

/-- The record has a field, or it lacks it. -/
def Holds (r : Record) (name : String) (value : Option Json) : Prop :=
  (r.find? name).map Prod.snd = value.map Source.ofJson

section

variable {α : Type} {r : Record} {name : String} {a : α} {reader : Source → Except Fault α}

theorem Holds.required {j : Json} (h : r.Holds name (some j))
    (hj : reader (Source.ofJson j) = .ok a) : r.required name reader = pure a := by
  obtain ⟨⟨place, s⟩, hfind, rfl⟩ := Option.map_eq_some_iff.mp h
  simp only [Record.required, hfind, placed]
  rw [hj]
  rfl

theorem Holds.withDefault {value : Option Json} {default : α} (h : r.Holds name value)
    (hsome : ∀ j, value = some j → reader (Source.ofJson j) = .ok a)
    (hnone : value = none → default = a) :
    r.withDefault name default reader = pure a := by
  cases value with
  | none =>
    have hfind : r.find? name = none := Option.map_eq_none_iff.mp h
    simp only [Record.withDefault, hfind]
    rw [hnone rfl]
    rfl
  | some j =>
    obtain ⟨⟨place, s⟩, hfind, rfl⟩ := Option.map_eq_some_iff.mp h
    simp only [Record.withDefault, hfind, placed]
    rw [hsome j rfl]
    rfl

end

/-- What was written of a record is read by its declared names. -/
theorem decode_present {α : Type} (fields : List (String × Option Json))
    (hnodup : (fields.map Prod.fst).Nodup) (result : Record → Placed α) (a : α)
    (h : ∀ r : Record, (fields.Forall fun e => r.Holds e.1 e.2) → result r = pure a) :
    (do
      let r ← ofSource (fields.map Prod.fst) (Source.ofJson (.obj (present fields)))
      r.finish (result r)) = .ok a := by
  have hsub := present_sublist fields
  have hgather := gather_ofFields (fields.map Prod.fst) (present fields) [] 0
    (fun f hf => hsub.subset (List.mem_map_of_mem hf)) (by simpa using hnodup.sublist hsub)
  have hholds : fields.Forall fun e =>
      Holds ⟨numbered 0 (present fields), none, (present fields).length⟩ e.1 e.2 := by
    rw [List.forall_iff_forall_mem]
    intro e he
    have hfind := find?_numbered 0 (present fields) e.1
    rw [find?_present fields hnodup e he, Option.map_map] at hfind
    unfold Holds Record.find?
    rw [Option.map_map]
    exact hfind
  rw [List.nil_append, Nat.zero_add] at hgather
  simp only [Source.ofJson, ofSource, hgather, bind, Except.bind]
  rw [h _ hholds]
  rfl

end Record
end FlowGraph
