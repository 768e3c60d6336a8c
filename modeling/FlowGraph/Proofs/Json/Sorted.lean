import FlowGraph.Json.Decode
import Mathlib

/-! # Sorted form

    An object in sorted form has its keys in strictly ascending order (`Json.Ascending`), so
    that sorting it again changes nothing (`Json.sorted_idem`).

    A field that was put in is found, and the other fields are found as before; this holds
    of every field list, sorted or not. -/

namespace FlowGraph.Json

/-! ## Section 1: Putting a field in -/

theorem find?_insertField_self (key : String) (value : Json) (fields : List (String × Json)) :
    (insertField key value fields).find? (·.1 = key) = some (key, value) := by
  induction fields with
  | nil => simp [insertField]
  | cons f rest ih =>
    obtain ⟨k, v⟩ := f
    unfold insertField
    split
    · simp
    · split
      · simp
      · rename_i hne
        rw [List.find?_cons_of_neg (by simpa using Ne.symm hne)]
        exact ih

theorem find?_insertField_of_ne (key name : String) (value : Json)
    (fields : List (String × Json)) (h : name ≠ key) :
    (insertField key value fields).find? (·.1 = name) = fields.find? (·.1 = name) := by
  have hkey : ¬ key = name := fun heq => h heq.symm
  induction fields with
  | nil => simp [insertField, hkey]
  | cons f rest ih =>
    obtain ⟨k, v⟩ := f
    unfold insertField
    split
    · rw [List.find?_cons_of_neg (by simpa using hkey)]
    · split
      · rename_i heq
        subst heq
        rw [List.find?_cons_of_neg (by simpa using hkey),
          List.find?_cons_of_neg (by simpa using hkey)]
      · by_cases hk : k = name
        · simp [hk]
        · rw [List.find?_cons_of_neg (by simpa using hk), List.find?_cons_of_neg (by simpa using hk)]
          exact ih

/-- Work on the values does not change where a field is put. -/
theorem insertField_map (f : Json → Json) (key : String) (value : Json)
    (fields : List (String × Json)) :
    (insertField key value fields).map (fun e => (e.1, f e.2))
      = insertField key (f value) (fields.map fun e => (e.1, f e.2)) := by
  induction fields with
  | nil => rfl
  | cons e rest ih =>
    obtain ⟨k, v⟩ := e
    simp only [List.map_cons]
    unfold insertField
    split
    · rfl
    · split
      · rfl
      · rw [List.map_cons, ih]

/-! ## Section 2: Ascending keys -/

/-- Each key comes before all later ones. -/
def Ascending (fields : List (String × Json)) : Prop := fields.Pairwise fun e f => e.1 < f.1

theorem key_mem_insertField (key name : String) (value : Json) (fields : List (String × Json))
    (h : name ∈ (insertField key value fields).map Prod.fst) :
    name = key ∨ name ∈ fields.map Prod.fst := by
  induction fields with
  | nil => exact .inl (by simpa [insertField] using h)
  | cons e rest ih =>
    obtain ⟨k, v⟩ := e
    unfold insertField at h
    split at h
    · simpa using h
    · split at h
      · rename_i heq
        subst heq
        exact .inr h
      · rcases List.mem_cons.mp h with hk | hrest
        · exact .inr (List.mem_cons.mpr (.inl hk))
        · exact (ih hrest).imp_right (List.mem_cons_of_mem k)

theorem Ascending.insertField {fields : List (String × Json)} (h : Ascending fields)
    (key : String) (value : Json) : Ascending (insertField key value fields) := by
  induction fields with
  | nil => exact List.pairwise_singleton _ _
  | cons e rest ih =>
    obtain ⟨k, v⟩ := e
    obtain ⟨hfirst, hrest⟩ := List.pairwise_cons.mp h
    unfold Json.insertField
    split
    · rename_i hlt
      refine List.pairwise_cons.mpr ⟨fun f hf => ?_, h⟩
      rcases List.mem_cons.mp hf with rfl | hf
      · exact hlt
      · exact hlt.trans (hfirst f hf)
    · rename_i hnot
      split
      · rename_i heq
        subst heq
        exact List.pairwise_cons.mpr ⟨hfirst, hrest⟩
      · rename_i hne
        have hlt : k < key := lt_of_le_of_ne (not_lt.mp hnot) (Ne.symm hne)
        refine List.pairwise_cons.mpr ⟨fun f hf => ?_, ih hrest⟩
        rcases key_mem_insertField key f.1 value rest (List.mem_map_of_mem hf) with hkey | hold
        · exact hkey ▸ hlt
        · obtain ⟨g, hg, hname⟩ := List.mem_map.mp hold
          exact hname ▸ hfirst g hg

theorem ascending_sortFields (fields : List (String × Json)) : Ascending (sortFields fields) := by
  have hfold : ∀ seen, Ascending seen →
      Ascending (fields.foldl (fun sorted f => Json.insertField f.1 f.2 sorted) seen) := by
    induction fields with
    | nil => exact fun seen h => h
    | cons f rest ih => exact fun seen h => ih _ (h.insertField f.1 f.2)
  exact hfold [] .nil

/-- A field whose key is beyond all others is put last. -/
theorem insertField_of_last (key : String) (value : Json) (fields : List (String × Json))
    (h : ∀ f ∈ fields, f.1 < key) : insertField key value fields = fields ++ [(key, value)] := by
  induction fields with
  | nil => rfl
  | cons e rest ih =>
    obtain ⟨k, v⟩ := e
    have hlt : k < key := h _ List.mem_cons_self
    unfold insertField
    rw [if_neg hlt.le.not_gt, if_neg hlt.ne', ih fun f hf => h f (List.mem_cons_of_mem _ hf)]
    rfl

/-- What is sorted stays as it is. -/
theorem Ascending.sortFields {fields : List (String × Json)} (h : Ascending fields) :
    sortFields fields = fields := by
  have hfold : ∀ seen, Ascending (seen ++ fields) →
      fields.foldl (fun sorted f => Json.insertField f.1 f.2 sorted) seen = seen ++ fields := by
    induction fields with
    | nil => exact fun seen _ => (List.append_nil seen).symm
    | cons f rest ih =>
      intro seen hseen
      have hlast : ∀ g ∈ seen, g.1 < f.1 := fun g hg =>
        (List.pairwise_append.mp hseen).2.2 g hg f List.mem_cons_self
      rw [List.foldl_cons, insertField_of_last _ _ _ hlast]
      have hnext := ih (List.pairwise_cons.mp h).2 (seen ++ [f]) (by simpa using hseen)
      simpa using hnext
  exact hfold [] h

theorem sortFields_map (f : Json → Json) (fields : List (String × Json)) :
    (sortFields fields).map (fun e => (e.1, f e.2))
      = sortFields (fields.map fun e => (e.1, f e.2)) := by
  have hfold : ∀ seen,
      (fields.foldl (fun sorted e => insertField e.1 e.2 sorted) seen).map (fun e => (e.1, f e.2))
        = (fields.map fun e => (e.1, f e.2)).foldl (fun sorted e => insertField e.1 e.2 sorted)
          (seen.map fun e => (e.1, f e.2)) := by
    induction fields with
    | nil => exact fun seen => rfl
    | cons e rest ih =>
      intro seen
      rw [List.foldl_cons, ih, insertField_map]
      rfl
  exact hfold []

/-! ## Section 3: Sorting twice -/

theorem sortedFields_eq_map (fields : List (String × Json)) :
    sortedFields fields = fields.map fun e => (e.1, e.2.sorted) := by
  induction fields with
  | nil => rfl
  | cons e rest ih =>
    obtain ⟨k, j⟩ := e
    unfold sortedFields
    rw [ih]
    rfl

mutual

theorem sorted_idem (j : Json) : j.sorted.sorted = j.sorted := by
  match j with
  | .null => rfl
  | .bool _ => rfl
  | .int _ => rfl
  | .float _ => rfl
  | .str _ => rfl
  | .arr items =>
    simp only [sorted]
    rw [sortedItems_idem items]
  | .obj fields =>
    simp only [sorted]
    have hinner : sortedFields (sortFields (sortedFields fields)) = sortFields (sortedFields fields) := by
      rw [sortedFields_eq_map (sortFields _), sortFields_map, ← sortedFields_eq_map,
        sortedFields_idem fields]
    rw [hinner, (ascending_sortFields _).sortFields]

theorem sortedItems_idem (items : List Json) :
    sortedItems (sortedItems items) = sortedItems items := by
  match items with
  | [] => rfl
  | j :: rest => simp only [sortedItems, sorted_idem j, sortedItems_idem rest]

theorem sortedFields_idem (fields : List (String × Json)) :
    sortedFields (sortedFields fields) = sortedFields fields := by
  match fields with
  | [] => rfl
  | (k, j) :: rest => simp only [sortedFields, sorted_idem j, sortedFields_idem rest]

end

end FlowGraph.Json
