import FlowGraph.Registry
import Mathlib

/-! # Looking types up

    Types are kept by their full names, and a look-up compares assemblies, too.  So a full name
    belongs to one type at a time: a type that is registered is found by every identity that
    agrees with it, and the type that had its name is found no more.  The same holds of the
    types of a registry that is merged into another one.

    Two types of one name and of different assemblies do not agree, so an identity can lose its
    type to one that is not its own.  It does just where its type has the name of one that is
    registered; all other answers stay (`lookup_after_registering`). -/

namespace FlowGraph

/-! ## Section 1: Agreement and full names -/

namespace TypeIdentity

theorem agrees_self (id : TypeIdentity) : id.agrees id = true := by
  unfold agrees
  cases id.assembly <;> simp

theorem fullName_eq_of_agrees {id other : TypeIdentity} (h : id.agrees other = true) :
    id.fullName = other.fullName := by
  unfold agrees at h
  simp only [Bool.and_eq_true, decide_eq_true_eq] at h
  unfold fullName
  rw [h.1.1, h.1.2]

end TypeIdentity

namespace Registry

/-! ## Section 2: One type for each name -/

/-- No two types have one full name. -/
def Keyed (r : Registry) : Prop := (r.types.map keyOf).Nodup

/-- How a registry comes to be. -/
inductive Built : Registry → Prop where
  | empty : Built {}
  | builtin : Built .builtin
  | register {r : Registry} (t : NodeType) (hr : Built r) : Built (r.register t)
  | redirect {r : Registry} (source target : TypeIdentity) (hr : Built r) :
      Built (r.redirect source target)
  | merge {r other : Registry} (hr : Built r) (hother : Built other) : Built (r.merge other)

theorem Keyed.register {r : Registry} (hr : r.Keyed) (t : NodeType) : (r.register t).Keyed := by
  unfold Keyed Registry.register
  dsimp only
  rw [List.map_append, List.nodup_append]
  refine ⟨hr.sublist (List.filter_sublist.map keyOf), List.nodup_singleton _, ?_⟩
  -- what is kept of the old types has other names than the new one
  intro name hname other hother heq
  obtain ⟨u, hu, rfl⟩ := List.mem_map.mp hname
  have hne : keyOf u ≠ keyOf t := by simpa using (List.mem_filter.mp hu).2
  exact hne (heq.trans (List.mem_singleton.mp hother))

theorem Keyed.foldl_register {r : Registry} (hr : r.Keyed) (types : List NodeType) :
    (types.foldl Registry.register r).Keyed := by
  induction types generalizing r with
  | nil => exact hr
  | cons t rest ih => exact ih (hr.register t)

theorem builtin_keyed : builtin.Keyed := by
  unfold Keyed
  decide +kernel

theorem Built.keyed {r : Registry} (h : Built r) : r.Keyed := by
  induction h with
  | empty => exact List.nodup_nil
  | builtin => exact builtin_keyed
  | register t _ ih => exact ih.register t
  | redirect source target _ ih => exact ih
  | merge _ _ ih _ => exact ih.foldl_register _

/-! ## Section 3: What is found -/

/-- A new type has its name to itself; all other names have the types they had. -/
theorem find?_register (r : Registry) (t : NodeType) (id : TypeIdentity) :
    (r.register t).find? id =
      if keyOf t = id.fullName then
        if t.descriptor.identity.agrees id then some t else none
      else r.find? id := by
  unfold find? register
  dsimp only
  rw [List.find?_append, List.find?_filter]
  by_cases hname : keyOf t = id.fullName
  · have hnone : r.types.find? (fun u => decide (decide (keyOf u ≠ keyOf t) = true ∧
        decide (keyOf u = id.fullName) = true)) = none := by
      rw [List.find?_eq_none]
      intro u _
      rw [hname]
      simp
    rw [if_pos hname, hnone, Option.none_or, List.find?_cons_of_pos (by simpa using hname),
      Option.filter_some]
  · have hsame : (fun u => decide (decide (keyOf u ≠ keyOf t) = true ∧
        decide (keyOf u = id.fullName) = true)) = fun u => decide (keyOf u = id.fullName) := by
      funext u
      by_cases hu : keyOf u = id.fullName
      · simp [hu, Ne.symm hname]
      · simp [hu]
    rw [if_neg hname, hsame, List.find?_cons_of_neg (by simpa using hname), List.find?_nil,
      Option.or_none]

/-- Types of distinct names that are registered one after the other all have their names to
    themselves. -/
theorem find?_foldl_register {types : List NodeType} (htypes : (types.map keyOf).Nodup)
    (r : Registry) (id : TypeIdentity) :
    (types.foldl register r).find? id =
      match types.find? fun t => keyOf t = id.fullName with
      | some t => if t.descriptor.identity.agrees id then some t else none
      | none => r.find? id := by
  induction types generalizing r with
  | nil => rfl
  | cons t rest ih =>
    rw [List.map_cons, List.nodup_cons] at htypes
    rw [List.foldl_cons, ih htypes.2]
    by_cases hname : keyOf t = id.fullName
    · -- no type of the rest has this name, so the one that was just registered stays
      have hnone : rest.find? (fun u => keyOf u = id.fullName) = none := by
        rw [List.find?_eq_none]
        intro u hu heq
        rw [decide_eq_true_eq, ← hname] at heq
        exact htypes.1 (heq ▸ List.mem_map_of_mem hu)
      rw [hnone, List.find?_cons_of_pos (by simpa using hname)]
      dsimp only
      rw [find?_register, if_pos hname]
    · rw [List.find?_cons_of_neg (by simpa using hname), find?_register, if_neg hname]

/-! ## Section 4: What is found afterwards -/

/-- The types `added` came into a registry.  Each of them is found by every identity that agrees
    with it.  An identity that agrees with none of them keeps its answers, unless it has the full
    name of one of them: then it has no type any more. -/
structure Gains (r r' : Registry) (added : List NodeType) : Prop where
  found : ∀ t ∈ added, ∀ id, t.descriptor.identity.agrees id = true →
    r'.find? id = some t ∧ r'.has id = true
  kept : ∀ id, (∀ t ∈ added, keyOf t ≠ id.fullName) →
    r'.find? id = r.find? id ∧ r'.has id = r.has id
  lost : ∀ id, (∀ t ∈ added, t.descriptor.identity.agrees id = false) →
    (∃ t ∈ added, keyOf t = id.fullName) →
    r'.find? id = none ∧ r'.has id = false

theorem gains_foldl_register {types : List NodeType} (htypes : (types.map keyOf).Nodup)
    (r : Registry) : Gains r (types.foldl register r) types := by
  have hafter := find?_foldl_register htypes r
  -- the type of `types` that has a given name is the only one
  have hfind : ∀ t ∈ types, ∀ id : TypeIdentity, keyOf t = id.fullName →
      types.find? (fun u => keyOf u = id.fullName) = some t := by
    intro t ht id hname
    cases hfound : types.find? fun u => keyOf u = id.fullName with
    | none => simpa [hname] using List.find?_eq_none.mp hfound t ht
    | some u =>
      have hu : keyOf u = id.fullName := by simpa using List.find?_some hfound
      rw [List.inj_on_of_nodup_map htypes (List.mem_of_find?_eq_some hfound) ht
        (hu.trans hname.symm)]
  constructor
  · intro t ht id hagrees
    have hname : keyOf t = id.fullName := TypeIdentity.fullName_eq_of_agrees hagrees
    have hsome := hafter id
    rw [hfind t ht id hname] at hsome
    simp [has, hsome, hagrees]
  · intro id hnames
    have hsame := hafter id
    rw [List.find?_eq_none.mpr (fun t ht => by simpa using hnames t ht)] at hsame
    simp [has, hsame]
  · intro id hother ⟨t, ht, hname⟩
    have hnone := hafter id
    rw [hfind t ht id hname] at hnone
    simp [has, hnone, hother t ht]

/-- **Main theorem: looking types up.**  A type that is registered is found by its identity.
    Registering it changes the answers of the identities that agree with it, and merging a registry
    those of the identities that agree with one of its types.  Besides these, only identities with
    the full name of a new type lose their answers: they have no type then. -/
theorem lookup_after_registering (r : Registry) (t : NodeType) (other : Registry)
    (hother : Built other) :
    (r.register t).find? t.descriptor.identity = some t ∧
      Gains r (r.register t) [t] ∧ Gains r (r.merge other) other.types := by
  have hsingle : ([t].map keyOf).Nodup := List.nodup_singleton (keyOf t)
  have hregister : Gains r (r.register t) [t] := gains_foldl_register hsingle r
  have hmerge := gains_foldl_register hother.keyed r
  refine ⟨?_, hregister, hmerge.found, hmerge.kept, hmerge.lost⟩
  exact (hregister.found t List.mem_cons_self _ t.descriptor.identity.agrees_self).1

/-- A tool that an assembly declares. -/
def tool (assembly : String) : NodeType where
  descriptor := .dependency ⟨"Acme", "Tool", some assembly⟩ assembly .object
  factory := .script

theorem lookup_after_registering_tools :
    let acme : Registry := Registry.register {} (tool "One")
    Built acme ∧
      (builtin.register (tool "Two")).find? ⟨"Acme", "Tool", some "Two"⟩ = some (tool "Two") ∧
      Gains builtin (builtin.register (tool "Two")) [tool "Two"] ∧
      Gains builtin (builtin.merge acme) acme.types := by
  intro acme
  have hacme : Built acme := .register (tool "One") .empty
  exact ⟨hacme, lookup_after_registering builtin (tool "Two") acme hacme⟩

/-- The tool of one assembly is found no more when that of another one is registered or merged,
    although the two do not agree. -/
theorem tool_replaced :
    let one : TypeIdentity := ⟨"Acme", "Tool", some "One"⟩
    let known := builtin.register (tool "One")
    (tool "Two").descriptor.identity.agrees one = false ∧
      (known.find? one).map (·.descriptor) = some (tool "One").descriptor ∧
      known.has one = true ∧
      (known.register (tool "Two")).has one = false ∧
      (known.merge (Registry.register {} (tool "Two"))).has one = false := by
  decide +kernel

end Registry
end FlowGraph
