import FlowGraph.Redirects
import FlowGraph.Proofs.Registry.Lookup

/-! # Which redirect applies

    The first redirect applies whose source agrees with an identity, and a new redirect goes to
    the end.  An old redirect of the same source is dropped, but one of another source can agree
    with the identity, too: a source without assembly agrees with one that has an assembly.  Such
    an older redirect still comes first (`hop_insert`), and that is also so when a table is merged
    into another one, whatever order its full names are visited in (`hop_merge`).

    So a new redirect applies to its own source just if no older redirect that leads elsewhere
    agrees with the source, and it never changes what applies to an identity that does not agree
    with it (`hop_after_adding`). -/

namespace FlowGraph
namespace Redirects

variable {redirects other visited : Redirects} {id : TypeIdentity}

/-! ## Section 1: One redirect for each source -/

/-- The identities that a table redirects explicitly. -/
def sources (redirects : Redirects) : List TypeIdentity := redirects.entries.map Prod.fst

/-- The redirects of a table in another order, which changes nothing among those of one full
    name. -/
def Rearranges (visited other : Redirects) : Prop :=
  ∀ name, visited.entries.filter (fun e => e.1.fullName = name)
    = other.entries.filter (fun e => e.1.fullName = name)

/-- How a table comes to be. -/
inductive Built : Redirects → Prop where
  | empty : Built {}
  | insert {redirects : Redirects} (source target : TypeIdentity) (hbuilt : Built redirects) :
      Built (redirects.insert source target)
  | merge {redirects other visited : Redirects} (hbuilt : Built redirects) (hother : Built other)
      (hvisited : visited.Rearranges other) : Built (redirects.merge visited)

theorem Rearranges.refl (redirects : Redirects) : redirects.Rearranges redirects := fun _ => rfl

theorem Rearranges.perm (h : visited.Rearranges other) :
    visited.entries.Perm other.entries := by
  rw [List.perm_iff_count]
  intro e
  -- an entry is counted among those of its own full name
  have hcount : ∀ r : Redirects, List.count e r.entries
      = List.count e (r.entries.filter fun d => d.1.fullName = e.1.fullName) :=
    fun r => (List.count_filter (by simp)).symm
  rw [hcount visited, hcount other, h]

theorem Rearranges.mem_sources (h : visited.Rearranges other) :
    id ∈ visited.sources ↔ id ∈ other.sources :=
  (h.perm.map Prod.fst).mem_iff

/-- No source has two redirects. -/
theorem nodup_sources_insert (h : redirects.sources.Nodup) (source target : TypeIdentity) :
    (redirects.insert source target).sources.Nodup := by
  unfold sources insert
  rw [List.map_append, List.nodup_append]
  refine ⟨h.sublist (List.filter_sublist.map Prod.fst), List.nodup_singleton _, ?_⟩
  -- what is kept of the old redirects has other sources than the new one
  intro kept hkept added hadded heq
  obtain ⟨e, he, rfl⟩ := List.mem_map.mp hkept
  have hne : e.1 ≠ source := by simpa using (List.mem_filter.mp he).2
  exact hne (heq.trans (List.mem_singleton.mp hadded))

theorem nodup_sources_merge (h : redirects.sources.Nodup) (other : Redirects) :
    (redirects.merge other).sources.Nodup := by
  unfold merge
  generalize other.entries = added
  induction added generalizing redirects with
  | nil => exact h
  | cons e rest ih => exact ih (nodup_sources_insert h e.1 e.2)

theorem Built.nodup_sources (h : Built redirects) : redirects.sources.Nodup := by
  induction h with
  | empty => exact List.nodup_nil
  | insert source target _ ih => exact nodup_sources_insert ih source target
  | merge _ _ _ ih _ => exact nodup_sources_merge ih _

/-! ## Section 2: What applies afterwards -/

/-- Where the first redirect leads that agrees with an identity, those of some sources apart. -/
def hopApart (redirects : Redirects) (replaced : List TypeIdentity) (id : TypeIdentity) :
    Option TypeIdentity :=
  (redirects.entries.find? fun e => e.1 ∉ replaced ∧ e.1.agrees id).map Prod.snd

/-- An old redirect of another source comes before the new one. -/
theorem hop_insert (redirects : Redirects) (source target id : TypeIdentity) :
    (redirects.insert source target).hop id
      = (redirects.hopApart [source] id).or (if source.agrees id then some target else none) := by
  unfold hop insert hopApart
  rw [List.find?_append, List.find?_filter, Option.map_or]
  congr 1
  · simp
  · by_cases h : source.agrees id = true <;> simp [h]

/-- A merged table loses nothing, and drops what the other one redirects. -/
theorem entries_merge (redirects : Redirects) (h : other.sources.Nodup) :
    (redirects.merge other).entries
      = redirects.entries.filter (fun e => e.1 ∉ other.sources) ++ other.entries := by
  unfold merge
  unfold sources at h ⊢
  generalize other.entries = added at h ⊢
  induction added generalizing redirects with
  | nil => simp
  | cons e rest ih =>
    rw [List.map_cons, List.nodup_cons] at h
    rw [List.foldl_cons, ih _ h.2]
    -- no later redirect has the source of `e`, so `e` is kept
    have hkept : [e].filter (fun d => d.1 ∉ rest.map Prod.fst) = [e] :=
      List.filter_eq_self.mpr (by simpa using h.1)
    have hrest : (redirects.entries.filter fun d => d.1 ≠ e.1).filter
          (fun d => d.1 ∉ rest.map Prod.fst)
        = redirects.entries.filter fun d => d.1 ∉ (e :: rest).map Prod.fst := by
      rw [List.filter_filter]
      refine List.filter_congr fun d _ => ?_
      rw [List.map_cons, Bool.eq_iff_iff]
      simp [and_comm]
    unfold insert
    dsimp only
    rw [List.filter_append, hrest, hkept, List.append_assoc, List.singleton_append]

/-- The order of the full names does not matter. -/
theorem Rearranges.hop_eq (h : visited.Rearranges other) (id : TypeIdentity) :
    visited.hop id = other.hop id := by
  -- what agrees with an identity has its full name
  have hnamed : ∀ r : Redirects, r.entries.find? (fun e => e.1.agrees id)
      = (r.entries.filter fun e => e.1.fullName = id.fullName).find? fun e => e.1.agrees id := by
    intro r
    rw [List.find?_filter]
    congr 1
    funext e
    by_cases hagrees : e.1.agrees id = true
    · simp [hagrees, TypeIdentity.fullName_eq_of_agrees hagrees]
    · simp [hagrees]
  unfold hop
  rw [hnamed visited, hnamed other, h]

/-- So an old redirect also comes before the ones of a merged table. -/
theorem hop_merge (redirects : Redirects) (hother : other.sources.Nodup)
    (hvisited : visited.Rearranges other) (id : TypeIdentity) :
    (redirects.merge visited).hop id
      = (redirects.hopApart other.sources id).or (other.hop id) := by
  have hnodup : visited.sources.Nodup := (hvisited.perm.map Prod.fst).nodup_iff.mpr hother
  have hapart : redirects.entries.find? (fun e => e.1 ∉ visited.sources ∧ e.1.agrees id)
      = redirects.entries.find? (fun e => e.1 ∉ other.sources ∧ e.1.agrees id) := by
    simp only [hvisited.mem_sources]
  rw [← hvisited.hop_eq id]
  unfold hop hopApart
  rw [entries_merge redirects hnodup, List.find?_append, List.find?_filter, Option.map_or,
    ← hapart]
  simp only [decide_eq_true_eq, Bool.decide_and, Bool.decide_eq_true]

theorem hopApart_of_not_agrees {source : TypeIdentity} (h : source.agrees id = false) :
    redirects.hopApart [source] id = redirects.hop id := by
  unfold hopApart hop
  congr 2
  funext e
  by_cases he : e.1 = source
  · simp [he, h]
  · simp [he]

/-- A table redirects what it redirects explicitly. -/
theorem exists_hop_of_mem_sources (h : id ∈ redirects.sources) :
    ∃ target, redirects.hop id = some target := by
  obtain ⟨e, he, rfl⟩ := List.mem_map.mp h
  have hfound : (redirects.entries.find? fun d => d.1.agrees e.1).isSome = true := by
    rw [List.find?_isSome]
    exact ⟨e, he, e.1.agrees_self⟩
  obtain ⟨d, hd⟩ := Option.isSome_iff_exists.mp hfound
  exact ⟨d.2, by unfold hop; rw [hd, Option.map_some]⟩

/-! ## Section 3: New redirects -/

/-- **Main theorem: which redirect applies.**  A new redirect applies to its own source just if no
    older redirect of another source that agrees with it leads elsewhere, and identities that
    do not agree with its source are redirected as before.  What a merged table redirects
    explicitly is redirected as in this table just if no older redirect of a source that the
    table does not have leads elsewhere, in whatever order the table is visited. -/
theorem hop_after_adding (redirects other visited : Redirects) (source target : TypeIdentity)
    (hother : Built other) (hvisited : visited.Rearranges other) :
    ((redirects.insert source target).hop source = some target ↔
        ∀ old, redirects.hopApart [source] source = some old → old = target) ∧
      (∀ id, source.agrees id = false →
        (redirects.insert source target).hop id = redirects.hop id) ∧
      ∀ id ∈ other.sources, (other.hop id).isSome = true ∧
        ((redirects.merge visited).hop id = other.hop id ↔
          ∀ old, redirects.hopApart other.sources id = some old → some old = other.hop id) := by
  have hfirst : ∀ old given : Option TypeIdentity,
      old.or given = given ↔ ∀ t, old = some t → some t = given := by
    intro old given
    cases old <;> simp
  refine ⟨?_, ?_, ?_⟩
  · rw [hop_insert, if_pos source.agrees_self, hfirst]
    simp
  · intro id hid
    rw [hop_insert, hid, hopApart_of_not_agrees hid, if_neg Bool.false_ne_true, Option.or_none]
  · intro id hid
    obtain ⟨t, ht⟩ := exists_hop_of_mem_sources hid
    rw [hop_merge redirects hother.nodup_sources hvisited, hfirst]
    exact ⟨by simp [ht], Iff.rfl⟩

theorem hop_after_adding_reversed :
    let node : TypeIdentity := ⟨"Old", "Node", some "Game"⟩
    let leaf : TypeIdentity := ⟨"Old", "Leaf", none⟩
    let old := Redirects.insert {} node ⟨"Game", "Node", none⟩
    let other := (Redirects.insert {} node ⟨"New", "Node", none⟩).insert leaf ⟨"New", "Leaf", none⟩
    let visited : Redirects := ⟨other.entries.reverse⟩
    Built other ∧ visited.Rearranges other ∧ leaf.agrees node = false ∧ node ∈ other.sources ∧
      (old.insert leaf ⟨"New", "Leaf", none⟩).hop leaf = some ⟨"New", "Leaf", none⟩ ∧
      (old.insert leaf ⟨"New", "Leaf", none⟩).hop node = old.hop node ∧
      (old.merge visited).hop node = other.hop node := by
  intro node leaf old other visited
  have hother : Built other := .insert _ _ (.insert _ _ .empty)
  have hvisited : visited.Rearranges other := by
    intro name
    -- the two full names differ, so at most one redirect is left on either side
    by_cases hleaf : leaf.fullName = name
    · subst hleaf
      decide
    · by_cases hnode : node.fullName = name
      · subst hnode
        decide
      · simp [visited, other, insert, hleaf, hnode]
  have hmem : node ∈ other.sources := by decide
  obtain ⟨hown, hrest, hmerged⟩ :=
    hop_after_adding old other visited leaf ⟨"New", "Leaf", none⟩ hother hvisited
  have hunhindered : old.hopApart [leaf] leaf = none := by decide
  have hreplaced : old.hopApart other.sources node = none := by decide
  refine ⟨hother, hvisited, by decide, hmem, hown.mpr ?_, hrest node (by decide),
    (hmerged node hmem).2.mpr ?_⟩
  · simp [hunhindered]
  · simp [hreplaced]

/-- A redirect that names no assembly hides a newer one of the identity with its assembly, whether
    it is inserted or merged. -/
theorem older_redirect_hides :
    let game : TypeIdentity := ⟨"Old", "Node", some "Game"⟩
    let old := Redirects.insert {} ⟨"Old", "Node", none⟩ ⟨"New", "Plain", none⟩
    let other := Redirects.insert {} game ⟨"New", "Game", none⟩
    game ∈ other.sources ∧ other.hop game = some ⟨"New", "Game", none⟩ ∧
      (old.insert game ⟨"New", "Game", none⟩).hop game = some ⟨"New", "Plain", none⟩ ∧
      (old.merge other).hop game = some ⟨"New", "Plain", none⟩ := by
  decide

end Redirects
end FlowGraph
