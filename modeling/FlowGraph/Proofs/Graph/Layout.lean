import FlowGraph.Graph.Network
import Mathlib

/-! # Slots of a node that was laid out

    The slots of a node are found by name and index.  If several declared ports share a
    name, the first one answers to it, as far as it has a slot of that index
    (`port?_of_declared`); where no name is declared twice, there are no other slots
    (`hasSlot_of_port?`).

    A record below the limit gives an array port its slot (`lt_extent`). -/

namespace FlowGraph

theorem NodeDescriptor.name_of_port? {n : NodeDescriptor} {name : String} {d : PortDescriptor}
    (hd : n.port? name = some d) : d.name = name := by
  simpa using List.find?_some hd

/-- The first declared port of the name is an array. -/
theorem NodeDescriptor.isArray_eq_true_iff (n : NodeDescriptor) (name : String) :
    n.isArray name = true ↔ ∃ d, n.port? name = some d ∧ d.array = true := by
  unfold isArray
  cases n.port? name with
  | none => simp
  | some d => simp

namespace Layout

/-! ## Section 1: How many slots there are -/

/-- What the records of a list add to a number of slots. -/
def widen (name : String) (n : Nat) (r : PortData) : Nat :=
  if r.name = name && r.index < maxArraySlots then max n (r.index + 1) else n

theorem le_foldl_widen (name : String) (records : List PortData) (n : Nat) :
    n ≤ records.foldl (widen name) n := by
  induction records generalizing n with
  | nil => exact le_refl n
  | cons r rest ih =>
    refine le_trans ?_ (ih _)
    unfold widen
    split
    · exact le_max_left _ _
    · exact le_refl n

/-- A record below the limit is of a slot that there is. -/
theorem lt_extent (records : List PortData) (r : PortData) (hr : r ∈ records)
    (hindex : r.index < maxArraySlots) : r.index < extent records r.name := by
  have hfold : ∀ n, r.index < records.foldl (widen r.name) n := by
    induction records with
    | nil => cases hr
    | cons first rest ih =>
      intro n
      rcases List.mem_cons.mp hr with rfl | hr
      · refine lt_of_lt_of_le ?_ (le_foldl_widen r.name rest _)
        simp [widen, hindex]
      · exact ih hr _
  exact hfold 0

theorem extent_le (records : List PortData) (name : String) :
    extent records name ≤ maxArraySlots := by
  have hfold : ∀ n ≤ maxArraySlots, records.foldl (widen name) n ≤ maxArraySlots := by
    induction records with
    | nil => exact fun n hn => hn
    | cons r rest ih =>
      refine fun n hn => ih _ ?_
      unfold widen
      split
      · rename_i h
        simp only [Bool.and_eq_true, decide_eq_true_eq] at h
        omega
      · exact hn
  exact hfold 0 (Nat.zero_le _)

/-- A declared port has a slot of an index. -/
def HasSlot (records : List PortData) (d : PortDescriptor) (index : Nat) : Prop :=
  index < if d.array then extent records d.name else 1

theorem HasSlot.lt {records : List PortData} {d : PortDescriptor} {index : Nat}
    (h : HasSlot records d index) : index < maxArraySlots := by
  unfold HasSlot at h
  split at h
  · exact h.trans_le (extent_le records d.name)
  · exact h.trans (by decide)

/-- A record below the limit gives an array port of its name the slot. -/
theorem hasSlot_of_mem {records : List PortData} {d : PortDescriptor} (harray : d.array = true)
    (r : PortData) (hr : r ∈ records) (hname : r.name = d.name) (hindex : r.index < maxArraySlots) :
    HasSlot records d r.index := by
  unfold HasSlot
  rw [if_pos harray, ← hname]
  exact lt_extent records r hr hindex

/-- More records leave the slots where they are. -/
theorem HasSlot.append {records : List PortData} {d : PortDescriptor} {index : Nat}
    (h : HasSlot records d index) (more : List PortData) : HasSlot (records ++ more) d index := by
  have hle : extent records d.name ≤ extent (records ++ more) d.name := by
    unfold extent
    rw [List.foldl_append]
    exact le_foldl_widen d.name more _
  unfold HasSlot at h ⊢
  split
  · rename_i harray
    rw [if_pos harray] at h
    exact h.trans_le hle
  · rename_i harray
    rw [if_neg harray] at h
    exact h

/-! ## Section 2: Finding slots -/

theorem portsOf_cons (records : List PortData) (d : PortDescriptor) (ds : List PortDescriptor) :
    portsOf records (d :: ds) =
      (List.range (if d.array then extent records d.name else 1)).map (Port.ofDescriptor d)
        ++ portsOf records ds := by
  simp [portsOf, slots, slotsOf, Function.comp_def]

/-- The first declared port of a name is found, if it has the slot. -/
theorem find?_portsOf (records : List PortData) (ds : List PortDescriptor) (name : String)
    (index : Nat) (d : PortDescriptor) (hd : ds.find? (·.name = name) = some d)
    (hslot : HasSlot records d index) :
    (portsOf records ds).find? (·.isSlot name index) = some (Port.ofDescriptor d index) := by
  induction ds with
  | nil => cases hd
  | cons first rest ih =>
    rw [portsOf_cons, List.find?_append]
    by_cases hname : first.name = name
    · rw [List.find?_cons_of_pos (by simpa using hname)] at hd
      cases hd
      -- the slots of the port stand in the order of their indices
      have hfound : ((List.range (if d.array then extent records d.name else 1)).map
          (Port.ofDescriptor d)).find? (·.isSlot name index)
            = some (Port.ofDescriptor d index) := by
        rw [List.find?_map, Option.map_eq_some_iff]
        refine ⟨index, List.find?_range_eq_some.mpr ⟨?_, List.mem_range.mpr hslot, ?_⟩, rfl⟩
        · simp [Port.ofDescriptor, Port.isSlot, hname]
        · intro j hj
          simp [Port.ofDescriptor, Port.isSlot, hj.ne]
      rw [hfound]
      rfl
    · rw [List.find?_cons_of_neg (by simpa using hname)] at hd
      have hnone : ((List.range (if first.array then extent records first.name else 1)).map
          (Port.ofDescriptor first)).find? (·.isSlot name index) = none := by
        rw [List.find?_eq_none]
        intro p hp
        obtain ⟨j, _, rfl⟩ := List.mem_map.mp hp
        simp [Port.ofDescriptor, Port.isSlot, hname]
      rw [hnone, ih hd]
      rfl

/-- A slot that is found is one of a declared port. -/
theorem exists_of_find?_portsOf (records : List PortData) (ds : List PortDescriptor)
    (name : String) (index : Nat) (p : Port)
    (hp : (portsOf records ds).find? (·.isSlot name index) = some p) :
    ∃ d ∈ ds, d.name = name ∧ HasSlot records d index ∧ p = Port.ofDescriptor d index := by
  have hslot := List.find?_some hp
  have hmem := List.mem_of_find?_eq_some hp
  unfold portsOf slots slotsOf at hmem
  obtain ⟨⟨d, i⟩, hdi, rfl⟩ := List.mem_map.mp hmem
  obtain ⟨d', hd', hi⟩ := List.mem_flatMap.mp hdi
  obtain ⟨j, hj, heq⟩ := List.mem_map.mp hi
  cases heq
  obtain ⟨hname, hindex⟩ := Bool.and_eq_true_iff.mp hslot
  have hsame : i = index := of_decide_eq_true hindex
  rw [← hsame]
  exact ⟨d, hd', of_decide_eq_true hname, List.mem_range.mp hj, rfl⟩

end Layout

/-! ## Section 3: Slots of a node -/

namespace GraphNode

open Layout

/-- The node has the slots that its records ask for, all unlinked. -/
def LaidOut (x : GraphNode) : Prop := x.ports = portsOf x.records x.descriptor.ports

/-- Laying it out anew changes nothing. -/
theorem LaidOut.laidOut_eq {x : GraphNode} (hx : x.LaidOut) : x.laidOut = x := by
  unfold LaidOut at hx
  unfold GraphNode.laidOut
  rw [← hx]

theorem port?_eq_find? (x : GraphNode) (name : String) (index : Nat) :
    x.port? name index = x.ports.find? (·.isSlot name index) :=
  List.find?_eq_bind_findIdx?_getElem?.symm

theorem port?_eq_some_iff (x : GraphNode) (name : String) (index : Nat) (p : Port) :
    x.port? name index = some p ↔
      ∃ i, x.portIndex name index = some i ∧ x.ports[i]? = some p :=
  Option.bind_eq_some_iff

/-- The first declared port of a name answers to it. -/
theorem port?_of_declared {x : GraphNode} (hx : x.LaidOut) (name : String) (index : Nat)
    (d : PortDescriptor) (hd : x.descriptor.port? name = some d)
    (hslot : HasSlot x.records d index) :
    x.port? name index = some (Port.ofDescriptor d index) := by
  rw [port?_eq_find?, hx]
  exact find?_portsOf x.records x.descriptor.ports name index d hd hslot

theorem exists_of_port? {x : GraphNode} (hx : x.LaidOut) (name : String) (index : Nat) (p : Port)
    (hp : x.port? name index = some p) :
    ∃ d ∈ x.descriptor.ports, d.name = name ∧ HasSlot x.records d index ∧
      p = Port.ofDescriptor d index := by
  rw [port?_eq_find?, hx] at hp
  exact exists_of_find?_portsOf x.records x.descriptor.ports name index p hp

/-- If no name is declared twice, the declared port itself has the slot. -/
theorem hasSlot_of_port? {x : GraphNode} (hx : x.LaidOut)
    (hnodup : (x.descriptor.ports.map (·.name)).Nodup) (name : String) (index : Nat) (p : Port)
    (hp : x.port? name index = some p) (d : PortDescriptor)
    (hd : x.descriptor.port? name = some d) : HasSlot x.records d index := by
  obtain ⟨d', hd', hname, hslot, _⟩ := exists_of_port? hx name index p hp
  have hmem := List.mem_of_find?_eq_some hd
  have hname' : d.name = name := NodeDescriptor.name_of_port? hd
  have hsame : d' = d := List.inj_on_of_nodup_map hnodup hd' hmem (hname.trans hname'.symm)
  rw [← hsame]
  exact hslot

end GraphNode
end FlowGraph
