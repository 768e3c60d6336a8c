import FlowGraph.Proofs.Dispatch.Returning
import FlowGraph.Proofs.Graph.Slotted
import FlowGraph.Proofs.Store

/-! # Nodes without sub-executions

    A node that runs no chains and returns has not counted or listed anything, it fills the
    return box only if it is an output, and of all cells it writes its own at most
    (`Site.does_plain`).  A wait is the exception: while a node waits, others may have written
    any cell.

    The entry of a function writes the arguments of the call to its slots, one to each
    (`Site.cell_published`). -/

namespace FlowGraph

namespace Site

/-! ## Section 1: Cells of a node -/

/-- Between the stores only cells of the node changed, and each row has its size still. -/
structure Touches (site : Site) (s t : Store) : Prop where
  rows : Store.RowsKept (fun _ => True) s t
  cells : ∀ k a, t.cell k a ≠ s.cell k a →
    k = site.frame.graph.id ∧ a.node.index = site.node.index

variable {site : Site} {s t u : Store}

theorem Touches.of_graphs (h : t.graphs = s.graphs) : site.Touches s t := by
  refine ⟨.of_graphs _ h, fun k a hchanged => absurd ?_ hchanged⟩
  unfold Store.cell
  rw [h]

theorem Touches.trans (hst : site.Touches s t) (htu : site.Touches t u) : site.Touches s u := by
  refine ⟨hst.rows.trans htu.rows, fun k a hchanged => ?_⟩
  by_cases hlater : u.cell k a = t.cell k a
  · rw [hlater] at hchanged
    exact hst.cells k a hchanged
  · exact htu.cells k a hlater

/-- A slot that is found belongs to the node. -/
theorem node_of_address? (site : Site) (name : String) (index : Nat) (a : PortAddress)
    (ha : site.address? name index = some a) : a.node = site.node ∧
      ∃ x, site.node? = some x ∧ x.portIndex name index = some a.port := by
  obtain ⟨i, hi, rfl⟩ := Option.map_eq_some_iff.mp ha
  obtain ⟨x, hx, hindex⟩ := Option.bind_eq_some_iff.mp hi
  exact ⟨rfl, x, hx, hindex⟩

/-- A slot that is found is one of the graph. -/
theorem output_of_address? (site : Site) (name : String) (index : Nat) (a : PortAddress)
    (ha : site.address? name index = some a) (v : Value) (s : Store) :
    site.output name index v s = s.writeCell site.frame.graph.id a v := by
  obtain ⟨hnode, x, hx, hindex⟩ := site.node_of_address? name index a ha
  obtain ⟨hlt, _⟩ := List.findIdx?_eq_some_iff_getElem.mp hindex
  have hport : site.frame.graph.port? a = some x.ports[a.port] := by
    unfold Network.port?
    rw [hnode]
    show (site.node?.bind fun x => x.ports[a.port]?) = _
    rw [hx, Option.bind_some, List.getElem?_eq_getElem hlt]
  unfold output
  rw [ha]
  show site.frame.graph.writePort s a v = _
  unfold Network.writePort
  rw [hport]

theorem touches_output (site : Site) (name : String) (index : Nat) (v : Value) (s : Store) :
    site.Touches s (site.output name index v s) := by
  cases ha : site.address? name index with
  | none =>
    have hsame : site.output name index v s = s := by
      unfold output
      rw [ha]
    rw [hsame]
    exact .of_graphs rfl
  | some a =>
    rw [site.output_of_address? name index a ha]
    refine ⟨s.rowsKept_writeCell _ _ _ _, fun k b hchanged => ?_⟩
    by_cases hk : site.frame.graph.id = k
    · subst hk
      refine ⟨rfl, ?_⟩
      by_contra hindex
      have hother : a.node.index ≠ b.node.index := by
        rw [(site.node_of_address? name index a ha).1]
        exact fun heq => hindex heq.symm
      exact hchanged (s.cell_writeCell_of_ne _ a b v (.inl hother))
    · exact absurd (s.cell_writeCell_other _ k a b v hk) hchanged

/-! ## Section 2: What a node does -/

/-- What a node answers with. -/
def answered (site : Site) (s : Store) : Behavior → Option Value
  | .functionOutput => some (site.input "value" 0 s)
  | _ => none

/-- What a node that runs no chains has done. -/
structure Does (site : Site) (b : Behavior) (s t : DispatchState) : Prop where
  /-- The return box holds what the node answered with, or what it held before. -/
  returned : t.returned = (site.answered s.store b).or s.returned
  /-- A node that does not wait has written its own cells at most. -/
  touches : b ≠ .delay → site.Touches s.store t.store

theorem touches_outputs (site : Site) (values : List (String × Value)) (s : Store) :
    site.Touches s (site.outputs values s) := by
  induction values generalizing s with
  | nil => exact .of_graphs rfl
  | cons r rest ih => exact (site.touches_output r.1 0 r.2 s).trans (ih _)

/-- The store after the arguments of the call were published in some slots. -/
def publishedIn (site : Site) (indices : List Nat) (s : Store) : Store :=
  indices.foldl (fun s index => site.output "args" index (site.frame.call.argument index) s) s

/-- The store after the arguments of the call were published. -/
def published (site : Site) (s : Store) : Store :=
  site.publishedIn (List.range (site.portCount "args")) s

theorem touches_publishedIn (site : Site) (indices : List Nat) (s : Store) :
    site.Touches s (site.publishedIn indices s) := by
  induction indices generalizing s with
  | nil => exact .of_graphs rfl
  | cons index rest ih => exact (site.touches_output "args" index _ s).trans (ih _)

theorem does_plain (chain : Chain) (site : Site) (b : Behavior) (hb : b.startsChains = false)
    (s t : DispatchState) (h : (site.execute chain b).Returns s () t) : site.Does b s t := by
  cases hsignature : b.signature with
  | some signature =>
    rw [site.returns_onDemand chain b signature hsignature s t h]
    refine ⟨?_, fun _ => site.touches_outputs _ _⟩
    cases b with
    | functionOutput => cases hsignature
    | _ => rfl
  | none =>
    cases b with
    | executionEvent name =>
      obtain ⟨_, rfl⟩ := (Process.ends_done_iff _ _ _ _).mp h
      exact ⟨rfl, fun _ => site.touches_publishedIn _ _⟩
    | functionInput name =>
      obtain ⟨_, rfl⟩ := (Process.ends_done_iff _ _ _ _).mp h
      exact ⟨rfl, fun _ => site.touches_publishedIn _ _⟩
    | branch =>
      obtain ⟨_, rfl⟩ := (Process.ends_done_iff _ _ _ _).mp h
      exact ⟨rfl, fun _ => .of_graphs rfl⟩
    | delay =>
      replace h := Exec.returns_read_bind _ _ _ _ _ h
      split at h
      · exact absurd h (Exec.not_returns_fail _ _ _ _)
      · replace h := Exec.returns_read_bind _ _ _ _ _ h
        replace h := Exec.returns_modify_bind _ _ _ _ _ h
        replace h := Exec.returns_modify_bind _ _ _ _ _ h
        obtain ⟨_, u, hawait, hrest⟩ := Exec.returns_bind _ _ _ _ _ h
        obtain ⟨store, rfl⟩ := Exec.returns_await _ _ u hawait
        obtain rfl := (Exec.returns_modify_iff _ _ _).mp hrest
        exact ⟨rfl, fun hdelay => absurd rfl hdelay⟩
    | log level =>
      replace h := Exec.returns_read_bind _ _ _ _ _ h
      dsimp only at h
      split at h
      · obtain ⟨_, rfl⟩ := (Process.ends_done_iff _ _ _ _).mp h
        exact ⟨rfl, fun _ => .of_graphs rfl⟩
      · obtain ⟨_, rfl⟩ := (Process.ends_done_iff _ _ _ _).mp h
        exact ⟨rfl, fun _ => .of_graphs rfl⟩
    | setVariable =>
      replace h := Exec.returns_read_bind _ _ _ _ _ h
      dsimp only at h
      split at h
      · obtain ⟨_, rfl⟩ := (Process.ends_done_iff _ _ _ _).mp h
        exact ⟨rfl, fun _ => .of_graphs rfl⟩
      · obtain ⟨_, rfl⟩ := (Process.ends_done_iff _ _ _ _).mp h
        exact ⟨rfl, fun _ => .of_graphs rfl⟩
    | functionOutput =>
      obtain ⟨_, rfl⟩ := (Process.ends_done_iff _ _ _ _).mp h
      exact ⟨rfl, fun _ => .of_graphs rfl⟩
    | placeholder node =>
      obtain ⟨_, rfl⟩ := (Process.ends_done_iff _ _ _ _).mp h
      exact ⟨rfl, fun _ => .of_graphs rfl⟩
    | sequence => cases hb
    | forLoop => cases hb
    | invokeFunction name => cases hb
    | script script => cases hb
    | _ => cases hsignature

/-! ## Section 3: Published arguments -/

/-- A slot has one index only. -/
theorem index_of_address? (site : Site) (name : String) (i j : Nat) (a : PortAddress)
    (hi : site.address? name i = some a) (hj : site.address? name j = some a) : i = j := by
  obtain ⟨_, x, hx, hxi⟩ := site.node_of_address? name i a hi
  obtain ⟨_, y, hy, hyj⟩ := site.node_of_address? name j a hj
  rw [hx] at hy
  cases hy
  obtain ⟨hlt, hslot, _⟩ := List.findIdx?_eq_some_iff_getElem.mp hxi
  obtain ⟨_, hslot', _⟩ := List.findIdx?_eq_some_iff_getElem.mp hyj
  simp only [Port.isSlot, Bool.and_eq_true, decide_eq_true_eq] at hslot hslot'
  exact hslot.2.symm.trans hslot'.2

/-- A slot whose index is among those that are published holds its argument. -/
theorem cell_publishedIn (site : Site) (indices : List Nat) (s : Store) (index : Nat)
    (a : PortAddress) (ha : site.address? "args" index = some a) (n : Nat)
    (hrow : s.rowSize site.frame.graph.id site.node.index = some n) (hlt : a.port < n) :
    (site.publishedIn indices s).cell site.frame.graph.id a =
      if index ∈ indices then site.frame.call.argument index
      else s.cell site.frame.graph.id a := by
  induction indices generalizing s with
  | nil => rfl
  | cons first rest ih =>
    have hkept := (site.touches_output "args" first (site.frame.call.argument first) s).rows.row
      site.frame.graph.id trivial site.node.index
    show (site.publishedIn rest (site.output "args" first _ s)).cell _ a = _
    rw [ih _ (hkept.trans hrow)]
    by_cases hrest : index ∈ rest
    · rw [if_pos hrest, if_pos (List.mem_cons_of_mem first hrest)]
    · rw [if_neg hrest]
      by_cases hfirst : index = first
      · subst hfirst
        have hnode := (site.node_of_address? "args" index a ha).1
        rw [if_pos List.mem_cons_self, site.output_of_address? "args" index a ha]
        exact s.cell_writeCell_self _ a _ n (by rw [hnode]; exact hrow) hlt
      · rw [if_neg (by simp [hfirst, hrest])]
        -- another index is that of another slot
        cases hother : site.address? "args" first with
        | none =>
          unfold output
          rw [hother]
        | some b =>
          rw [site.output_of_address? "args" first b hother]
          refine s.cell_writeCell_of_ne _ b a _ (.inr fun hport => hfirst ?_)
          have hnodes : b.node = a.node := (site.node_of_address? "args" first b hother).1.trans
            (site.node_of_address? "args" index a ha).1.symm
          have hsame : b = a := by
            cases a
            cases b
            cases hnodes
            cases hport
            rfl
          exact site.index_of_address? "args" index first a ha (hsame ▸ hother)

/-- Every slot holds its argument, `null` behind the last one. -/
theorem cell_published (site : Site) (x : GraphNode) (hx : site.node? = some x)
    (hslotted : x.Slotted) (s : Store)
    (hrow : s.rowSize site.frame.graph.id site.node.index = some x.ports.length) (index : Nat)
    (a : PortAddress) (ha : site.address? "args" index = some a) :
    (site.published s).cell site.frame.graph.id a = site.frame.call.argument index := by
  obtain ⟨_, y, hy, hindex⟩ := site.node_of_address? "args" index a ha
  rw [hx] at hy
  cases hy
  obtain ⟨hlt, _⟩ := List.findIdx?_eq_some_iff_getElem.mp hindex
  have hcount : site.portCount "args" = x.portCount "args" := by
    unfold portCount
    rw [hx]
    rfl
  unfold published
  rw [site.cell_publishedIn _ s index a ha _ hrow hlt, hcount,
    if_pos (List.mem_range.mpr (hslotted.lt_portCount "args" index a.port hindex))]

end Site
end FlowGraph
