import FlowGraph.Proofs.Dispatch.Framing

/-! # Turns

    A loop takes a turn for each index, a sequence one for each linked slot.  Here such a run is
    given turn by turn (`Turns`), for all answers to its waits: each turn starts where the one
    before it returned, and one that does not return is the last (`Exec.takesTurns_forEach`).  It
    does not matter what the chains do that are run in the turns; they may lead back to the node
    or write what its bounds were read from. -/

namespace FlowGraph

variable {α β : Type}

/-! ## Section 1: Answers that are left -/

namespace Process

/-- The answers that are left when the process ends, or waits again for want of an answer. -/
def left : Process α → List Answer → List Answer
  | .waiting _ _ resume, (result, store) :: rest => (resume result store).left rest
  | _, answers => answers

theorem left_subset (p : Process α) (answers : List Answer) : p.left answers ⊆ answers := by
  induction p generalizing answers with
  | done result s => exact List.Subset.refl _
  | exhausted s => exact List.Subset.refl _
  | waiting key s resume ih =>
    cases answers with
    | nil => exact List.Subset.refl _
    | cons answer rest =>
      exact List.Subset.trans (ih answer.1 answer.2 rest) (List.subset_cons_self answer rest)

/-- Steps in a row share the answers. -/
theorem resumed_bind_ok (p : Process α) (f : α → DispatchState → Process β)
    (answers : List Answer) (a : α) (t : DispatchState) (h : p.resumed answers = .done (.ok a) t) :
    (p.bind f).resumed answers = (f a t).resumed (p.left answers) := by
  induction p generalizing answers with
  | done result s =>
    cases h
    rfl
  | exhausted s => cases h
  | waiting key s resume ih =>
    cases answers with
    | nil => cases h
    | cons answer rest => exact ih answer.1 answer.2 rest h

/-- The process has not returned. -/
def Pending (p : Process α) : Prop := ∀ a t, p ≠ .done (.ok a) t

/-- Where the first steps have not returned, the steps that follow have not started. -/
theorem resumed_bind_pending (p : Process Unit) (f : Unit → DispatchState → Process Unit)
    (answers : List Answer) (h : (p.resumed answers).Pending) :
    ((p.bind f).resumed answers).state = (p.resumed answers).state ∧
      ((p.bind f).resumed answers).result? = (p.resumed answers).result? := by
  induction p generalizing answers with
  | done result s =>
    cases result with
    | ok a => exact absurd rfl (h a s)
    | error e => exact ⟨rfl, rfl⟩
  | exhausted s => exact ⟨rfl, rfl⟩
  | waiting key s resume ih =>
    cases answers with
    | nil => exact ⟨rfl, rfl⟩
    | cons answer rest => exact ih answer.1 answer.2 rest h

/-- A process has returned or not. -/
theorem returned_or_pending (p : Process Unit) : (∃ t, p = .done (.ok ()) t) ∨ p.Pending := by
  cases p with
  | done result t =>
    cases result with
    | ok a => exact .inl ⟨t, rfl⟩
    | error e => exact .inr fun a u h => by cases h
  | waiting key t resume => exact .inr fun a u h => by cases h
  | exhausted t => exact .inr fun a u h => by cases h

end Process

/-! ## Section 2: Turns in a row -/

/-- The turns for these elements have returned one after the other, the last one in state `t`
    with the answers `rest` left. -/
inductive Turns (f : α → Exec Unit) :
    List α → DispatchState → List Answer → DispatchState → List Answer → Prop where
  | nil (s : DispatchState) (answers : List Answer) : Turns f [] s answers s answers
  | cons (x : α) (xs : List α) (s t u : DispatchState) (answers rest : List Answer)
      (first : (f x s).resumed answers = .done (.ok ()) t)
      (later : Turns f xs t ((f x s).left answers) u rest) : Turns f (x :: xs) s answers u rest

/-- The run stands in the turn for the first of these elements: it has not returned, and the run
    is where the turn is. -/
def Exec.StandsIn (f : α → Exec Unit) (todo : List α) (u : DispatchState) (rest : List Answer)
    (run : Process Unit) : Prop :=
  ∃ x more, todo = x :: more ∧ ((f x u).resumed rest).Pending ∧
    run.state = ((f x u).resumed rest).state ∧ run.result? = ((f x u).resumed rest).result?

/-- The run takes a turn for each element: some turns have returned, and either these are all
    turns and it has finished, or it stands in the turn that follows.  So it fails if and only if
    that one does, and then with its error. -/
def Exec.TakesTurns (f : α → Exec Unit) (xs : List α) (finish : DispatchState → DispatchState)
    (s : DispatchState) (answers : List Answer) (run : Process Unit) : Prop :=
  ∃ ran todo u rest, xs = ran ++ todo ∧ Turns f ran s answers u rest ∧
    ((todo = [] ∧ run = .done (.ok ()) (finish u)) ∨ StandsIn f todo u rest run)

theorem Exec.takesTurns_forEach (f : α → Exec Unit) (xs : List α) (s : DispatchState)
    (answers : List Answer) :
    TakesTurns f xs id s answers ((Exec.forEach xs f s).resumed answers) := by
  induction xs generalizing s answers with
  | nil => exact ⟨[], [], s, answers, rfl, .nil s answers, .inl ⟨rfl, rfl⟩⟩
  | cons x xs ih =>
    have hunfold : Exec.forEach (x :: xs) f s
        = (f x s).bind fun _ t => Exec.forEach xs f t := rfl
    rw [hunfold]
    rcases ((f x s).resumed answers).returned_or_pending with ⟨t, hfirst⟩ | hpending
    · obtain ⟨ran, todo, u, rest, hsplit, hturns, hrun⟩ := ih t ((f x s).left answers)
      rw [Process.resumed_bind_ok _ _ answers () t hfirst]
      exact ⟨x :: ran, todo, u, rest, congrArg (x :: ·) hsplit,
        .cons x ran s t u answers rest hfirst hturns, hrun⟩
    · obtain ⟨hstate, hresult⟩ := Process.resumed_bind_pending (f x s)
        (fun _ t => Exec.forEach xs f t) answers hpending
      exact ⟨[], x :: xs, s, answers, rfl, .nil s answers,
        .inr ⟨x, xs, rfl, hpending, hstate, hresult⟩⟩

/-- A run that has returned took all its turns. -/
theorem Exec.TakesTurns.of_ok {f : α → Exec Unit} {xs : List α}
    {finish : DispatchState → DispatchState} {s t : DispatchState} {answers : List Answer}
    (h : TakesTurns f xs finish s answers (.done (.ok ()) t)) :
    ∃ u rest, Turns f xs s answers u rest ∧ t = finish u := by
  obtain ⟨ran, todo, u, rest, rfl, hturns, hrun⟩ := h
  rcases hrun with ⟨rfl, hdone⟩ | ⟨x, more, _, hpending, _, hresult⟩
  · cases hdone
    rw [List.append_nil]
    exact ⟨u, rest, hturns, rfl⟩
  · -- the turn that it stands in would have returned
    obtain ⟨v, hv⟩ := Process.eq_done_of_result? _ _ hresult.symm
    exact absurd hv (hpending () v)

/-- A last step is taken when all turns have returned. -/
theorem Exec.takesTurns_finish (f : α → Exec Unit) (xs : List α)
    (finish : DispatchState → DispatchState) (s : DispatchState) (answers : List Answer) :
    TakesTurns f xs finish s answers
      ((Exec.forEach xs f >>= fun _ => Exec.modify finish : Exec Unit) s |>.resumed answers) := by
  obtain ⟨ran, todo, u, rest, hsplit, hturns, hrun⟩ := takesTurns_forEach f xs s answers
  refine ⟨ran, todo, u, rest, hsplit, hturns, ?_⟩
  have hlast := Process.resumed_bind_ok (Exec.forEach xs f s) (fun _ => Exec.modify finish) answers
  rcases hrun with ⟨hnil, hdone⟩ | ⟨x, more, htodo, hpending, hstate, hresult⟩
  · exact .inl ⟨hnil, hlast () u hdone⟩
  · -- the run has not returned either, so the last step has not been taken
    have hrun : ((Exec.forEach xs f s).resumed answers).Pending := by
      intro a t hdone
      rw [hdone] at hresult
      obtain ⟨v, hv⟩ := Process.eq_done_of_result? _ _ hresult.symm
      exact hpending a v hv
    obtain ⟨hstate', hresult'⟩ := Process.resumed_bind_pending (Exec.forEach xs f s)
      (fun _ => Exec.modify finish) answers hrun
    exact .inr ⟨x, more, htodo, hpending, hstate'.trans hstate, hresult'.trans hresult⟩

/-- What every turn leaves as it is, as long as those who answer do, all turns leave. -/
theorem Turns.keeps {f : α → Exec Unit} (P : Store → Prop)
    (hf : ∀ x s answers, P s.store → (∀ answer ∈ answers, P answer.2) →
      P ((f x s).resumed answers).state.store)
    {xs : List α} {s u : DispatchState} {answers rest : List Answer}
    (h : Turns f xs s answers u rest) (hs : P s.store) (hanswers : ∀ answer ∈ answers, P answer.2) :
    P u.store := by
  induction h with
  | nil s answers => exact hs
  | cons x xs s t u answers rest first _ ih =>
    have hfirst := hf x s answers hs hanswers
    rw [first] at hfirst
    exact ih hfirst fun answer hanswer => hanswers answer ((f x s).left_subset answers hanswer)

/-- A stretch keeps the rows, and so does the process if those who answer do. -/
theorem Process.Framed.rowSize {root : Frame} {before : List Site} {s : DispatchState}
    {p : Process α} (h : p.Framed root before s) (k : GraphId) (i : Nat) (n : Option Nat)
    (answers : List Answer) (hs : s.store.rowSize k i = n)
    (hanswers : ∀ answer ∈ answers, answer.2.rowSize k i = n) :
    (p.resumed answers).state.store.rowSize k i = n := by
  induction p generalizing before s answers with
  | done result t =>
    obtain ⟨sites, hst⟩ := h
    exact (hst.store.rows.row k trivial i).trans hs
  | exhausted t =>
    obtain ⟨sites, hst⟩ := h
    exact (hst.store.rows.row k trivial i).trans hs
  | waiting key t resume ih =>
    obtain ⟨sites, hst, hresume⟩ := h
    cases answers with
    | nil => exact (hst.store.rows.row k trivial i).trans hs
    | cons answer rest =>
      obtain ⟨hfirst, hrest⟩ := List.forall_mem_cons.mp hanswers
      exact ih answer.1 answer.2 (hresume answer.1 answer.2) rest hfirst hrest

namespace Site

/-! ## Section 3: Loops and sequences -/

/-- The state in which the body starts for an index. -/
def indexed (site : Site) (index : Int) (s : DispatchState) : DispatchState :=
  { s with store := site.output "index" 0 (.int (Int64.ofInt index)) s.store }

/-- The turn of a loop for an index: the index is written, and the body is run. -/
def turn (chain : Chain) (site : Site) (index : Int) : Exec Unit := fun s =>
  site.forwardPort chain "body" 0 (site.indexed index s)

/-- The indices from a first one up to a last one, which is left out. -/
def indices (first last : Int) : List Int :=
  (List.range (last - first).toNat).map fun k : Nat => first + k

theorem length_indices (first last : Int) :
    ((indices first last).length : Int) = max 0 (last - first) := by
  unfold indices
  rw [List.length_map, List.length_range]
  omega

theorem mem_indices (first last i : Int) (hi : i ∈ indices first last) : first ≤ i ∧ i < last := by
  obtain ⟨k, hk, rfl⟩ := List.mem_map.mp hi
  have hlt := List.mem_range.mp hk
  omega

theorem getElem?_indices (first last : Int) (k : Nat) (i : Int)
    (hi : (indices first last)[k]? = some i) : i = first + k := by
  unfold indices at hi
  rw [List.getElem?_map] at hi
  obtain ⟨m, hm, rfl⟩ := Option.map_eq_some_iff.mp hi
  obtain ⟨hlt, hget⟩ := List.getElem?_eq_some_iff.mp hm
  rw [← hget, List.getElem_range]

/-- A loop is a turn for each index. -/
theorem loop_eq_forEach (chain : Chain) (site : Site) (count : Nat) (index : Int) :
    site.loop chain count index
      = Exec.forEach ((List.range count).map fun k : Nat => index + k) (site.turn chain) := by
  induction count generalizing index with
  | zero => rfl
  | succ count ih =>
    have hlater : (List.range count).map (fun k : Nat => index + 1 + (k : Int))
        = ((List.range count).map (· + 1)).map fun k : Nat => index + (k : Int) := by
      rw [List.map_map]
      refine List.map_congr_left fun k _ => ?_
      simp only [Function.comp_apply]
      omega
    rw [List.range_succ_eq_map, List.map_cons, ← hlater]
    have hzero : index + ((0 : Nat) : Int) = index := by omega
    rw [hzero]
    funext s
    show (site.forwardPort chain "body" 0 (site.indexed index s)).bind _
      = (site.turn chain index s).bind _
    rw [ih (index + 1)]
    rfl

/-- The bounds are integers of 64 bits, so every index between them is one. -/
theorem toInt_index (first last : Int64) (i : Int) (hi : i ∈ indices first.toInt last.toInt) :
    (Int64.ofInt i).toInt = i := by
  obtain ⟨hfirst, hlast⟩ := mem_indices _ _ i hi
  have hlow := first.le_toInt
  have hhigh := last.toInt_lt
  exact Int64.toInt_ofInt_of_le (by omega) (by omega)

/-- If its node has a row of cells, the index is there when the body starts. -/
theorem cell_indexed (site : Site) (index : Int) (u : DispatchState) (a : PortAddress)
    (ha : site.address? "index" 0 = some a) (n : Nat)
    (hrow : u.store.rowSize site.frame.graph.id site.node.index = some n) (hlt : a.port < n) :
    (site.indexed index u).store.cell site.frame.graph.id a = .int (Int64.ofInt index) := by
  have hnode := (site.node_of_address? "index" 0 a ha).1
  unfold indexed
  rw [site.output_of_address? "index" 0 a ha]
  exact u.store.cell_writeCell_self _ a _ n (by rw [hnode]; exact hrow) hlt

/-- A sequence is a turn for each linked slot. -/
theorem sequence_eq_forEach (chain : Chain) (site : Site) (slots : List Nat) :
    Exec.forEach slots (site.forwardPort chain "then")
      = Exec.forEach (slots.filterMap (site.successor "then")) (site.forward chain) := by
  induction slots with
  | nil => rfl
  | cons index rest ih =>
    funext s
    show ((site.forwardPort chain "then" index) s).bind _ = _
    rw [ih]
    unfold forwardPort
    cases hsuccessor : site.successor "then" index with
    | none =>
      rw [List.filterMap_cons_none hsuccessor]
      rfl
    | some start =>
      rw [List.filterMap_cons_some hsuccessor]
      rfl

/-! ## Section 4: Rows -/

/-- In a graph with types of the library the turns of a loop leave the rows as they are. -/
theorem turn_rowSize (site : Site) (htyped : site.frame.Typed) (fuel : Nat) (k : GraphId)
    (i : Nat) (n : Option Nat) (index : Int) (s : DispatchState) (answers : List Answer)
    (hs : s.store.rowSize k i = n) (hanswers : ∀ answer ∈ answers, answer.2.rowSize k i = n) :
    ((site.turn (Frame.runChain fuel) index s).resumed answers).state.store.rowSize k i = n := by
  have hwritten : (site.indexed index s).store.rowSize k i = n :=
    ((site.touches_output "index" 0 _ s.store).rows.row k trivial i).trans hs
  have hchain : ∀ frame h, site.Reaches frame →
      (Frame.runChain fuel frame h).Framed site.frame [] := fun frame h hreach =>
    Frame.runChain_framed htyped fuel frame h (.deeper site frame .self hreach)
  have hframed := framed_forwardPort hchain "body" 0 [] (site.indexed index s) (List.nil_subset _)
  exact hframed.rowSize k i n answers hwritten hanswers

/-- A loop and a sequence take their turns in order.

    The loop reads its bounds once; there is a turn for each integer from the first one up to
    the last one, and the integers of 64 bits suffice for them.  The body starts when its index
    was written, whatever the bodies before it did to the slot, and behind the last turn the
    loop selects its successor.  A sequence takes a turn for each linked slot, in the order of
    the slots.  A turn that fails is the last one, and the node fails with its error. -/
theorem turns_in_order (chain : Chain) (site : Site) (s : DispatchState) (answers : List Answer) :
    let first := (site.input "first" 0 s.store).toInt
    let last := (site.input "last" 0 s.store).toInt
    let bounds := indices first.toInt last.toInt
    let slots := (List.range (site.portCount "then")).filterMap (site.successor "then")
    Exec.TakesTurns (site.turn chain) bounds
      (fun u => { u with next := site.successor "completed" 0 }) s answers
      ((site.execute chain .forLoop s).resumed answers) ∧
    (bounds.length : Int) = max 0 (last.toInt - first.toInt) ∧
    (∀ (k : Nat) (i : Int), bounds[k]? = some i → i = first.toInt + k ∧
      (Int64.ofInt i).toInt = i) ∧
    (∀ index u a n, site.address? "index" 0 = some a →
      u.store.rowSize site.frame.graph.id site.node.index = some n → a.port < n →
      (site.indexed index u).store.cell site.frame.graph.id a = .int (Int64.ofInt index)) ∧
    (∀ fuel n, site.frame.Typed → chain = Frame.runChain fuel →
      s.store.rowSize site.frame.graph.id site.node.index = n →
      (∀ answer ∈ answers, answer.2.rowSize site.frame.graph.id site.node.index = n) →
      ∀ ran u rest, Turns (site.turn chain) ran s answers u rest →
        u.store.rowSize site.frame.graph.id site.node.index = n) ∧
    Exec.TakesTurns (site.forward chain) slots id s answers
      ((site.execute chain .sequence s).resumed answers) ∧
    (∀ x, site.node? = some x → x.Slotted → ∀ index start,
      site.successor "then" index = some start → index < site.portCount "then") := by
  intro first last bounds slots
  refine ⟨?_, length_indices _ _, ?_, ?_, ?_, ?_, ?_⟩
  · have hloop : site.execute chain .forLoop s = ((do
        Exec.forEach bounds (site.turn chain)
        site.continueWith "completed") : Exec Unit) s := by
      show ((do
        site.loop chain (last.toInt - first.toInt).toNat first.toInt
        site.continueWith "completed") : Exec Unit) s = _
      rw [loop_eq_forEach]
      rfl
    rw [hloop]
    exact Exec.takesTurns_finish (site.turn chain) bounds _ s answers
  · intro k i hi
    exact ⟨getElem?_indices _ _ k i hi, toInt_index first last i (List.mem_of_getElem? hi)⟩
  · exact fun index u a n ha hrow hlt => site.cell_indexed index u a ha n hrow hlt
  · intro fuel n htyped hchain hs hanswers ran u rest hturns
    subst hchain
    exact hturns.keeps (fun store => store.rowSize site.frame.graph.id site.node.index = n)
      (fun index => site.turn_rowSize htyped fuel _ _ n index) hs hanswers
  · have hsequence : site.execute chain .sequence = Exec.forEach slots (site.forward chain) :=
      site.sequence_eq_forEach chain _
    rw [hsequence]
    exact Exec.takesTurns_forEach (site.forward chain) slots s answers
  · intro x hx hslotted index start hstart
    obtain ⟨a, ha, _⟩ := Option.bind_eq_some_iff.mp hstart
    obtain ⟨b, hb, _⟩ := Option.bind_eq_some_iff.mp ha
    obtain ⟨_, y, hy, hindex⟩ := site.node_of_address? "then" index b hb
    rw [hx] at hy
    cases hy
    have hcount : site.portCount "then" = x.portCount "then" := by
      unfold portCount
      rw [hx]
      rfl
    rw [hcount]
    exact hslotted.lt_portCount "then" index b.port hindex

/-- A loop from -1 up to what a variable holds, which its body sets to the index. -/
def shrinking : GraphData where
  name := "shrinking"
  nodes := [
    { guid := "loop", type := "Ceres.Flow.ForLoop",
      ports := [{ name := "first", value := some (.int (-1)) },
        { name := "index", connections := [⟨"set", "value", 0⟩] },
        { name := "body", connections := [⟨"set", "input", 0⟩] },
        { name := "completed", connections := [⟨"say", "input", 0⟩] }] },
    { guid := "get", type := "Ceres.Variables.GetVariable",
      serializedData := "\x7b\"variable\": \"bound\"\x7d",
      ports := [{ name := "value", connections := [⟨"loop", "last", 0⟩] }] },
    { guid := "set", type := "Ceres.Variables.SetVariable",
      serializedData := "\x7b\"variable\": \"bound\"\x7d" },
    { guid := "say", type := "Ceres.Flow.Log" }]
  vars := [{ name := "bound", valueType := .int, value := .int 2, isShared := true }]

/-- The graph as it is built. -/
def shrinkingState : Graph.State :=
  Graph.run [.compile .standard] (Graph.hydrated Registry.builtin shrinking default)

/-- The loop of the graph while it executes. -/
def shrinkingSite : Site where
  frame := Dispatch.frameOf {} shrinkingState.1 { entry := .node "loop" } shrinkingState.2
  node := ⟨0, 0⟩

/-- The state in which the loop starts; the variable was read. -/
def shrinkingStart : DispatchState where
  store := shrinkingState.2.writeCell shrinkingState.1.id ⟨⟨1, 0⟩, 0⟩ (.int 2)

/-- The body is run for -1, 0 and 1, also when the variable is no more than that. -/
theorem turns_in_order_shrinking :
    ∃ u rest, Turns (shrinkingSite.turn (Frame.runChain 10)) [-1, 0, 1] shrinkingStart [] u rest ∧
      shrinkingSite.execute (Frame.runChain 10) .forLoop shrinkingStart
        = .done (.ok ()) { u with next := some ⟨3, 0⟩ } ∧
      u.trace = #["set", "set", "set"] := by
  obtain ⟨hturns, _⟩ := shrinkingSite.turns_in_order (Frame.runChain 10) shrinkingStart []
  have hbounds : indices (shrinkingSite.input "first" 0 shrinkingStart.store).toInt.toInt
      (shrinkingSite.input "last" 0 shrinkingStart.store).toInt.toInt = [-1, 0, 1] := by
    decide +kernel
  have hnext : shrinkingSite.successor "completed" 0 = some ⟨3, 0⟩ := by decide +kernel
  have hresult : (shrinkingSite.execute (Frame.runChain 10) .forLoop shrinkingStart).result?
      = some (.ok ()) := by decide +kernel
  have htrace : (shrinkingSite.execute (Frame.runChain 10) .forLoop shrinkingStart).state.trace
      = #["set", "set", "set"] := by decide +kernel
  obtain ⟨t, hdone⟩ := Process.eq_done_of_result? _ _ hresult
  rw [hbounds, hnext, Process.resumed_nil, hdone] at hturns
  obtain ⟨u, rest, hran, rfl⟩ := hturns.of_ok
  rw [hdone] at htrace
  exact ⟨u, rest, hran, hdone, htrace⟩

end Site
end FlowGraph
