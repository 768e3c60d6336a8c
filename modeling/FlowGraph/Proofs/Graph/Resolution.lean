import FlowGraph.Proofs.Graph.Connecting
import FlowGraph.Proofs.Reordering.Linking

/-! # How connections are resolved

    What a linked network looks like, told by its records alone (`Network.Resolved`).  A
    connection is valid if its record names an output slot of its node and it leads to an
    input slot of the same kind, of a type that takes the output's values (`ValidData`,
    `ValidControl`).  Of the valid connections into an input the last one stays.  A control
    output leads to where the last of its records leads whose first connection is valid; the
    other connections of these records do not count.  A node depends on the nodes with a valid
    data connection into it, in the order in which these are recorded first.

    Every recorded connection is resolved by itself (`Network.resolve`), and linking makes the
    ones that resolve, in their order (`filterMap_validLinks`, `filterMap_validTargets`). -/

namespace FlowGraph

/-! ## Section 1: The last of a list -/

/-- The last item of a list that has a property. -/
def IsLast {α : Type} (xs : List α) (P : α → Prop) (x : α) : Prop :=
  ∃ before after, xs = before ++ x :: after ∧ P x ∧ ∀ y ∈ after, ¬ P y

/-- What a function gives last, it gives for the last item that it is defined on. -/
theorem getLast?_filterMap_iff {α β : Type} (f : α → Option β) (xs : List α) (b : β) :
    (xs.filterMap f).getLast? = some b ↔ ∃ x, IsLast xs (fun y => ∃ c, f y = some c) x ∧
      f x = some b := by
  constructor
  · intro h
    obtain ⟨pre, hpre⟩ := List.getLast?_eq_some_iff.mp h
    obtain ⟨front, back, rfl, _, hback⟩ := List.filterMap_eq_append_iff.mp hpre
    obtain ⟨skipped, x, after, rfl, _, hx, hafter⟩ := List.filterMap_eq_cons_iff.mp hback
    refine ⟨x, ⟨front ++ skipped, after, by simp, ⟨b, hx⟩, ?_⟩, hx⟩
    rintro y hy ⟨c, hc⟩
    rw [List.filterMap_eq_nil_iff.mp hafter y hy] at hc
    cases hc
  · rintro ⟨x, ⟨before, after, rfl, _, hafter⟩, hx⟩
    have hnone : after.filterMap f = [] := List.filterMap_eq_nil_iff.mpr fun y hy => by
      cases hf : f y with
      | none => rfl
      | some c => exact absurd ⟨c, hf⟩ (hafter y hy)
    rw [List.filterMap_append, List.filterMap_cons_some hx, hnone, List.getLast?_append]
    rfl

theorem IsLast.congr {α : Type} {xs : List α} {P Q : α → Prop} {x : α} (h : ∀ y, P y ↔ Q y) :
    IsLast xs P x ↔ IsLast xs Q x := by
  unfold IsLast
  simp only [h]

/-! ### Distinct items in their order -/

/-- Keep the first of equal items. -/
def addNew {α : Type} [DecidableEq α] (found : List α) (x : α) : List α :=
  if x ∈ found then found else found ++ [x]

/-- In a list, one item stands before all those that are equal to another. -/
def Precedes {α : Type} (xs : List α) (a b : α) : Prop :=
  ∃ before after, xs = before ++ a :: after ∧ b ∉ before

theorem Precedes.of_filterMap {α β : Type} {f : α → Option β} {xs : List α} {a b : β}
    (h : Precedes (xs.filterMap f) a b) : ∃ before x after, xs = before ++ x :: after ∧
      f x = some a ∧ ∀ y ∈ before, f y ≠ some b := by
  obtain ⟨before, after, heq, hb⟩ := h
  obtain ⟨front, back, rfl, rfl, hback⟩ := List.filterMap_eq_append_iff.mp heq
  obtain ⟨skipped, x, rest, rfl, hskipped, hx, _⟩ := List.filterMap_eq_cons_iff.mp hback
  refine ⟨front ++ skipped, x, rest, by simp, hx, fun y hy heq => ?_⟩
  rcases List.mem_append.mp hy with hy | hy
  · exact hb (List.mem_filterMap.mpr ⟨y, hy, heq⟩)
  · rw [hskipped y hy] at heq
    cases heq

/-- What is kept are all items, each once, in the order of their first occurrences. -/
theorem foldl_addNew {α : Type} [DecidableEq α] (xs : List α) :
    (xs.foldl addNew []).Nodup ∧ (∀ a, a ∈ xs.foldl addNew [] ↔ a ∈ xs) ∧
      (xs.foldl addNew []).Pairwise (Precedes xs) := by
  -- by induction from the end: the last item is new, or it was there before
  induction xs using List.reverseRecOn with
  | nil => simp
  | append_singleton xs x ih =>
    obtain ⟨hnodup, hmem, hordered⟩ := ih
    have hlater : ∀ a b, Precedes xs a b → Precedes (xs ++ [x]) a b := by
      rintro a b ⟨before, after, rfl, hb⟩
      exact ⟨before, after ++ [x], by simp, hb⟩
    rw [List.foldl_append, List.foldl_cons, List.foldl_nil]
    generalize xs.foldl addNew [] = found at hnodup hmem hordered ⊢
    unfold addNew
    split
    · rename_i hx
      refine ⟨hnodup, fun a => ?_, hordered.imp (hlater _ _)⟩
      rw [hmem, List.mem_append, List.mem_singleton]
      refine ⟨.inl, ?_⟩
      rintro (ha | rfl)
      · exact ha
      · exact (hmem _).mp hx
    · rename_i hx
      refine ⟨?_, fun a => by rw [List.mem_append, List.mem_append, hmem], ?_⟩
      · refine List.nodup_append.mpr ⟨hnodup, by simp, fun a ha b hb => ?_⟩
        rw [List.mem_singleton.mp hb]
        rintro rfl
        exact hx ha
      · refine List.pairwise_append.mpr ⟨hordered.imp (hlater _ _), by simp, fun a ha b hb => ?_⟩
        rw [List.mem_singleton.mp hb]
        obtain ⟨before, after, rfl⟩ := List.append_of_mem ((hmem a).mp ha)
        refine ⟨before, after ++ [x], by simp, fun hbefore => hx ?_⟩
        exact (hmem x).mpr (List.mem_append_left _ hbefore)

/-! ## Section 2: Valid connections -/

/-- How values of one type get to an input of another: directly if the types are equal or
    one of them is any, else by the converter of the pair. -/
inductive Conversions.Carries (conversions : Conversions) (source target : PortType) :
    Compatibility → Prop where
  | equal (h : source = target) : Carries conversions source target .direct
  | any (h : source = .any ∨ target = .any) : Carries conversions source target .direct
  | converted (hne : source ≠ target) (hany : ¬ (source = .any ∨ target = .any))
      (converter : Converter) (h : conversions.get? source target = some converter) :
      Carries conversions source target (.converted converter)

theorem Conversions.compatibility_iff (conversions : Conversions) (source target : PortType)
    (how : Compatibility) :
    conversions.compatibility source target = some how ↔
      conversions.Carries source target how := by
  unfold compatibility PortType.acceptsDirectly
  by_cases hdirect : source = target ∨ source = .any ∨ target = .any
  · rw [if_pos (by simp only [Bool.or_eq_true, decide_eq_true_eq]; tauto)]
    constructor
    · intro h
      cases h
      exact hdirect.elim .equal .any
    · intro h
      cases h with
      | equal _ => rfl
      | any _ => rfl
      | converted hne hany _ _ => tauto
  · rw [if_neg (by simp only [Bool.or_eq_true, decide_eq_true_eq]; tauto)]
    constructor
    · intro h
      obtain ⟨converter, hget, rfl⟩ := Option.map_eq_some_iff.mp h
      exact .converted (by tauto) (by tauto) converter hget
    · intro h
      cases h with
      | equal h => tauto
      | any h => tauto
      | converted _ _ converter hget => rw [hget, Option.map_some]

namespace NewLink

/-- The node that a data link makes a node depend on. -/
def needed (h : NodeHandle) : NewLink → Option NodeHandle
  | .data target link =>
    if target.node = h ∧ link.source.node ≠ h then some link.source.node else none
  | .control _ _ => none

@[simp] theorem needed_data (h : NodeHandle) (target : PortAddress) (link : PortLink) :
    (data target link).needed h
      = if target.node = h ∧ link.source.node ≠ h then some link.source.node else none := rfl

@[simp] theorem needed_control (h : NodeHandle) (source : PortAddress) (target : NodeHandle) :
    (control source target).needed h = none := rfl

theorem successor_eq_some_iff (a : PortAddress) (new : NewLink) (k : NodeHandle) :
    new.successor a = some k ↔ new = .control a k := by
  cases new with
  | data target link => simp
  | control source target =>
    by_cases h : source = a
    · simp [h]
    · simp [h]

end NewLink

/-- A recorded connection, with the record and the node that it belongs to. -/
structure Recording where
  node : NodeHandle
  record : PortData
  connection : PortConnection

namespace Network

/-- The records of all nodes, in the order of nodes and records. -/
def nodeRecords (n : Network) : List (NodeHandle × PortData) :=
  n.placed.flatMap fun e => e.2.records.map fun r => (e.1, r)

/-- All recorded connections, in the order of nodes, records and connections. -/
def recordings (n : Network) : List Recording :=
  n.nodeRecords.flatMap fun e => e.2.connections.map fun c => ⟨e.1, e.2, c⟩

/-- A recorded connection leads from an output slot to an input slot of the same kind.  Its
    record names the output slot, and its target names the input slot. -/
structure Fits (n : Network) (e : Recording) (a b : PortAddress) (output input : Port) :
    Prop where
  node : e.node = a.node
  named : ∃ x, n.node? a.node = some x ∧
    x.portIndex e.record.name e.record.index = some a.port
  source : n.port? a = some output
  outward : output.direction = .output
  leads : n.LeadsTo e.connection b
  target : n.port? b = some input
  inward : input.direction = .input
  kind : output.kind = input.kind

/-- A valid data connection between two slots, and how it carries values. -/
def ValidData (n : Network) (conversions : Conversions) (e : Recording) (a b : PortAddress)
    (how : Compatibility) : Prop :=
  ∃ output input, n.Fits e a b output input ∧ output.kind = .data ∧
    conversions.Carries output.type input.type how

/-- A valid control connection between two slots. -/
def ValidControl (n : Network) (e : Recording) (a b : PortAddress) : Prop :=
  ∃ output input, n.Fits e a b output input ∧ output.kind = .control

/-- A valid data connection from one node into another. -/
def ValidFrom (n : Network) (conversions : Conversions) (e : Recording) (k h : NodeHandle) :
    Prop :=
  ∃ a b how, n.ValidData conversions e a b how ∧ a.node = k ∧ b.node = h

/-- A network has the links that another one's records ask for, and differs in nothing
    else. -/
structure Resolved (n : Network) (conversions : Conversions) (m : Network) : Prop where
  /-- An input is linked to the last valid connection into it. -/
  link : ∀ b p, m.port? b = some p → ∀ l, p.link = some l ↔
    ∃ e, IsLast n.recordings (fun e => ∃ a how, n.ValidData conversions e a b how) e ∧
      n.ValidData conversions e l.source b l.compatibility
  /-- A control output leads where the last of its records leads whose first connection is
      valid. -/
  target : ∀ a p, m.port? a = some p → ∀ k, p.target = some k ↔
    ∃ e, IsLast n.nodeRecords (fun e => ∃ c, e.2.connections.head? = some c ∧
        ∃ b, n.ValidControl ⟨e.1, e.2, c⟩ a b) e ∧
      ∃ c, e.2.connections.head? = some c ∧
        ∃ b, n.ValidControl ⟨e.1, e.2, c⟩ a b ∧ b.node = k
  /-- A node depends on the other nodes with a valid data connection into it. -/
  depends : ∀ h y, m.node? h = some y → ∀ k, k ∈ y.dependencies ↔
    k ≠ h ∧ ∃ e ∈ n.recordings, n.ValidFrom conversions e k h
  /-- No dependency is listed twice. -/
  distinct : ∀ h y, m.node? h = some y → y.dependencies.Nodup
  /-- Of two dependencies the first one has a connection before all those of the second
      one. -/
  ordered : ∀ h y, m.node? h = some y → y.dependencies.Pairwise fun k k' =>
    ∃ before e after, n.recordings = before ++ e :: after ∧ n.ValidFrom conversions e k h ∧
      ∀ e' ∈ before, ¬ n.ValidFrom conversions e' k' h
  /-- All else is as it was. -/
  rest : m.unlinked = n.unlinked

/-! ## Section 3: Resolving one connection -/

/-- The output slot that a record names at its node. -/
def outputSlot (x : GraphNode) (r : PortData) : Option (Nat × Port) :=
  (x.portIndex r.name r.index).bind fun i =>
    ((x.ports[i]?).filter fun p => p.direction = .output).map fun p => (i, p)

/-- The link of a recorded connection, if it is valid. -/
def resolve (n : Network) (conversions : Conversions) (e : Recording) : Option NewLink :=
  (n.node? e.node).bind fun x => (outputSlot x e.record).bind fun (i, output) =>
    (n.checkConnection conversions x ⟨e.node, i⟩ output e.connection).bind Except.toOption

theorem outputSlot_eq_some_iff (x : GraphNode) (r : PortData) (i : Nat) (output : Port) :
    outputSlot x r = some (i, output) ↔
      x.portIndex r.name r.index = some i ∧ x.ports[i]? = some output ∧
        output.direction = .output := by
  unfold outputSlot
  rw [Option.bind_eq_some_iff]
  constructor
  · rintro ⟨j, hj, hmap⟩
    obtain ⟨p, hp, heq⟩ := Option.map_eq_some_iff.mp hmap
    cases heq
    obtain ⟨hget, hdirection⟩ := Option.filter_eq_some_iff.mp hp
    exact ⟨hj, hget, by simpa using hdirection⟩
  · rintro ⟨hi, hget, hdirection⟩
    refine ⟨i, hi, ?_⟩
    rw [hget]
    simp [hdirection]

theorem validLinks_eq (checked : List (Except LinkProblem NewLink)) :
    validLinks checked = checked.filterMap Except.toOption := by
  unfold validLinks
  congr 1
  funext r
  cases r <;> rfl

/-- The valid connections of a record are the ones that count and resolve. -/
theorem validLinks_checkRecord (n : Network) (conversions : Conversions) (h : NodeHandle)
    (x : GraphNode) (hx : n.node? h = some x) (r : PortData) :
    validLinks (n.checkRecord conversions h x r) = match outputSlot x r with
      | some (_, output) =>
        (countedConnections output r).filterMap fun c => n.resolve conversions ⟨h, r, c⟩
      | none => [] := by
  unfold checkRecord
  cases hslot : outputSlot x r with
  | none =>
    -- there is no slot, or it is an input
    split
    · rfl
    · split
      · rfl
      · rename_i i hi
        split
        · rfl
        · rename_i output houtput
          split
          · rfl
          · rename_i hdirection
            rw [(outputSlot_eq_some_iff x r i output).mpr ⟨hi, houtput, by simpa using hdirection⟩]
              at hslot
            cases hslot
  | some slot =>
    obtain ⟨i, output⟩ := slot
    obtain ⟨hi, houtput, hdirection⟩ := (outputSlot_eq_some_iff x r i output).mp hslot
    have hresolve : (fun c => n.resolve conversions ⟨h, r, c⟩) = fun c =>
        (n.checkConnection conversions x ⟨h, i⟩ output c).bind Except.toOption := by
      funext c
      unfold resolve
      rw [hx, Option.bind_some, hslot, Option.bind_some]
    rw [hresolve]
    split
    · rename_i hempty
      have hnone : countedConnections output r = [] := by
        unfold countedConnections
        rw [List.isEmpty_iff.mp hempty]
        simp
      show [] = (countedConnections output r).filterMap _
      rw [hnone, List.filterMap_nil]
    · simp only [hi, houtput, hdirection, ne_eq, not_true_eq_false, if_false]
      rw [validLinks_eq, List.filterMap_filterMap]

/-- Control outputs have control links, all others have data links. -/
theorem isControl_of_checkConnection (n : Network) (conversions : Conversions) (x : GraphNode)
    (a : PortAddress) (output : Port) (c : PortConnection) (new : NewLink)
    (hcheck : n.checkConnection conversions x a output c = some (.ok new)) :
    output.isControl = true ↔ ∃ k, new = .control a k := by
  unfold checkConnection at hcheck
  cases hh : n.handleOf c.nodeGuid with
  | none =>
    rw [hh] at hcheck
    cases hcheck
  | some h =>
    rw [hh] at hcheck
    obtain ⟨y, _, hchecked⟩ := Option.map_eq_some_iff.mp hcheck
    split at hchecked
    · cases hchecked
    · split at hchecked
      · cases hchecked
      · split at hchecked
        · cases hchecked
        · split at hchecked
          · rename_i hcontrol
            cases hchecked
            exact iff_of_true hcontrol ⟨h, rfl⟩
          · rename_i hcontrol
            cases hchecked
            refine iff_of_false hcontrol ?_
            rintro ⟨k, hk⟩
            cases hk

/-- What resolves is recorded at an output slot, of the kind of the link. -/
theorem exists_slot_of_resolve (n : Network) (conversions : Conversions) (e : Recording)
    (x : GraphNode) (hx : n.node? e.node = some x) (new : NewLink)
    (hnew : n.resolve conversions e = some new) : ∃ slot, outputSlot x e.record = some slot ∧
      (slot.2.isControl = true ↔ ∃ a k, new = .control a k) := by
  unfold resolve at hnew
  rw [hx, Option.bind_some] at hnew
  obtain ⟨⟨i, output⟩, hslot, hchecked⟩ := Option.bind_eq_some_iff.mp hnew
  obtain ⟨checked, hcheck, hok⟩ := Option.bind_eq_some_iff.mp hchecked
  refine ⟨(i, output), hslot, ?_⟩
  cases checked with
  | error e => cases hok
  | ok link =>
    cases hok
    rw [n.isControl_of_checkConnection conversions x _ output _ _ hcheck]
    constructor
    · rintro ⟨k, rfl⟩
      exact ⟨_, k, rfl⟩
    · rintro ⟨a, k, rfl⟩
      obtain ⟨_, _, heq | ⟨_, heq⟩⟩ := n.checkConnection_ok conversions x _ output _ _ hcheck
      · exact ⟨_, heq⟩
      · cases heq

/-! ### The links that are made -/

section Views

variable (n : Network) (conversions : Conversions) {β : Type} (f : NewLink → Option β)

/-- Of the data links of a record every one counts. -/
theorem filterMap_checkRecord (hf : ∀ a k, f (.control a k) = none) (h : NodeHandle)
    (x : GraphNode) (hx : n.node? h = some x) (r : PortData) :
    (validLinks (n.checkRecord conversions h x r)).filterMap f
      = r.connections.filterMap fun c => (n.resolve conversions ⟨h, r, c⟩).bind f := by
  have hnone : (∀ slot, outputSlot x r = some slot → slot.2.isControl = true) →
      ∀ c, (n.resolve conversions ⟨h, r, c⟩).bind f = none := by
    refine fun hcontrol c => Option.bind_eq_none_iff.mpr fun new hnew => ?_
    obtain ⟨slot, hslot, hkind⟩ := n.exists_slot_of_resolve conversions ⟨h, r, c⟩ x hx new hnew
    obtain ⟨a, k, rfl⟩ := hkind.mp (hcontrol slot hslot)
    exact hf a k
  rw [n.validLinks_checkRecord conversions h x hx r]
  cases hslot : outputSlot x r with
  | none =>
    refine (List.filterMap_eq_nil_iff.mpr fun c _ => hnone (fun slot heq => ?_) c).symm
    rw [hslot] at heq
    cases heq
  | some slot =>
    show ((countedConnections slot.2 r).filterMap _).filterMap f = _
    rw [List.filterMap_filterMap]
    unfold countedConnections
    by_cases hcontrol : slot.2.isControl = true
    · have hall := hnone fun slot' heq => by
        rw [hslot] at heq
        cases heq
        exact hcontrol
      rw [List.filterMap_eq_nil_iff.mpr fun c _ => hall c,
        List.filterMap_eq_nil_iff.mpr fun c _ => hall c]
    · rw [if_neg hcontrol]

/-- Of the control links of a record the first one counts. -/
theorem filterMap_checkRecord_first (hf : ∀ b l, f (.data b l) = none) (h : NodeHandle)
    (x : GraphNode) (hx : n.node? h = some x) (r : PortData) :
    (validLinks (n.checkRecord conversions h x r)).filterMap f
      = (r.connections.head?.bind fun c => (n.resolve conversions ⟨h, r, c⟩).bind f).toList := by
  have hnone : (∀ slot, outputSlot x r = some slot → slot.2.isControl ≠ true) →
      ∀ c, (n.resolve conversions ⟨h, r, c⟩).bind f = none := by
    refine fun hdata c => Option.bind_eq_none_iff.mpr fun new hnew => ?_
    obtain ⟨slot, hslot, hkind⟩ := n.exists_slot_of_resolve conversions ⟨h, r, c⟩ x hx new hnew
    cases new with
    | control a k => exact absurd (hkind.mpr ⟨a, k, rfl⟩) (hdata slot hslot)
    | data b l => exact hf b l
  rw [n.validLinks_checkRecord conversions h x hx r]
  cases hslot : outputSlot x r with
  | none =>
    have hall := hnone fun slot heq => by
      rw [hslot] at heq
      cases heq
    simp [hall]
  | some slot =>
    show ((countedConnections slot.2 r).filterMap _).filterMap f = _
    rw [List.filterMap_filterMap]
    unfold countedConnections
    by_cases hcontrol : slot.2.isControl = true
    · rw [if_pos hcontrol]
      cases r.connections with
      | nil => rfl
      | cons c rest =>
        show [c].filterMap _ = ((n.resolve conversions ⟨h, r, c⟩).bind f).toList
        cases hc : (n.resolve conversions ⟨h, r, c⟩).bind f with
        | none => exact List.filterMap_cons_none hc
        | some b => exact List.filterMap_cons_some hc
    · have hall := hnone fun slot' heq => by
        rw [hslot] at heq
        cases heq
        exact hcontrol
      rw [if_neg hcontrol, List.filterMap_eq_nil_iff.mpr fun c _ => hall c]
      simp [hall]

/-- The links of all records, from those of each. -/
theorem filterMap_checkAll (g : NodeHandle × PortData → List β)
    (hg : ∀ h x, n.node? h = some x → ∀ r,
      (validLinks (n.checkRecord conversions h x r)).filterMap f = g (h, r)) :
    (validLinks (n.checkAll conversions)).filterMap f = n.nodeRecords.flatMap g := by
  have hflat : ∀ (xs : List (Except LinkProblem NewLink)),
      (validLinks xs).filterMap f = xs.filterMap fun r => r.toOption.bind f := by
    intro xs
    rw [validLinks_eq, List.filterMap_filterMap]
  unfold checkAll nodeRecords
  rw [hflat, List.filterMap_flatMap, List.flatMap_assoc]
  refine List.flatMap_congr fun e he => ?_
  rw [List.filterMap_flatMap, List.flatMap_map]
  refine List.flatMap_congr fun r _ => ?_
  rw [← hflat, hg e.1 e.2 (n.node?_of_mem_placed e.1 e.2 he) r]

/-- The data links that are made are those of the connections that resolve, record by
    record. -/
theorem filterMap_dataLinks (hf : ∀ a k, f (.control a k) = none) :
    (validLinks (n.checkAll conversions)).filterMap f = n.nodeRecords.flatMap fun e =>
      e.2.connections.filterMap fun c => (n.resolve conversions ⟨e.1, e.2, c⟩).bind f :=
  n.filterMap_checkAll conversions f
    (fun e => e.2.connections.filterMap fun c => (n.resolve conversions ⟨e.1, e.2, c⟩).bind f)
    (n.filterMap_checkRecord conversions f hf)

theorem filterMap_validLinks (hf : ∀ a k, f (.control a k) = none) :
    (validLinks (n.checkAll conversions)).filterMap f
      = n.recordings.filterMap fun e => (n.resolve conversions e).bind f := by
  rw [n.filterMap_dataLinks conversions f hf]
  unfold recordings
  rw [List.filterMap_flatMap]
  refine List.flatMap_congr fun e _ => ?_
  rw [List.filterMap_map]
  rfl

/-- The control links that are made are those of the records whose first connection
    resolves. -/
theorem filterMap_validTargets (hf : ∀ b l, f (.data b l) = none) :
    (validLinks (n.checkAll conversions)).filterMap f = n.nodeRecords.filterMap fun e =>
      e.2.connections.head?.bind fun c => (n.resolve conversions ⟨e.1, e.2, c⟩).bind f := by
  rw [n.filterMap_checkAll conversions f
    (fun e => (e.2.connections.head?.bind fun c =>
      (n.resolve conversions ⟨e.1, e.2, c⟩).bind f).toList)
    (n.filterMap_checkRecord_first conversions f hf)]
  exact (List.filterMap_eq_flatMap_toList _ _).symm

end Views

/-! ### What resolves is valid -/

theorem checkLink_eq_ok_iff (output input : Port) (conversions : Conversions)
    (how : Compatibility) : Port.checkLink output input conversions = .ok how ↔
      output.direction = .output ∧ input.direction = .input ∧ output.kind = input.kind ∧
        if output.isControl then how = .direct
        else conversions.Carries output.type input.type how := by
  unfold Port.checkLink
  split
  · rename_i hdirection
    simp only [Bool.or_eq_true, decide_eq_true_eq] at hdirection
    refine iff_of_false (fun h => by cases h) ?_
    rintro ⟨ho, hi, _⟩
    exact hdirection.elim (· ho) (· hi)
  · rename_i hdirection
    simp only [Bool.or_eq_true, decide_eq_true_eq, not_or, not_not] at hdirection
    split
    · rename_i hkind
      exact iff_of_false (fun h => by cases h) fun h => hkind h.2.2.1
    · rename_i hkind
      rw [ne_eq, not_not] at hkind
      split
      · refine ⟨fun h => ?_, fun h => ?_⟩
        · cases h
          exact ⟨hdirection.1, hdirection.2, hkind, rfl⟩
        · rw [h.2.2.2]
      · rw [← Conversions.compatibility_iff]
        cases hcompatible : conversions.compatibility output.type input.type with
        | none => exact iff_of_false (fun h => by cases h) fun h => by cases h.2.2.2
        | some compatibility =>
          refine ⟨fun h => ?_, fun h => ?_⟩
          · cases h
            exact ⟨hdirection.1, hdirection.2, hkind, rfl⟩
          · rw [Option.some.inj h.2.2.2]

/-- A connection resolves if it leads to a slot that its own can be linked with. -/
theorem checkConnection_eq_ok_iff (n : Network) (conversions : Conversions) (x : GraphNode)
    (a : PortAddress) (output : Port) (c : PortConnection) (new : NewLink) :
    n.checkConnection conversions x a output c = some (.ok new) ↔
      ∃ b input how, n.LeadsTo c b ∧ n.port? b = some input ∧
        Port.checkLink output input conversions = .ok how ∧
        new = if output.isControl then .control a b.node else .data b ⟨a, how⟩ := by
  constructor
  · intro hcheck
    unfold checkConnection at hcheck
    cases hh : n.handleOf c.nodeGuid with
    | none =>
      rw [hh] at hcheck
      cases hcheck
    | some h =>
      rw [hh] at hcheck
      obtain ⟨y, hy, hchecked⟩ := Option.map_eq_some_iff.mp hcheck
      split at hchecked
      · cases hchecked
      · rename_i i hi
        split at hchecked
        · cases hchecked
        · rename_i input hinput
          split at hchecked
          · cases hchecked
          · rename_i how hlink
            refine ⟨⟨h, i⟩, input, how, ⟨hh, y, hy, hi⟩,
              (n.port?_eq_some_iff _ _).mpr ⟨y, hy, hinput⟩, hlink, ?_⟩
            split at hchecked
            · rename_i hcontrol
              cases hchecked
              rw [if_pos hcontrol]
            · rename_i hcontrol
              cases hchecked
              rw [if_neg hcontrol]
  · rintro ⟨b, input, how, ⟨hh, y, hy, hi⟩, hport, hlink, rfl⟩
    obtain ⟨y', hy', hinput⟩ := (n.port?_eq_some_iff b input).mp hport
    rw [hy] at hy'
    cases hy'
    unfold checkConnection
    simp only [hh, hy, Option.map_some, hi, hinput, hlink]
    split <;> rfl

/-- What resolves fits, and joins the slots that it is recorded at. -/
theorem resolve_eq_some_iff (n : Network) (conversions : Conversions) (e : Recording)
    (new : NewLink) : n.resolve conversions e = some new ↔
      ∃ a b output input how, n.Fits e a b output input ∧
        (if output.isControl then how = .direct
          else conversions.Carries output.type input.type how) ∧
        new = if output.isControl then .control a b.node else .data b ⟨a, how⟩ := by
  constructor
  · intro hnew
    obtain ⟨x, hx, hslots⟩ := Option.bind_eq_some_iff.mp hnew
    obtain ⟨⟨i, output⟩, hslot, hchecked⟩ := Option.bind_eq_some_iff.mp hslots
    obtain ⟨hi, houtput, hdirection⟩ := (outputSlot_eq_some_iff x e.record i output).mp hslot
    obtain ⟨checked, hcheck, hok⟩ := Option.bind_eq_some_iff.mp hchecked
    cases checked with
    | error e => cases hok
    | ok link =>
      cases hok
      obtain ⟨b, input, how, hleads, hinput, hlink, hnew⟩ :=
        (n.checkConnection_eq_ok_iff conversions x _ output _ _).mp hcheck
      obtain ⟨_, hinward, hkind, hhow⟩ := (checkLink_eq_ok_iff output input _ how).mp hlink
      exact ⟨⟨e.node, i⟩, b, output, input, how,
        ⟨rfl, ⟨x, hx, hi⟩, (n.port?_eq_some_iff _ _).mpr ⟨x, hx, houtput⟩, hdirection, hleads,
          hinput, hinward, hkind⟩, hhow, hnew⟩
  · rintro ⟨⟨h, i⟩, b, output, input, how, ⟨rfl, ⟨x, hx, hi⟩, houtput, hdirection, hleads, hinput,
      hinward, hkind⟩, hhow, rfl⟩
    obtain ⟨x', hx', hget⟩ := (n.port?_eq_some_iff _ output).mp houtput
    rw [hx] at hx'
    cases hx'
    have hslot := (outputSlot_eq_some_iff x e.record i output).mpr ⟨hi, hget, hdirection⟩
    have hcheck := (n.checkConnection_eq_ok_iff conversions x ⟨e.node, i⟩ output e.connection
      (if output.isControl then .control ⟨e.node, i⟩ b.node else .data b ⟨⟨e.node, i⟩, how⟩)).mpr
      ⟨b, input, how, hleads, hinput,
        (checkLink_eq_ok_iff output input conversions how).mpr ⟨hdirection, hinward, hkind, hhow⟩,
        rfl⟩
    unfold resolve
    rw [hx, Option.bind_some, hslot]
    show (n.checkConnection conversions x ⟨e.node, i⟩ output e.connection).bind _ = _
    rw [hcheck]
    rfl

theorem resolve_data_iff (n : Network) (conversions : Conversions) (e : Recording)
    (b : PortAddress) (l : PortLink) : n.resolve conversions e = some (.data b l) ↔
      n.ValidData conversions e l.source b l.compatibility := by
  rw [resolve_eq_some_iff]
  constructor
  · rintro ⟨a, b', output, input, how, hfits, hhow, hnew⟩
    split at hnew
    · cases hnew
    · rename_i hcontrol
      cases hnew
      rw [if_neg hcontrol] at hhow
      refine ⟨output, input, hfits, ?_, hhow⟩
      unfold Port.isControl at hcontrol
      cases hkind : output.kind with
      | data => rfl
      | control => simp [hkind] at hcontrol
  · rintro ⟨output, input, hfits, hkind, hhow⟩
    have hcontrol : output.isControl ≠ true := by simp [Port.isControl, hkind]
    exact ⟨l.source, b, output, input, l.compatibility, hfits, by rwa [if_neg hcontrol],
      by rw [if_neg hcontrol]⟩

theorem resolve_control_iff (n : Network) (conversions : Conversions) (e : Recording)
    (a : PortAddress) (k : NodeHandle) : n.resolve conversions e = some (.control a k) ↔
      ∃ b, n.ValidControl e a b ∧ b.node = k := by
  rw [resolve_eq_some_iff]
  constructor
  · rintro ⟨a', b, output, input, how, hfits, _, hnew⟩
    split at hnew
    · rename_i hcontrol
      cases hnew
      exact ⟨b, ⟨output, input, hfits, by simpa [Port.isControl] using hcontrol⟩, rfl⟩
    · cases hnew
  · rintro ⟨b, ⟨output, input, hfits, hkind⟩, rfl⟩
    have hcontrol : output.isControl = true := by simp [Port.isControl, hkind]
    exact ⟨a, b, output, input, .direct, hfits, by rw [if_pos hcontrol],
      by rw [if_pos hcontrol]⟩

/-! ## Section 4: The linked network -/

theorem nodeRecords_unlinked (n : Network) : n.unlinked.nodeRecords = n.nodeRecords := by
  unfold nodeRecords
  rw [n.differs_unlinked.placed, List.flatMap_map]
  rfl

theorem recordings_unlinked (n : Network) : n.unlinked.recordings = n.recordings := by
  unfold recordings
  rw [nodeRecords_unlinked]

/-- Links do not matter for what fits. -/
theorem fits_unlinked_iff (n : Network) (e : Recording) (a b : PortAddress)
    (P : PortKind → PortType → PortType → Prop) :
    (∃ output input, n.unlinked.Fits e a b output input ∧ P output.kind output.type input.type) ↔
      ∃ output input, n.Fits e a b output input ∧ P output.kind output.type input.type := by
  have hnamed : (∃ x, n.unlinked.node? a.node = some x ∧
      x.portIndex e.record.name e.record.index = some a.port) ↔
      ∃ x, n.node? a.node = some x ∧
        x.portIndex e.record.name e.record.index = some a.port := by
    rw [node?_unlinked]
    constructor
    · rintro ⟨_, hunlinked, hi⟩
      obtain ⟨x, hx, rfl⟩ := Option.map_eq_some_iff.mp hunlinked
      exact ⟨x, hx, by rwa [portIndex_unlinked] at hi⟩
    · rintro ⟨x, hx, hi⟩
      exact ⟨x.unlinked, by rw [hx, Option.map_some], by rwa [portIndex_unlinked]⟩
  constructor
  · rintro ⟨_, _, h, hP⟩
    have hsource := h.source
    have htarget := h.target
    rw [port?_unlinked] at hsource htarget
    obtain ⟨p, hp, rfl⟩ := Option.map_eq_some_iff.mp hsource
    obtain ⟨q, hq, rfl⟩ := Option.map_eq_some_iff.mp htarget
    exact ⟨p, q, ⟨h.node, hnamed.mp h.named, hp, h.outward,
      (n.leadsTo_unlinked_iff _ b).mp h.leads, hq, h.inward, h.kind⟩, hP⟩
  · rintro ⟨p, q, h, hP⟩
    exact ⟨p.unlinked, q.unlinked, ⟨h.node, hnamed.mpr h.named,
      by rw [port?_unlinked, h.source, Option.map_some], h.outward,
      (n.leadsTo_unlinked_iff _ b).mpr h.leads,
      by rw [port?_unlinked, h.target, Option.map_some], h.inward, h.kind⟩, hP⟩

theorem resolve_unlinked_data (n : Network) (conversions : Conversions) (e : Recording)
    (b : PortAddress) (l : PortLink) : n.unlinked.resolve conversions e = some (.data b l) ↔
      n.ValidData conversions e l.source b l.compatibility := by
  rw [resolve_data_iff]
  exact n.fits_unlinked_iff e l.source b fun kind s t =>
    kind = .data ∧ conversions.Carries s t l.compatibility

theorem resolve_unlinked_control (n : Network) (conversions : Conversions) (e : Recording)
    (a : PortAddress) (k : NodeHandle) :
    n.unlinked.resolve conversions e = some (.control a k) ↔
      ∃ b, n.ValidControl e a b ∧ b.node = k := by
  rw [resolve_control_iff]
  exact exists_congr fun b => and_congr_left fun _ =>
    n.fits_unlinked_iff e a b fun kind _ _ => kind = .control

/-- Linking makes of the slots of a node what the links into them and from them say. -/
theorem link_node (n : Network) (conversions : Conversions) (h : NodeHandle) :
    (n.link conversions).1.node? h = (n.node? h).map fun x =>
      { x with
        ports := x.ports.mapIdx fun i p => { p with
          link := ((validLinks (n.unlinked.checkAll conversions)).filterMap
            (NewLink.into ⟨h, i⟩)).getLast?
          target := ((validLinks (n.unlinked.checkAll conversions)).filterMap
            (NewLink.successor ⟨h, i⟩)).getLast? }
        dependencies := (validLinks (n.unlinked.checkAll conversions)).foldl (gather h) [] } := by
  cases hx : n.node? h with
  | none =>
    cases hy : (n.link conversions).1.node? h with
    | none => rfl
    | some y =>
      obtain ⟨x, hsome, _⟩ := node?_of_unlinked_eq (n.link_unlinked conversions).symm h y hy
      rw [hx] at hsome
      cases hsome
  | some x =>
    have hunlinked : n.unlinked.node? h = some x.unlinked := by
      rw [node?_unlinked, hx, Option.map_some]
    obtain ⟨y, hy, hdependencies⟩ := n.unlinked.makeLinks_gathers
      (validLinks (n.unlinked.checkAll conversions)) h x.unlinked hunlinked
    have hy' : (n.link conversions).1.node? h = some y := hy
    obtain ⟨x', hx', hsame⟩ := node?_of_unlinked_eq (n.link_unlinked conversions).symm h y hy'
    rw [hx] at hx'
    cases hx'
    have hports : y.ports = x.ports.mapIdx fun i p => { p with
        link := ((validLinks (n.unlinked.checkAll conversions)).filterMap
          (NewLink.into ⟨h, i⟩)).getLast?
        target := ((validLinks (n.unlinked.checkAll conversions)).filterMap
          (NewLink.successor ⟨h, i⟩)).getLast? } := by
      refine List.ext_getElem? fun i => ?_
      have hport := n.unlinked.port?_makeLinks (validLinks (n.unlinked.checkAll conversions)) ⟨h, i⟩
      unfold port? at hport
      dsimp only at hport
      rw [hy, hunlinked, Option.bind_some, Option.bind_some] at hport
      rw [hport, List.getElem?_mapIdx]
      show ((x.ports.map Port.unlinked)[i]?).map _ = _
      rw [List.getElem?_map]
      cases x.ports[i]? with
      | none => rfl
      | some p =>
        -- there was no link before
        simp only [Option.map_some, Port.unlinked, Option.or_none]
    rw [hy', Option.map_some]
    cases x
    cases y
    simp only [GraphNode.unlinked, GraphNode.mk.injEq] at hsame hports hdependencies
    simp only [hsame, hports, hdependencies]

/-- A slot of the linked network has the last link into it and the last successor. -/
theorem link_port? (n : Network) (conversions : Conversions) (a : PortAddress) (p : Port)
    (hp : (n.link conversions).1.port? a = some p) :
    p.link = ((validLinks (n.unlinked.checkAll conversions)).filterMap
        (NewLink.into a)).getLast? ∧
      p.target = ((validLinks (n.unlinked.checkAll conversions)).filterMap
        (NewLink.successor a)).getLast? := by
  obtain ⟨y, hy, hget⟩ := (port?_eq_some_iff _ a p).mp hp
  rw [link_node] at hy
  obtain ⟨x, _, rfl⟩ := Option.map_eq_some_iff.mp hy
  rw [List.getElem?_mapIdx] at hget
  obtain ⟨q, _, rfl⟩ := Option.map_eq_some_iff.mp hget
  exact ⟨rfl, rfl⟩

/-! ### Dependencies in their order -/

/-- Gathering keeps the first of equal dependencies. -/
theorem foldl_gather (h : NodeHandle) (links : List NewLink) (found : List NodeHandle) :
    links.foldl (gather h) found = (links.filterMap (NewLink.needed h)).foldl addNew found := by
  rw [List.foldl_filterMap]
  refine congrArg (fun g => links.foldl g found) ?_
  funext found new
  cases new with
  | control source target => rfl
  | data target link =>
    rw [gather_data, NewLink.needed_data]
    unfold addNew
    by_cases hhere : target.node = h ∧ link.source.node ≠ h
    · by_cases hfound : link.source.node ∈ found
      · simp [hhere, hfound]
      · simp [hhere, hfound]
    · rw [if_neg hhere, if_neg fun hall => hhere (by simp_all)]

theorem needed_iff (n : Network) (conversions : Conversions) (h k : NodeHandle) (e : Recording) :
    (n.unlinked.resolve conversions e).bind (NewLink.needed h) = some k ↔
      k ≠ h ∧ n.ValidFrom conversions e k h := by
  rw [Option.bind_eq_some_iff]
  constructor
  · rintro ⟨new, hnew, hneeded⟩
    cases new with
    | control a k => cases hneeded
    | data b l =>
      rw [NewLink.needed_data, Option.ite_none_right_eq_some] at hneeded
      obtain ⟨⟨htarget, hne⟩, hsource⟩ := hneeded
      rw [← Option.some.inj hsource]
      exact ⟨hne, l.source, b, l.compatibility, (n.resolve_unlinked_data conversions e b l).mp hnew,
        rfl, htarget⟩
  · rintro ⟨hne, a, b, how, hvalid, rfl, rfl⟩
    exact ⟨.data b ⟨a, how⟩, (n.resolve_unlinked_data conversions e b ⟨a, how⟩).mpr hvalid,
      if_pos ⟨rfl, hne⟩⟩

/-- The dependencies of a linked node are the nodes that its connections come from. -/
theorem link_gathers (n : Network) (conversions : Conversions) (h : NodeHandle)
    (y : GraphNode) (hy : (n.link conversions).1.node? h = some y) :
    y.dependencies = (n.recordings.filterMap fun e =>
      (n.unlinked.resolve conversions e).bind (NewLink.needed h)).foldl addNew [] := by
  rw [link_node] at hy
  obtain ⟨x, _, rfl⟩ := Option.map_eq_some_iff.mp hy
  dsimp only
  rw [foldl_gather, n.unlinked.filterMap_validLinks conversions _ fun _ _ => rfl,
    recordings_unlinked]

/-- Linking resolves the records: an input is linked to the last valid connection into it, a
    control output leads where the last of its records leads whose first connection is valid,
    and a node depends on the others with valid data connections into it, in their order.
    Links that were there before do not matter. -/
theorem link_resolves (n : Network) (conversions : Conversions) :
    n.Resolved conversions (n.link conversions).1 := by
  refine ⟨fun b p hp l => ?_, fun a p hp k => ?_, fun h y hy k => ?_, fun h y hy => ?_,
    fun h y hy => ?_, n.link_unlinked conversions⟩
  · obtain ⟨hlink, _⟩ := n.link_port? conversions b p hp
    have hinto : ∀ e l, (n.unlinked.resolve conversions e).bind (NewLink.into b) = some l ↔
        n.ValidData conversions e l.source b l.compatibility := by
      intro e l
      rw [← resolve_unlinked_data, Option.bind_eq_some_iff]
      simp only [NewLink.into_eq_some_iff, exists_eq_right]
    rw [hlink, n.unlinked.filterMap_validLinks conversions _ fun _ _ => rfl,
      getLast?_filterMap_iff, recordings_unlinked]
    simp only [hinto]
    refine exists_congr fun e => and_congr_left fun _ => IsLast.congr fun e' => ?_
    exact ⟨fun ⟨l, hl⟩ => ⟨l.source, l.compatibility, hl⟩, fun ⟨a, how, h⟩ => ⟨⟨a, how⟩, h⟩⟩
  · obtain ⟨_, htarget⟩ := n.link_port? conversions a p hp
    have hfirst : ∀ (e : NodeHandle × PortData) k, (e.2.connections.head?.bind fun c =>
        (n.unlinked.resolve conversions ⟨e.1, e.2, c⟩).bind (NewLink.successor a)) = some k ↔
        ∃ c, e.2.connections.head? = some c ∧
          ∃ b, n.ValidControl ⟨e.1, e.2, c⟩ a b ∧ b.node = k := by
      intro e k
      rw [Option.bind_eq_some_iff]
      refine exists_congr fun c => and_congr_right fun _ => ?_
      rw [← n.resolve_unlinked_control conversions, Option.bind_eq_some_iff]
      simp only [NewLink.successor_eq_some_iff, exists_eq_right]
    rw [htarget, n.unlinked.filterMap_validTargets conversions _ fun _ _ => rfl,
      getLast?_filterMap_iff, nodeRecords_unlinked]
    simp only [hfirst]
    refine exists_congr fun e => and_congr_left fun _ => IsLast.congr fun e' => ?_
    exact ⟨fun ⟨_, c, hc, b, hb, _⟩ => ⟨c, hc, b, hb⟩, fun ⟨c, hc, b, hb⟩ => ⟨_, c, hc, b, hb, rfl⟩⟩
  · obtain ⟨_, hmem, _⟩ := foldl_addNew (n.recordings.filterMap fun e =>
      (n.unlinked.resolve conversions e).bind (NewLink.needed h))
    rw [n.link_gathers conversions h y hy, hmem, List.mem_filterMap]
    simp only [needed_iff]
    constructor
    · rintro ⟨e, he, hne, hvalid⟩
      exact ⟨hne, e, he, hvalid⟩
    · rintro ⟨hne, e, he, hvalid⟩
      exact ⟨e, he, hne, hvalid⟩
  · rw [n.link_gathers conversions h y hy]
    exact (foldl_addNew _).1
  · rw [n.link_gathers conversions h y hy]
    obtain ⟨_, hmem, hordered⟩ := foldl_addNew (n.recordings.filterMap fun e =>
      (n.unlinked.resolve conversions e).bind (NewLink.needed h))
    refine hordered.imp_of_mem fun {k k'} _ hk' hprecedes => ?_
    obtain ⟨before, e, after, hsplit, he, hnone⟩ := hprecedes.of_filterMap
    obtain ⟨e', _, he'⟩ := List.mem_filterMap.mp ((hmem k').mp hk')
    have hne := ((n.needed_iff conversions h k' e').mp he').1
    exact ⟨before, e, after, hsplit, ((n.needed_iff conversions h k e).mp he).2,
      fun e' he' hvalid => hnone e' he' ((n.needed_iff conversions h k' e').mpr ⟨hne, hvalid⟩)⟩

end Network
end FlowGraph
