import FlowGraph.Proofs.Variable.Cells
import FlowGraph.Variable.Blackboard

/-! # Writing a blackboard by name

    A blackboard may hold several variables of one name, of different types, and they may be
    bound to others or to one another.  Writing it by name writes the first variable that fits
    the value (`Blackboard.Fits`), or adds one if there is none (`Blackboard.set_cases`).

    A blackboard that was empty and is only written by name holds no variables that could
    stand in each other's way: variables of one name have different types, and one that takes
    values of all types is the only one of its name (`Blackboard.Apart`, `distinct_write`).

    The main statement is `Blackboard.set_upserts`. -/

namespace FlowGraph

/-! ## Section 1: What is written -/

theorem Value.portType_eq_any_iff (a : Value) : a.portType = .any ↔ a = .null := by
  cases a <;> simp [Value.portType]

namespace Blackboard

/-- The variable has that name and takes the value: its type takes values of the value's type
    without conversion, or the value is null. -/
def Fits (vs : Variables) (name : String) (a : Value) (v : VarId) : Prop :=
  ∃ x, vs.find? v = some x ∧ x.name = name ∧ (x.type.acceptsDirectly a.portType = true ∨ a = .null)

theorem takes_iff (vs : Variables) (name : String) (a : Value) (v : VarId) :
    takes vs name a.portType v = true ↔ Fits vs name a v := by
  unfold takes Fits
  cases vs.find? v with
  | none => simp
  | some x => simp [Value.portType_eq_any_iff]

/-- The variable that is written is the first one that fits; if there is none, one is added at
    the end. -/
theorem set_cases (board : Blackboard) (vs : Variables) (name : String) (a : Value) :
    (∃ before v after, board = before ++ v :: after ∧ Fits vs name a v ∧
      (∀ u ∈ before, ¬ Fits vs name a u) ∧ board.set vs name a = (v, board, vs.set v a)) ∨
    (∀ u ∈ board, ¬ Fits vs name a u) ∧
      board.set vs name a = (vs.cells.size, board ++ [vs.cells.size],
        (vs.add (.shared name a.portType a)).2) := by
  cases hfind : List.find? (takes vs name a.portType) board with
  | some v =>
    left
    obtain ⟨hfits, before, after, hboard, hbefore⟩ := List.find?_eq_some_iff_append.mp hfind
    refine ⟨before, v, after, hboard, (takes_iff vs name a v).mp hfits, fun u hu hfit => ?_, ?_⟩
    · have hnot := hbefore u hu
      rw [(takes_iff vs name a u).mpr hfit] at hnot
      cases hnot
    · unfold Blackboard.set
      rw [hfind]
  | none =>
    right
    refine ⟨fun u hu hfit => ?_, ?_⟩
    · exact List.find?_eq_none.mp hfind u hu ((takes_iff vs name a u).mpr hfit)
    · unfold Blackboard.set
      rw [hfind]
      rfl

end Blackboard

namespace Variables

theorem find?_set (vs : Variables) (v u : VarId) (a : Value) :
    (vs.set v a).find? u
      = if u = vs.root v then (vs.find? u).map fun x => { x with stored := a } else vs.find? u := by
  unfold set
  rw [find?_modify]
  simp only [eq_comm]

/-! ## Section 2: Names and types -/

/-- The name and the type of a variable. -/
def declared (vs : Variables) (v : VarId) : Option (String × PortType) :=
  (vs.find? v).map fun x => (x.name, x.type)

theorem nameOf_eq_declared (vs : Variables) (v : VarId) :
    vs.nameOf v = ((vs.declared v).map Prod.fst).getD "" := by
  rw [nameOf, declared, Option.map_map]
  rfl

/-- Changes that spare names and types. -/
theorem declared_modify (vs : Variables) (v u : VarId) (f : Variable → Variable)
    (hf : ∀ x, (f x).name = x.name ∧ (f x).type = x.type) :
    (vs.modify v f).declared u = vs.declared u := by
  unfold declared
  rw [find?_modify]
  by_cases h : v = u
  · rw [if_pos h]
    cases vs.find? u with
    | none => rfl
    | some x => simp [hf x]
  · rw [if_neg h]

theorem declared_set (vs : Variables) (v u : VarId) (a : Value) :
    (vs.set v a).declared u = vs.declared u :=
  vs.declared_modify _ u _ fun _ => ⟨rfl, rfl⟩

theorem declared_add (vs : Variables) (x : Variable) (u : VarId) :
    (vs.add x).2.declared u = if u = vs.cells.size then some (x.name, x.type) else vs.declared u := by
  unfold declared
  rw [find?_add_eq_ite]
  by_cases h : u = vs.cells.size <;> simp [h]

/-- Variables that are there stay there, with their names and types. -/
theorem declared_apply (vs : Variables) (op : Operation) :
    vs.cells.size ≤ (vs.apply op).cells.size ∧
      ∀ u < vs.cells.size, (vs.apply op).declared u = vs.declared u := by
  unfold apply
  by_cases hthere : ∀ v ∈ op.operands, v < vs.cells.size
  · rw [if_pos hthere]
    cases op with
    | bind v target =>
      cases h : vs.bind v target with
      | ok vs' =>
        obtain ⟨_, rfl⟩ := vs.bind_eq_ok h
        rw [perform_of_bind h, size_modify]
        exact ⟨le_rfl, fun u _ => vs.declared_modify v u _ fun _ => ⟨rfl, rfl⟩⟩
      | error e =>
        rw [perform_of_refused h]
        exact ⟨le_rfl, fun _ _ => rfl⟩
    | unbind v =>
      exact ⟨(vs.size_modify v _).ge, fun u _ => vs.declared_modify v u _ fun _ => ⟨rfl, rfl⟩⟩
    | set v a => exact ⟨(vs.size_set v a).ge, fun u _ => vs.declared_set v u a⟩
    | copy v =>
      obtain ⟨x, _, hcopy⟩ := vs.copy_eq (hthere v List.mem_cons_self)
      show vs.cells.size ≤ (vs.copy v).2.cells.size ∧ _
      rw [hcopy]
      refine ⟨by simp [add], fun u hu => ?_⟩
      show (vs.copy v).2.declared u = vs.declared u
      rw [hcopy, declared_add, if_neg hu.ne]
  · rw [if_neg hthere]
    exact ⟨le_rfl, fun _ _ => rfl⟩

end Variables

namespace Blackboard

/-! ## Section 3: Blackboards that are written by name -/

/-- Something is written by name, or is done with a variable. -/
inductive Write where
  | byName (name : String) (value : Value)
  | elsewhere (op : Variables.Operation)

/-- The blackboard and the variables after that. -/
def write (st : Blackboard × Variables) : Write → Blackboard × Variables
  | .byName name a => (st.1.set st.2 name a).2
  | .elsewhere op => (st.1, st.2.apply op)

theorem write_wellBound {st : Blackboard × Variables} (h : st.2.WellBound) (w : Write) :
    (write st w).2.WellBound := by
  cases w with
  | elsewhere op => exact h.apply op
  | byName name a =>
    show (st.1.set st.2 name a).2.2.WellBound
    rcases st.1.set_cases st.2 name a with ⟨_, v, _, _, _, _, heq⟩ | ⟨_, heq⟩
    · rw [heq]
      exact h.set v a
    · rw [heq]
      exact h.add _ rfl

theorem writes_wellBound {st : Blackboard × Variables} (h : st.2.WellBound) (writes : List Write) :
    (writes.foldl write st).2.WellBound := by
  induction writes generalizing st with
  | nil => exact h
  | cons w rest ih => exact ih (write_wellBound h w)

/-- Two variables of one name have different types, and neither takes values of all types. -/
def Apart (vs : Variables) (u v : VarId) : Prop :=
  ∀ name s t, vs.declared u = some (name, s) → vs.declared v = some (name, t) →
    s ≠ t ∧ s ≠ .any ∧ t ≠ .any

/-- The variables are there, and each two of them are apart. -/
structure Distinct (board : Blackboard) (vs : Variables) : Prop where
  there : ∀ v ∈ board, v < vs.cells.size
  apart : board.Pairwise (Apart vs)

/-- What keeps names and types keeps variables apart. -/
theorem Distinct.of_declared {board : Blackboard} {vs vs' : Variables} (h : Distinct board vs)
    (hsize : vs.cells.size ≤ vs'.cells.size)
    (hdeclared : ∀ u < vs.cells.size, vs'.declared u = vs.declared u) : Distinct board vs' := by
  refine ⟨fun v hv => (h.there v hv).trans_le hsize, ?_⟩
  refine h.apart.imp_of_mem fun {u v} hu hv hapart => ?_
  unfold Apart
  rw [hdeclared u (h.there u hu), hdeclared v (h.there v hv)]
  exact hapart

/-- A variable that a value does not fit is apart from one of the value's type. -/
theorem apart_of_not_fits (vs : Variables) (name : String) (a : Value) (u : VarId)
    (hu : u < vs.cells.size) (hfits : ¬ Fits vs name a u) :
    Apart (vs.add (.shared name a.portType a)).2 u vs.cells.size := by
  intro name' s t hs ht
  rw [Variables.declared_add, if_neg hu.ne] at hs
  rw [Variables.declared_add, if_pos rfl] at ht
  obtain ⟨rfl, rfl⟩ : name = name' ∧ a.portType = t := by simpa [Variable.shared] using ht
  obtain ⟨x, hx, hxs⟩ := Option.map_eq_some_iff.mp hs
  obtain ⟨hname, rfl⟩ : x.name = name ∧ x.type = s := by simpa using hxs
  -- the value is not null, and the variable's type does not accept its type
  have hneither : ¬ (x.type.acceptsDirectly a.portType = true ∨ a = .null) :=
    fun h => hfits ⟨x, hx, hname, h⟩
  rw [not_or, ← Value.portType_eq_any_iff] at hneither
  have haccepts : x.type ≠ .any ∧ x.type ≠ a.portType := by
    simpa [PortType.acceptsDirectly] using hneither.1
  exact ⟨haccepts.2, haccepts.1, hneither.2⟩

/-- **Step lemma**: writing by name keeps the variables apart. -/
theorem distinct_write {st : Blackboard × Variables} (h : Distinct st.1 st.2) (w : Write) :
    Distinct (write st w).1 (write st w).2 := by
  obtain ⟨board, vs⟩ := st
  cases w with
  | elsewhere op => exact h.of_declared (vs.declared_apply op).1 (vs.declared_apply op).2
  | byName name a =>
    show Distinct (board.set vs name a).2.1 (board.set vs name a).2.2
    rcases board.set_cases vs name a with ⟨_, v, _, _, _, _, heq⟩ | ⟨hnone, heq⟩
    · rw [heq]
      exact h.of_declared (vs.size_set v a).ge fun u _ => vs.declared_set v u a
    · rw [heq]
      have hsize : (vs.add (.shared name a.portType a)).2.cells.size = vs.cells.size + 1 := by
        simp [Variables.add]
      have hold : Distinct board (vs.add (.shared name a.portType a)).2 := by
        refine h.of_declared (Nat.le_of_succ_le hsize.ge) fun u hu => ?_
        rw [Variables.declared_add, if_neg hu.ne]
      refine ⟨fun v hv => ?_, List.pairwise_append.mpr ⟨hold.apart, List.pairwise_singleton _ _, ?_⟩⟩
      · show v < (vs.add _).2.cells.size
        rcases List.mem_append.mp hv with hv | hv
        · exact hold.there v hv
        · rw [List.mem_singleton.mp hv, hsize]
          exact Nat.lt_succ_self _
      · intro u hu v hv
        rw [List.mem_singleton.mp hv]
        exact apart_of_not_fits vs name a u (h.there u hu) (hnone u hu)

/-- **Run lemma**: a blackboard that is only written by name. -/
theorem distinct_run {st : Blackboard × Variables} (h : Distinct st.1 st.2) (writes : List Write) :
    Distinct (writes.foldl write st).1 (writes.foldl write st).2 := by
  induction writes generalizing st with
  | nil => exact h
  | cons w rest ih => exact ih (distinct_write h w)

/-! ## Section 4: The main statement -/

/-- The blackboard is the same, and the end of the chain from the variable takes the value. -/
def Updated (board : Blackboard) (vs : Variables) (v : VarId) (a : Value) (board' : Blackboard)
    (vs' : Variables) : Prop :=
  board' = board ∧ vs'.cells.size = vs.cells.size ∧ vs.root v < vs.cells.size ∧
    ∀ u, vs'.find? u
      = if u = vs.root v then (vs.find? u).map fun x => { x with stored := a } else vs.find? u

/-- A new variable of the value's type stands at the end of the blackboard; all others are as
    they were. -/
def Appended (board : Blackboard) (vs : Variables) (v : VarId) (name : String) (a : Value)
    (board' : Blackboard) (vs' : Variables) : Prop :=
  v = vs.cells.size ∧ board' = board ++ [v] ∧ vs'.cells.size = vs.cells.size + 1 ∧
    vs'.find? v = some (.shared name a.portType a) ∧ ∀ u, u ≠ v → vs'.find? u = vs.find? u

/-- What writing by name comes to: the variable, the blackboard and the variables after it. -/
structure Upserted (board : Blackboard) (vs : Variables) (name : String) (a : Value)
    (r : VarId × Blackboard × Variables) : Prop where
  /-- The variable is on the blackboard, -/
  mem : r.1 ∈ r.2.1
  /-- it has the name, -/
  named : r.2.2.nameOf r.1 = name
  /-- and shows the value. -/
  shows : r.2.2.get r.1 = a
  /-- It is the first one that fits, or a new one if none fits. -/
  first_or_new :
    (∃ before after, board = before ++ r.1 :: after ∧ Fits vs name a r.1 ∧
      (∀ u ∈ before, ¬ Fits vs name a u) ∧ Updated board vs r.1 a r.2.1 r.2.2) ∨
    (∀ u ∈ board, ¬ Fits vs name a u) ∧ Appended board vs r.1 name a r.2.1 r.2.2

section

variable {vs : Variables} (hvs : vs.WellBound)

include hvs

/-- Writing a variable that fits. -/
theorem upserted_set (before after : Blackboard) (v : VarId) (name : String) (a : Value)
    (hv : v < vs.cells.size) (hfits : Fits vs name a v) (hfirst : ∀ u ∈ before, ¬ Fits vs name a u) :
    Upserted (before ++ v :: after) vs name a (v, before ++ v :: after, vs.set v a) where
  mem := List.mem_append_right _ List.mem_cons_self
  named := by
    obtain ⟨x, hx, hname, _⟩ := hfits
    show (vs.set v a).nameOf v = name
    rw [Variables.nameOf_eq_declared, vs.declared_set, ← Variables.nameOf_eq_declared,
      Variables.nameOf, hx]
    exact hname
  shows := by
    show (vs.set v a).get v = a
    rw [Variables.get_set hvs v v a hv, if_pos rfl]
  first_or_new := .inl ⟨before, after, rfl, hfits, hfirst, rfl, vs.size_set v a,
    Variables.root_lt hvs v hv, fun u => vs.find?_set v u a⟩

/-- Adding a variable when none fits. -/
theorem upserted_add (board : Blackboard) (name : String) (a : Value)
    (hnone : ∀ u ∈ board, ¬ Fits vs name a u) :
    Upserted board vs name a (vs.cells.size, board ++ [vs.cells.size],
      (vs.add (.shared name a.portType a)).2) := by
  obtain ⟨vs', hvs'⟩ : ∃ vs', vs' = (vs.add (.shared name a.portType a)).2 := ⟨_, rfl⟩
  have hfind : ∀ u, vs'.find? u
      = if u = vs.cells.size then some (.shared name a.portType a) else vs.find? u := by
    rw [hvs']
    exact vs.find?_add_eq_ite _
  have hnew : vs'.find? vs.cells.size = some (.shared name a.portType a) := by
    rw [hfind, if_pos rfl]
  have hroot : vs'.root vs.cells.size = vs.cells.size := by
    have hbound : vs'.WellBound := by rw [hvs']; exact hvs.add _ rfl
    apply Variables.root_of_unbound hbound
    rw [Variables.targetOf, hnew]
    rfl
  have hsize : vs'.cells.size = vs.cells.size + 1 := by simp [hvs', Variables.add]
  rw [← hvs']
  refine ⟨List.mem_append_right _ List.mem_cons_self, ?_, ?_, .inr ⟨hnone, rfl, rfl, hsize, hnew, ?_⟩⟩
  · show vs'.nameOf vs.cells.size = name
    rw [Variables.nameOf, hnew]
    rfl
  · show vs'.get vs.cells.size = a
    rw [Variables.get_eq_own, hroot, Variables.own, hnew]
    rfl
  · intro u hu
    rw [hfind, if_neg hu]

theorem upserted (board : Blackboard) (name : String) (a : Value)
    (hboard : ∀ v ∈ board, v < vs.cells.size) :
    Upserted board vs name a (board.set vs name a) := by
  rcases board.set_cases vs name a with ⟨before, v, after, rfl, hfits, hfirst, heq⟩ | ⟨hnone, heq⟩
  · rw [heq]
    have hv := hboard v (List.mem_append_right _ List.mem_cons_self)
    exact upserted_set hvs before after v name a hv hfits hfirst
  · rw [heq]
    exact upserted_add hvs board name a hnone

end

/-- **Main theorem: writing a blackboard by name.**  Whatever was done before with variables that
    were unbound and with a blackboard, and whichever variables the blackboard holds that is
    written, the result is a variable of that name on it, and it shows the value.  It is the
    first one that fits, and then the only thing that changes is the own value of the variable
    at the end of its chain; or none fits, and then it is a new variable at the end.

    A blackboard that was empty and is only written by name, whatever else is done with the
    variables, never holds two variables of one name and one type, and a variable for values
    of all types is the only one of its name. -/
theorem set_upserts :
    (∀ (xs : List Variable), (∀ x ∈ xs, x.target = none) →
      ∀ (earlier : Blackboard) (writes : List Write) (board : Blackboard) (name : String) (a : Value),
      let vs := (writes.foldl write (earlier, .mk xs.toArray)).2
      (∀ v ∈ board, v < vs.cells.size) → Upserted board vs name a (board.set vs name a)) ∧
    ∀ (vs : Variables) (writes : List Write),
      let st := writes.foldl write ([], vs)
      (∀ v ∈ st.1, v < st.2.cells.size) ∧ st.1.Pairwise (Apart st.2) := by
  refine ⟨fun xs hxs earlier writes board name a hboard => ?_, fun vs writes => ?_⟩
  · have hxs' : (Variables.mk xs.toArray).WellBound := Variables.wellBound_of_unbound xs hxs
    have hvs : (writes.foldl write (earlier, .mk xs.toArray)).2.WellBound :=
      writes_wellBound hxs' writes
    exact upserted hvs board name a hboard
  · have hempty : Distinct [] vs := ⟨by simp, .nil⟩
    obtain ⟨hthere, hapart⟩ : Distinct (writes.foldl write ([], vs)).1
      (writes.foldl write ([], vs)).2 := distinct_run hempty writes
    exact ⟨hthere, hapart⟩

/-- Three variables of one name, and one of another name. -/
def speeds : List Variable :=
  [.shared "speed" .string (.string "fast"), .shared "speed" .int (.int 1),
    .shared "speed" .int (.int 2), .shared "limit" .int (.int 3)]

/-- The second one is bound to the third one, and that one to the fourth one, which is not on
    the blackboard but takes the value.  The third one stands before the second one.  A truth
    value fits none of them. -/
theorem set_upserts_speeds :
    let chained : List Write := [.elsewhere (.bind 1 2), .elsewhere (.bind 2 3)]
    let vs := (chained.foldl write ([], .mk speeds.toArray)).2
    let board : Blackboard := [0, 2, 1]
    (∀ x ∈ speeds, x.target = none) ∧ (∀ v ∈ board, v < vs.cells.size) ∧
      (board.set vs "speed" (.int 7)).1 = 2 ∧
      (board.set vs "speed" (.int 7)).2.2.get 2 = .int 7 ∧
      (board.set vs "speed" (.int 7)).2.2.own 3 = .int 7 ∧
      (board.set vs "speed" (.bool true)).2.1 = [0, 2, 1, 4] ∧
      (board.set vs "speed" (.bool true)).2.2.get 4 = .bool true := by
  intro chained vs board
  have hfree : ∀ x ∈ speeds, x.target = none := by decide
  have hboard : ∀ v ∈ board, v < vs.cells.size := by decide +kernel
  have hwritten : (board.set vs "speed" (.int 7)).1 = 2 := by decide +kernel
  have hadded : (board.set vs "speed" (.bool true)).1 = 4 := by decide +kernel
  have hint := (set_upserts.1 speeds hfree [] chained board "speed" (.int 7) hboard).shows
  have hbool := (set_upserts.1 speeds hfree [] chained board "speed" (.bool true) hboard).shows
  rw [hwritten] at hint
  rw [hadded] at hbool
  exact ⟨hfree, hboard, hwritten, hint, by decide +kernel, by decide +kernel, hbool⟩

/-- A second number takes the place of the first one, and a text stands behind it. -/
example :
    ([.byName "speed" (.int 2), .byName "speed" (.int 4), .byName "speed" (.string "fast")].foldl
      write ([], {})).1 = [0, 1] := by
  decide +kernel

end Blackboard
end FlowGraph
