import FlowGraph.Proofs.Dispatch.Resolving
import FlowGraph.Proofs.Dispatch.Sharing
import FlowGraph.Proofs.Dispatch.Trace
import FlowGraph.Proofs.Graph.Extending

/-! # Local functions and functions of the library

    A function can be saved with the graph that calls it, or be built for itself and put into
    the library.  Both ways it becomes the same graph (`Graph.build_addFunction`), and calls
    of the caller find it, so the two callers are twins (`Engine.twins_withFunction`).

    The main theorem, `Dispatch.start_local_or_library`: if only the caller calls the function,
    each request does the same in both. -/

namespace FlowGraph

/-! ## Section 1: The same calls -/

/-- The engine with another function behind those of its library. -/
def Engine.withFunction (e : Engine) (name : String) (k : Graph) : Engine :=
  { e with library := e.library ++ [(name, k)] }

theorem Engine.function?_withFunction (e : Engine) (name other : String) (k : Graph)
    (hname : e.function? name = none) :
    (e.withFunction name k).function? other = if other = name then some k else e.function? other :=
  function?_append e.library name other k (Option.map_eq_none_iff.mp hname)

section Calls

variable {e : Engine} {g k : Graph} {name : String}

/-- The graph with a local function and the graph without it; and a graph that calls of the
    first one lead to, with itself. -/
def Engine.SameCalls (e : Engine) (g k : Graph) (name : String) (a b : Graph) : Prop :=
  (a = g.withFunction name k ∧ b = g) ∨ (a = b ∧ e.Reaches (g.withFunction name k) a)

/-- If no other graph calls the function, calls resolve to the same ones in the graph with the
    local function, and in the graph without it if the function is in the library. -/
theorem Engine.twins_withFunction (hlocal : g.function? name = none)
    (hlibrary : e.function? name = none)
    (honly : ∀ h, e.Reaches (g.withFunction name k) h → ¬ h.Invokes name) :
    Twins e (e.withFunction name k).library (e.SameCalls g k name) where
  same := by
    rintro a b (⟨rfl, rfl⟩ | ⟨rfl, _⟩)
    · cases b
      rfl
    · cases a
      rfl
  callee := by
    have hsame : ∀ x y : Option Graph, y = x →
        (∀ h, x = some h → e.Reaches (g.withFunction name k) h) →
        Option.Rel (e.SameCalls g k name) x y := by
      rintro _ y rfl hreached
      cases y with
      | none => exact .none
      | some h => exact .some (.inr ⟨rfl, hreached h rfl⟩)
    rintro a b other (⟨rfl, rfl⟩ | ⟨rfl, ha⟩) hother
    · refine hsame _ _ ?_ fun h hh => .call other h hother hh
      show (b.function? other).or ((e.withFunction name k).function? other)
        = ((b.withFunction name k).function? other).or (e.function? other)
      rw [e.function?_withFunction name other k hlibrary,
        b.function?_withFunction name other k hlocal]
      by_cases hname : other = name
      · rw [if_pos hname, if_pos hname, hname, hlocal]
        rfl
      · rw [if_neg hname, if_neg hname]
    · refine hsame _ _ ?_ fun h hh => .nested a other h ha hother hh
      have hname : other ≠ name := fun h => honly a ha (h ▸ hother)
      show (a.function? other).or ((e.withFunction name k).function? other)
        = (a.function? other).or (e.function? other)
      rw [e.function?_withFunction name other k hlibrary, if_neg hname]

/-- If there are no other functions, the calls of the graph lead to this one only. -/
theorem Engine.eq_of_reaches (hlibrary : e.library = []) (hg : g.functions = [])
    (hk : k.functions = []) {h : Graph} (hreaches : e.Reaches (g.withFunction name k) h) :
    h = k := by
  have hnone : ∀ a : Graph, a.functions = [] → ∀ other, e.resolve a other = none := by
    intro a ha other
    unfold Engine.resolve Graph.function? Engine.function?
    rw [ha, hlibrary]
    rfl
  induction hreaches with
  | call other h _ hresolve =>
    have hlocal : g.function? name = none := by
      unfold Graph.function?
      rw [hg]
      rfl
    have hother := hnone g hg other
    unfold Engine.resolve at hresolve hother
    rw [g.function?_withFunction name other k hlocal] at hresolve
    split at hresolve
    · exact (Option.some.inj hresolve).symm
    · rw [hother] at hresolve
      cases hresolve
  | nested f other h _ _ hresolve ih =>
    rw [ih, hnone k hk] at hresolve
    cases hresolve

end Calls

/-! ## Section 2: The same runs -/

namespace Dispatch

/-- **Main theorem: local or in the library.**  A function may be saved with the graph that
    calls it, or be built behind the graph and put into the library.  Both ways succeed or fail
    alike.  If the graph alone calls the function, and no function that is reached does, then
    each request does the same both ways: it ends with the same error or the same outcome, or
    stands at the same wait, and the stores have the same events, cells and variables; only
    what was logged differs.  The store may hold anything before, as long as its bindings are in
    order, which every operation keeps so. -/
theorem start_local_or_library (registry : Registry) (conversions : Conversions)
    (data function : GraphData) (name : String) (e : Engine) {s : Store} (hs : s.Bound)
    (hlocal : data.function? name = none) (hlibrary : e.function? name = none) :
    let both := Graph.build registry conversions (data.addFunction name function) s
    let alone := Graph.build registry conversions data s
    let added := Graph.build registry conversions function alone.2
    both.1 = alone.1.bind (fun g => added.1.map (g.withFunction name)) ∧
      ∀ g k, alone.1 = .ok g → added.1 = .ok k →
        (∀ h, e.Reaches (g.withFunction name k) h → ¬ h.Invokes name) → ∀ fuel r,
          (start fuel e (g.withFunction name k) r both.2).SameButLog
            (start fuel (e.withFunction name k) g r added.2) := by
  intro both alone added
  obtain ⟨hbuilds, hstores⟩ := Graph.build_addFunction registry conversions data function name hs
  refine ⟨hbuilds, fun g k hg hk honly fuel r => ?_⟩
  obtain ⟨log, hstore⟩ : ∃ log, both.2 = added.2.withLog log := hstores g k hg hk
  -- the twins run in one store, and that store differs from the other one in the log only
  have htwins := Engine.twins_withFunction (Graph.function?_build hg hlocal) hlibrary honly
  have hstart : start fuel (e.withFunction name k) g r added.2
      = start fuel e (g.withFunction name k) r added.2 :=
    start_twins htwins (.inl ⟨rfl, rfl⟩) fuel r added.2
  have hback : added.2 = both.2.withLog added.2.log := by rw [hstore]; rfl
  rw [hstart, hback]
  exact start_sameButLog fuel e (g.withFunction name k) r both.2 added.2.log

/-- A message and a call, of a local function or of one of the library: the same nodes run. -/
theorem start_local_or_library_greeting :
    let caller : GraphData := { greeting with functions := [] }
    let both := Graph.build .builtin .standard (caller.addFunction "answer" answering) default
    let alone := Graph.build .builtin .standard caller default
    let added := Graph.build .builtin .standard answering alone.2
    let r : DispatchRequest := { entry := .event "go" }
    ∃ g k o, alone.1 = .ok g ∧ added.1 = .ok k ∧ both.1 = .ok (g.withFunction "answer" k) ∧
      (∀ h, Engine.Reaches {} (g.withFunction "answer" k) h → ¬ h.Invokes "answer") ∧
      (start 10 {} (g.withFunction "answer" k) r both.2).result? = some (.ok o) ∧
      (start 10 (Engine.withFunction {} "answer" k) g r added.2).result? = some (.ok o) ∧
      o.trace = ["go", "each", "text", "say", "call", "asked"] := by
  intro caller both alone added r
  obtain ⟨hbuilds, hruns⟩ := start_local_or_library .builtin .standard caller answering "answer" {}
    Host.bound_default (by decide +kernel) (by decide +kernel)
  have hcaller : alone.1.toOption.map (·.functions.length) = some 0 := by decide +kernel
  have hcallee : added.1.toOption.map (fun k => (k.functions.length, decide (k.Invokes "answer")))
      = some (0, false) := by decide +kernel
  have htrace : (both.1.toOption.bind fun g => (start 10 {} g r both.2).result?.bind
      Except.toOption).map (·.trace) = some ["go", "each", "text", "say", "call", "asked"] := by
    decide +kernel
  obtain ⟨g, hg⟩ : ∃ g, alone.1 = .ok g := by
    cases halone : alone.1 with
    | error e => rw [halone] at hcaller; cases hcaller
    | ok g => exact ⟨g, rfl⟩
  obtain ⟨k, hk⟩ : ∃ k, added.1 = .ok k := by
    cases hadded : added.1 with
    | error e => rw [hadded] at hcallee; cases hcallee
    | ok k => exact ⟨k, rfl⟩
  have hboth : both.1 = .ok (g.withFunction "answer" k) := by
    have heq : both.1 = alone.1.bind fun g => added.1.map (g.withFunction "answer") := hbuilds
    rw [heq, hg, hk]
    rfl
  rw [hg] at hcaller
  rw [hk] at hcallee
  obtain ⟨hlocals, hquiet⟩ := Prod.mk.inj (Option.some.inj hcallee)
  -- the function is all that is called, and it calls nothing
  have honly : ∀ h, Engine.Reaches {} (g.withFunction "answer" k) h → ¬ h.Invokes "answer" := by
    intro h hreaches
    rw [Engine.eq_of_reaches rfl (List.length_eq_zero_iff.mp (Option.some.inj hcaller))
      (List.length_eq_zero_iff.mp hlocals) hreaches]
    exact of_decide_eq_false hquiet
  obtain ⟨hsame, _⟩ := (hruns g k hg hk honly 10 r).result_state
  have hresult : ((start 10 {} (g.withFunction "answer" k) r both.2).result?.bind
      Except.toOption).map (·.trace) = some ["go", "each", "text", "say", "call", "asked"] := by
    rw [hboth] at htrace
    exact htrace
  obtain ⟨o, hoption, htrace⟩ := Option.map_eq_some_iff.mp hresult
  obtain ⟨result, hdone, hok⟩ := Option.bind_eq_some_iff.mp hoption
  cases result with
  | error e => cases hok
  | ok o =>
    cases hok
    exact ⟨g, k, o, hg, hk, hboth, honly, hdone, hsame.trans hdone, htrace⟩

end Dispatch
end FlowGraph
