import FlowGraph.Proofs.Dispatch.Depth
import FlowGraph.Proofs.Dispatch.History

/-! # Calls and what they return

    A call runs the callee in an activation of its own: with the values of the argument slots,
    an empty return box, and one level deeper.  The caller gets what the last output of this
    activation answered with, and finds its own return box and pending successor as they were
    (`Site.returned_of_call`).  A dispatch is the activation of its entry in the same sense
    (`Dispatch.calls_return`). -/

namespace FlowGraph

/-! ## Section 1: Frames of a dispatch -/

/-- The frames that chains run in while one runs in this frame, at any nesting. -/
inductive Frame.Spawns (frame : Frame) : Frame → Prop where
  | self : frame.Spawns frame
  | deeper (site : Site) (inner : Frame) (hsite : frame.Spawns site.frame)
      (hreach : site.Reaches inner) : frame.Spawns inner

theorem Frame.Spawns.all {P : Network → Prop} {frame inner : Frame} (h : frame.Spawns inner)
    (hframe : frame.All P) : inner.All P := by
  induction h with
  | self => exact hframe
  | deeper site inner _ hreach ih => exact hreach.all ih

theorem Frame.All.and {P Q : Network → Prop} {frame : Frame} (hP : frame.All P)
    (hQ : frame.All Q) : frame.All fun n => P n ∧ Q n :=
  ⟨hP.graph.and hQ.graph, fun f hf => (hP.library f hf).and (hQ.library f hf)⟩

theorem Frame.Spawns.engine {frame inner : Frame} (h : frame.Spawns inner) :
    inner.engine = frame.engine := by
  induction h with
  | self => rfl
  | deeper site inner _ hreach ih => exact hreach.engine.trans ih

/-! ## Section 2: Calls -/

namespace Site

/-- What a call has done that returns a value: `g` was called at `entry`, and `vs` is the
    history of its activation. -/
structure Calls (site : Site) (name : String) (s : DispatchState) (value : Value)
    (t : DispatchState) (g : Graph) (entry : NodeHandle) (vs : List Visit) : Prop where
  /-- A function of the calling graph comes before one of the library. -/
  function : (site.frame.graph.function? name).or (site.frame.engine.function? name) = some g
  found : g.findEntry name = some entry
  /-- The activation has the arguments and a return box of its own; the caller's box and
      pending successor are put back. -/
  activation : ∃ u, History (.chain (site.callFrame g ⟨name, site.inputs "args" s.store⟩) entry)
      { s with next := none, returned := none } vs u ∧
    t = { u with next := s.next, returned := s.returned }
  listed : t.trace.toList = s.trace.toList ++ (sites vs).map Site.guid
  /-- The entry of a function first publishes the arguments: every slot that has a cell holds
      the argument of its position, or `null` if there is none. -/
  published : ∀ x input, g.node? entry = some x → x.behavior = .functionInput input →
    ∃ before v after, vs = before ++ v :: after ∧
      v.site = ⟨site.callFrame g ⟨name, site.inputs "args" s.store⟩, entry⟩ ∧ v.level = 0 ∧
      v.site.RunsPath (sites before) ∧
      (s.store.rowSize g.id entry.index = some x.ports.length →
        ∀ index a, v.site.address? "args" index = some a →
          v.finish.store.cell g.id a = ((site.inputs "args" s.store)[index]?).getD .null)
  /-- The value is that of the last output in the activation. -/
  result : value = (lastOf Visit.answer? vs).getD .null

theorem calls_of_returns (site : Site) (hsite : site.frame.All Network.Orderly)
    (hslotted : site.frame.All Network.Slotted) (fuel : Nat) (name : String)
    (s t : DispatchState) (value : Value)
    (h : (site.call (Frame.runChain fuel) name (site.inputs "args" s.store)).Returns s value t) :
    ∃ g entry vs, site.Calls name s value t g entry vs := by
  obtain ⟨g, entry, u, hcallee, hchain, rfl, rfl⟩ := site.returns_call _ name _ s t value h
  have hfunction := site.function?_of_callee name s.store g entry hcallee
  have hentry : g.findEntry name = some entry := by
    rw [callee_eq_found] at hcallee
    unfold found at hcallee
    rw [hfunction] at hcallee
    dsimp only at hcallee
    split at hcallee
    · cases hcallee
    · cases he : g.findEntry name with
      | none =>
        simp only [he] at hcallee
        cases hcallee
      | some k =>
        simp only [he, Except.bind] at hcallee
        split at hcallee
        · cases hcallee
        · cases hcallee
          rfl
  have hframe := hsite.callFrame name s.store g entry ⟨name, site.inputs "args" s.store⟩ hcallee
  have hnodes : g.toNetwork.Slotted := (hslotted.function? name g hfunction).network
  obtain ⟨vs, hvs, htrace⟩ := runChain_history fuel _ entry _ u hframe hchain
  refine ⟨g, entry, vs, ?_⟩
  exact {
    function := hfunction
    found := hentry
    activation := ⟨u, hvs, rfl⟩
    listed := htrace
    published := fun x input hx hb => hvs.entered hframe x hx input hb (hnodes entry x hx)
    result := by
      rw [hvs.returned]
      simp [Part.answer?] }

/-- A node that calls a function reads its arguments, calls, outputs the result and goes on. -/
theorem calls_of_execute (site : Site) (hsite : site.frame.All Network.Orderly)
    (hslotted : site.frame.All Network.Slotted) (fuel : Nat) (name : String)
    (s t : DispatchState)
    (h : (site.execute (Frame.runChain fuel) (.invokeFunction name)).Returns s () t) :
    ∃ value u g entry vs, site.Calls name s value u g entry vs ∧
      t = { u with
        store := site.output "result" 0 value u.store
        next := site.successor "next" 0 } := by
  replace h := Exec.returns_read_bind _ _ _ _ _ h
  obtain ⟨value, u, hcall, hrest⟩ := Exec.returns_bind _ _ _ _ _ h
  replace hrest := Exec.returns_modify_bind _ _ _ _ _ hrest
  obtain ⟨g, entry, vs, hcalls⟩ := site.calls_of_returns hsite hslotted fuel name s u value hcall
  exact ⟨value, u, g, entry, vs, hcalls, ((Exec.returns_modify_iff _ _ _).mp hrest).symm⟩

end Site

/-! ## Section 3: Dispatches -/

namespace Dispatch

/-- A dispatch of hosted graphs with nodes of the library runs in a frame of such graphs. -/
theorem frameOf_orderly (engine : Engine) (g : Graph) (r : DispatchRequest) (s : Store)
    (hhosted : Graph.Hosted g) (hnodes : g.All Network.OfLibrary)
    (hlibrary : ∀ f ∈ engine.library, Graph.Hosted f.2 ∧ f.2.All Network.OfLibrary) :
    (frameOf engine g r s).All Network.Orderly ∧ (frameOf engine g r s).All Network.Slotted :=
  ⟨⟨hhosted.orderly hnodes, fun f hf => (hlibrary f hf).1.orderly (hlibrary f hf).2⟩,
    hhosted.slotted, fun f hf => (hlibrary f hf).1.slotted⟩

/-- **Main theorem: calls return what their own activation answers.**  Every node of a dispatch
    that calls a function and returns, at whatever nesting, has called the function that its
    graph or else the library knows by the name; its result slot got what the last output of
    that activation answered with, sub-executions included but not the functions called in turn,
    and `null` if there was none; and its own return box, pending successor and depth are what
    they were.  A dispatch whose request has an empty return box returns what the last output
    of its own activation answered with, if there was one. -/
theorem calls_return (engine : Engine) (g : Graph) (r : DispatchRequest) (s : Store)
    (hhosted : Graph.Hosted g) (hnodes : g.All Network.OfLibrary)
    (hlibrary : ∀ f ∈ engine.library, Graph.Hosted f.2 ∧ f.2.All Network.OfLibrary) :
    let frame := frameOf engine g r s
    (∀ site, frame.Spawns site.frame → ∀ fuel name u v,
      (site.execute (Frame.runChain fuel) (.invokeFunction name)).Returns u () v →
      site.frame.engine = engine ∧
      (∃ value w callee entry vs, site.Calls name u value w callee entry vs ∧
        v = { w with
          store := site.output "result" 0 value w.store
          next := site.successor "next" 0 }) ∧
      ∀ breach depth, (Counted.call (Counted.runChain breach fuel) site name
        (site.inputs "args" u.store)).Restores depth) ∧
    ∀ fuel outcome t, (start fuel engine g r s).Ends (.ok outcome) t →
      r.effectivePayload.returned = none →
      ∃ entry vs u, r.entry.find? g.toNetwork = some entry ∧
        History (.chain frame entry) (opening g r entry s) vs u ∧
        outcome.trace = (sites vs).map Site.guid ∧ outcome.returned = lastOf Visit.answer? vs := by
  intro frame
  obtain ⟨horderly, hslotted⟩ := frameOf_orderly engine g r s hhosted hnodes hlibrary
  have hoflibrary : frame.All Network.OfLibrary := ⟨hnodes, fun f hf => (hlibrary f hf).2⟩
  refine ⟨fun site hspawns fuel name u v h => ⟨hspawns.engine, ?_, fun breach depth => ?_⟩, ?_⟩
  · exact site.calls_of_execute (hspawns.all horderly) (hspawns.all hslotted) fuel name u v h
  · exact (Counted.call_agrees (Counted.runChain_agrees fuel) rfl (hspawns.all hoflibrary) name
      _).restores
  · intro fuel outcome t h hempty
    obtain ⟨entry, u, hentry, hrun, rfl⟩ := ends_start_outcome fuel engine g r s outcome t h
    obtain ⟨vs, hvs, htrace⟩ := runChain_history fuel frame entry _ u horderly hrun
    refine ⟨entry, vs, u, hentry, hvs, ?_, ?_⟩
    · exact htrace.trans (List.nil_append _)
    · have hbox : (opening g r entry s).returned = none := hempty
      show u.returned = _
      rw [hvs.returned, hbox]
      simp [Part.answer?]

/-- A function that only answers. -/
def closing : GraphData where
  name := "closing"
  nodes := [
    { guid := "in", type := "Ceres.Functions.FunctionInput",
      serializedData := "\x7b\"functionName\": \"close\"\x7d",
      ports := [{ name := "next", connections := [⟨"out", "input", 0⟩] }] },
    { guid := "text", type := "Ceres.Values.Literal", genericArguments := ["string"],
      serializedData := "\x7b\"value\": \"other\"\x7d",
      ports := [{ name := "value", connections := [⟨"out", "value", 0⟩] }] },
    { guid := "out", type := "Ceres.Functions.FunctionOutput" }]

/-- A function that answers in a sub-execution, and then calls a function that answers too. -/
def relaying : GraphData where
  name := "relaying"
  nodes := [
    { guid := "in", type := "Ceres.Functions.FunctionInput",
      serializedData := "\x7b\"functionName\": \"relay\"\x7d",
      ports := [{ name := "next", connections := [⟨"each", "input", 0⟩] }] },
    { guid := "each", type := "Ceres.Flow.Sequence",
      ports := [{ name := "then", connections := [⟨"out", "input", 0⟩] },
        { name := "then", index := 1, connections := [⟨"call", "input", 0⟩] }] },
    { guid := "text", type := "Ceres.Values.Literal", genericArguments := ["string"],
      serializedData := "\x7b\"value\": \"own\"\x7d",
      ports := [{ name := "value", connections := [⟨"out", "value", 0⟩] }] },
    { guid := "out", type := "Ceres.Functions.FunctionOutput" },
    { guid := "call", type := "Ceres.Functions.InvokeFunction",
      serializedData := "\x7b\"functionName\": \"close\"\x7d" }]
  functions := [("close", closing)]

/-- A call whose result is the answer. -/
def asking : GraphData where
  name := "asking"
  nodes := [
    { guid := "go", type := "Ceres.Flow.ExecutionEvent",
      serializedData := "\x7b\"eventName\": \"go\"\x7d",
      ports := [{ name := "next", connections := [⟨"call", "input", 0⟩] }] },
    { guid := "call", type := "Ceres.Functions.InvokeFunction",
      serializedData := "\x7b\"functionName\": \"relay\"\x7d",
      ports := [{ name := "next", connections := [⟨"out", "input", 0⟩] },
        { name := "result", connections := [⟨"out", "value", 0⟩] }] },
    { guid := "out", type := "Ceres.Functions.FunctionOutput" }]
  functions := [("relay", relaying)]

/-- The graph as it is built. -/
def askingState : Graph.State :=
  Graph.run [.compile .standard] (Graph.hydrated Registry.builtin asking default)

/-- The answer of the function that is called in turn does not count. -/
theorem calls_return_asking :
    let g := askingState.1
    let s := askingState.2
    let r : DispatchRequest := { entry := .event "go" }
    let site : Site := ⟨frameOf {} g r s, ⟨1, 0⟩⟩
    let u := opening g r ⟨0, 0⟩ s
    (∃ v, (site.execute (Frame.runChain 10) (.invokeFunction "relay")).Returns u () v ∧
      ∃ value w callee entry vs, site.Calls "relay" u value w callee entry vs) ∧
    ∃ outcome t, (start 10 {} g r s).Ends (.ok outcome) t ∧ r.effectivePayload.returned = none ∧
      ∃ vs, lastOf Visit.answer? vs = some (.string "own") ∧
        outcome.trace = (sites vs).map Site.guid := by
  intro g s r site u
  obtain ⟨hhosted, hnodes⟩ := Graph.built_ofLibrary asking .standard default
  obtain ⟨hcalls, hends⟩ := calls_return {} g r s hhosted hnodes (List.forall_mem_nil _)
  constructor
  · have hresult : ((site.execute (Frame.runChain 10) (.invokeFunction "relay")) u).result?.bind
        Except.toOption = some () := by decide +kernel
    obtain ⟨result, hdone, hok⟩ := Option.bind_eq_some_iff.mp hresult
    cases result with
    | error e => cases hok
    | ok _ =>
      obtain ⟨v, hreturns⟩ := Process.ends_of_result? _ _ hdone
      obtain ⟨_, ⟨value, w, callee, entry, vs, hcall, _⟩, _⟩ :=
        hcalls site .self 10 "relay" u v hreturns
      exact ⟨v, hreturns, value, w, callee, entry, vs, hcall⟩
  · have hresult : ((start 10 {} g r s).result?.bind Except.toOption).map (·.returned)
        = some (some (.string "own")) := by decide +kernel
    obtain ⟨outcome, hbind, hreturned⟩ := Option.map_eq_some_iff.mp hresult
    obtain ⟨result, hdone, hok⟩ := Option.bind_eq_some_iff.mp hbind
    cases result with
    | error e => cases hok
    | ok o =>
      cases hok
      obtain ⟨t, hend⟩ := (start 10 {} g r s).ends_of_result? _ hdone
      obtain ⟨entry, vs, _, _, _, htrace, hlast⟩ := hends 10 outcome t hend rfl
      exact ⟨outcome, t, hend, rfl, vs, hlast.symm.trans hreturned, htrace⟩

end Dispatch
end FlowGraph
