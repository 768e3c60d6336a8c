import FlowGraph.Dispatch.Basic
import FlowGraph.Proofs.Node.Signature

/-! # Executing a node on demand

    A node that runs on demand only writes its outputs, with values that are a function of
    its inputs (`Site.results`).  So if it is invoked without an error, nothing else of the
    store has changed than these cells and the reported events (`invoke_ok`). -/

namespace FlowGraph

/-! ## Section 1: Steps that end -/

namespace Exec

/-- Steps in a row end where the last one ends. -/
theorem bind_eq_done {α β : Type} (x : Exec α) (f : α → Exec β) (s s' : DispatchState) (b : β)
    (h : (x >>= f) s = .done (.ok b) s') :
    ∃ a t, x s = .done (.ok a) t ∧ f a t = .done (.ok b) s' := by
  have hbind : (x s).bind f = .done (.ok b) s' := h
  cases hx : x s with
  | done result t =>
    rw [hx] at hbind
    cases result with
    | ok a => exact ⟨a, t, rfl, hbind⟩
    | error e => cases hbind
  | waiting key t resume =>
    rw [hx] at hbind
    cases hbind
  | exhausted t =>
    rw [hx] at hbind
    cases hbind

end Exec

/-! ## Section 2: The results of a node -/

/-- The number of a value; integers count as numbers. -/
def Value.number : Value → Float
  | .int n => n.toFloat
  | v => v.toFloat

namespace Site

/-- The object that the node acts on, given the value at its input. -/
def chosen (site : Site) (s : Store) : Value → Option ObjectRef
  | .object ref => if s.objects.isDestroyed ref then site.triggerFor "target" s else some ref
  | _ => site.triggerFor "target" s

/-- What a node that runs on demand computes from its inputs, by output. -/
def results (site : Site) (s : Store) (input : String → Value) : Behavior → List (String × Value)
  | .literal type raw => [("value", Behavior.literalValue type raw)]
  | .add => [("result", .float ((input "a").number + (input "b").number))]
  | .multiply => [("result", .float ((input "a").number * (input "b").number))]
  | .compare op => [("result", .bool (op.apply (input "a").number (input "b").number))]
  | .getVariable => [("value", site.variableValue "variable" s)]
  | .describeTarget =>
    match site.chosen s (input "target") with
    | some ref => [("kind", .string ref.kind), ("valid", .bool true), ("object", .object ref)]
    | none => [("kind", .string ""), ("valid", .bool false), ("object", .null)]
  | _ => []

/-- Results are for the outputs of the signature, one for each. -/
theorem results_outputs (site : Site) (s : Store) (input : String → Value) (b : Behavior)
    (signature : List (String × PortDirection)) (h : b.signature = some signature) :
    ((site.results s input b).map Prod.fst).Nodup ∧
      ∀ name, (name, .output) ∈ signature ↔ ∃ v, (name, v) ∈ site.results s input b := by
  cases b with
  | literal _ _ => cases h; simp [results]
  | add => cases h; simp [results]
  | multiply => cases h; simp [results]
  | compare _ => cases h; simp [results]
  | getVariable => cases h; simp [results]
  | describeTarget =>
    cases h
    obtain ⟨kind, valid, object, heq⟩ : ∃ kind valid object, site.results s input .describeTarget
        = [("kind", kind), ("valid", valid), ("object", object)] := by
      unfold results
      cases site.chosen s (input "target") with
      | none => exact ⟨_, _, _, rfl⟩
      | some ref => exact ⟨_, _, _, rfl⟩
    -- the order of the results is not that of the signature
    rw [heq]
    refine ⟨by simp, fun name => ?_⟩
    simp only [List.mem_cons, Prod.mk.injEq, List.not_mem_nil, or_false, reduceCtorEq, and_false,
      false_or, and_true, exists_or, exists_and_left, exists_eq]
    tauto
  | _ => cases h

/-- Results depend on the inputs of the signature, on variables and on objects. -/
theorem results_congr (site : Site) (s t : Store) (input input' : String → Value) (b : Behavior)
    (signature : List (String × PortDirection)) (h : b.signature = some signature)
    (hvars : t.vars = s.vars) (hobjects : t.objects = s.objects)
    (hinput : ∀ name, (name, .input) ∈ signature → input' name = input name) :
    site.results t input' b = site.results s input b := by
  cases b with
  | literal _ _ => rfl
  | add =>
    cases h
    simp [results, hinput]
  | multiply =>
    cases h
    simp [results, hinput]
  | compare _ =>
    cases h
    simp [results, hinput]
  | getVariable => simp [results, variableValue, hvars]
  | describeTarget =>
    cases h
    have htarget : input' "target" = input "target" := hinput "target" (by simp)
    simp [results, chosen, triggerFor, htarget, hobjects]
  | _ => cases h

/-- Write values to outputs, in order. -/
def outputs (site : Site) (values : List (String × Value)) (s : Store) : Store :=
  values.foldl (fun s r => site.output r.1 0 r.2 s) s

/-- The values of the inputs. -/
def current (site : Site) (s : Store) (name : String) : Value := site.input name 0 s

/-- The store after the node wrote its results. -/
def written (site : Site) (b : Behavior) (s : Store) : Store :=
  site.outputs (site.results s (site.current s) b) s

theorem target_eq (site : Site) (s : Store) :
    site.target "target" s = site.chosen s (site.current s "target") := rfl

theorem describeTarget_eq (site : Site) (st : DispatchState) :
    site.describeTarget st = .done (.ok ())
      { st with store := site.written .describeTarget st.store } := by
  -- the target is chosen before anything is written
  have hbranch : site.describeTarget st =
      (match site.target "target" st.store with
        | some ref => do
          site.write "kind" (.string ref.kind)
          site.write "valid" (.bool true)
          site.write "object" (.object ref)
        | none => do
          site.write "kind" (.string "")
          site.write "valid" (.bool false)
          site.write "object" .null : Exec Unit) st := rfl
  rw [hbranch]
  unfold written results
  rw [← target_eq]
  cases site.target "target" st.store with
  | none => rfl
  | some ref => rfl

/-- A node that runs on demand writes its results. -/
theorem execute_onDemand (chain : Chain) (site : Site) (b : Behavior) (st : DispatchState)
    (signature : List (String × PortDirection)) (hb : b.signature = some signature) :
    site.execute chain b st = .done (.ok ()) { st with store := site.written b st.store } := by
  cases b with
  | literal type raw => rfl
  | add => rfl
  | multiply => rfl
  | compare op => rfl
  | getVariable => rfl
  | describeTarget => exact site.describeTarget_eq st
  | _ => cases hb

end Site

/-! ## Section 3: Invoking it -/

namespace Frame

/-- An announcement only reports an event, if it does anything. -/
theorem announce_eq (frame : Frame) (event : GraphEvent) (st : DispatchState) :
    ∃ events, frame.announce event st
      = .done (.ok ()) { st with store := { st.store with events := events } } := by
  unfold announce
  split
  · exact ⟨st.store.events.push event, rfl⟩
  · exact ⟨st.store.events, rfl⟩

/-- Counting a node only fails past the limit. -/
theorem count_cases (frame : Frame) (st : DispatchState) :
    frame.count st = .done (.ok ()) { st with steps := st.steps + 1 } ∨
      ∃ limit, frame.engine.config.maxChainSteps = some limit ∧ limit < st.steps + 1 ∧
        frame.count st
          = .done (.error (.stepLimitExceeded limit)) { st with steps := st.steps + 1 } := by
  cases hconfig : frame.engine.config.maxChainSteps with
  | none =>
    left
    unfold count
    rw [hconfig]
    rfl
  | some limit =>
    have hcount : frame.count st = (if limit < st.steps + 1 then
        Exec.fail (.stepLimitExceeded limit) else pure () : Exec Unit)
          { st with steps := st.steps + 1 } := by
      unfold count
      rw [hconfig]
      rfl
    rw [hcount]
    by_cases hlimit : limit < st.steps + 1
    · exact .inr ⟨limit, rfl, hlimit, by rw [if_pos hlimit]; rfl⟩
    · exact .inl (by rw [if_neg hlimit]; rfl)

/-- What a node that runs on demand does: unless that is one step too many it writes its
    results, and reports events. -/
theorem invoke_onDemand (frame : Frame) (chain : Chain) (h : NodeHandle) (st : DispatchState)
    (x : GraphNode) (hx : frame.graph.node? h = some x)
    (signature : List (String × PortDirection)) (hsignature : x.behavior.signature = some signature) :
    (∃ started ended, frame.invoke chain h st = .done (.ok ()) { st with
        steps := st.steps + 1
        trace := st.trace.push x.guid
        store := { (Site.mk frame h).written x.behavior { st.store with events := started } with
          events := ended } }) ∨
      ∃ limit st', frame.engine.config.maxChainSteps = some limit ∧ limit < st.steps + 1 ∧
        frame.invoke chain h st = .done (.error (.stepLimitExceeded limit)) st' := by
  -- a node that is there is not looked up again
  have hinvoke : frame.invoke chain h st = (do
      frame.count
      Exec.modify fun s => { s with trace := s.trace.push x.guid }
      frame.announce (.nodeStarted frame.dispatchId x.guid x.type)
      let result ← ((Site.mk frame h).execute chain x.behavior).attempt
      frame.conclude x.guid result : Exec Unit) st := by
    unfold invoke
    rw [hx]
  rcases frame.count_cases st with hcount | ⟨limit, hconfig, hlimit, hcount⟩
  · obtain ⟨started, hstarted⟩ := frame.announce_eq (.nodeStarted frame.dispatchId x.guid x.type)
      { st with steps := st.steps + 1, trace := st.trace.push x.guid }
    have hexecute := fun u => (Site.mk frame h).execute_onDemand chain x.behavior u signature hsignature
    obtain ⟨ended, hended⟩ := frame.announce_eq (.nodeCompleted frame.dispatchId x.guid)
      { st with
        steps := st.steps + 1
        trace := st.trace.push x.guid
        store := (Site.mk frame h).written x.behavior { st.store with events := started } }
    have hrun := hinvoke
    simp only [bind, hcount, Process.bind, Exec.modify, hstarted, Exec.attempt, hexecute,
      Process.attempt, conclude] at hrun
    exact .inl ⟨started, ended, hrun.trans hended⟩
  · have hrun := hinvoke
    simp only [bind, hcount, Process.bind] at hrun
    exact .inr ⟨limit, _, hconfig, hlimit, hrun⟩

/-- Nodes on demand run one after the other to the end, unless there are too many. -/
theorem forEach_onDemand (frame : Frame) (chain : Chain) (path : List NodeHandle)
    (st : DispatchState)
    (hpath : ∀ m ∈ path, ∃ x signature, frame.graph.node? m = some x ∧
      x.behavior.signature = some signature) :
    (∃ st', Exec.forEach path (frame.invoke chain) st = .done (.ok ()) st' ∧
      st'.steps = st.steps + path.length) ∨
      ∃ limit st', frame.engine.config.maxChainSteps = some limit ∧
        limit < st.steps + path.length ∧
        Exec.forEach path (frame.invoke chain) st
          = .done (.error (.stepLimitExceeded limit)) st' := by
  induction path generalizing st with
  | nil => exact .inl ⟨st, rfl, rfl⟩
  | cons m rest ih =>
    obtain ⟨x, signature, hx, hsignature⟩ := hpath m List.mem_cons_self
    have hcons : Exec.forEach (m :: rest) (frame.invoke chain) st
        = (frame.invoke chain m st).bind fun _ => Exec.forEach rest (frame.invoke chain) := rfl
    rw [hcons]
    rcases frame.invoke_onDemand chain m st x hx signature hsignature with
      ⟨_, _, hok⟩ | ⟨limit, u, hconfig, hlimit, herror⟩
    · rw [hok]
      rcases ih _ fun k hk => hpath k (List.mem_cons_of_mem m hk) with
        ⟨st', hrest, hcount⟩ | ⟨limit, st', hconfig, hlimit, hrest⟩
      · refine .inl ⟨st', hrest, hcount.trans ?_⟩
        rw [List.length_cons]
        dsimp only
        omega
      · refine .inr ⟨limit, st', hconfig, ?_, hrest⟩
        rw [List.length_cons]
        dsimp only at hlimit
        omega
    · rw [herror]
      refine .inr ⟨limit, u, hconfig, ?_, rfl⟩
      rw [List.length_cons]
      omega

end Frame
end FlowGraph
