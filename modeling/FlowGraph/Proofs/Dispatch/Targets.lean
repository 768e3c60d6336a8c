import FlowGraph.Proofs.Dispatch.Slots
import FlowGraph.Proofs.Graph.FirstValues

/-! # What a node acts on

    A node with a target acts on the living object at its input, and if the input is unset, on
    the object that triggered the dispatch, where the port takes its kind (`Site.ownTarget`).
    Unset is what is null and what refers to a destroyed object.

    The trigger also stands in for values that are neither, such as numbers
    (`Site.Displaced`), and then the node acts on an object that its input does not ask for.
    That is the only difference (`Site.target_eq_ownTarget_iff`).

    `describeTarget_tells` says for every live graph what the description of a target tells
    after it was run: which object that is, its kind, and whether there is one. -/

namespace FlowGraph

/-! ## Section 1: Targets -/

/-- The living object that a value refers to. -/
def Value.living (objects : HostObjects) : Value → Option ObjectRef
  | .object ref => if objects.isDestroyed ref then none else some ref
  | _ => none

theorem Value.living_eq_some_iff (objects : HostObjects) (v : Value) (ref : ObjectRef) :
    v.living objects = some ref ↔ v = .object ref ∧ objects.isDestroyed ref = false := by
  cases v with
  | object other =>
    cases hdestroyed : objects.isDestroyed other with
    | true =>
      simp only [Value.living, hdestroyed, if_true, Value.object.injEq, reduceCtorEq, false_iff]
      rintro ⟨rfl, halive⟩
      rw [hdestroyed] at halive
      cases halive
    | false =>
      simp only [Value.living, hdestroyed, Bool.false_eq_true, if_false, Option.some.injEq,
        Value.object.injEq]
      refine ⟨?_, And.left⟩
      rintro rfl
      exact ⟨rfl, hdestroyed⟩
  | _ => simp [Value.living]

namespace Site

/-- The living object at the input, or if the input is unset, the trigger, if it lives and the
    port takes its kind. -/
def ownTarget (site : Site) (s : Store) : Option ObjectRef :=
  let v := site.input "target" 0 s
  (v.living s.objects).or (if v.isUnset s.objects then site.triggerFor "target" s else none)

/-- There is a value at the input that is neither null nor an object, and a trigger that stands
    in for it. -/
def Displaced (site : Site) (s : Store) : Prop :=
  let v := site.input "target" 0 s
  v.isUnset s.objects = false ∧ v.living s.objects = none ∧
    (site.triggerFor "target" s).isSome = true

/-- The trigger stands in for everything but a living object. -/
theorem target_eq_or (site : Site) (s : Store) : site.target "target" s
    = ((site.input "target" 0 s).living s.objects).or (site.triggerFor "target" s) := by
  unfold target
  cases site.input "target" 0 s with
  | object ref =>
    cases hdestroyed : s.objects.isDestroyed ref <;> simp [Value.living, hdestroyed]
  | _ => rfl

/-- The target is as it ought to be, unless the trigger stands in for another value. -/
theorem target_eq_ownTarget_iff (site : Site) (s : Store) :
    site.target "target" s = site.ownTarget s ↔ ¬ site.Displaced s := by
  simp only [target_eq_or, ownTarget, Displaced]
  cases hliving : (site.input "target" 0 s).living s.objects with
  | some ref => simp
  | none =>
    cases hunset : (site.input "target" 0 s).isUnset s.objects with
    | true => simp
    | false => simp

/-- What is acted on is alive. -/
theorem isDestroyed_of_target (site : Site) (s : Store) (ref : ObjectRef)
    (h : site.target "target" s = some ref) : s.objects.isDestroyed ref = false := by
  rw [target_eq_or] at h
  rcases Option.or_eq_some_iff.mp h with hliving | ⟨_, htrigger⟩
  · exact ((Value.living_eq_some_iff _ _ _).mp hliving).2
  · have hkept := (Option.filter_eq_some_iff.mp htrigger).2
    simpa using (Bool.and_eq_true_iff.mp hkept).1

/-! ## Section 2: What is told -/

/-- The node has a slot of that name, and its cell holds the value. -/
def Holds (site : Site) (name : String) (v : Value) (s : Store) : Prop :=
  ∃ a, site.address? name 0 = some a ∧ s.cell site.frame.graph.id a = v

/-- A target as a value. -/
def targetValue : Option ObjectRef → Value
  | some ref => .object ref
  | none => .null

/-- The outputs of the node describe a target, or tell that there is none. -/
structure Tells (site : Site) (target : Option ObjectRef) (s : Store) : Prop where
  object : site.Holds "object" (targetValue target) s
  kind : site.Holds "kind" (.string ((target.map (·.kind)).getD "")) s
  valid : site.Holds "valid" (.bool target.isSome) s

variable {site : Site} {s : Store} {name : String} {v w : Value} {target other : Option ObjectRef}

theorem Holds.unique (h : site.Holds name v s) (h' : site.Holds name w s) : v = w := by
  obtain ⟨a, ha, rfl⟩ := h
  obtain ⟨b, hb, rfl⟩ := h'
  rw [ha, Option.some.injEq] at hb
  rw [hb]

theorem targetValue_injective : Function.Injective targetValue := by
  intro target other h
  cases target <;> cases other <;> simp_all [targetValue]

/-- The outputs tell of one target only. -/
theorem Tells.unique (h : site.Tells target s) (h' : site.Tells other s) : target = other :=
  targetValue_injective (h.object.unique h'.object)

/-- Only cells matter for what is told. -/
theorem Tells.of_graphs {t : Store} (h : site.Tells target s) (ht : t.graphs = s.graphs) :
    site.Tells target t := by
  have hholds : ∀ {name v}, site.Holds name v s → site.Holds name v t := by
    rintro name v ⟨a, ha, hcell⟩
    refine ⟨a, ha, ?_⟩
    rw [← hcell, Store.cell, ht]
    rfl
  exact ⟨hholds h.object, hholds h.kind, hholds h.valid⟩

/-- What is told to be valid is a living object, if the target is alive. -/
theorem Tells.valid_iff (h : site.Tells target s)
    (halive : ∀ ref, target = some ref → s.objects.isDestroyed ref = false) :
    site.Holds "valid" (.bool true) s ↔
      ∃ ref, site.Holds "object" (.object ref) s ∧ s.objects.isDestroyed ref = false := by
  constructor
  · intro hvalid
    have hsome := h.valid.unique hvalid
    rw [Value.bool.injEq] at hsome
    obtain ⟨ref, rfl⟩ := Option.isSome_iff_exists.mp hsome
    exact ⟨ref, h.object, halive ref rfl⟩
  · rintro ⟨ref, hobject, _⟩
    have hsame : targetValue target = targetValue (some ref) := h.object.unique hobject
    rw [targetValue_injective hsame] at h
    exact h.valid

/-! ## Section 3: Running the node -/

/-- A node of a live graph that declares the ports of its behavior has their slots. -/
theorem exists_hasSignature {g : Graph} (hg : g.Live s) (h : NodeHandle) (x : GraphNode)
    (hx : g.node? h = some x) (hdeclares : x.descriptor.Declares x.behavior) :
    ∃ signature, x.HasSignature signature := by
  obtain ⟨signature, hsignature, hports⟩ := hdeclares
  obtain ⟨records, hrecords⟩ := (hg.celled.1.2 h x hx).slotted
  refine ⟨signature, hsignature, ?_⟩
  have houtline := GraphNode.outline_portsOf records x.descriptor.ports signature hports
  rw [← hrecords, List.map_map] at houtline
  exact houtline

/-- A description of the target was written. -/
theorem tells_written (hg : site.frame.graph.Live s) (x : GraphNode) (hx : site.node? = some x)
    (hbehavior : x.behavior = .describeTarget) (hdeclares : x.descriptor.Declares x.behavior) :
    site.Tells (site.target "target" s) (site.written .describeTarget s) := by
  obtain ⟨signature, hsignature⟩ := exists_hasSignature hg site.node x hx hdeclares
  have hlisted : signature
      = [("target", .input), ("object", .output), ("kind", .output), ("valid", .output)] := by
    have hsame := hsignature.behavior
    rw [hbehavior] at hsame
    exact (Option.some.inj hsame).symm
  have hrow := hg.celled.2.held site.node x hx
  have hresults : ∀ name, (name, PortDirection.output) ∈ signature → ∃ v,
      (name, v) ∈ site.results s (site.current s) .describeTarget ∧
        site.Holds name v (site.written .describeTarget s) := by
    intro name hname
    obtain ⟨i, q, hq, rfl, hdirection⟩ := hsignature.exists_slot name .output hname
    have hcell := site.cell_written s x hx signature hsignature hrow i q hq hdirection
    rw [hbehavior] at hcell
    have hindex := hsignature.portIndex_of_slot i q hq
    exact ⟨_, hcell, ⟨site.node, i⟩, site.address?_of_portIndex x hx q.name i hindex, rfl⟩
  rw [hlisted] at hresults
  obtain ⟨object, hobject, hobject'⟩ := hresults "object" (by decide)
  obtain ⟨kind, hkind, hkind'⟩ := hresults "kind" (by decide)
  obtain ⟨valid, hvalid, hvalid'⟩ := hresults "valid" (by decide)
  have htarget : site.results s (site.current s) .describeTarget
      = [("kind", .string (((site.target "target" s).map (·.kind)).getD "")),
        ("valid", .bool (site.target "target" s).isSome),
        ("object", targetValue (site.target "target" s))] := by
    unfold results
    rw [target_eq]
    cases site.chosen s (site.current s "target") <;> rfl
  rw [htarget] at hobject hkind hvalid
  obtain rfl : object = _ := by simpa using hobject
  obtain rfl : kind = _ := by simpa using hkind
  obtain rfl : valid = _ := by simpa using hvalid
  exact ⟨hobject', hkind', hvalid'⟩

end Site

/-- Running a node that describes its target ends, unless that is one step too many. -/
theorem Frame.invoke_describeTarget (frame : Frame) (st : DispatchState)
    (hg : frame.graph.Live st.store) (h : NodeHandle) (x : GraphNode)
    (hx : frame.graph.node? h = some x) (hbehavior : x.behavior = .describeTarget)
    (hdeclares : x.descriptor.Declares x.behavior) (chain : Chain) :
    let site := Site.mk frame h
    (∃ st', frame.invoke chain h st = .done (.ok ()) st' ∧
      st'.store.objects = st.store.objects ∧
      site.Tells (site.target "target" st.store) st'.store) ∨
    ∃ limit st', frame.engine.config.maxChainSteps = some limit ∧ limit < st.steps + 1 ∧
      frame.invoke chain h st = .done (.error (.stepLimitExceeded limit)) st' := by
  intro site
  obtain ⟨signature, hsignature⟩ := Site.exists_hasSignature hg h x hx hdeclares
  refine (frame.invoke_onDemand chain h st x hx signature hsignature.behavior).imp_left ?_
  rintro ⟨started, ended, hrun⟩
  rw [hbehavior] at hrun
  obtain ⟨before, hbefore⟩ : ∃ before : Store, before = { st.store with events := started } := ⟨_, rfl⟩
  have hlive : frame.graph.Live before := by
    refine .elsewhere (.of_graphs _ ?_) hg
    rw [hbefore]
  -- the target is the same with other events
  have hsame : site.target "target" before = site.target "target" st.store := by rw [hbefore]; rfl
  have hobjects : (site.written .describeTarget before).objects = st.store.objects := by
    refine (site.outputs_frame _ before).1.trans ?_
    rw [hbefore]
  have htold : site.Tells (site.target "target" before) (site.written .describeTarget before) :=
    Site.tells_written hlive x hx hbehavior hdeclares
  rw [← hbefore] at hrun
  rw [hsame] at htold
  exact ⟨_, hrun, hobjects, htold.of_graphs rfl⟩

/-- **Main theorem: implicit targets.**  Whatever a live graph is, and whatever its cells, the
    objects and the trigger are when a node is run that describes its target and declares the
    ports for that: unless that is one step too many, it ends, and tells of the object that it acts on, of its kind, and whether
    there is one, which is so just if it tells of a living object.  What it acts on is the
    living object at its input, or the trigger if the input is unset, unless there is another
    value at the input and the trigger stands in for that. -/
theorem describeTarget_tells (frame : Frame) (st : DispatchState) (hg : frame.graph.Live st.store)
    (h : NodeHandle) (x : GraphNode) (hx : frame.graph.node? h = some x)
    (hbehavior : x.behavior = .describeTarget) (hdeclares : x.descriptor.Declares x.behavior)
    (chain : Chain) :
    let site := Site.mk frame h
    (∃ st', frame.invoke chain h st = .done (.ok ()) st' ∧
      site.Tells (site.target "target" st.store) st'.store ∧
      (site.Holds "valid" (.bool true) st'.store ↔ ∃ ref,
        site.Holds "object" (.object ref) st'.store ∧
          st'.store.objects.isDestroyed ref = false) ∧
      (site.Tells (site.ownTarget st.store) st'.store ↔ ¬ site.Displaced st.store)) ∨
    ∃ limit st', frame.engine.config.maxChainSteps = some limit ∧ limit < st.steps + 1 ∧
      frame.invoke chain h st = .done (.error (.stepLimitExceeded limit)) st' := by
  intro site
  refine (frame.invoke_describeTarget st hg h x hx hbehavior hdeclares chain).imp_left ?_
  rintro ⟨st', hrun, hobjects, htold⟩
  refine ⟨st', hrun, htold, htold.valid_iff fun ref href => ?_, ?_⟩
  · rw [hobjects]
    exact site.isDestroyed_of_target st.store ref href
  · rw [← site.target_eq_ownTarget_iff]
    exact ⟨fun hown => htold.unique hown, fun hsame => hsame ▸ htold⟩

/-- A node that describes its target. -/
def describing : GraphData where
  name := "describing"
  nodes := [{ guid := "self", type := "Ceres.Objects.DescribeTarget" }]

/-- It is given a value where one of two units is destroyed, and compiled. -/
def described (v : Value) : Graph.State :=
  Graph.run [.setConstant ⟨"self", "target", 0⟩ v, .compile .standard]
    (Graph.hydrated Registry.builtin describing
      { objects := [⟨"hero", "unit", false⟩, ⟨"king", "unit", true⟩] })

theorem live_described (v : Value) : (described v).1.Live (described v).2 :=
  Graph.Live.run _ (.hydrated Registry.builtin describing _) (by simp)

/-- The other unit triggers a dispatch. -/
def kingFrame (v : Value) : Frame := ⟨{}, "", (described v).1, some ⟨"unit", 1⟩, ⟨"", []⟩, 0⟩

/-- A node that describes its target and declares the ports for that, from what is computed
    of it. -/
theorem exists_describing {g : Graph} {h : NodeHandle}
    (hnode : (g.node? h).map (fun x => (x.behavior, x.descriptor.ports.map PortDescriptor.outline))
      = some (.describeTarget, [("target", .input, false), ("object", .output, false),
          ("kind", .output, false), ("valid", .output, false)])) :
    ∃ x, g.node? h = some x ∧ x.behavior = .describeTarget ∧ x.descriptor.Declares x.behavior := by
  obtain ⟨x, hx, heq⟩ := Option.map_eq_some_iff.mp hnode
  obtain ⟨hbehavior, hports⟩ := Prod.mk.inj heq
  refine ⟨x, hx, hbehavior, ?_⟩
  rw [hbehavior]
  exact ⟨_, rfl, hports⟩

/-- The trigger takes the place of the destroyed unit. -/
theorem describeTarget_tells_king :
    let v : Value := .object ⟨"unit", 0⟩
    let site := Site.mk (kingFrame v) ⟨0, 0⟩
    (described v).1.isRunnable (described v).2 = true ∧
      site.input "target" 0 (described v).2 = v ∧ v.isUnset (described v).2.objects = true ∧
      ∃ st', (kingFrame v).invoke (Frame.runChain 0) ⟨0, 0⟩ { store := (described v).2 }
          = .done (.ok ()) st' ∧ site.Tells (some ⟨"unit", 1⟩) st'.store := by
  intro v site
  obtain ⟨x, hx, hbehavior, hdeclares⟩ := exists_describing (g := (kingFrame v).graph)
    (h := ⟨0, 0⟩) (by decide +kernel)
  have hown : site.ownTarget (described v).2 = some ⟨"unit", 1⟩ := by decide +kernel
  have hunset : v.isUnset (described v).2.objects = true := by decide +kernel
  have hinput : site.input "target" 0 (described v).2 = v := by decide +kernel
  refine ⟨by decide +kernel, hinput, hunset, ?_⟩
  rcases describeTarget_tells (kingFrame v) { store := (described v).2 } (live_described v) ⟨0, 0⟩ x
    hx hbehavior hdeclares (Frame.runChain 0) with ⟨st', hrun, _, _, htold⟩ | ⟨_, _, hlimit, _⟩
  · refine ⟨st', hrun, ?_⟩
    rw [← hown]
    refine htold.mpr fun hdisplaced => ?_
    have hset := hdisplaced.1
    rw [hinput, hunset] at hset
    cases hset
  · cases hlimit

/-- A number is no object, and not unset either, but the trigger takes its place. -/
theorem describeTarget_displaced :
    let site := Site.mk (kingFrame (.int 5)) ⟨0, 0⟩
    let s := (described (.int 5)).2
    (described (.int 5)).1.isRunnable s = true ∧ site.input "target" 0 s = .int 5 ∧
      site.ownTarget s = none ∧
      ∃ st', (kingFrame (.int 5)).invoke (Frame.runChain 0) ⟨0, 0⟩ { store := s }
          = .done (.ok ()) st' ∧ site.Tells (some ⟨"unit", 1⟩) st'.store ∧
        ¬ site.Tells (site.ownTarget s) st'.store := by
  intro site s
  obtain ⟨x, hx, hbehavior, hdeclares⟩ := exists_describing (g := (kingFrame (.int 5)).graph)
    (h := ⟨0, 0⟩) (by decide +kernel)
  have hown : site.ownTarget s = none := by decide +kernel
  refine ⟨by decide +kernel, by decide +kernel, hown, ?_⟩
  rcases (kingFrame (.int 5)).invoke_describeTarget { store := s } (live_described _) ⟨0, 0⟩ x hx
    hbehavior hdeclares (Frame.runChain 0) with ⟨st', hrun, _, htold⟩ | ⟨_, _, hlimit, _⟩
  · have htarget : site.target "target" s = some ⟨"unit", 1⟩ := by decide +kernel
    rw [htarget] at htold
    refine ⟨st', hrun, htold, fun hnone => ?_⟩
    rw [hown] at hnone
    cases htold.unique hnone
  · cases hlimit

end FlowGraph
