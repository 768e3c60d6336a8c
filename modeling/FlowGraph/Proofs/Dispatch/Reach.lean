import FlowGraph.Dispatch.Basic
import FlowGraph.Proofs.Graph.Hosting

/-! # Frames that a node reaches

    An executing node runs chains in the frame of a sub-execution or in that of a call
    (`Site.Reaches`).  The dispatch and the engine stay the same there, and what holds of the
    graph, of the local functions at all depths and of the library (`Frame.All`) holds again
    (`Site.Reaches.all`). -/

namespace FlowGraph

variable {P : Network → Prop}

/-- A property of the graph and of all functions that can be called. -/
structure Frame.All (P : Network → Prop) (frame : Frame) : Prop where
  graph : frame.graph.All P
  library : ∀ f ∈ frame.engine.library, f.2.All P

namespace Site

/-- What can be called is a function of the name. -/
theorem function?_of_callee (site : Site) (name : String) (s : Store) (g : Graph)
    (entry : NodeHandle) (h : site.callee name s = .ok (g, entry)) :
    site.function? name = some g := by
  unfold callee at h
  split at h
  · cases h
  · rename_i f hf
    split at h
    · cases h
    · split at h
      · cases h
      · split at h
        · cases h
        · cases h
          exact hf

end Site

theorem Frame.All.function? {site : Site} (hsite : site.frame.All P) (name : String) (g : Graph)
    (h : site.function? name = some g) : g.All P := by
  unfold Site.function? at h
  cases hlocal : site.frame.graph.function? name with
  | some f =>
    rw [hlocal] at h
    cases h
    exact hsite.graph.function? name g hlocal
  | none =>
    rw [hlocal, Option.none_or] at h
    unfold Engine.function? at h
    obtain ⟨e, he, rfl⟩ := Option.map_eq_some_iff.mp h
    exact hsite.library e (List.mem_of_find?_eq_some he)

theorem Frame.All.inner {site : Site} (hsite : site.frame.All P) : site.inner.All P :=
  ⟨hsite.graph, hsite.library⟩

theorem Frame.All.callFrame {site : Site} (hsite : site.frame.All P) (name : String) (s : Store)
    (g : Graph) (entry : NodeHandle) (call : EventCall)
    (h : site.callee name s = .ok (g, entry)) : (site.callFrame g call).All P :=
  ⟨hsite.function? name g (site.function?_of_callee name s g entry h), hsite.library⟩

/-! ## Reaching -/

namespace Site

/-- The frames in which an executing node runs chains. -/
inductive Reaches (site : Site) : Frame → Prop where
  | inner : site.Reaches site.inner
  | call (name : String) (s : Store) (g : Graph) (entry : NodeHandle) (call : EventCall)
      (hcallee : site.callee name s = .ok (g, entry)) : site.Reaches (site.callFrame g call)

variable {site : Site} {frame : Frame}

theorem Reaches.all (h : site.Reaches frame) (hsite : site.frame.All P) : frame.All P := by
  cases h with
  | inner => exact hsite.inner
  | call name s g entry call hcallee => exact hsite.callFrame name s g entry call hcallee

theorem Reaches.engine (h : site.Reaches frame) : frame.engine = site.frame.engine := by
  cases h with
  | inner => rfl
  | call name s g entry call hcallee => rfl

theorem Reaches.dispatchId (h : site.Reaches frame) : frame.dispatchId = site.frame.dispatchId := by
  cases h with
  | inner => rfl
  | call name s g entry call hcallee => rfl

end Site

/-- The frame in which a dispatch runs. -/
def Dispatch.frameOf (engine : Engine) (g : Graph) (r : DispatchRequest) (s : Store) : Frame :=
  ⟨engine, s.freshDispatch.1, g, r.trigger, r.effectivePayload.toEventCall, 0⟩

end FlowGraph
