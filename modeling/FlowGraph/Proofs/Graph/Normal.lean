import FlowGraph.Proofs.Graph.Saving

/-! # Saving is a normal form

    A graph that is hydrated and saved has the nodes and connections that it had, and may be
    written otherwise: redirected types are named anew, fields and values are written as
    their types have them, and slots are recorded that only connections asked for
    (`GraphData.SavedAs`).  Then nothing is left to do: such a graph is settled
    (`GraphData.Settled`), and a settled graph is saved as it is (`resaved_of_settled`).

    All of this is said of one level, and holds of the functions at every depth
    (`GraphData.Corresponds`). -/

namespace FlowGraph

/-! ## Section 1: Two saved graphs, level by level -/

/-- A relation of saved graphs holds of two graphs, of their functions and so on. -/
inductive GraphData.Corresponds (R : GraphData → GraphData → Prop) : GraphData → GraphData → Prop where
  | intro (data saved : GraphData) (network : R data saved)
      (names : saved.functions.map Prod.fst = data.functions.map Prod.fst)
      (functions : ∀ (i : Nat) e f, data.functions[i]? = some e → saved.functions[i]? = some f →
        Corresponds R e.2 f.2) : Corresponds R data saved

namespace GraphData

theorem corresponds_iff {R : GraphData → GraphData → Prop} (data saved : GraphData) :
    data.Corresponds R saved ↔ R data saved ∧
      List.Forall₂ (fun e f => f.1 = e.1 ∧ e.2.Corresponds R f.2) data.functions
        saved.functions := by
  have hnamed := forall₂_named_iff (Corresponds R) data.functions saved.functions
  refine Iff.trans ?_ (and_congr_right fun _ => hnamed.symm)
  constructor
  · rintro ⟨_, _, hnetwork, hnames, hfunctions⟩
    exact ⟨hnetwork, hnames, hfunctions⟩
  · rintro ⟨hnetwork, hnames, hfunctions⟩
    exact .intro data saved hnetwork hnames hfunctions

/-- What follows from the relation, where the first graph has a property, follows at all
    levels. -/
theorem Corresponds.mono {P : GraphData → Prop} {R S : GraphData → GraphData → Prop}
    {data saved : GraphData} (h : data.Corresponds R saved) (hP : data.All P)
    (hRS : ∀ d e, P d → R d e → S d e) : data.Corresponds S saved := by
  induction h with
  | intro data saved network names _ ih =>
    obtain ⟨_, hdata, hlocals⟩ := hP
    exact .intro data saved (hRS data saved hdata network) names fun i e f he hf =>
      ih i e f he hf (hlocals e (List.mem_of_getElem? he))

/-- So does what follows for the second graph. -/
theorem Corresponds.all {P Q : GraphData → Prop} {R : GraphData → GraphData → Prop}
    {data saved : GraphData} (h : data.Corresponds R saved) (hP : data.All P)
    (hQ : ∀ d e, P d → R d e → Q e) : saved.All Q := by
  induction h with
  | intro data saved network names _ ih =>
    obtain ⟨_, hdata, hlocals⟩ := hP
    refine .intro saved (hQ data saved hdata network) fun f hf => ?_
    obtain ⟨i, hi⟩ := List.mem_iff_getElem?.mp hf
    obtain ⟨e, he⟩ := exists_getElem?_of_names names i f hi
    exact ih i e f he hi (hlocals e (List.mem_of_getElem? he))

/-- Graphs that are equal but for their functions, level by level, are equal. -/
theorem Corresponds.eq {data saved : GraphData}
    (h : data.Corresponds (fun d e => e = { d with functions := e.functions }) saved) :
    saved = data := by
  induction h with
  | intro data saved network names _ ih =>
    have hfunctions : saved.functions = data.functions := by
      have hnamed := (forall₂_named_iff Eq data.functions saved.functions).mpr
        ⟨names, fun i e f he hf => (ih i e f he hf).symm⟩
      rw [eq_comm, ← List.forall₂_eq_eq_eq]
      exact hnamed.imp fun e f hef => Prod.ext hef.1.symm hef.2
    obtain ⟨name, nodes, vars, groups, functions⟩ := data
    exact network.trans (congrArg _ hfunctions)

end GraphData

/-! ## Section 2: Saved forms -/

namespace Graph

theorem toData_eq (vs : Variables) (g : Graph) : g.toData vs =
    { name := g.name
      nodes := g.placed.map fun e => e.2.toData vs
      vars := g.blackboard.map vs.toData
      nodeGroups := g.groups
      functions := functionsToData vs g.functions } := by
  cases g
  rfl

theorem functionsToData_eq (vs : Variables) (functions : List (String × Graph)) :
    functionsToData vs functions = functions.map fun f => (f.1, f.2.toData vs) := by
  induction functions with
  | nil => rfl
  | cons f rest ih => exact congrArg _ ih

/-- Functions are hydrated and saved one by one. -/
theorem functionsToData_forall₂ (registry : Registry) (functions : List (String × GraphData))
    (s : Store) (vs : Variables) (hvs : (functionsOfData registry functions s).2.vars.Extends vs)
    (P : GraphData → GraphData → Prop)
    (h : ∀ f ∈ functions, ∀ t : Store, (ofData registry f.2 t).2.vars.Extends vs →
      P f.2 ((ofData registry f.2 t).1.toData vs)) :
    List.Forall₂ (fun e f => f.1 = e.1 ∧ P e.2 f.2) functions
      (functionsToData vs (functionsOfData registry functions s).1) := by
  induction functions generalizing s with
  | nil => exact .nil
  | cons first rest ih =>
    have hrest := functionsOfData_extends registry rest (ofData registry first.2 s).2
    refine .cons ⟨rfl, h first List.mem_cons_self s (hrest.trans hvs)⟩
      (ih _ hvs fun f hf t ht => ?_)
    exact h f (List.mem_cons_of_mem first hf) t ht

end Graph

namespace GraphData

/-- All nodes have guids of their own. -/
structure Named (data : GraphData) : Prop where
  nodup : (data.nodes.map (·.guid)).Nodup
  nonempty : ∀ d ∈ data.nodes, d.guid ≠ ""

/-- No number of a variable is beyond the doubles. -/
structure Finite (registry : Registry) (data : GraphData) : Prop where
  nodes : ∀ d ∈ data.nodes, d.Finite registry
  vars : ∀ v ∈ data.vars, v.Finite

instance (data : GraphData) : Decidable data.Named :=
  decidable_of_iff ((data.nodes.map (·.guid)).Nodup ∧ ∀ d ∈ data.nodes, d.guid ≠ "")
    ⟨fun h => ⟨h.1, h.2⟩, fun h => ⟨h.1, h.2⟩⟩

instance (registry : Registry) (data : GraphData) : Decidable (data.Finite registry) :=
  decidable_of_iff ((∀ d ∈ data.nodes, d.Finite registry) ∧ ∀ v ∈ data.vars, v.Finite)
    ⟨fun h => ⟨h.1, h.2⟩, fun h => ⟨h.1, h.2⟩⟩

/-- The texts that the nodes are saved with are read as what they were written from. -/
def ReadsBack (registry : Registry) (data : GraphData) : Prop :=
  ∀ d ∈ data.nodes, d.ReadsBack registry

instance (registry : Registry) (data : GraphData) : Decidable (data.ReadsBack registry) :=
  inferInstanceAs (Decidable (∀ d ∈ data.nodes, d.ReadsBack registry))

/-- Hydrate a graph, and save it. -/
def resaved (registry : Registry) (data : GraphData) (s : Store) : GraphData :=
  let hydrated := Graph.ofData registry data s
  hydrated.1.toData hydrated.2.vars

/-- A hydrated graph is saved level by level. -/
theorem savedAs_toData (registry : Registry) (hregistry : registry.WellFormed) (data : GraphData)
    (h : data.All Named) (s : Store) (vs : Variables)
    (hvs : (Graph.ofData registry data s).2.vars.Extends vs) :
    data.Corresponds (SavedAs registry) ((Graph.ofData registry data s).1.toData vs) := by
  induction h generalizing s with
  | intro data network functions ih =>
    rw [Graph.ofData_eq] at hvs ⊢
    dsimp only at hvs ⊢
    have hextends := Graph.functionsOfData_extends registry data.functions
      (Graph.placeAll registry data s).2
    rw [corresponds_iff, Graph.toData_eq]
    refine ⟨Graph.placeAll_savedAs registry hregistry data s network.nodup network.nonempty vs
      (hextends.trans hvs) _, ?_⟩
    exact Graph.functionsToData_forall₂ registry data.functions _ vs hvs
      (Corresponds (SavedAs registry)) fun f hf t ht => ih f hf t ht

theorem savedAs_resaved (registry : Registry) (hregistry : registry.WellFormed) (data : GraphData)
    (h : data.All Named) (s : Store) :
    data.Corresponds (SavedAs registry) (data.resaved registry s) :=
  data.savedAs_toData registry hregistry h s _ (.refl _)

/-! ## Section 3: Settled graphs -/

/-- Nothing is left to be written otherwise. -/
structure Settled (registry : Registry) (data : GraphData) : Prop where
  nodes : ∀ d ∈ data.nodes, d.normal registry = d
  vars : ∀ v ∈ data.vars, v.normal = v
  opened : NodeData.Opened registry data.nodes

/-- A settled graph is saved as it is. -/
theorem resaved_of_settled (registry : Registry) (hregistry : registry.WellFormed)
    (data : GraphData) (hnamed : data.All Named) (hsettled : data.All (Settled registry))
    (s : Store) : data.resaved registry s = data := by
  refine ((data.savedAs_resaved registry hregistry hnamed s).mono hsettled fun d e hd he => ?_).eq
  have hnodes : e.nodes = d.nodes := by
    rw [he.steady hd.opened, List.map_congr_left hd.nodes, List.map_id']
  have hvars : e.vars = d.vars := by
    rw [he.vars, List.map_congr_left hd.vars, List.map_id']
  obtain ⟨name, nodes, vars, groups, functions⟩ := e
  obtain ⟨rfl, rfl⟩ : name = d.name ∧ groups = d.nodeGroups := ⟨he.name, he.groups⟩
  obtain ⟨rfl, rfl⟩ : nodes = d.nodes ∧ vars = d.vars := ⟨hnodes, hvars⟩
  rfl

namespace SavedAs

variable {registry : Registry} {data saved : GraphData}

theorem guids (h : data.SavedAs registry saved) :
    saved.nodes.map (·.guid) = data.nodes.map (·.guid) := by
  refine (map_eq_of_forall₂ (h.nodes.imp fun d e ⟨opened, he, _⟩ => ?_)).symm
  have hguid : (d.normal registry).guid = d.guid := d.normal_guid
  rw [he, ← hguid]

theorem named (h : data.SavedAs registry saved) (hdata : data.Named) : saved.Named := by
  refine ⟨h.guids ▸ hdata.nodup, fun e he => ?_⟩
  have hmem : e.guid ∈ data.nodes.map (·.guid) := h.guids ▸ List.mem_map_of_mem he
  obtain ⟨d, hd, hguid⟩ := List.mem_map.mp hmem
  exact hguid ▸ hdata.nonempty d hd

theorem settled (h : data.SavedAs registry saved) (hregistry : registry.Restorable)
    (hknown : ∀ t ∈ registry.types, registry.Knows t) (hfinite : data.Finite registry)
    (hreads : data.ReadsBack registry) : saved.Settled registry := by
  refine ⟨fun e he => ?_, fun v hv => ?_, h.opened fun d hd => ?_⟩
  · obtain ⟨i, hi⟩ := List.mem_iff_getElem?.mp he
    obtain ⟨d, hdi, opened, rfl, _⟩ := exists_left_of_forall₂ h.nodes i e hi
    have hd := List.mem_of_getElem? hdi
    rw [NodeData.normal_withPorts,
      d.normal_idem hregistry (.inr hknown) (hfinite.nodes d hd) (hreads d hd)]
  · rw [h.vars] at hv
    obtain ⟨d, hd, rfl⟩ := List.mem_map.mp hv
    exact d.normal_idem (hfinite.vars d hd)
  · rw [d.resolve_normal hregistry (.inr hknown) (hreads d hd)]

end SavedAs

/-- What was hydrated and saved is settled. -/
theorem settled_resaved (registry : Registry) (hregistry : registry.Restorable)
    (hknown : ∀ t ∈ registry.types, registry.Knows t) (data : GraphData)
    (hnamed : data.All Named) (hfinite : data.All (Finite registry))
    (hreads : data.All (ReadsBack registry)) (s : Store) :
    (data.resaved registry s).All fun e => e.Named ∧ e.Settled registry := by
  have h := data.savedAs_resaved registry hregistry.wellFormed hnamed s
  refine h.all ((hnamed.and hfinite).and hreads) fun d e hd he => ?_
  exact ⟨he.named hd.1.1, he.settled hregistry hknown hd.1.2 hd.2⟩

/-! ## Section 4: What is saved of a graph -/

/-- The same nodes in the same order, with the same connections and with the types that they
    had, up to redirects. -/
structure Resembles (registry : Registry) (data saved : GraphData) : Prop where
  guids : saved.nodes.map (·.guid) = data.nodes.map (·.guid)
  connections : saved.connectionTable = data.connectionTable
  types : List.Forall₂ (fun d e => e.type =
      if (registry.resolve d).redirectedFrom.isSome then (registry.resolve d).identity.text
      else d.type)
    data.nodes saved.nodes

theorem SavedAs.resembles {registry : Registry} {data saved : GraphData}
    (h : data.SavedAs registry saved) : data.Resembles registry saved := by
  refine ⟨h.guids, ?_, h.nodes.imp ?_⟩
  · -- records of opened slots have no connections
    have hconnections : saved.connections = data.connections := by
      refine (flatMap_eq_of_forall₂ (h.nodes.imp ?_)).symm
      rintro d _ ⟨opened, rfl, hempty⟩
      have hopened : opened.flatMap (fun p => p.connections.map fun c =>
          (⟨d.guid, p.name, p.index, c.nodeGuid, c.portName, c.portIndex⟩ : Connection)) = [] :=
        List.flatMap_eq_nil_iff.mpr fun r hr => by rw [hempty r hr, List.map_nil]
      simp [hopened]
    unfold connectionTable
    rw [hconnections]
  · rintro d _ ⟨opened, rfl, _⟩
    show (d.normal registry).type = _
    cases hlive : (registry.resolve d).isPlaceholder with
    | true =>
      rw [d.normal_of_placeholder hlive, registry.resolve_of_placeholder d hlive]
      rfl
    | false =>
      rw [d.normal_of_live hlive]
      rfl

/-- **Main theorem: saving is a normal form.**  A graph that is hydrated with the types of the
    library and saved has the nodes, connections and types that it had; hydrated and saved again,
    it stays exactly as it is. -/
theorem resaved_builtin (data : GraphData) (hnamed : data.All Named)
    (hfinite : data.All (Finite .builtin)) (hreads : data.All (ReadsBack .builtin)) (s t : Store) :
    data.Corresponds (Resembles .builtin) (data.resaved .builtin s) ∧
      (data.resaved .builtin s).resaved .builtin t = data.resaved .builtin s := by
  have hrestorable := Registry.builtin_restorable
  have hsaved := data.savedAs_resaved .builtin hrestorable.wellFormed hnamed s
  have hsettled := data.settled_resaved .builtin hrestorable Registry.builtin_knows hnamed hfinite
    hreads s
  refine ⟨hsaved.mono hnamed fun _ _ _ h => h.resembles, ?_⟩
  exact resaved_of_settled .builtin hrestorable.wellFormed _ (hsettled.mono fun _ h => h.1)
    (hsettled.mono fun _ h => h.2) t

/-- A function without a result. -/
def idle : GraphData where
  name := "idle"
  nodes := [
    { guid := "in", type := "Ceres.Functions.FunctionInput",
      ports := [{ name := "next", connections := [⟨"out", "input", 0⟩] }] },
    { guid := "out", type := "Ceres.Functions.FunctionOutput" }]

/-- A graph that is saved otherwise: a renamed type, a variable that is only named, an argument
    without a slot, an unknown type, and a whole number as a float. -/
def legacy : GraphData where
  name := "legacy"
  nodes := [
    { guid := "if", type := "Ceres.Nodes.If", serializedData := "\x7b\x7d" },
    { guid := "get", type := "Ceres.Variables.GetVariable",
      serializedData := "\x7b\"variable\": \"score\"\x7d",
      ports := [{ name := "value", connections := [⟨"call", "args", 1⟩] }] },
    { guid := "call", type := "Ceres.Functions.InvokeFunction",
      serializedData := "\x7b\"functionName\": \"idle\", \"note\": 1\x7d" },
    { guid := "lost", type := "Ceres.Nodes.Lost", serializedData := "[1" }]
  vars := [{ name := "score", valueType := .float, value := .int 5, isShared := true }]
  functions := [("idle", idle)]

theorem resaved_builtin_legacy :
    legacy.All Named ∧ legacy.All (Finite .builtin) ∧ legacy.All (ReadsBack .builtin) ∧
      legacy.Corresponds (Resembles .builtin) (legacy.resaved .builtin default) ∧
      (legacy.resaved .builtin default).resaved .builtin default
        = legacy.resaved .builtin default := by
  have hall : ∀ P : GraphData → Prop, P legacy → P idle → legacy.All P := by
    intro P hlegacy hidle
    refine .intro legacy hlegacy fun f hf => ?_
    obtain rfl := List.mem_singleton.mp hf
    exact .intro idle hidle (List.forall_mem_nil _)
  have hnamed : legacy.All Named := hall _ (by decide +kernel) (by decide +kernel)
  have hfinite : legacy.All (Finite .builtin) := hall _ (by decide +kernel) (by decide +kernel)
  have hreads : legacy.All (ReadsBack .builtin) := hall _ (by decide +kernel) (by decide +kernel)
  exact ⟨hnamed, hfinite, hreads, resaved_builtin legacy hnamed hfinite hreads default default⟩

/-- The type is renamed, and the slot is recorded. -/
example : (legacy.resaved .builtin default).nodes.map (fun d => (d.type, d.ports.map (·.index)))
    = [("Ceres.Flow.Branch", []), ("Ceres.Variables.GetVariable", [0]),
      ("Ceres.Functions.InvokeFunction", [1]), ("Ceres.Nodes.Lost", [])] := by
  decide +kernel

end GraphData
end FlowGraph
