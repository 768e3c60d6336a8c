import FlowGraph.Proofs.Dispatch.Returning

/-! # How a chain continues

    A sub-execution and a call leave the pending successor of the executing node as it was,
    whichever way they end (`Site.keepsNext_forward`, `Site.keepsNext_call`).  So a node may
    select its successor before or after it runs chains: what it selected last is what the
    chain continues with (`Frame.returns_runChain_selectedLast`). -/

namespace FlowGraph

variable {α β : Type}

/-! ## Section 1: Steps that keep the successor -/

namespace Exec

/-- Whichever way the computation ends, the pending successor is what it was. -/
def KeepsNext (x : Exec α) : Prop := ∀ s result t, (x s).Ends result t → t.next = s.next

theorem KeepsNext.pure (a : α) : KeepsNext (Pure.pure a) := by
  intro s result t h
  obtain ⟨_, rfl⟩ := (Process.ends_done_iff _ _ _ _).mp h
  rfl

theorem KeepsNext.fail (e : GraphError) : KeepsNext (Exec.fail e : Exec α) := by
  intro s result t h
  obtain ⟨_, rfl⟩ := (Process.ends_done_iff _ _ _ _).mp h
  rfl

theorem KeepsNext.read (f : DispatchState → α) : KeepsNext (Exec.read f) := by
  intro s result t h
  obtain ⟨_, rfl⟩ := (Process.ends_done_iff _ _ _ _).mp h
  rfl

theorem KeepsNext.modify {f : DispatchState → DispatchState} (hf : ∀ s, (f s).next = s.next) :
    KeepsNext (Exec.modify f) := by
  intro s result t h
  obtain ⟨_, rfl⟩ := (Process.ends_done_iff _ _ _ _).mp h
  exact hf s

theorem KeepsNext.bind {x : Exec α} {f : α → Exec β} (hx : KeepsNext x)
    (hf : ∀ a, KeepsNext (f a)) : KeepsNext (x >>= f) := by
  intro s result t h
  rcases Process.ends_bind _ _ _ _ h with ⟨a, u, hfirst, hrest⟩ | ⟨e, hfirst, _⟩
  · exact (hf a u result t hrest).trans (hx s _ u hfirst)
  · exact hx s _ t hfirst

theorem KeepsNext.attempt {x : Exec α} (hx : KeepsNext x) : KeepsNext x.attempt := by
  intro s result t h
  obtain ⟨r, _, hends⟩ := Process.ends_attempt _ _ _ h
  exact hx s r t hends

theorem KeepsNext.ofResult (result : Except GraphError α) : KeepsNext (Exec.ofResult result) := by
  cases result with
  | ok a => exact .pure a
  | error e => exact .fail e

theorem KeepsNext.await (key : WaitKey) : KeepsNext (Exec.await key) := by
  intro s result t h
  unfold Exec.await at h
  dsimp only at h
  split at h
  · obtain ⟨_, rfl⟩ := (Process.ends_done_iff _ _ _ _).mp h
    rfl
  · obtain ⟨answer, store, hresume⟩ := (Process.ends_waiting_iff _ _ _ _ _).mp h
    obtain ⟨_, rfl⟩ := (Process.ends_done_iff _ _ _ _).mp hresume
    rfl

end Exec

namespace Site

open Exec (KeepsNext)

/-! ## Section 2: Sub-executions -/

/-- The steps inside may select what they like. -/
theorem keepsNext_enclosed (part : DispatchState → β) (restore : β → DispatchState → DispatchState)
    (hrestore : ∀ s u, (restore (part s) u).next = s.next) (x : Exec α) :
    KeepsNext (enclosed part restore x) := by
  intro s result t h
  rcases Process.ends_bind _ _ _ _ h with ⟨kept, u, hkept, hrest⟩ | ⟨_, hread, _⟩
  · obtain ⟨heq, rfl⟩ := (Process.ends_done_iff _ _ _ _).mp hkept
    cases heq
    rcases Process.ends_bind _ _ _ _ hrest with ⟨r, v, _, hrestored⟩ | ⟨e, hattempt, _⟩
    · have hlast := KeepsNext.ofResult r (restore (part s) v) result t hrestored
      exact hlast.trans (hrestore s v)
    · -- a failure inside is a result
      obtain ⟨r, hr, _⟩ := Process.ends_attempt _ _ _ hattempt
      cases hr
  · cases ((Process.ends_done_iff _ _ _ _).mp hread).1

variable (chain : Chain) (site : Site)

theorem keepsNext_forward (start : NodeHandle) : KeepsNext (site.forward chain start) := by
  unfold forward
  split
  · exact .fail _
  · exact keepsNext_enclosed _ _ (fun _ _ => rfl) _

theorem keepsNext_forwardPort (name : String) (index : Nat) :
    KeepsNext (site.forwardPort chain name index) := by
  unfold forwardPort
  cases site.successor name index with
  | none => exact .pure ()
  | some start => exact site.keepsNext_forward chain start

theorem keepsNext_forwardPorts (name : String) (indices : List Nat) :
    KeepsNext (Exec.forEach indices (site.forwardPort chain name)) := by
  induction indices with
  | nil => exact .pure ()
  | cons index rest ih => exact .bind (site.keepsNext_forwardPort chain name index) fun _ => ih

theorem keepsNext_call (name : String) (arguments : List Value) :
    KeepsNext (site.call chain name arguments) := by
  unfold call
  refine .bind (.read _) fun found => .bind (.ofResult _) fun callee => ?_
  exact keepsNext_enclosed _ _ (fun _ _ => rfl) _

theorem keepsNext_pause (milliseconds : Nat) : KeepsNext (site.pause milliseconds) := by
  unfold pause
  split
  · exact .fail _
  · refine .bind (.read _) fun wait => .bind (.modify fun _ => rfl) fun _ => ?_
    exact .await _

/-! ## Section 3: Selections -/

/-- What an instruction selects, if it selects something. -/
def selection? (site : Site) : Instruction → Option (Option NodeHandle)
  | .next port => some (site.successor port 0)
  | .stop => some none
  | .goto guid => some (site.frame.graph.handleOf guid)
  | _ => none

/-- The instructions that select nothing keep the successor. -/
theorem keepsNext_perform (i : Instruction) (hi : site.selection? i = none) :
    KeepsNext (site.perform chain i) := by
  have tell : ∀ text, KeepsNext (site.tell text) := fun text =>
    .bind (.read _) fun _ => .modify fun _ => rfl
  have answered : ∀ f : Store → Value, KeepsNext (do site.answer (← Exec.view f)) := fun f =>
    .bind (.read _) fun _ => .modify fun _ => rfl
  cases i with
  | next port => cases hi
  | stop => cases hi
  | goto guid => cases hi
  | write port index value => exact .modify fun _ => rfl
  | copy source i target k => exact .modify fun _ => rfl
  | forward port index => exact site.keepsNext_forwardPort chain port index
  | run guid =>
    unfold perform
    dsimp only
    split
    · exact site.keepsNext_forward chain _
    · exact .pure ()
  | fail reason => exact .fail _
  | cancel => exact .fail _
  | message text => exact .modify fun _ => rfl
  | read port index => exact tell _
  | typed port type => exact tell _
  | note port => exact .bind (.read _) fun _ => .modify fun _ => rfl
  | answer value => exact answered _
  | answerInput port index => exact answered _
  | answerArgument index => exact .modify fun _ => rfl
  | answered => exact .bind (.read _) fun _ => tell _
  | invoke name arguments output =>
    refine .bind (.read _) fun values => .bind (site.keepsNext_call chain name values) fun _ => ?_
    exact .modify fun _ => rfl
  | attempt name => exact .bind (site.keepsNext_call chain name []).attempt fun _ => tell _
  | attemptForward port index =>
    refine .bind (site.keepsNext_forwardPort chain port index).attempt fun result => ?_
    cases result with
    | ok _ => exact .pure ()
    | error e => exact .modify fun _ => rfl
  | target port => exact tell _
  | readVariable field output => exact .modify fun _ => rfl
  | writeVariable field value =>
    unfold perform
    dsimp only
    split
    · exact .bind (.read _) fun _ => .modify fun _ => rfl
    · exact .pure ()
  | readBoard name output => exact .modify fun _ => rfl
  | delay milliseconds => exact site.keepsNext_pause milliseconds
  | skip => exact .pure ()

/-- A selection replaces the one before it. -/
theorem next_perform (i : Instruction) (s t : DispatchState)
    (h : (site.perform chain i).Returns s () t) : t.next = (site.selection? i).getD s.next := by
  cases hi : site.selection? i with
  | none => exact site.keepsNext_perform chain i hi s _ t h
  | some next =>
    cases i with
    | next port =>
      cases hi
      obtain rfl := (Exec.returns_modify_iff _ _ _).mp h
      rfl
    | stop =>
      cases hi
      obtain rfl := (Exec.returns_modify_iff _ _ _).mp h
      rfl
    | goto guid =>
      cases hi
      obtain rfl := (Exec.returns_modify_iff _ _ _).mp h
      rfl
    | _ => cases hi

/-- The last selection of a script, or else what was selected before. -/
def lastSelection (site : Site) : List Instruction → Option NodeHandle → Option NodeHandle
  | [], before => before
  | i :: rest, before => site.lastSelection rest ((site.selection? i).getD before)

theorem next_script (instructions : List Instruction) (s t : DispatchState)
    (h : (Exec.forEach instructions (site.perform chain)).Returns s () t) :
    t.next = site.lastSelection instructions s.next := by
  induction instructions generalizing s with
  | nil =>
    obtain ⟨_, rfl⟩ := (Exec.returns_pure_iff _ _ _ _).mp h
    rfl
  | cons i rest ih =>
    obtain ⟨_, u, hfirst, hrest⟩ := Exec.returns_bind _ _ _ _ _ h
    rw [ih u hrest, site.next_perform chain i s u hfirst]
    rfl

/-- The successor that a node selected last, given the store when it starts. -/
def selectedLast (site : Site) (s : Store) : Behavior → Option NodeHandle
  | .script script => site.lastSelection script.instructions none
  | b => site.selected s b

/-- Whatever chains the node ran, what it selected last is pending when it returns. -/
theorem next_execute (b : Behavior) (s t : DispatchState) (hnext : s.next = none)
    (h : (site.execute chain b).Returns s () t) : t.next = site.selectedLast s.store b := by
  cases hstarts : b.startsChains with
  | false =>
    obtain ⟨store, returned, next, rfl, hselected⟩ := site.returns_plain chain b hstarts s t h
    rw [hselected hnext]
    cases b with
    | script script => cases hstarts
    | _ => rfl
  | true =>
    cases b with
    | sequence => exact (site.keepsNext_forwardPorts chain "then" _ s _ t h).trans hnext
    | forLoop =>
      -- the successor is selected behind all turns
      replace h := Exec.returns_read_bind _ _ _ _ _ h
      replace h := Exec.returns_read_bind _ _ _ _ _ h
      obtain ⟨_, u, _, hrest⟩ := Exec.returns_bind _ _ _ _ _ h
      obtain rfl := (Exec.returns_modify_iff _ _ _).mp hrest
      rfl
    | invokeFunction name =>
      replace h := Exec.returns_read_bind _ _ _ _ _ h
      obtain ⟨_, u, _, hrest⟩ := Exec.returns_bind _ _ _ _ _ h
      replace hrest := Exec.returns_modify_bind _ _ _ _ _ hrest
      obtain rfl := (Exec.returns_modify_iff _ _ _).mp hrest
      rfl
    | script script =>
      have hlast := site.next_script chain script.instructions s t h
      rw [hnext] at hlast
      exact hlast
    | _ => cases hstarts

end Site

/-- The chain continues with what the node selected last, and ends if that is nothing. -/
theorem Frame.returns_runChain_selectedLast (fuel : Nat) (frame : Frame) (h : NodeHandle)
    (s t : DispatchState) (hrun : (Frame.runChain (fuel + 1) frame h).Returns s () t) :
    ∃ x u v, frame.graph.node? h = some x ∧
      ((Site.mk frame h).execute (Frame.runChain fuel) x.behavior).Returns u () v ∧
      match (Site.mk frame h).selectedLast u.store x.behavior with
      | none => t = { frame.ended x v with next := none }
      | some k =>
        (Frame.runChain fuel frame k).Returns { frame.ended x v with next := none } () t := by
  obtain ⟨next, u, hnode, hrest⟩ := frame.returns_runChain fuel h s t hrun
  obtain ⟨path, d, w, _, _, hinvoke, rfl, rfl⟩ := frame.returns_runNode _ h next s u hnode
  obtain ⟨x, v, hx, hexecute, rfl⟩ := frame.returns_invoke _ h _ w hinvoke
  have hnext := (Site.mk frame h).next_execute _ x.behavior _ v rfl hexecute
  have hended : (frame.ended x v).next = v.next := rfl
  refine ⟨x, _, v, hx, hexecute, ?_⟩
  rw [← hnext, ← hended]
  rcases hrest with ⟨hnone, rfl⟩ | ⟨k, hk, hchain⟩
  · rw [hnone]
  · rw [hk]
    exact hchain

end FlowGraph
