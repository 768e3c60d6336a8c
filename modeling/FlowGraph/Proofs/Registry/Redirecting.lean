import FlowGraph.Redirects
import Mathlib

/-! # Following redirects

    The chain of an identity as a relation: it goes on while a redirect applies that leads to an
    identity it has not been at.  Every identity has one end (`EndsAt.unique`), and `resolve`
    computes it (`endsAt_resolve`): each hop reaches another target, so as many hops as there
    are redirects are enough.

    The hops from an identity make a chain that is cut where it would come to the identity itself
    or to one it was at already; the first hop counts in any case, also if it leads nowhere.  There
    is one longest such chain (`Longest.unique`), no longer than the table, and it is what
    `resolve` follows to its end (`resolve_longest`).

    A chain need not come back to where it started: it can also run into a loop further on, or
    stop at an identity that is redirected to itself. -/

namespace FlowGraph
namespace Redirects

variable {redirects : Redirects}

/-! ## Section 1: Ends of chains -/

/-- The chain that is at `current`, and was at `seen` before, ends at `last`. -/
inductive Follows (redirects : Redirects) :
    (seen : List TypeIdentity) → (current last : TypeIdentity) → Prop where
  | stop {seen : List TypeIdentity} {current : TypeIdentity}
      (hend : ∀ next, redirects.hop current = some next → next ∈ seen ++ [current]) :
      Follows redirects seen current current
  | hop {seen : List TypeIdentity} {current next last : TypeIdentity}
      (happlies : redirects.hop current = some next) (hnew : next ∉ seen ++ [current])
      (hrest : Follows redirects (seen ++ [current]) next last) :
      Follows redirects seen current last

/-- The chain of an identity ends at `last`. -/
def EndsAt (redirects : Redirects) (id last : TypeIdentity) : Prop := redirects.Follows [] id last

theorem Follows.unique {seen : List TypeIdentity} {current last last' : TypeIdentity}
    (h : redirects.Follows seen current last) (h' : redirects.Follows seen current last') :
    last = last' := by
  induction h with
  | stop hend =>
    cases h' with
    | stop => rfl
    | hop happlies hnew => exact absurd (hend _ happlies) hnew
  | hop happlies hnew _ ih =>
    cases h' with
    | stop hend => exact absurd (hend _ happlies) hnew
    | hop happlies' _ hrest' =>
      rw [happlies, Option.some.injEq] at happlies'
      subst happlies'
      exact ih hrest'

theorem EndsAt.unique {id last last' : TypeIdentity} (h : redirects.EndsAt id last)
    (h' : redirects.EndsAt id last') : last = last' :=
  Follows.unique h h'

/-! ## Section 2: The end that is computed -/

/-- The targets that a chain has not been at. -/
def ahead (redirects : Redirects) (passed : List TypeIdentity) : Finset TypeIdentity :=
  (redirects.entries.map Prod.snd).toFinset.filter (· ∉ passed)

theorem mem_ahead_of_hop {passed : List TypeIdentity} {current next : TypeIdentity}
    (happlies : redirects.hop current = some next) (hnew : next ∉ passed) :
    next ∈ redirects.ahead passed := by
  unfold hop at happlies
  obtain ⟨e, hfind, rfl⟩ := Option.map_eq_some_iff.mp happlies
  have htarget : e.2 ∈ redirects.entries.map Prod.snd :=
    List.mem_map_of_mem (List.mem_of_find?_eq_some hfind)
  simpa [ahead, hnew] using htarget

theorem ahead_lt {passed : List TypeIdentity} {next : TypeIdentity}
    (hnext : next ∈ redirects.ahead passed) :
    (redirects.ahead (passed ++ [next])).card < (redirects.ahead passed).card := by
  apply Finset.card_lt_card
  rw [Finset.ssubset_iff_of_subset]
  · exact ⟨next, hnext, by simp [ahead]⟩
  · intro id hid
    simp only [ahead, Finset.mem_filter, List.mem_append, not_or] at hid ⊢
    exact ⟨hid.1, hid.2.1⟩

/-- Fuel for the targets ahead is enough. -/
theorem follows_follow (fuel : Nat) (seen : List TypeIdentity) (current : TypeIdentity)
    (hfuel : (redirects.ahead (seen ++ [current])).card ≤ fuel) :
    redirects.Follows seen current (redirects.follow fuel seen current) := by
  induction fuel generalizing seen current with
  | zero =>
    -- the chain has been at all targets, so no hop leads to a new one
    have hnone : redirects.ahead (seen ++ [current]) = ∅ := Finset.card_eq_zero.mp (by omega)
    apply Follows.stop
    intro next happlies
    by_contra hnew
    have hmem := mem_ahead_of_hop happlies hnew
    simp [hnone] at hmem
  | succ fuel ih =>
    unfold follow
    cases happlies : redirects.hop current with
    | none => exact .stop (by simp [happlies])
    | some next =>
      dsimp only
      by_cases hnew : next ∈ seen ++ [current]
      · have hstop : (seen.contains next || decide (next = current)) = true := by
          simpa using hnew
        rw [if_pos hstop]
        apply Follows.stop
        intro other hother
        rw [happlies, Option.some.injEq] at hother
        exact hother ▸ hnew
      · have hgo : ¬ (seen.contains next || decide (next = current)) = true := by
          simpa using hnew
        rw [if_neg hgo]
        have hless := ahead_lt (mem_ahead_of_hop happlies hnew)
        exact .hop happlies hnew (ih _ _ (by omega))

theorem card_ahead_le (redirects : Redirects) (passed : List TypeIdentity) :
    (redirects.ahead passed).card ≤ redirects.entries.length :=
  calc (redirects.ahead passed).card
      ≤ (redirects.entries.map Prod.snd).toFinset.card := Finset.card_filter_le _ _
    _ ≤ (redirects.entries.map Prod.snd).length := List.toFinset_card_le _
    _ = redirects.entries.length := List.length_map _

/-- What a redirect leads to is the end of the chain, and so is an identity to which none
    applies. -/
theorem endsAt_resolve (redirects : Redirects) (id : TypeIdentity) :
    redirects.EndsAt id ((redirects.resolve id).getD id) := by
  unfold resolve
  cases happlies : redirects.hop id with
  | none => exact .stop (by simp [happlies])
  | some next =>
    have hfollows : redirects.Follows [id] next
        (redirects.follow redirects.entries.length [id] next) :=
      follows_follow _ _ _ (redirects.card_ahead_le _)
    by_cases hself : next = id
    · -- the identity is redirected to itself, so the first hop leads nowhere
      subst hself
      have hstop : redirects.Follows [next] next next := .stop (by simp [happlies])
      rw [Option.map_some, Option.getD_some, hfollows.unique hstop]
      exact .stop (by simp [happlies])
    · exact .hop happlies (by simpa using hself) hfollows

/-! ## Section 3: Chains without repetition -/

variable {id last : TypeIdentity} {chain other : List TypeIdentity}

/-- One redirect leads from the first identity to the second. -/
def Leads (redirects : Redirects) (id next : TypeIdentity) : Prop := redirects.hop id = some next

/-- The hops from an identity, one at least, without repetition after the first. -/
structure Trail (redirects : Redirects) (id : TypeIdentity) (chain : List TypeIdentity) :
    Prop where
  hops : (id :: chain).IsChain redirects.Leads
  nonempty : chain ≠ []
  fresh : (id :: chain).Nodup ∨ chain.length = 1

/-- A chain that no other one of the identity is longer than. -/
structure Longest (redirects : Redirects) (id : TypeIdentity) (chain : List TypeIdentity) :
    Prop extends redirects.Trail id chain where
  longest : ∀ other, redirects.Trail id other → other.length ≤ chain.length

/-- Of two chains from one identity, one goes on where the other ends. -/
theorem prefix_or_prefix_of_hops (h : (id :: chain).IsChain redirects.Leads)
    (h' : (id :: other).IsChain redirects.Leads) : chain <+: other ∨ other <+: chain := by
  induction chain generalizing id other with
  | nil => exact .inl List.nil_prefix
  | cons next rest ih =>
    cases other with
    | nil => exact .inr List.nil_prefix
    | cons next' rest' =>
      rw [List.isChain_cons_cons] at h h'
      -- a hop leads to one identity only
      have hsame : next = next' := Option.some.inj (h.1.symm.trans h'.1)
      subst hsame
      simpa using ih h.2 h'.2

theorem Longest.unique (h : redirects.Longest id chain) (h' : redirects.Longest id other) :
    chain = other := by
  have hle := h.longest other h'.toTrail
  have hge := h'.longest chain h.toTrail
  rcases prefix_or_prefix_of_hops h.hops h'.hops with hinitial | hinitial
  · exact hinitial.eq_of_length_le hle
  · exact (hinitial.eq_of_length_le hge).symm

theorem Trail.nodup (h : redirects.Trail id chain) : chain.Nodup := by
  rcases h.fresh with hnodup | hone
  · exact (List.nodup_cons.mp hnodup).2
  · obtain ⟨first, rfl⟩ := List.length_eq_one_iff.mp hone
    exact List.nodup_singleton first

theorem mem_targets_of_hops (h : (id :: chain).IsChain redirects.Leads) :
    ∀ next ∈ chain, next ∈ redirects.entries.map Prod.snd := by
  induction chain generalizing id with
  | nil => exact List.forall_mem_nil _
  | cons next rest ih =>
    rw [List.isChain_cons_cons] at h
    refine List.forall_mem_cons.mpr ⟨?_, ih h.2⟩
    obtain ⟨e, hfind, rfl⟩ := Option.map_eq_some_iff.mp h.1
    exact List.mem_map_of_mem (List.mem_of_find?_eq_some hfind)

/-- Each hop reaches another target, so a chain is no longer than the table. -/
theorem Trail.length_le (h : redirects.Trail id chain) : chain.length ≤ redirects.size := by
  have hsub := (h.nodup.subperm (mem_targets_of_hops h.hops)).length_le
  rwa [List.length_map] at hsub

/-- The chain cannot be continued. -/
def Stuck (redirects : Redirects) (id : TypeIdentity) (chain : List TypeIdentity)
    (last : TypeIdentity) : Prop :=
  ∀ next, redirects.Leads last next → next ∈ id :: chain

/-- A chain that cannot be continued is the longest. -/
theorem Trail.longest_of_stuck (h : redirects.Trail id chain)
    (hlast : last ∈ chain.getLast?) (hstuck : redirects.Stuck id chain last) :
    redirects.Longest id chain := by
  refine ⟨h, fun other hother => ?_⟩
  rcases prefix_or_prefix_of_hops h.hops hother.hops with hinitial | hinitial
  · obtain ⟨more, rfl⟩ := hinitial
    cases more with
    | nil => simp
    | cons next more =>
      -- the next hop of `other` leads back into `chain`, so `other` repeats an identity
      have hhop : redirects.Leads last next := by
        have hchain := hother.hops
        rw [← List.cons_append, List.isChain_append] at hchain
        refine hchain.2.2 last ?_ next (by simp)
        rw [List.getLast?_cons, Option.mem_some_iff, Option.mem_def.mp hlast, Option.getD_some]
      have hmem := hstuck next hhop
      rcases hother.fresh with hnodup | hone
      · rw [← List.cons_append, List.nodup_append] at hnodup
        exact absurd rfl (hnodup.2.2 next hmem next List.mem_cons_self)
      · have hnonempty := List.length_pos_of_ne_nil h.nonempty
        rw [List.length_append, List.length_cons] at hone
        omega
  · exact hinitial.length_le

/-! ## Section 4: The chain that is followed -/

/-- Following redirects walks along a chain that avoids what was seen, until it is stuck. -/
theorem Follows.exists_chain {seen : List TypeIdentity} {current : TypeIdentity}
    (h : redirects.Follows seen current last) :
    ∃ rest, (current :: rest).IsChain redirects.Leads ∧
      (current :: rest).getLast? = some last ∧ (current :: rest).Nodup ∧
      (∀ next ∈ rest, next ∉ seen) ∧
      ∀ next, redirects.Leads last next → next ∈ seen ++ current :: rest := by
  induction h with
  | @stop seen current hend =>
    exact ⟨[], List.isChain_singleton current, rfl, List.nodup_singleton current,
      List.forall_mem_nil _, hend⟩
  | @hop seen current next last happlies hnew _ ih =>
    obtain ⟨rest, hhops, hlast, hnodup, havoid, hstuck⟩ := ih
    rw [List.mem_append, not_or, List.mem_singleton] at hnew
    refine ⟨next :: rest, List.isChain_cons_cons.mpr ⟨happlies, hhops⟩, by simpa using hlast, ?_,
      ?_, by simpa using hstuck⟩
    · refine List.nodup_cons.mpr ⟨?_, hnodup⟩
      rw [List.mem_cons, not_or]
      exact ⟨Ne.symm hnew.2, fun hmem => havoid current hmem (by simp)⟩
    · refine List.forall_mem_cons.mpr ⟨hnew.1, fun other hother hseen => ?_⟩
      exact havoid other hother (List.mem_append_left _ hseen)

/-- The chain of an identity that is redirected, up to where it is stuck. -/
theorem exists_longest {first : TypeIdentity} (hfirst : redirects.Leads id first)
    (h : redirects.Follows [id] first last) :
    ∃ chain, redirects.Longest id chain ∧ chain.getLast? = some last ∧
      redirects.Stuck id chain last := by
  obtain ⟨rest, hhops, hlast, hnodup, havoid, hstuck⟩ := h.exists_chain
  have hfresh : (id :: first :: rest).Nodup ∨ (first :: rest).length = 1 := by
    by_cases hself : id = first
    · -- the identity is redirected to itself, so there is no second hop
      right
      cases rest with
      | nil => rfl
      | cons next more =>
        have hhop : redirects.Leads first next := (List.isChain_cons_cons.mp hhops).1
        rw [← hself] at hhop hfirst
        have hback : id = next := Option.some.inj (hfirst.symm.trans hhop)
        exact absurd (by simp [hback]) (havoid next List.mem_cons_self)
    · left
      refine List.nodup_cons.mpr ⟨?_, hnodup⟩
      rw [List.mem_cons, not_or]
      exact ⟨hself, fun hmem => havoid id hmem List.mem_cons_self⟩
  have htrail : redirects.Trail id (first :: rest) :=
    ⟨List.isChain_cons_cons.mpr ⟨hfirst, hhops⟩, List.cons_ne_nil first rest, hfresh⟩
  exact ⟨first :: rest, htrail.longest_of_stuck hlast hstuck, hlast, hstuck⟩

/-! ## Section 5: What identities resolve to -/

theorem hop_eq_none_iff :
    redirects.hop id = none ↔ ∀ e ∈ redirects.entries, e.1.agrees id = false := by
  unfold hop
  simp

theorem resolve_eq_none_iff : redirects.resolve id = none ↔ redirects.hop id = none := by
  unfold resolve
  exact Option.map_eq_none_iff

/-- As many rounds as there are redirects are enough, and more change nothing. -/
theorem map_follow_eq_resolve {fuel : Nat} (hfuel : redirects.size ≤ fuel) :
    (redirects.hop id).map (redirects.follow fuel [id]) = redirects.resolve id := by
  unfold resolve
  cases redirects.hop id with
  | none => rfl
  | some first =>
    have henough : redirects.Follows [id] first (redirects.follow fuel [id] first) :=
      follows_follow fuel [id] first ((redirects.card_ahead_le _).trans hfuel)
    have hresolve : redirects.Follows [id] first
        (redirects.follow redirects.entries.length [id] first) :=
      follows_follow _ _ _ (redirects.card_ahead_le _)
    rw [Option.map_some, Option.map_some, henough.unique hresolve]

/-- What an identity resolves to is the end of its longest chain. -/
theorem exists_longest_of_resolve (h : redirects.resolve id = some last) :
    ∃ chain, redirects.Longest id chain ∧ chain.getLast? = some last ∧
      redirects.Stuck id chain last := by
  unfold resolve at h
  obtain ⟨first, hfirst, rfl⟩ := Option.map_eq_some_iff.mp h
  exact exists_longest hfirst (follows_follow _ _ _ (redirects.card_ahead_le _))

/-- **Main theorem: where redirects end.**  An identity resolves to nothing just if no redirect
    agrees with it, and else to the end of its longest chain.  The loop that follows redirects is
    over after as many rounds as there are redirects, and so is the chain.  At its end no redirect
    applies, so that it resolves to nothing itself, or the next hop leads to the end itself, to an
    earlier identity of the chain or to the start. -/
theorem resolve_longest (redirects : Redirects) (id : TypeIdentity) :
    (redirects.resolve id = none ↔ ∀ e ∈ redirects.entries, e.1.agrees id = false) ∧
      (∀ fuel, redirects.size ≤ fuel →
        (redirects.hop id).map (redirects.follow fuel [id]) = redirects.resolve id) ∧
      (∀ last, redirects.resolve id = some last ↔
        ∃ chain, redirects.Longest id chain ∧ chain.getLast? = some last) ∧
      ∀ chain last, redirects.Longest id chain → chain.getLast? = some last →
        chain.length ≤ redirects.size ∧
          (redirects.hop last = none ∧ redirects.resolve last = none ∨
            ∃ next, redirects.hop last = some next ∧ next ∈ id :: chain) := by
  have hresolve : ∀ chain last, redirects.Longest id chain → chain.getLast? = some last →
      redirects.resolve id = some last ∧ redirects.Stuck id chain last := by
    intro chain last hchain hlast
    -- a chain has a first hop, so the identity resolves to something
    obtain ⟨first, rest, rfl⟩ := List.exists_cons_of_ne_nil hchain.nonempty
    have hfirst : redirects.Leads id first := (List.isChain_cons_cons.mp hchain.hops).1
    have hsome : redirects.resolve id ≠ none := by
      rw [Ne, resolve_eq_none_iff, hfirst]
      exact Option.some_ne_none first
    obtain ⟨found, hfound⟩ := Option.ne_none_iff_exists'.mp hsome
    obtain ⟨chain', hchain', hlast', hstuck⟩ := exists_longest_of_resolve hfound
    obtain rfl := hchain.unique hchain'
    obtain rfl := Option.some.inj (hlast.symm.trans hlast')
    exact ⟨hfound, hstuck⟩
  refine ⟨resolve_eq_none_iff.trans hop_eq_none_iff, fun fuel => map_follow_eq_resolve, ?_, ?_⟩
  · refine fun last => ⟨fun h => ?_, fun ⟨chain, hchain, hlast⟩ => ?_⟩
    · obtain ⟨chain, hchain, hlast, _⟩ := exists_longest_of_resolve h
      exact ⟨chain, hchain, hlast⟩
    · exact (hresolve chain last hchain hlast).1
  · intro chain last hchain hlast
    refine ⟨hchain.length_le, ?_⟩
    cases hnext : redirects.hop last with
    | none => exact .inl ⟨rfl, resolve_eq_none_iff.mpr hnext⟩
    | some next => exact .inr ⟨next, rfl, (hresolve chain last hchain hlast).2 next hnext⟩

/-- A chain that runs into a loop which it did not start in. -/
theorem resolve_longest_lasso :
    let a : TypeIdentity := ⟨"Old", "Node", some "Game"⟩
    let b : TypeIdentity := ⟨"New", "Node", none⟩
    let c : TypeIdentity := ⟨"Next", "Node", none⟩
    let table := ((Redirects.insert {} ⟨"Old", "Node", none⟩ b).insert b c).insert c b
    table.size ≤ 3 ∧ (table.hop a).map (table.follow 3 [a]) = table.resolve a ∧
      table.resolve a = some c ∧
      ∃ chain, table.Longest a chain ∧ chain.getLast? = some c ∧ chain.length ≤ table.size ∧
        ∃ next, table.hop c = some next ∧ next ∈ a :: chain := by
  intro a b c table
  have hsize : table.size ≤ 3 := by decide
  have hc : table.resolve a = some c := by decide
  obtain ⟨_, hfuel, hend, hstop⟩ := resolve_longest table a
  obtain ⟨chain, hchain, hlast⟩ := (hend c).mp hc
  obtain ⟨hlength, hnone | hnext⟩ := hstop chain c hchain hlast
  · exact absurd hnone.1 (by decide)
  · exact ⟨hsize, hfuel 3 hsize, hc, chain, hchain, hlast, hlength, hnext⟩

end Redirects
end FlowGraph
