import FlowGraph.TypeIdentity

/-! # Type redirects

    Types that were renamed.  A redirect maps one identity to another; looking up
    an identity finds the first redirect whose source agrees with it, so a source
    without assembly serves every assembly.  Redirects are followed to the end of
    their chain, and a chain that runs into itself ends before the repetition. -/

namespace FlowGraph

/-- The redirects, oldest first. -/
structure Redirects where
  entries : List (TypeIdentity × TypeIdentity) := []
  deriving DecidableEq, Inhabited

namespace Redirects

/-- Redirect an identity; an older redirect of exactly this identity goes. -/
def insert (redirects : Redirects) (source target : TypeIdentity) : Redirects :=
  ⟨redirects.entries.filter (·.1 ≠ source) ++ [(source, target)]⟩

/-- Insert all redirects of another table. -/
def merge (redirects other : Redirects) : Redirects :=
  other.entries.foldl (fun r e => r.insert e.1 e.2) redirects

/-- The target of the first redirect that applies. -/
def hop (redirects : Redirects) (id : TypeIdentity) : Option TypeIdentity :=
  (redirects.entries.find? fun e => e.1.agrees id).map Prod.snd

/-- Follow redirects from `current`, by `fuel` many hops at most, until none
    applies or the next identity was seen before. -/
def follow (redirects : Redirects) : (fuel : Nat) → (seen : List TypeIdentity) →
    (current : TypeIdentity) → TypeIdentity
  | 0, _, current => current
  | fuel + 1, seen, current =>
    match redirects.hop current with
    | none => current
    | some next =>
      if seen.contains next || next = current then current
      else redirects.follow fuel (seen ++ [current]) next

/-- The end of an identity's chain, `none` if no redirect applies.  Each hop
    reaches a new target, so there are no more hops than redirects. -/
def resolve (redirects : Redirects) (id : TypeIdentity) : Option TypeIdentity :=
  (redirects.hop id).map (redirects.follow redirects.entries.length [id])

/-- The number of redirects. -/
def size (redirects : Redirects) : Nat := redirects.entries.length

end Redirects
end FlowGraph
