/-! # Powers

    Powers of two and of ten, the bounds of machine numbers and the scales of decimals. -/

namespace FlowGraph

/-- The power `2 ^ k`. -/
def twoTo (k : Nat) : Nat := Nat.pow 2 k

/-- The power `10 ^ k`. -/
def tenTo (k : Nat) : Nat := Nat.pow 10 k

end FlowGraph
