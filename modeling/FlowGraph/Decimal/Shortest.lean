import FlowGraph.Powers

/-! # Shortest decimals

    A double `x` is written with the fewest significant digits that still read
    back as `x`; among the decimals of that length the one nearest to `x`.

    A positive finite double is `m · 2 ^ q`.  The reals that round to it form
    an interval around it, which contains its ends iff `m` is even.  For each
    length from one digit upwards the two neighbours of `m · 2 ^ q` on the
    decimal grid of that length are tested against the interval; the first
    length with a hit wins.  All comparisons are exact, in `Nat`.

    Where a number is written without an exponent, and how an exponent looks,
    is up to the format: see `Decimal.Layout`. -/

namespace FlowGraph

/-- The number `digits · 10 ^ exponent`. -/
structure Decimal where
  digits : Nat
  exponent : Int
  deriving DecidableEq, Repr, Inhabited

namespace Decimal

/-! ## Binary form -/

/-- A positive finite double: `mantissa · 2 ^ exponent`.  `narrow` holds at the
    powers of two whose lower neighbour is nearer than the upper one. -/
structure Binary where
  mantissa : Nat
  exponent : Int
  narrow : Bool
  deriving DecidableEq, Repr

/-- The binary form of the magnitude of a finite double. -/
def Binary.ofFloat (x : Float) : Binary :=
  let bits := x.toBits.toNat
  let biased : Nat := bits / twoTo 52 % twoTo 11
  let fraction := bits % twoTo 52
  -- the least exponent is that of numbers without a leading one
  if biased = 0 then ⟨fraction, -1074, false⟩
  else ⟨twoTo 52 + fraction, (biased : Int) - 1075, fraction = 0 && biased > 1⟩

/-! ## The grid of a given length -/

/-- A non-negative fraction. -/
structure Ratio where
  num : Nat
  den : Nat

/-- `4 · m · 2 ^ (q - 2) / 10 ^ k`, with `four` in place of `4 · m`. -/
def scaled (four : Nat) (q k : Int) : Ratio :=
  ⟨four * twoTo (q - 2).toNat * tenTo (-k).toNat, twoTo (2 - q).toNat * tenTo k.toNat⟩

/-- Whether `d · 10 ^ k` rounds to the double. -/
def Binary.admits (b : Binary) (d : Nat) (k : Int) : Bool :=
  let low := scaled (4 * b.mantissa - (if b.narrow then 1 else 2)) b.exponent k
  let high := scaled (4 * b.mantissa + 2) b.exponent k
  if b.mantissa % 2 = 0 then low.num ≤ d * low.den && d * high.den ≤ high.num
  else low.num < d * low.den && d * high.den < high.num

/-- The grid neighbour to write at exponent `k`, if one rounds to the double:
    the nearer one of two, and of two equally near ones the even one. -/
def Binary.onGrid (b : Binary) (k : Int) : Option Nat :=
  let r := scaled (4 * b.mantissa) b.exponent k
  let below := r.num / r.den
  let rest := r.num % r.den
  let lower := b.admits below k
  let upper := b.admits (below + 1) k
  if lower && upper then
    if 2 * rest < r.den || (2 * rest = r.den && below % 2 = 0) then some below
    else some (below + 1)
  else if lower then some below
  else if upper then some (below + 1)
  else none

/-- The decimal exponent of the leading digit: the greatest `e` with
    `10 ^ e ≤ x`. -/
def Binary.leading (b : Binary) : Int :=
  let r := scaled (4 * b.mantissa) b.exponent 0
  if r.den ≤ r.num then (Nat.toDigits 10 (r.num / r.den)).length - 1
  else
    match (List.range 330).find? (fun j => r.den ≤ r.num * tenTo (j + 1)) with
    | some j => -(j + 1 : Int)
    | none => 0

/-- The same number without trailing zeros, by `fuel` many of them at most. -/
def normalize : Nat → Decimal → Decimal
  | 0, d => d
  | fuel + 1, d =>
    if d.digits ≠ 0 && d.digits % 10 = 0 then normalize fuel ⟨d.digits / 10, d.exponent + 1⟩
    else d

/-- The shortest decimal that rounds to the magnitude of a finite double. -/
def shortest (x : Float) : Decimal :=
  let b := Binary.ofFloat x
  if b.mantissa = 0 then ⟨0, 0⟩
  else
    let hits := (List.range 17).findSome? fun (n : Nat) =>
      let k := b.leading - (n : Int)
      (b.onGrid k).map (fun d => normalize 20 ⟨d, k⟩)
    hits.getD ⟨0, 0⟩

/-! ## Writing -/

/-- How a decimal is laid out as text. -/
structure Layout where
  /-- The least exponent of the leading digit that is written without `e`. -/
  plainFrom : Int
  /-- The greatest such exponent. -/
  plainTo : Int
  /-- Written before a non-negative exponent. -/
  positiveMark : List Char

/-- The digits of a natural number. -/
def digitsOf (n : Nat) : List Char := Nat.toDigits 10 n

/-- The text of an integer. -/
def ofInt (n : Int) : List Char :=
  if n < 0 then '-' :: digitsOf n.natAbs else digitsOf n.natAbs

/-- The text of a decimal: always with a point or an exponent. -/
def Layout.write (layout : Layout) (d : Decimal) : List Char :=
  let ds := digitsOf d.digits
  let lead : Int := d.exponent + ds.length - 1
  if layout.plainFrom ≤ lead && lead ≤ layout.plainTo then
    if 0 ≤ lead then
      let whole := lead.toNat + 1
      if ds.length ≤ whole then ds ++ List.replicate (whole - ds.length) '0' ++ ['.', '0']
      else ds.take whole ++ '.' :: ds.drop whole
    else '0' :: '.' :: List.replicate (-lead - 1).toNat '0' ++ ds
  else
    let mantissa := match ds with
      | [] => []
      | [c] => [c]
      | c :: rest => c :: '.' :: rest
    let exponent := if lead < 0 then ofInt lead else layout.positiveMark ++ ofInt lead
    mantissa ++ 'e' :: exponent

/-- The text of a finite double, with a minus sign also for `-0.0`. -/
def Layout.writeFloat (layout : Layout) (x : Float) : List Char :=
  let body := layout.write (shortest x)
  if x.toBits.toNat / twoTo 63 = 1 then '-' :: body else body

end Decimal
end FlowGraph
