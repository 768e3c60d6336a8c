/-! # Reading decimals

    Two ways from digits to a double.  `ofScaled` rounds the significand first
    and then scales it by powers of ten, as JSON numbers are read; the result
    can be off by a unit in the last place when the significand has more than
    fifteen digits.  `parse?` reads a number text on its own and rounds once. -/

namespace FlowGraph.Decimal

/-- `10 ^ k` for `k ≤ 308`, rounded once. -/
def powerOfTen (k : Nat) : Float := Float.ofScientific 1 false k

/-- `x / 10 ^ k`, by division through at most `10 ^ 308` at a time. -/
def scaleDown (x : Float) : Nat → Nat → Float
  | 0, _ => x
  | fuel + 1, k =>
    if k ≤ 308 then x / powerOfTen k
    else if x == 0 then x
    else scaleDown (x / powerOfTen 308) fuel (k - 308)

/-- The double of `significand · 10 ^ exponent`, `none` when it is too big. -/
def ofScaled (significand : Nat) (exponent : Int) : Option Float :=
  let x := Float.ofNat significand
  if exponent < 0 then
    some (scaleDown x (exponent.natAbs / 308 + 1) exponent.natAbs)
  else if exponent ≤ 308 then
    let y := x * powerOfTen exponent.natAbs
    if y.isInf then none else some y
  else if x == 0 then some x
  else none

/-! ## Number texts -/

/-- The value of a run of digits that follows a number `n`. -/
def digitsValue (n : Nat) (ds : List Char) : Nat :=
  ds.foldl (fun n c => 10 * n + (c.toNat - 48)) n

/-- Split off the leading run of digits. -/
def spanDigits (cs : List Char) : List Char × List Char :=
  cs.span Char.isDigit

/-- What a number text stands for. -/
inductive Reading where
  | undefined
  | infinite (negative : Bool)
  /-- `significand · 10 ^ exponent`. -/
  | finite (negative : Bool) (significand : Nat) (exponent : Int)
  deriving DecidableEq, Inhabited, Repr

/-- How a number compares with the range of all floats: beyond it, too small for it, or
    neither. -/
def range (significand : Nat) (exponent : Int) : Ordering :=
  let size : Int := (Nat.toDigits 10 significand).length + exponent
  if significand = 0 || size < -400 then .lt
  else if size > 400 then .gt
  else .eq

/-- The nearest double, infinite when too big. -/
def Reading.toFloat : Reading → Float
  | .undefined => 0 / 0
  | .infinite negative => if negative then -(1 / 0) else 1 / 0
  | .finite negative significand exponent =>
    let x : Float := match range significand exponent with
      | .lt => 0
      | .gt => 1 / 0
      | .eq => Float.ofScientific significand (exponent < 0) exponent.natAbs
    if negative then -x else x

/-- The nearest number of single precision, infinite when too big. -/
def Reading.toSingle : Reading → Float32
  | .undefined => 0 / 0
  | .infinite negative => if negative then -(1 / 0) else 1 / 0
  | .finite negative significand exponent =>
    let x : Float32 := match range significand exponent with
      | .lt => 0
      | .gt => 1 / 0
      | .eq => Float32.ofScientific significand (exponent < 0) exponent.natAbs
    if negative then -x else x

/-- The exponent part of a number text: nothing, or `e`, a sign and digits. -/
def parseExponent? : List Char → Option Int
  | [] => some 0
  | c :: rest =>
    if c = 'e' || c = 'E' then
      let (negative, rest) := match rest with
        | '-' :: r => (true, r)
        | '+' :: r => (false, r)
        | r => (false, r)
      match rest with
      | [] => none
      | ds =>
        if ds.all Char.isDigit then
          let n : Int := digitsValue 0 ds
          some (if negative then -n else n)
        else none
    else none

/-- A number text after its sign: digits with at most one point, an exponent, or the
    names of infinity and of the undefined number in any case of letters. -/
def parseMagnitude? (negative : Bool) (cs : List Char) : Option Reading :=
  let name := String.ofList (cs.map Char.toLower)
  if name = "inf" || name = "infinity" then some (.infinite negative)
  else if name = "nan" then some .undefined
  else
    let (whole, rest) := spanDigits cs
    let (fraction, rest) := match rest with
      | '.' :: r => spanDigits r
      | r => ([], r)
    if whole.isEmpty && fraction.isEmpty then none
    else (parseExponent? rest).map fun e =>
      .finite negative (digitsValue (digitsValue 0 whole) fraction) (e - fraction.length)

/-- What a number text stands for, if it is one. -/
def parse? (s : String) : Option Reading :=
  match s.toList with
  | '-' :: cs => parseMagnitude? true cs
  | '+' :: cs => parseMagnitude? false cs
  | cs => parseMagnitude? false cs

/-- The double that a text stands for, zero if it is no number. -/
def floatOf (s : String) : Float := ((parse? s).map Reading.toFloat).getD 0.0

/-- The number of single precision that a text stands for, zero if it is no number. -/
def singleOf (s : String) : Float32 := ((parse? s).map Reading.toSingle).getD 0.0

end FlowGraph.Decimal
