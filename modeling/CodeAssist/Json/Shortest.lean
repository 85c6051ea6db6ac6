import CodeAssist.Text.Numeral
import CodeAssist.Text.Blank

namespace CodeAssist

/-! The shortest decimal that reads back as a given double.

A double is `m * 2 ^ q`, and every real strictly between two bounds rounds to it; the bounds
themselves do when `m` is even. For one digit, two digits and so on, the two neighbours of the
value on the grid of decimals with that many digits are tried. -/

/-- A positive double, and half the distance to the double below it, in quarters of `2 ^ q`. -/
structure Double where
  mantissa : Nat
  exponent : Int
  below : Nat

/-- `digits * 10 ^ exponent`. -/
structure Decimal where
  digits : Nat
  exponent : Int
deriving DecidableEq, Repr

namespace Double

def negative (bits : UInt64) : Bool := bits >>> 63 == 1

def isZero (bits : UInt64) : Bool := bits <<< 1 == 0

def ofBits (bits : UInt64) : Double :=
  let field := ((bits >>> 52) &&& 0x7FF).toNat
  let fraction := (bits &&& 0xFFFFFFFFFFFFF).toNat
  if field == 0 then ⟨fraction, -1074, 2⟩
  else ⟨fraction + 4503599627370496, field - 1075, if fraction == 0 && field > 1 then 1 else 2⟩

/-- `base ^ e` for a nonnegative `e`, else 1. -/
def power (base : Nat) (e : Int) : Nat := base.pow e.toNat

/-- The grid `10 ^ g` against quarters of `2 ^ q`: a point `c` of the grid stands for
`c * gridUnit`, a number `x` of quarters for `x * quarterUnit`. -/
def gridUnit (x : Double) (g : Int) : Nat := power 10 g * power 2 (2 - x.exponent)

def quarterUnit (x : Double) (g : Int) : Nat := power 10 (-g) * power 2 (x.exponent - 2)

def covers (x : Double) (g : Int) (c : Nat) : Bool :=
  let point := c * x.gridUnit g
  let low := (4 * x.mantissa - x.below) * x.quarterUnit g
  let high := (4 * x.mantissa + 2) * x.quarterUnit g
  if x.mantissa % 2 == 0 then low ≤ point && point ≤ high else low < point && point < high

/-- The neighbour of `x` on the grid that rounds to it; of two, the nearer, and of two equally
near the even one. -/
def onGrid? (x : Double) (g : Int) : Option Decimal :=
  let value := 4 * x.mantissa * x.quarterUnit g
  let unit := x.gridUnit g
  let low := value / unit
  let rest := value % unit
  let lowFirst := 2 * rest < unit || (2 * rest == unit && low % 2 == 0)
  let candidates := if lowFirst then [low, low + 1] else [low + 1, low]
  (candidates.find? fun c => c > 0 && x.covers g c).map (⟨·, g⟩)

/-- The number of decimal digits before the point, or minus that of zeros behind it. -/
def magnitude (x : Double) : Int :=
  let whole := x.mantissa * power 2 x.exponent / power 2 (-x.exponent)
  if whole > 0 then (Text.decimal whole).length
  else
    let zeros := (List.range 330).find? fun j =>
      x.mantissa * Nat.pow 10 (j + 1) ≥ power 2 (-x.exponent)
    Int.neg (zeros.getD 330)

def strip (fuel : Nat) (d : Decimal) : Decimal :=
  match fuel with
  | 0 => d
  | fuel + 1 =>
      if d.digits > 0 && d.digits % 10 == 0 then strip fuel ⟨d.digits / 10, d.exponent + 1⟩
      else d

def shortest (x : Double) : Decimal :=
  let k := x.magnitude
  let found := (List.range 17).findSome? fun n => x.onGrid? (k - Int.ofNat (n + 1))
  strip 20 (found.getD ⟨x.mantissa, 0⟩)

end Double

namespace Decimal

/-- Positional while the exponent of the first digit is at least -5 and below 16. -/
def positional (d : Decimal) (point : Int) : List Char :=
  let digits := Text.decimal d.digits
  if d.exponent ≥ 0 then digits ++ List.replicate d.exponent.toNat '0' ++ ['.', '0']
  else if point > 0 then digits.take point.toNat ++ '.' :: digits.drop point.toNat
  else ['0', '.'] ++ List.replicate (-point).toNat '0' ++ digits

def scientific (d : Decimal) (point : Int) : List Char :=
  let digits := Text.decimal d.digits
  let e := point - 1
  let exponent := (if e < 0 then ['-'] else ['+']) ++ Text.decimal e.natAbs
  let fraction := if digits.length > 1 then '.' :: digits.drop 1 else []
  digits.take 1 ++ fraction ++ 'e' :: exponent

def render (d : Decimal) : List Char :=
  let point := (Text.decimal d.digits).length + d.exponent
  if -4 ≤ point && point ≤ 16 then d.positional point else d.scientific point

end Decimal

def Double.render (bits : UInt64) : List Char :=
  let sign := if negative bits then ['-'] else []
  if isZero bits then sign ++ ['0', '.', '0'] else sign ++ (ofBits bits).shortest.render

end CodeAssist
