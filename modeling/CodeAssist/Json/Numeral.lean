import CodeAssist.Json.Cursor

namespace CodeAssist.Json

structure Numeral where
  negative : Bool
  whole : List Nat
  fraction : List Nat := []
  exponent : Option (Bool × List Nat) := none
deriving Repr

namespace Numeral

/-! The value of a numeral is built from as many of its digits as fit 64 bits, scaled by a power of
ten in double arithmetic. -/

/-- Digits collected so far, the power of ten they are to be scaled by, and whether all fitted. -/
structure Collected where
  significand : Nat := 0
  scale : Int := 0
  full : Bool := false

def fits (significand digit : Nat) : Bool := significand * 10 + digit < Text.bound64

/-- Once a digit does not fit, each further one before the point counts as a power of ten. -/
def Collected.addWhole (s : Collected) (digit : Nat) : Collected :=
  if !s.full && fits s.significand digit then
    { s with significand := s.significand * 10 + digit }
  else { s with scale := s.scale + 1, full := true }

structure Fraction where
  state : Collected
  dropping : Bool := false

/-- Once a digit does not fit, all further ones behind the point are dropped. -/
def Fraction.add (s : Fraction) (digit : Nat) : Fraction :=
  if !s.dropping && fits s.state.significand digit then
    { s with state := { s.state with
        significand := s.state.significand * 10 + digit, scale := s.state.scale - 1 } }
  else { s with dropping := true }

def collect (n : Numeral) : Collected :=
  let whole := n.whole.foldl Collected.addWhole {}
  (n.fraction.foldl Fraction.add { state := whole }).state

def exponentLimit : Nat := 2147483647

def ofDigits (digits : List Nat) : Nat := digits.foldl (fun total d => total * 10 + d) 0

/-- How many digits of an exponent are read before it passes the limit, if it does. -/
def overlong? (digits : List Nat) : Option Nat :=
  (List.range' 1 digits.length).find? fun n => ofDigits (digits.take n) > exponentLimit

def tenTo (n : Nat) : Float := Float.ofScientific 1 false n

/-- `f * 10 ^ scale`, in steps of `10 ^ 308` for very small results; `none` out of range. -/
def scaled? : Nat → Float → Int → Option Float
  | 0, f, _ => some f
  | fuel + 1, f, scale =>
      if scale.natAbs ≤ 308 then
        if scale ≥ 0 then
          let product := f * tenTo scale.natAbs
          if product.isInf then none else some product
        else some (f / tenTo scale.natAbs)
      else if f == 0 then some f
      else if scale ≥ 0 then none
      else scaled? fuel (f / tenTo 308) (scale + 308)

def signed (negative : Bool) (f : Float) : UInt64 := (if negative then -f else f).toBits

/-- A scale below `-700` already gives zero, so the steps needed are few. -/
def double? (negative : Bool) (significand : Nat) (scale : Int) : Option Number :=
  let f := (UInt64.ofNat significand).toFloat
  (scaled? 8 f (max scale (-2000))).map fun f => .double (signed negative f)

/-- The value of a numeral, or `none` if it is out of range. An exponent past the limit gives zero
or is out of range. -/
def value? (n : Numeral) : Option Number :=
  let s := n.collect
  match n.exponent with
  | some (up, digits) =>
      if (overlong? digits).isSome then
        if s.significand ≠ 0 && up then none else some (.double (signed n.negative 0))
      else
        let e := Int.ofNat (ofDigits digits)
        double? n.negative s.significand (if up then s.scale + e else s.scale - e)
  | none =>
      if !n.fraction.isEmpty || s.full then double? n.negative s.significand s.scale
      else if !n.negative then some (.integer s.significand)
      else if 0 < s.significand && 2 * s.significand ≤ Text.bound64 then
        some (.integer (-Int.ofNat s.significand))
      else some (.double (signed true (UInt64.ofNat s.significand).toFloat))

end Numeral

/-- One digit, or several of which the first is not zero. -/
def readWhole (c : Cursor) : Except ReadError (List Nat × Cursor) :=
  let (digits, after) := c.digits
  match digits with
  | [] => .error (if c.rest.isEmpty then c.fail .endInValue else c.bump.fail .invalidNumber)
  | 0 :: _ :: _ => .error (c.bump.failNext .invalidNumber)
  | _ => .ok (digits, after)

def readFraction (c : Cursor) : Except ReadError (List Nat × Cursor) :=
  match c.rest with
  | 46 :: _ =>
      let (digits, after) := c.bump.digits
      if digits.isEmpty then
        .error (after.failNext (if after.rest.isEmpty then .endInValue else .invalidNumber))
      else .ok (digits, after)
  | _ => .ok ([], c)

def readExponentSign (c : Cursor) : Bool × Cursor :=
  match c.rest with
  | 43 :: _ => (true, c.bump)
  | 45 :: _ => (false, c.bump)
  | _ => (true, c)

def readExponent (c : Cursor) : Except ReadError (Option (Bool × List Nat) × Cursor) :=
  match c.rest with
  | b :: _ =>
      if b == 101 || b == 69 then
        let (up, c) := readExponentSign c.bump
        let (digits, after) := c.digits
        if digits.isEmpty then
          .error (if c.rest.isEmpty then c.fail .endInValue else c.bump.fail .invalidNumber)
        else .ok (some (up, digits), after)
      else .ok (none, c)
  | [] => .ok (none, c)

/-- An exponent that is too long is noticed at the digit that makes it so. -/
def rangeError (n : Numeral) (after : Cursor) : ReadError :=
  match n.exponent with
  | some (_, digits) =>
      let unread := match Numeral.overlong? digits with
        | some read => digits.length - read
        | none => 0
      { after.fail .outOfRange with column := after.column - unread }
  | none => after.fail .outOfRange

def readNumber (negative : Bool) (c : Cursor) : Except ReadError (Number × Cursor) := do
  let (whole, c) ← readWhole c
  let (fraction, c) ← readFraction c
  let (exponent, c) ← readExponent c
  let n : Numeral := { negative, whole, fraction, exponent }
  match n.value? with
  | some value => .ok (value, c)
  | none => .error (rangeError n c)

def skipNumber (c : Cursor) : Except ReadError Cursor := do
  let (whole, after) := c.digits
  match whole with
  | [] => .error (c.bump.fail .invalidNumber)
  | 0 :: _ :: _ => .error (c.bump.failNext .invalidNumber)
  | _ =>
      let after ← match after.rest with
        | 46 :: _ =>
            let (digits, later) := after.bump.digits
            if digits.isEmpty then .error (later.failNext .invalidNumber) else .ok later
        | _ => .ok after
      match after.rest with
      | b :: _ =>
          if b == 101 || b == 69 then
            let (_, c) := readExponentSign after.bump
            let (digits, later) := c.digits
            if digits.isEmpty then .error (c.bump.fail .invalidNumber) else .ok later
          else .ok after
      | [] => .ok after

end CodeAssist.Json
