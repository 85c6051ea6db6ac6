import CodeAssist.Edit.Run

namespace CodeAssist.Edit

/-! The middle of a shortest way from an old to a new text, searched from both ends at once. -/

/-- The lines `oldFrom ..< oldTo` of the old and `newFrom ..< newTo` of the new text. -/
structure Box where
  oldFrom : Nat
  oldTo : Nat
  newFrom : Nat
  newTo : Nat
deriving Repr

namespace Box

def height (b : Box) : Nat := b.oldTo - b.oldFrom

def width (b : Box) : Nat := b.newTo - b.newFrom

def delta (b : Box) : Int := b.height - b.width

end Box

structure Reach where
  offset : Nat
  far : Array Nat

namespace Reach

def blank (offset : Nat) : Reach := ⟨offset, Array.replicate (2 * offset + 1) 0⟩

def get (r : Reach) (k : Int) : Nat := r.far.getD (k + r.offset).toNat 0

def set (r : Reach) (k : Int) (x : Nat) : Reach :=
  { r with far := r.far.setIfInBounds (k + r.offset).toNat x }

/-- Where diagonal `k` starts after `d` steps: one step from the better neighbour. -/
def origin (r : Reach) (d : Nat) (k : Int) : Nat :=
  if k == -d || (k != d && r.get (k - 1) < r.get (k + 1)) then r.get (k + 1)
  else r.get (k - 1) + 1

end Reach

inductive Search where
  | found (old new : Nat)
  | going (reach : Reach)

def diagonals (d : Nat) : List Int :=
  (List.range (d + 1)).map fun i => Int.ofNat d - 2 * Int.ofNat i

def forward (t : Texts) (b : Box) (d : Nat) (back : Reach) : List Int → Reach → Search
  | [], reach => .going reach
  | k :: rest, reach =>
      let x := reach.origin d k
      let y := (Int.ofNat x - k).toNat
      let run := if x < b.height && y < b.width then
          t.commonFrom (b.oldFrom + x) (b.newFrom + y) (min (b.height - x) (b.width - y))
        else 0
      let reach := reach.set k (x + run)
      let opposite := k - b.delta
      if b.delta % 2 != 0 && opposite.natAbs + 1 ≤ d &&
          x + run + back.get (-opposite) ≥ b.height then
        .found (b.oldFrom + x) (b.newFrom + y)
      else forward t b d back rest reach

def backward (t : Texts) (b : Box) (d : Nat) (front : Reach) : List Int → Reach → Search
  | [], reach => .going reach
  | k :: rest, reach =>
      let x := reach.origin d k
      let y := (Int.ofNat x - k).toNat
      let run := if x < b.height && y < b.width then
          t.commonBefore (b.oldFrom + (b.height - x)) (b.newFrom + (b.width - y))
            (min (b.height - x) (b.width - y))
        else 0
      let x := x + run
      let y := y + run
      let reach := reach.set k x
      let opposite := k - b.delta
      if b.delta % 2 == 0 && opposite.natAbs ≤ d && x + front.get (-opposite) ≥ b.height then
        .found (b.oldFrom + (b.height - x)) (b.newFrom + (b.width - y))
      else backward t b d front rest reach

def searchFrom (t : Texts) (b : Box) : (fuel d : Nat) → Reach → Reach → Option (Nat × Nat)
  | 0, _, _, _ => none
  | fuel + 1, d, front, back =>
      match forward t b d back (diagonals d) front with
      | .found old new => some (old, new)
      | .going front =>
          match backward t b d front (diagonals d) back with
          | .found old new => some (old, new)
          | .going back => searchFrom t b fuel (d + 1) front back

/-- A point through which a shortest way leads. -/
def middle? (t : Texts) (b : Box) : Option (Nat × Nat) :=
  let limit := (b.height + b.width + 1) / 2 + 1
  searchFrom t b limit 0 (.blank (limit + 1)) (.blank (limit + 1))

end CodeAssist.Edit
