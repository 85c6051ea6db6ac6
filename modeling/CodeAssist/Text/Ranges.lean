namespace CodeAssist.Text

/-! Sets of characters as inclusive ranges of code points. -/

abbrev Ranges := List (Nat × Nat)

def Ranges.has (ranges : Ranges) (c : Char) : Bool :=
  ranges.any fun (low, high) => low ≤ c.toNat && c.toNat ≤ high

end CodeAssist.Text
