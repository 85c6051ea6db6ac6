namespace CodeAssist.Text

def bound16 : Nat := 65536

def bound32 : Nat := 4294967296

def bound64 : Nat := 18446744073709551616

def decimal (n : Nat) : List Char :=
  Nat.toDigits 10 n

def digitValue? (c : Char) : Option Nat :=
  if '0' ≤ c && c ≤ '9' then some (c.toNat - '0'.toNat) else none

def digitsValue? (s : List Char) : Option Nat :=
  s.foldl (fun total c => do return (← total) * 10 + (← digitValue? c)) (some 0)

/-- Reads one or more digits, after at most one plus sign, whose value is below `bound`. -/
def readBelow? (bound : Nat) (s : List Char) : Option Nat :=
  let digits := match s with
    | '+' :: rest => rest
    | _ => s
  if digits.isEmpty then none
  else (digitsValue? digits).filter (· < bound)

end CodeAssist.Text
