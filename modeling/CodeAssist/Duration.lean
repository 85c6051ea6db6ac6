import CodeAssist.Text.Numeral

namespace CodeAssist

structure Duration where
  nanos : Nat
deriving DecidableEq, Repr, Inhabited

namespace Duration

def ofMillis (ms : Nat) : Duration := ⟨ms * 1000000⟩

/-- `whole` and `part` of `1 / unit`, without the zeros at the end of the fraction. -/
def scaled (nanos unit width : Nat) : String :=
  let fraction := Text.decimal (nanos % unit)
  let padded := List.replicate (width - fraction.length) '0' ++ fraction
  let digits := (padded.reverse.dropWhile (· == '0')).reverse
  let whole := Text.decimal (nanos / unit)
  String.ofList (if digits.isEmpty then whole else whole ++ '.' :: digits)

/-- The largest of the units s, ms, µs and ns of which there is at least one. -/
def display (d : Duration) : String :=
  if d.nanos ≥ 1000000000 then scaled d.nanos 1000000000 9 ++ "s"
  else if d.nanos ≥ 1000000 then scaled d.nanos 1000000 6 ++ "ms"
  else if d.nanos ≥ 1000 then scaled d.nanos 1000 3 ++ "µs"
  else scaled d.nanos 1 0 ++ "ns"

end Duration

end CodeAssist
