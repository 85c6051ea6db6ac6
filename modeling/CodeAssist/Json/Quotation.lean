import CodeAssist.Json.Cursor

namespace CodeAssist.Json

/-! Quoted texts, read octet by octet behind the opening quote. -/

/-- Where the reader stands inside a quoted text. `lead` is the first half of a surrogate pair that
waits for its second half. -/
inductive Within where
  | plain
  | escape
  | hex (lead : Option Nat) (got : Text.Bytes)
  | secondEscape (lead : Nat)
  | secondLetter (lead : Nat)
deriving Repr

inductive Effect where
  | keep
  | next (within : Within) (out : Text.Bytes)
  | close
  | stop (fault : Fault)

def hexValue? (b : UInt8) : Option Nat :=
  if 48 ≤ b && b ≤ 57 then some (b.toNat - 48)
  else if 97 ≤ b && b ≤ 102 then some (b.toNat - 87)
  else if 65 ≤ b && b ≤ 70 then some (b.toNat - 55)
  else none

def hexUnit? (octets : Text.Bytes) : Option Nat :=
  octets.foldl (fun total b => do return (← total) * 16 + (← hexValue? b)) (some 0)

def encodeScalar (n : Nat) : Text.Bytes := String.utf8EncodeChar (Char.ofNat n)

def isLead (n : Nat) : Bool := 0xD800 ≤ n && n ≤ 0xDBFF

def isTrail (n : Nat) : Bool := 0xDC00 ≤ n && n ≤ 0xDFFF

/-- A complete `\u` escape. When the text is only skipped, any unit will do. -/
def unitEffect (strict : Bool) (lead : Option Nat) (n : Nat) : Effect :=
  if !strict then .next .plain []
  else match lead with
    | none =>
        if isTrail n then .stop .loneSurrogate
        else if isLead n then .next (.secondEscape n) []
        else .next .plain (encodeScalar n)
    | some first =>
        if isTrail n then
          .next .plain (encodeScalar (0x10000 + (first - 0xD800) * 0x400 + (n - 0xDC00)))
        else .stop .loneSurrogate

def escapeEffect (b : UInt8) : Effect :=
  match b with
  | 34 => .next .plain [34]
  | 92 => .next .plain [92]
  | 47 => .next .plain [47]
  | 98 => .next .plain [8]
  | 102 => .next .plain [12]
  | 110 => .next .plain [10]
  | 114 => .next .plain [13]
  | 116 => .next .plain [9]
  | 117 => .next (.hex none []) []
  | _ => .stop .invalidEscape

def effect (strict : Bool) (within : Within) (b : UInt8) : Effect :=
  match within with
  | .plain =>
      if b == 34 then .close
      else if b == 92 then .next .escape []
      else if b < 32 then .stop .controlCharacter
      else .keep
  | .escape => escapeEffect b
  | .hex lead got =>
      let got := got ++ [b]
      if got.length < 4 then .next (.hex lead got) []
      else match hexUnit? got with
        | some n => unitEffect strict lead n
        | none => .stop .invalidEscape
  | .secondEscape lead =>
      if b == 92 then .next (.secondLetter lead) [] else .stop .unfinishedSurrogate
  | .secondLetter lead =>
      if b == 117 then .next (.hex (some lead) []) [] else .stop .unfinishedSurrogate

/-- Refuses octets that are not UTF-8, behind the first that belongs to no character. The octets are
the last `run` of `out`, which holds the latest first, and the place is behind them. -/
def checkRun (run : Nat) (out : Text.Bytes) (line column : Nat) : Except ReadError Unit :=
  let octets := (out.take run).reverse
  if (Text.decode? octets).isSome then .ok ()
  else
    .error ⟨.invalidCodePoint, line, column - run + Text.Utf8.validLength octets + 1⟩

/-- The octets of a quoted text, and the cursor behind its closing quote. `out` holds those so far,
latest first, and the last `run` of them stand in the text as they are. A control character in a
text that is only skipped is reported in front of it. -/
def readOctets (strict : Bool) (within : Within) (run : Nat) (out : Text.Bytes) :
    Text.Bytes → Nat → Nat → Except ReadError (Text.Bytes × Cursor)
  | [], line, column => .error ⟨.endInText, line, column⟩
  | b :: rest, line, column =>
      let after : Cursor := Cursor.bump ⟨b :: rest, line, column⟩
      match effect strict within b with
      | .keep => readOctets strict .plain (run + 1) (b :: out) rest after.line after.column
      | .close => do
          if strict then checkRun run out line column
          .ok (out.reverse, after)
      | .next within more => do
          if strict then checkRun run out line column
          readOctets strict within 0 (more.reverse ++ out) rest after.line after.column
      | .stop fault =>
          if !strict && fault == .controlCharacter then .error ⟨fault, line, column⟩
          else .error (after.fail fault)

def readText (c : Cursor) : Except ReadError (String × Cursor) := do
  let (octets, after) ← readOctets true .plain 0 [] c.rest c.line c.column
  match Text.decode? octets with
  | some s => .ok (s, after)
  | none => .error (after.fail .invalidCodePoint)

def skipText (c : Cursor) : Except ReadError Cursor := do
  let (_, after) ← readOctets false .plain 0 [] c.rest c.line c.column
  .ok after

end CodeAssist.Json
