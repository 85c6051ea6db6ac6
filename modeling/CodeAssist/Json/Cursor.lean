import CodeAssist.Json.Mismatch

namespace CodeAssist.Json

inductive Fault where
  | endInValue
  | endInList
  | endInObject
  | endInText
  | expectedValue
  | expectedIdent
  | expectedColon
  | expectedListEnd
  | expectedObjectEnd
  | trailingComma
  | trailingCharacters
  | keyNotText
  | invalidNumber
  | outOfRange
  | invalidEscape
  | loneSurrogate
  | unfinishedSurrogate
  | controlCharacter
  | invalidCodePoint
  | tooDeep
  | mismatch (cause : Mismatch)
deriving DecidableEq, Repr

def Fault.message : Fault → String
  | .endInValue => "EOF while parsing a value"
  | .endInList => "EOF while parsing a list"
  | .endInObject => "EOF while parsing an object"
  | .endInText => "EOF while parsing a string"
  | .expectedValue => "expected value"
  | .expectedIdent => "expected ident"
  | .expectedColon => "expected `:`"
  | .expectedListEnd => "expected `,` or `]`"
  | .expectedObjectEnd => "expected `,` or `\x7d`"
  | .trailingComma => "trailing comma"
  | .trailingCharacters => "trailing characters"
  | .keyNotText => "key must be a string"
  | .invalidNumber => "invalid number"
  | .outOfRange => "number out of range"
  | .invalidEscape => "invalid escape"
  | .loneSurrogate => "lone leading surrogate in hex escape"
  | .unfinishedSurrogate => "unexpected end of hex escape"
  | .controlCharacter => "control character (\\u0000-\\u001F) found while parsing a string"
  | .invalidCodePoint => "invalid unicode code point"
  | .tooDeep => "recursion limit exceeded"
  | .mismatch cause => cause.message

/-- A fault and the place where reading stopped: a line, and the octets of it read by then. -/
structure ReadError where
  fault : Fault
  line : Nat
  column : Nat
deriving DecidableEq, Repr

def ReadError.message (e : ReadError) : String :=
  e.fault.message ++ " at line " ++ String.ofList (Text.decimal e.line) ++ " column " ++
    String.ofList (Text.decimal e.column)

structure Cursor where
  rest : Text.Bytes
  line : Nat := 1
  column : Nat := 0
deriving Repr

namespace Cursor

def start (text : Text.Bytes) : Cursor := { rest := text }

def bump (c : Cursor) : Cursor :=
  match c.rest with
  | [] => c
  | b :: rest => if b == 10 then ⟨rest, c.line + 1, 0⟩ else ⟨rest, c.line, c.column + 1⟩

def bumpBy : Nat → Cursor → Cursor
  | 0, c => c
  | n + 1, c => bumpBy n c.bump

def fail (c : Cursor) (fault : Fault) : ReadError := ⟨fault, c.line, c.column⟩

/-- The fault, placed behind the next octet. -/
def failNext (c : Cursor) (fault : Fault) : ReadError := c.bump.fail fault

def isBlank (b : UInt8) : Bool := b == 32 || b == 9 || b == 10 || b == 13

def skipBlank (c : Cursor) : Cursor :=
  go c.rest c.line c.column
where
  go : Text.Bytes → Nat → Nat → Cursor
    | [], line, column => ⟨[], line, column⟩
    | b :: rest, line, column =>
        if b == 10 then go rest (line + 1) 0
        else if isBlank b then go rest line (column + 1)
        else ⟨b :: rest, line, column⟩

def isDigit (b : UInt8) : Bool := 48 ≤ b && b ≤ 57

def digits (c : Cursor) : List Nat × Cursor :=
  let found := c.rest.takeWhile isDigit
  (found.map fun b => b.toNat - 48, ⟨c.rest.dropWhile isDigit, c.line, c.column + found.length⟩)

end Cursor

end CodeAssist.Json
