namespace CodeAssist

/-- A place in a buffer: lines count from 1, and the characters before it on its line from 0. A line
ends at LF. -/
structure Position where
  line : Nat
  column : Nat
deriving DecidableEq, Repr

namespace Position

def advance (p : Position) (c : Char) : Position :=
  if c == '\n' then ⟨p.line + 1, 0⟩ else ⟨p.line, p.column + 1⟩

def walk (p : Position) : Nat → List Char → Option Position
  | 0, _ => some p
  | _ + 1, [] => none
  | offset + 1, c :: rest => walk (p.advance c) offset rest

/-- The place `offset` characters into a buffer. There is one behind the last character, and none
further on. -/
def at? (buffer : String) (offset : Nat) : Option Position :=
  walk ⟨1, 0⟩ offset buffer.toList

end Position

end CodeAssist
