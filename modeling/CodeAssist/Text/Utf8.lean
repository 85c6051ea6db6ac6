namespace CodeAssist.Text

abbrev Bytes := List UInt8

def encode (s : String) : Bytes :=
  s.toUTF8.toList

def decode? (bytes : Bytes) : Option String :=
  String.fromUTF8? ⟨bytes.toArray⟩

namespace Utf8

/-! Decoding that never fails: the longest start of a character that the octets leave unfinished
becomes one replacement character. -/

def replacement : Char := '\uFFFD'

/-- What an unfinished character still needs: how many octets, the range of the next one, and the
bits collected so far. -/
structure Pending where
  left : Nat
  low : UInt8
  high : UInt8
  bits : Nat

inductive Opening where
  | character (c : Char)
  | begun (pending : Pending)
  | bad

def opening (b : UInt8) : Opening :=
  if b < 0x80 then .character (Char.ofNat b.toNat)
  else if b < 0xC2 then .bad
  else if b < 0xE0 then .begun ⟨1, 0x80, 0xBF, b.toNat - 0xC0⟩
  else if b == 0xE0 then .begun ⟨2, 0xA0, 0xBF, 0⟩
  else if b == 0xED then .begun ⟨2, 0x80, 0x9F, 0xD⟩
  else if b < 0xF0 then .begun ⟨2, 0x80, 0xBF, b.toNat - 0xE0⟩
  else if b == 0xF0 then .begun ⟨3, 0x90, 0xBF, 0⟩
  else if b < 0xF4 then .begun ⟨3, 0x80, 0xBF, b.toNat - 0xF0⟩
  else if b == 0xF4 then .begun ⟨3, 0x80, 0x8F, 4⟩
  else .bad

structure State where
  done : List Char := []
  pending : Option Pending := none

def State.openWith (st : State) (b : UInt8) : State :=
  match opening b with
  | .character c => ⟨c :: st.done, none⟩
  | .begun p => ⟨st.done, some p⟩
  | .bad => ⟨replacement :: st.done, none⟩

def State.feed (st : State) (b : UInt8) : State :=
  match st.pending with
  | none => st.openWith b
  | some p =>
      if p.low ≤ b && b ≤ p.high then
        let bits := p.bits * 64 + (b.toNat - 0x80)
        if p.left == 1 then ⟨Char.ofNat bits :: st.done, none⟩
        else ⟨st.done, some ⟨p.left - 1, 0x80, 0xBF, bits⟩⟩
      else
        State.openWith ⟨replacement :: st.done, none⟩ b

def State.close (st : State) : List Char :=
  match st.pending with
  | none => st.done.reverse
  | some _ => (replacement :: st.done).reverse

def advance? (pending : Option Pending) (b : UInt8) : Option (Option Pending) :=
  match pending with
  | none =>
      match opening b with
      | .character _ => some none
      | .begun p => some (some p)
      | .bad => none
  | some p =>
      if p.low ≤ b && b ≤ p.high then
        if p.left == 1 then some none else some (some ⟨p.left - 1, 0x80, 0xBF, 0⟩)
      else none

/-- The octets of `bytes` in front of the first that belongs to no character, counted on from `seen`
of which `whole` end a character. -/
def validFrom (pending : Option Pending) (seen whole : Nat) : Bytes → Nat
  | [] => whole
  | b :: rest =>
      match advance? pending b with
      | none => whole
      | some pending =>
          validFrom pending (seen + 1) (if pending.isNone then seen + 1 else whole) rest

def validLength (bytes : Bytes) : Nat := validFrom none 0 0 bytes

end Utf8

def decodeLossy (bytes : Bytes) : String :=
  String.ofList (bytes.foldl Utf8.State.feed {}).close

end CodeAssist.Text
