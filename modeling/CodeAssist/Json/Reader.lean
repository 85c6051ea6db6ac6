import CodeAssist.Json.Numeral
import CodeAssist.Json.Quotation

namespace CodeAssist.Json

/-! Reading documents. Every function starts at its first octet and stops behind its last. -/

def readWord : Text.Bytes → Cursor → Except ReadError Cursor
  | [], c => .ok c
  | letter :: word, c =>
      match c.rest with
      | [] => .error (c.fail .endInValue)
      | b :: _ => if b == letter then readWord word c.bump else .error (c.bump.fail .expectedIdent)

def restOfNull : Text.Bytes := [117, 108, 108]

def restOfTrue : Text.Bytes := [114, 117, 101]

def restOfFalse : Text.Bytes := [97, 108, 115, 101]

/-- Whether a list goes on. `first` says that nothing has been read from it yet. The cursor is then
in front of an item, and else in front of the closing bracket. -/
def anotherItem (first : Bool) (c : Cursor) : Except ReadError (Bool × Cursor) :=
  let c := c.skipBlank
  match c.rest with
  | [] => .error (c.failNext .endInList)
  | 93 :: _ => .ok (false, c)
  | b :: _ =>
      if first then .ok (true, c)
      else if b == 44 then
        let c := c.bump.skipBlank
        match c.rest with
        | [] => .error (c.failNext .endInValue)
        | 93 :: _ => .error (c.failNext .trailingComma)
        | _ => .ok (true, c)
      else .error (c.failNext .expectedListEnd)

def anotherMember (first : Bool) (c : Cursor) : Except ReadError (Bool × Cursor) :=
  let c := c.skipBlank
  match c.rest with
  | [] => .error (c.failNext .endInObject)
  | 125 :: _ => .ok (false, c)
  | b :: _ =>
      if first then
        if b == 34 then .ok (true, c) else .error (c.failNext .keyNotText)
      else if b == 44 then
        let c := c.bump.skipBlank
        match c.rest with
        | [] => .error (c.failNext .endInValue)
        | 34 :: _ => .ok (true, c)
        | 125 :: _ => .error (c.failNext .trailingComma)
        | _ => .error (c.failNext .keyNotText)
      else .error (c.failNext .expectedObjectEnd)

def readColon (c : Cursor) : Except ReadError Cursor :=
  let c := c.skipBlank
  match c.rest with
  | [] => .error (c.failNext .endInObject)
  | 58 :: _ => .ok c.bump
  | _ => .error (c.failNext .expectedColon)

/-- The items of a list up to its closing bracket, behind which the cursor stops. Each item takes
up text, so `fuel` need not pass the length of what is left. -/
def readItems (item : Cursor → Except ReadError (α × Cursor)) :
    Nat → Bool → List α → Cursor → Except ReadError (List α × Cursor)
  | 0, _, _, c => .error (c.fail .endInList)
  | fuel + 1, first, items, c => do
      let (more, c) ← anotherItem first c
      if more then
        let (value, c) ← item c
        readItems item fuel false (value :: items) c
      else .ok (items.reverse, c.bump)

/-- The members of an object, each handed to `member` with its key and the cursor behind that. The
cursor stops in front of the closing bracket. -/
def readMembers (member : String → Cursor → σ → Except ReadError (σ × Cursor)) :
    Nat → Bool → σ → Cursor → Except ReadError (σ × Cursor)
  | 0, _, _, c => .error (c.fail .endInObject)
  | fuel + 1, first, state, c => do
      let (more, c) ← anotherMember first c
      if more then
        let (key, c) ← readText c.bump
        let (state, c) ← member key c state
        readMembers member fuel false state c
      else .ok (state, c)

def Cursor.fuel (c : Cursor) : Nat := c.rest.length + 1

/-- A list or an object whose parts `nested` reads, or a fault if nesting must go no further. -/
def readNested (nested : Option (Cursor → Except ReadError (Json × Cursor))) (c : Cursor) :
    Except ReadError (Json × Cursor) :=
  match nested with
  | none => .error (c.failNext .tooDeep)
  | some value =>
      match c.rest with
      | 91 :: _ => do
          let (items, c) ← readItems value c.fuel true [] c.bump
          .ok (.list items, c)
      | _ => do
          let member (key : String) (c : Cursor) (members : List (String × Json)) := do
            let c ← readColon c
            let (v, c) ← value c
            .ok ((key, v) :: members, c)
          let (members, c) ← readMembers member c.fuel true [] c.bump
          .ok (.object members.reverse, c.bump)

def readValueWith (nested : Option (Cursor → Except ReadError (Json × Cursor))) (c : Cursor) :
    Except ReadError (Json × Cursor) := do
  let c := c.skipBlank
  match c.rest with
  | [] => .error (c.failNext .endInValue)
  | b :: _ =>
      match b with
      | 110 => do
          let c ← readWord restOfNull c.bump
          .ok (.null, c)
      | 116 => do
          let c ← readWord restOfTrue c.bump
          .ok (.boolean true, c)
      | 102 => do
          let c ← readWord restOfFalse c.bump
          .ok (.boolean false, c)
      | 45 => do
          let (n, c) ← readNumber true c.bump
          .ok (.number n, c)
      | 34 => do
          let (s, c) ← readText c.bump
          .ok (.text s, c)
      | 91 => readNested nested c
      | 123 => readNested nested c
      | _ =>
          if Cursor.isDigit b then do
            let (n, c) ← readNumber false c
            .ok (.number n, c)
          else .error (c.failNext .expectedValue)

/-- A document whose brackets nest at most `depth` deep, its members in the order written. -/
def readValue : Nat → Cursor → Except ReadError (Json × Cursor)
  | 0 => readValueWith none
  | depth + 1 => readValueWith (some (readValue depth))

def maxDepth : Nat := 127

def readEnd (c : Cursor) : Except ReadError Unit :=
  let c := c.skipBlank
  if c.rest.isEmpty then .ok () else .error (c.failNext .trailingCharacters)

def readAll (reader : Cursor → Except ReadError (α × Cursor)) (text : Text.Bytes) :
    Except ReadError α := do
  let (value, c) ← reader (.start text)
  readEnd c
  .ok value

def parse (text : Text.Bytes) : Except ReadError Json := do
  let document ← readAll (readValue maxDepth) text
  .ok document.normalize

/-! Moving past a value that nobody asked for: its brackets may nest at will, its numbers are not
computed, and a comma may be followed only by a value. -/

/-- What encloses the place where a skipped value stands, the innermost bracket first. -/
abbrev Brackets := List Bool

def skipKey (c : Cursor) : Except ReadError Cursor := do
  let c := c.skipBlank
  match c.rest with
  | [] => .error (c.failNext .endInObject)
  | 34 :: _ => do
      let c ← skipText c.bump
      readColon c
  | _ => .error (c.failNext .keyNotText)

/-- Behind a value, or behind an opening bracket when `comma` is false: closes brackets until
another value has to come, and gives the brackets that are still open then. -/
def skipClosing : Nat → Bool → Brackets → Cursor → Except ReadError (Brackets × Cursor)
  | 0, _, outer, c => .ok (outer, c)
  | _, _, [], c => .ok ([], c)
  | fuel + 1, comma, inObject :: outer, c =>
      let c := c.skipBlank
      match c.rest with
      | [] => .error (c.failNext (if inObject then .endInObject else .endInList))
      | b :: _ =>
          if b == (if inObject then 125 else 93) then skipClosing fuel true outer c.bump
          else if b == 44 && comma then .ok (inObject :: outer, c.bump)
          else if comma then
            .error (c.failNext (if inObject then .expectedObjectEnd else .expectedListEnd))
          else .ok (inObject :: outer, c)

def skipScalar (c : Cursor) (b : UInt8) : Except ReadError Cursor :=
  match b with
  | 110 => readWord restOfNull c.bump
  | 116 => readWord restOfTrue c.bump
  | 102 => readWord restOfFalse c.bump
  | 45 => skipNumber c.bump
  | 34 => skipText c.bump
  | _ => if Cursor.isDigit b then skipNumber c else .error (c.failNext .expectedValue)

def skipFrom : Nat → Brackets → Cursor → Except ReadError Cursor
  | 0, _, c => .ok c
  | fuel + 1, outer, c => do
      let c := c.skipBlank
      match c.rest with
      | [] => .error (c.failNext .endInValue)
      | b :: _ =>
          let (opened, c) ←
            if b == 91 then .ok (some false, c.bump)
            else if b == 123 then .ok (some true, c.bump)
            else do
              let c ← skipScalar c b
              .ok (none, c)
          let (left, c) ← match opened with
            | some inObject => skipClosing c.fuel false (inObject :: outer) c
            | none => skipClosing c.fuel true outer c
          match left with
          | [] => .ok c
          | inObject :: _ =>
              let c ← if inObject then skipKey c else .ok c
              skipFrom fuel left c

def skipValue (c : Cursor) : Except ReadError Cursor := skipFrom c.fuel [] c

end CodeAssist.Json
