import CodeAssist.Json.Shape

namespace CodeAssist.Json

/-! Shapes read straight from a text, so that a mismatch is reported where it stands. -/

def mismatchAt (c : Cursor) (cause : Mismatch) : ReadError := c.fail (.mismatch cause)

/-- A value of another kind than expected. A scalar is read first, so a fault in it comes first. -/
def unexpected (expected : String) (c : Cursor) : ReadError :=
  match c.rest with
  | 91 :: _ => mismatchAt c (.wrongType .list expected)
  | 123 :: _ => mismatchAt c (.wrongType .object expected)
  | _ =>
      match readValueWith none c with
      | .error e => e
      | .ok (value, c) => mismatchAt c (.wrongType value.found expected)

/-- The place of a mismatch noticed inside an object: behind the blanks that follow, and behind the
bracket if that comes next. -/
def behindObject (c : Cursor) : Cursor :=
  let c := c.skipBlank
  match c.rest with
  | 125 :: _ => c.bump
  | _ => c

def readListEnd (c : Cursor) : Except ReadError Cursor :=
  let c := c.skipBlank
  match c.rest with
  | [] => .error (c.failNext .endInList)
  | 93 :: _ => .ok c.bump
  | 44 :: _ =>
      let c := c.bump.skipBlank
      match c.rest with
      | 93 :: _ => .error (c.failNext .trailingComma)
      | _ => .error (c.failNext .trailingCharacters)
  | _ => .error (c.failNext .trailingCharacters)

def lookAhead (c : Cursor) : Except ReadError (UInt8 × Cursor) :=
  let c := c.skipBlank
  match c.rest with
  | [] => .error (c.failNext .endInValue)
  | b :: _ => .ok (b, c)

def scanText (expected : String) (c : Cursor) : Except ReadError (String × Cursor) := do
  let (b, c) ← lookAhead c
  if b == 34 then readText c.bump else .error (unexpected expected c)

def scanFlag (c : Cursor) : Except ReadError (Bool × Cursor) := do
  let (b, c) ← lookAhead c
  if b == 116 then do
    let c ← readWord restOfTrue c.bump
    .ok (true, c)
  else if b == 102 then do
    let c ← readWord restOfFalse c.bump
    .ok (false, c)
  else .error (unexpected "a boolean" c)

def scanUnsigned (width : Width) (c : Cursor) : Except ReadError (Nat × Cursor) := do
  let (b, c) ← lookAhead c
  if b == 45 || Cursor.isDigit b then do
    let (n, c) ← if b == 45 then readNumber true c.bump else readNumber false c
    match unsignedOf width n with
    | .ok value => .ok (value, c)
    | .error cause => .error (mismatchAt c cause)
  else .error (unexpected width.name c)

def scanChosen (names : List String) (expected : String) (c : Cursor) :
    Except ReadError (Fin names.length × Cursor) := do
  let (given, c) ← scanText expected c
  match chosen names given with
  | .ok index => .ok (index, c)
  | .error cause => .error (mismatchAt c cause)

def scanUnit (c : Cursor) : Except ReadError Cursor := do
  let (b, c) ← lookAhead c
  if b == 110 then readWord restOfNull c.bump else .error (unexpected "unit" c)

def lookForKey (c : Cursor) : Except ReadError Cursor :=
  let c := c.skipBlank
  match c.rest with
  | [] => .error (c.failNext .endInObject)
  | 34 :: _ => .ok c
  | 125 :: _ => .error (c.failNext .expectedValue)
  | _ => .error (c.failNext .keyNotText)

/-- A name, or an object with the name as its only key and null as its value. -/
def scanChoice (depth : Nat) (names : List String) (c : Cursor) :
    Except ReadError (Fin names.length × Cursor) := do
  let (b, c) ← lookAhead c
  if b == 34 then scanChosen names "variant identifier" c
  else if b == 123 then
    if depth == 0 then .error (c.failNext .tooDeep)
    else do
      let c ← lookForKey c.bump
      let (index, c) ← scanChosen names "variant identifier" c
      let c ← readColon c
      let c ← scanUnit c
      let c := c.skipBlank
      match c.rest with
      | 125 :: _ => .ok (index, c.bump)
      | [] => .error (c.fail .endInObject)
      | _ => .error (c.fail .expectedValue)
  else .error (c.failNext .expectedValue)

mutual

def Shape.scan : (shape : Shape) → (depth : Nat) → Cursor →
    Except ReadError (shape.Value × Cursor)
  | .any, depth, c => do
      let (value, c) ← readValue depth c
      .ok (value.normalize, c)
  | .text expected, _, c => scanText expected c
  | .flag, _, c => scanFlag c
  | .unsigned width, _, c => scanUnsigned width c
  | .choice names, depth, c => scanChoice depth names c
  | .optional shape, depth, c => do
      let c := c.skipBlank
      match c.rest with
      | 110 :: _ => do
          let c ← readWord restOfNull c.bump
          .ok (none, c)
      | _ => do
          let (value, c) ← shape.scan depth c
          .ok (some value, c)
  | .list shape, depth, c => do
      let (b, c) ← lookAhead c
      if b != 91 then .error (unexpected "a sequence" c)
      else if depth == 0 then .error (c.failNext .tooDeep)
      else readItems (shape.scan (depth - 1)) c.fuel true [] c.bump
  | .table shape, depth, c => do
      let (b, c) ← lookAhead c
      if b != 123 then .error (unexpected "a map" c)
      else if depth == 0 then .error (c.failNext .tooDeep)
      else do
        let member (key : String) (c : Cursor) (members : List (String × shape.Value)) := do
          let c ← readColon c
          let (value, c) ← shape.scan (depth - 1) c
          .ok ((key, value) :: members, c)
        let (members, c) ← readMembers member c.fuel true [] c.bump
        .ok (members.reverse, c.bump)
  | .record name fields, depth, c => do
      let (b, c) ← lookAhead c
      if b == 91 then
        if depth == 0 then .error (c.failNext .tooDeep)
        else do
          let (values, c) ← fields.scanItems (depth - 1) (recordLength name fields) 0 true c.bump
          let c ← readListEnd c
          .ok (values, c)
      else if b == 123 then
        if depth == 0 then .error (c.failNext .tooDeep)
        else do
          let (met, c) ← readMembers (fun key => fields.scanMember (depth - 1) key) c.fuel true
            fields.blank c.bump
          match fields.complete met with
          | .ok values => .ok (values, c.bump)
          | .error cause => .error (mismatchAt (behindObject c) cause)
      else .error (unexpected ("struct " ++ name) c)

def Fields.scanItems : (fields : Fields) → (depth : Nat) → (expected : String) → Nat → Bool →
    Cursor → Except ReadError (fields.Value × Cursor)
  | .nil, _, _, _, _, c => .ok ((), c)
  | .cons _ shape true rest, depth, expected, index, first, c => do
      let (more, c) ← anotherItem first c
      if more then do
        let (value, c) ← shape.scan depth c
        let (values, c) ← rest.scanItems depth expected (index + 1) false c
        .ok ((some value, values), c)
      else do
        let (values, c) ← rest.scanItems depth expected (index + 1) first c
        .ok ((none, values), c)
  | .cons _ shape false rest, depth, expected, index, first, c => do
      let (more, c) ← anotherItem first c
      if more then do
        let (value, c) ← shape.scan depth c
        let (values, c) ← rest.scanItems depth expected (index + 1) false c
        .ok ((value, values), c)
      else .error (mismatchAt c.bump (.wrongLength index expected))

def Fields.scanMember : (fields : Fields) → (depth : Nat) → (key : String) → Cursor →
    fields.Partial → Except ReadError (fields.Partial × Cursor)
  | .nil, _, _, c, met => do
      let c ← readColon c
      let c ← skipValue c
      .ok (met, c)
  | .cons name shape _ rest, depth, key, c, (met, later) =>
      if key = name then
        if met.isSome then .error (mismatchAt (behindObject c) (.repeated name))
        else do
          let c ← readColon c
          let (value, c) ← shape.scan depth c
          .ok ((some value, later), c)
      else do
        let (later, c) ← rest.scanMember depth key c later
        .ok ((met, later), c)

end

def Shape.parse (shape : Shape) (text : Text.Bytes) : Except ReadError shape.Value :=
  readAll (shape.scan maxDepth) text

end CodeAssist.Json
