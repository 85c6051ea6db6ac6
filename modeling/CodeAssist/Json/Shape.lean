import CodeAssist.Json.Reader

namespace CodeAssist.Json

inductive Width where
  | u16
  | u32
  | u64
  | usize
deriving DecidableEq, Repr

def Width.bound : Width → Nat
  | .u16 => Text.bound16
  | .u32 => Text.bound32
  | .u64 => Text.bound64
  | .usize => Text.bound64

def Width.name : Width → String
  | .u16 => "u16"
  | .u32 => "u32"
  | .u64 => "u64"
  | .usize => "usize"

mutual

/-- The shape of a document. A choice is one of several names. A record is an object with
named fields, or the list of their values in order; a field that is `defaulted` may be left out of
either. -/
inductive Shape where
  | any
  | text (expected : String)
  | flag
  | unsigned (width : Width)
  | choice (names : List String)
  | optional (shape : Shape)
  | list (shape : Shape)
  | table (shape : Shape)
  | record (name : String) (fields : Fields)

inductive Fields where
  | nil
  | cons (name : String) (shape : Shape) (defaulted : Bool) (rest : Fields)

end

abbrev Shape.string : Shape := .text "a string"

abbrev Shape.path : Shape := .text "path string"

/-- A field that must be there. An optional one counts as null when an object leaves it out. -/
abbrev Fields.required (name : String) (shape : Shape) (rest : Fields) : Fields :=
  .cons name shape false rest

abbrev Fields.defaulted (name : String) (shape : Shape) (rest : Fields) : Fields :=
  .cons name shape true rest

mutual

@[reducible] def Shape.Value : Shape → Type
  | .any => Json
  | .text _ => String
  | .flag => Bool
  | .unsigned _ => Nat
  | .choice names => Fin names.length
  | .optional shape => Option shape.Value
  | .list shape => List shape.Value
  | .table shape => List (String × shape.Value)
  | .record _ fields => fields.Value

/-- The values of a record; a defaulted field that was left out is `none`. -/
@[reducible] def Fields.Value : Fields → Type
  | .nil => Unit
  | .cons _ shape true rest => Option shape.Value × rest.Value
  | .cons _ shape false rest => shape.Value × rest.Value

end

@[reducible] def Fields.Partial : Fields → Type
  | .nil => Unit
  | .cons _ shape _ rest => Option shape.Value × rest.Partial

namespace Fields

def blank : (fields : Fields) → fields.Partial
  | .nil => ()
  | .cons _ _ _ rest => (none, rest.blank)

def length : Fields → Nat
  | .nil => 0
  | .cons _ _ _ rest => rest.length + 1

def absent (name : String) : (shape : Shape) → Except Mismatch shape.Value
  | .optional _ => .ok none
  | .any | .text _ | .flag | .unsigned _ | .choice _ | .list _ | .table _ | .record _ _ =>
      .error (.missing name)

/-- Completes the fields of an object, the first missing one first. -/
def complete : (fields : Fields) → fields.Partial → Except Mismatch fields.Value
  | .nil, _ => .ok ()
  | .cons _ _ true rest, (met, later) => do
      let values ← rest.complete later
      .ok (met, values)
  | .cons _ _ false rest, (some value, later) => do
      let values ← rest.complete later
      .ok (value, values)
  | .cons name shape false rest, (none, later) => do
      let value ← absent name shape
      let values ← rest.complete later
      .ok (value, values)

end Fields

def elements (n : Nat) : String :=
  String.ofList (Text.decimal n) ++ (if n == 1 then " element" else " elements")

def recordLength (name : String) (fields : Fields) : String :=
  "struct " ++ name ++ " with " ++ elements fields.length

/-- A document of its own, or part of a larger one that is still being taken apart. -/
inductive Source where
  | document
  | part
deriving DecidableEq, Repr

def Source.surplus (source : Source) (total wanted : Nat) : Mismatch :=
  match source with
  | .document => .wrongLength total "fewer elements in array"
  | .part => .wrongLength total (elements wanted ++ " in sequence")

def checkUnit (source : Source) (value : Json) : Except Mismatch Unit :=
  match value, source with
  | .null, _ => .ok ()
  | .object [], .part => .ok ()
  | other, _ => .error (.wrongType other.found "unit")

def chosen (names : List String) (given : String) : Except Mismatch (Fin names.length) :=
  match names.finIdxOf? given with
  | some index => .ok index
  | none => .error (.unknownChoice given names)

def choiceOf (source : Source) (names : List String) (j : Json) :
    Except Mismatch (Fin names.length) :=
  match j with
  | .text given => chosen names given
  | .object [(given, value)] => do
      let name ← chosen names given
      checkUnit source value
      .ok name
  | .object _ => .error (.wrongValue .object "map with a single key")
  | other => .error (.wrongType other.found "string or map")

def unsignedOf (width : Width) (n : Number) : Except Mismatch Nat :=
  match n with
  | .integer (.ofNat value) =>
      if value < width.bound then .ok value else .error (.wrongValue (.number n) width.name)
  | .integer (.negSucc _) => .error (.wrongValue (.number n) width.name)
  | .double _ => .error (.wrongType (.number n) width.name)

mutual

def Shape.ofJson (source : Source) : (shape : Shape) → Json → Except Mismatch shape.Value
  | .any, j => .ok j.normalize
  | .text expected, j =>
      match j with
      | .text s => .ok s
      | other => .error (.wrongType other.found expected)
  | .flag, j =>
      match j with
      | .boolean b => .ok b
      | other => .error (.wrongType other.found "a boolean")
  | .unsigned width, j =>
      match j with
      | .number n => unsignedOf width n
      | other => .error (.wrongType other.found width.name)
  | .choice names, j => choiceOf source names j
  | .optional shape, j =>
      match j with
      | .null => .ok none
      | other => do
          let value ← shape.ofJson source other
          .ok (some value)
  | .list shape, j =>
      match j with
      | .list items => items.mapM (shape.ofJson source)
      | other => .error (.wrongType other.found "a sequence")
  | .table shape, j =>
      match j with
      | .object members => members.mapM fun (name, value) => do
          let value ← shape.ofJson source value
          .ok (name, value)
      | other => .error (.wrongType other.found "a map")
  | .record name fields, j =>
      match j with
      | .list items => do
          let (values, surplus) ← fields.ofItems source (recordLength name fields) 0 items
          if surplus.isEmpty then .ok values
          else .error (source.surplus items.length fields.length)
      | .object members => do
          let met ← members.foldlM (fun met (key, value) => fields.ofMember source key value met)
            fields.blank
          fields.complete met
      | other => .error (.wrongType other.found ("struct " ++ name))

def Fields.ofItems (source : Source) (expected : String) :
    (fields : Fields) → Nat → List Json → Except Mismatch (fields.Value × List Json)
  | .nil, _, items => .ok ((), items)
  | .cons _ shape true rest, index, items =>
      match items with
      | [] => do
          let (values, items) ← rest.ofItems source expected (index + 1) []
          .ok ((none, values), items)
      | item :: items => do
          let value ← shape.ofJson source item
          let (values, items) ← rest.ofItems source expected (index + 1) items
          .ok ((some value, values), items)
  | .cons _ shape false rest, index, items =>
      match items with
      | [] => .error (.wrongLength index expected)
      | item :: items => do
          let value ← shape.ofJson source item
          let (values, items) ← rest.ofItems source expected (index + 1) items
          .ok ((value, values), items)

/-- Takes in one member. A member that no field is named after is ignored. -/
def Fields.ofMember (source : Source) (key : String) (value : Json) :
    (fields : Fields) → fields.Partial → Except Mismatch fields.Partial
  | .nil, met => .ok met
  | .cons name shape _ rest, (met, later) =>
      if key = name then
        if met.isSome then .error (.repeated name)
        else do
          let value ← shape.ofJson source value
          .ok (some value, later)
      else do
        let later ← rest.ofMember source key value later
        .ok (met, later)

end

def Shape.decode (shape : Shape) (j : Json) : Except Mismatch shape.Value :=
  shape.ofJson .document j

end CodeAssist.Json
