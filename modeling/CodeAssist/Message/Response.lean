import CodeAssist.Failure
import CodeAssist.Json.Scan

namespace CodeAssist

open Json (Shape Fields Mismatch ReadError Cursor)

inductive Outcome where
  | result (value : Json)
  | failure (kind : FailureKind) (message : String)
deriving DecidableEq, Repr, Inhabited

structure Response where
  id : Json
  outcome : Outcome
deriving DecidableEq, Repr, Inhabited

namespace Response

def failure (id : Json) (kind : FailureKind) (message : String) : Response :=
  ⟨id, .failure kind message⟩

def ofResult (id : Json) : Except Failure Json → Response
  | .ok value => ⟨id, .result value⟩
  | .error cause => failure id cause.kind cause.message

def result? (r : Response) : Option Json :=
  match r.outcome with
  | .result value => some value
  | .failure _ _ => none

def toJson (r : Response) : Json :=
  match r.outcome with
  | .result value => .object [("id", r.id), ("result", value)]
  | .failure kind message =>
      .object [("id", r.id),
        ("error", .object [("kind", .text kind.name), ("message", .text message)])]

def encode (r : Response) : Text.Bytes := r.toJson.encode

abbrev failureShape : Shape :=
  .record "ErrorDescriptor" (.required "kind" (.choice FailureKind.names)
    (.required "message" .string .nil))

/-- The first member that names an outcome decides. -/
def outcomeOf (members : List (String × Json)) : Except Mismatch Outcome :=
  match members.find? fun (name, _) => name == "result" || name == "error" with
  | none => .error (.noneOf "Outcome")
  | some (name, value) =>
      if name == "result" then .ok (.result value.normalize)
      else do
        let (kind, message, ()) ← failureShape.ofJson .part value
        .ok (.failure (FailureKind.ofChoice kind) message)

/-- The id and the other members of a response met so far, the latest member first. -/
structure Parts where
  id : Option Json := none
  members : List (String × Json) := []

def readPart (key : String) (c : Cursor) (parts : Parts) : Except ReadError (Parts × Cursor) :=
  if key == "id" && parts.id.isSome then
    .error (Json.mismatchAt (Json.behindObject c) (.repeated "id"))
  else do
    let c ← Json.readColon c
    let (value, c) ← Json.readValue (Json.maxDepth - 1) c
    if key == "id" then .ok ({ parts with id := some value.normalize }, c)
    else .ok ({ parts with members := (key, value) :: parts.members }, c)

def ofParts (parts : Parts) : Except Mismatch Response := do
  let id ← match parts.id with
    | some id => .ok id
    | none => .error (.missing "id")
  let outcome ← outcomeOf parts.members.reverse
  .ok { id, outcome }

def scan (c : Cursor) : Except ReadError (Response × Cursor) := do
  let (b, c) ← Json.lookAhead c
  if b != 123 then .error (Json.unexpected "struct Response" c)
  else do
    let (parts, c) ← Json.readMembers readPart c.fuel true {} c.bump
    match ofParts parts with
    | .ok response => .ok (response, c.bump)
    | .error cause => .error (Json.mismatchAt (Json.behindObject c) cause)

def parse (text : Text.Bytes) : Except ReadError Response := Json.readAll scan text

end Response

end CodeAssist
