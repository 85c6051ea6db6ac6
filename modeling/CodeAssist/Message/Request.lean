import CodeAssist.Failure
import CodeAssist.Json.Scan

namespace CodeAssist

open Json (Shape Fields Mismatch)

structure Request where
  id : Json
  method : String
  params : Json
deriving DecidableEq, Repr, Inhabited

namespace Request

abbrev shape : Shape :=
  .record "Request" (.defaulted "id" .any (.required "method" .string
    (.defaulted "params" .any .nil)))

def ofJson (j : Json) : Except Mismatch Request := do
  let (id, method, params, ()) ← shape.decode j
  .ok { id := id.getD .null, method, params := params.getD .null }

/-- Null params are not written. -/
def toJson (r : Request) : Json :=
  .object ([("id", r.id), ("method", .text r.method)] ++
    if r.params.isNull then [] else [("params", r.params)])

def encode (r : Request) : Text.Bytes := r.toJson.encode

/-- Reads the body of a frame. A failure comes with the id of the request, as far as the body shows
one, and else with null. -/
def decode (body : Text.Bytes) : Except (Json × TransportFailure) Request :=
  match Text.decode? body with
  | none => .error (.null, .invalidUtf8)
  | some _ =>
      match Json.parse body with
      | .error e => .error (.null, .undecodable e.message)
      | .ok document =>
          match ofJson document with
          | .ok request => .ok request
          | .error cause =>
              .error ((document.get? "id").getD .null, .undecodable cause.message)

end Request

end CodeAssist
