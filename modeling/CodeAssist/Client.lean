import CodeAssist.Frame
import CodeAssist.Host.SystemError
import CodeAssist.Message.Request
import CodeAssist.Message.Response

namespace CodeAssist

open Text (Bytes)

/-- How a connection breaks: it takes so many octets more, and then fails. -/
structure Breakage where
  room : Nat
  cause : TransportFailure
deriving DecidableEq, Repr

/-- A connection to an engine, seen from its client. A counter of 64 bits in place of `nextId` gives
the first 2^64 - 1 requests the same ids, and then overflows. -/
structure Client where
  nextId : Nat := 1
  /-- What the engine has sent, and will send, that the client has not read. -/
  unread : Bytes := []
  sent : Bytes := []
  breakage : Option Breakage := none
deriving DecidableEq, Repr

namespace Client

def write (c : Client) (body : Bytes) : Except TransportFailure Unit × Client :=
  let frame := Frame.encode body
  match c.breakage with
  | none => (.ok (), { c with sent := c.sent ++ frame })
  | some ⟨room, cause⟩ =>
      let sent := c.sent ++ frame.take room
      let after := { c with sent, breakage := some ⟨room - frame.length, cause⟩ }
      (if frame.length ≤ room then .ok () else .error cause, after)

def sendRaw (c : Client) (body : Bytes) : Client := (c.write body).2

/-- Sends a request, and yields its id if the whole of it could be written. -/
def submit (c : Client) (method : String) (params : Json) :
    Except TransportFailure Json × Client :=
  let id := Json.ofNat c.nextId
  let request : Request := { id, method, params }
  let (outcome, after) := { c with nextId := c.nextId + 1 }.write request.encode
  (outcome.map fun _ => id, after)

/-- Sends as much of a request as the connection takes; its id comes with the client. -/
def send (c : Client) (method : String) (params : Json) : Json × Client :=
  (.ofNat c.nextId, (c.submit method params).2)

def receive (c : Client) : Except TransportFailure Response × Client :=
  match Frame.read c.unread with
  | .finished => (.error .connectionClosed, { c with unread := [] })
  | .failed cause rest => (.error cause, { c with unread := rest })
  | .body body rest =>
      match Response.parse body with
      | .ok response => (.ok response, { c with unread := rest })
      | .error e => (.error (.undecodable e.message), { c with unread := rest })

theorem receive_unread_lt {c after : Client} {response : Response}
    (found : c.receive = (.ok response, after)) : after.unread.length < c.unread.length := by
  unfold receive at found
  split at found
  · simp at found
  · simp at found
  · next read =>
      split at found
      · simp only [Prod.mk.injEq] at found
        rw [← found.2]
        exact Frame.read_rest_lt read
      · simp at found

/-- Reads up to the response with the given id. Those to other requests are passed over. -/
def await (c : Client) (id : Json) : Except TransportFailure Response × Client :=
  match _found : c.receive with
  | (.error cause, after) => (.error cause, after)
  | (.ok response, after) =>
      if response.id = id then (.ok response, after) else after.await id
termination_by c.unread.length
decreasing_by exact receive_unread_lt _found

def call (c : Client) (method : String) (params : Json) :
    Except TransportFailure Response × Client :=
  match c.submit method params with
  | (.error cause, after) => (.error cause, after)
  | (.ok id, after) => after.await id

end Client

/-- How the engine's machine reaches others, and is reached. `exchange` sends all it is given to an
address and yields all that comes back; `listen` takes an address for an engine. -/
structure Network where
  exchange : String → Bytes → Except SystemError Bytes
  listen : String → Except SystemError Unit

namespace Network

/-- A machine without a way to any other, itself included. It can still listen. -/
def unreachable : Network where
  exchange _ _ := .error .unreachable
  listen _ := .ok ()

def call (network : Network) (address method : String) (params : Json) :
    Except SystemError (Except TransportFailure Response) :=
  let (id, client) := ({} : Client).send method params
  match network.exchange address client.sent with
  | .error cause => .error cause
  | .ok answer => .ok ({ client with unread := answer }.await id).1

def answers (network : Network) (address : String) : Bool :=
  match network.call address "ping" .null with
  | .ok (.ok response) => response.result?.isSome
  | _ => false

end Network

end CodeAssist
