import CodeAssist.Edit.LineEdit
import CodeAssist.Lifecycle
import CodeAssist.Message.Call
import CodeAssist.Message.Request
import CodeAssist.Message.Response
import CodeAssist.Resolver
import CodeAssist.Session.Group
import CodeAssist.Settings

namespace CodeAssist

/-- The session that serves requests, and what the next one is made from. `since` is the number of
the change that put the session here. `lastError` is why the last change left none. -/
structure Slot where
  session : Option Nat := none
  selection : Selection
  kind : Option Kind
  root : Path
  lastError : Option EnvironmentFailure := none
  since : Nat := 0
deriving DecidableEq, Repr

namespace Slot

/-- The session for request `n`, if there is one. A request that came before the change which put
the session here is refused. -/
def usable (slot : Slot) (n : Nat) : Except Failure (Option Nat) :=
  match slot.session, slot.lastError with
  | some id, _ =>
      if n < slot.since then .error (.environment .sessionReplaced) else .ok (some id)
  | none, some cause => .error (.environment (.noSession cause.message))
  | none, none => .ok none

/-- A change that fails is remembered only while there is no session. -/
def failedChange (slot : Slot) (cause : EnvironmentFailure) : Slot :=
  if slot.session.isSome then slot else { slot with lastError := some cause }

end Slot

/-- The stages of a request. Those that change the environment hold the environment lock from
`locked` on, those that make the first session from `creating` on; while an interpreter is probed
both hold the slot as well, and nobody else reads it. -/
inductive Task where
  | arrived
  | wantsLock (call : Call)
  | locked (call : Call)
  | moving (root : Path)
  | changing (params : EnvironmentParams) (kind : Option Kind) (path : Path) (found : Kind)
  | replacing (old new : Nat)
  | draining (old new : Nat)
  | wantsSession (call : Call)
  | wantsCreation (call : Call)
  | creating (call : Call)
  | probing (call : Call) (path : Path) (found : Kind)
  | serving (call : Call) (session invocation : Nat)
  | done (result : Except Failure Json)
deriving Repr

namespace Task

def result? : Task → Option (Except Failure Json)
  | .done result => some result
  | _ => none

def isDone (t : Task) : Bool := t.result?.isSome

end Task

/-- A request that has come in. A shutdown waits for those that are `tracked`. -/
structure Received where
  request : Request
  tracked : Bool
  task : Task := .arrived
deriving Repr

/-- The stages of a shutdown's wait for requests: for all of them, and if that takes too long for
the slot, from which the session is taken, for the work of that session, and once more for all. -/
inductive Drain where
  | idle
  | waiting
  | wantsSlot
  | retiring (session : Nat)
  | draining (session : Nat)
  | lastWait
deriving DecidableEq, Repr

/-- Everything the engine knows while it serves requests. Requests are numbered from 1 as they
come in, and sessions as they are made. Counters of 64 bits give the first 2^64 - 1 of either the
same numbers, and then come round. -/
structure Router where
  settings : Settings
  resolver : Resolver
  lifecycle : Lifecycle
  slot : Slot
  sessions : Sessions
  nextSession : Nat := 1
  nextArrival : Nat := 1
  received : List (Nat × Received) := []
  environmentHolder : Option Nat := none
  slotHolder : Option Nat := none
  drain : Drain := .idle

namespace Router

def ofSettings (settings : Settings) (resolver : Resolver) (lifecycle : Lifecycle) : Router where
  settings := settings
  resolver := resolver
  lifecycle := lifecycle
  slot :=
    { selection := settings.interpreter, kind := settings.kind, root := settings.root }
  sessions := { pool := .ofSize settings.maxWorkers }

def received? (r : Router) (n : Nat) : Option Received := r.received.lookup n

def task? (r : Router) (n : Nat) : Option Task := (r.received? n).map (·.task)

def response? (r : Router) (n : Nat) : Option Response := do
  let received ← r.received? n
  let result ← received.task.result?
  some (.ofResult received.request.id result)

def quiet (r : Router) : Bool := r.received.all fun (_, v) => !v.tracked || v.task.isDone

def info (r : Router) (id : Nat) : Json :=
  match r.sessions.get? id with
  | some s => s.info
  | none => .null

end Router

def Call.query? : Call → Option Query
  | .completion p => some (.completion p.path p.buffer p.offset)
  | .hover p => some (.hover p.path p.buffer p.offset)
  | .format p => some (.format p.path p.buffer)
  | .diagnostics p => some (.diagnostics p.path p.buffer)
  | .ping _ | .shutdown | .environmentSet _ | .workspaceSet _ | .capabilities => none

def Call.answer (call : Call) (a : Answer) : Json :=
  match call, a with
  | .format p, .format text =>
      if p.edits then (Formatted.of p.buffer text).toJson else .text text
  | _, a => a.toJson

end CodeAssist
