import CodeAssist.Router.Basic

namespace CodeAssist

/-- What can happen to a router: a request comes in, one of the requests makes a step, an invocation
of a session makes one, or the engine shuts down. Steps that look at the file system say what they
see, and those that wait for a probe say what it found. -/
inductive Event where
  | arrive (request : Request) (tracked : Bool)
  | dispatch (n : Nat)
  | lock (n : Nat)
  | act (n : Nat) (view : FileView)
  | probed (n : Nat) (answer : Except EnvironmentFailure (List Capability))
  | retire (n : Nat)
  | drained (n : Nat)
  | overdue (n : Nat)
  | look (n : Nat)
  | collect (n : Nat)
  | move (session invocation : Nat) (m : Move)
  | lifecycle (next : Lifecycle)
  | drainStart
  | drainQuiet
  | drainOverdue
  | drainTake
  | drainRetire
  | drainDrained

namespace Router

def put (r : Router) (n : Nat) (task : Task) : Router :=
  match r.received? n with
  | some v => { r with received := Table.put n { v with task } r.received }
  | none => r

def finish (r : Router) (n : Nat) (result : Except Failure Json) : Router := r.put n (.done result)

def unlock (r : Router) : Router := { r with environmentHolder := none, slotHolder := none }

def toolSettings (r : Router) : ToolSettings where
  root := r.slot.root
  budget := r.settings.toolTimeout
  lineLength := r.settings.lineLength

def install (r : Router) (interpreter : Interpreter) : Router :=
  let session : Session := { id := r.nextSession, interpreter, settings := r.toolSettings }
  { r with
    sessions := r.sessions.put session
    nextSession := r.nextSession + 1
    slot := { r.slot with session := some session.id } }

def serve (r : Router) (n : Nat) (call : Call) (id : Nat) : Router :=
  match call.query?, r.sessions.get? id with
  | some q, some s =>
      ({ r with sessions := r.sessions.put (s.start q) }).put n
        (.serving call id s.invocations.length)
  | _, _ => r.finish n (.ok (r.info id))

def dispatch (r : Router) (n : Nat) (request : Request) : Router :=
  if request.method ≠ "shutdown" && !r.lifecycle.isReady then r.finish n (.error .shuttingDown)
  else
    match Call.ofRequest request.method request.params with
    | .error cause => r.finish n (.error cause)
    | .ok call =>
        if call.affectsEnvironment then r.put n (.wantsLock call)
        else
          match call with
          | .ping params => r.finish n (.ok (if params.isNull then .text "pong" else params))
          | call => r.put n (.wantsSession call)

def refuseChange (r : Router) (n : Nat) (cause : EnvironmentFailure) : Router :=
  ({ r with slot := r.slot.failedChange cause }.finish n (.error (.environment cause))).unlock

def replace (r : Router) (n : Nat) (old : Option Nat) (new : Nat) : Router :=
  match old with
  | some old => { r.put n (.replacing old new) with slotHolder := none }
  | none => (r.finish n (.ok (r.info new))).unlock

def change (r : Router) (n : Nat) (params : EnvironmentParams) (kind : Option Kind)
    (interpreter : Interpreter) : Router :=
  let installed := r.install interpreter
  let slot := { installed.slot with
    selection := params.selection, kind, lastError := none, since := n }
  { installed with slot }.replace n r.slot.session r.nextSession

def startChange (r : Router) (n : Nat) (params : EnvironmentParams) (view : FileView) : Router :=
  let kind := params.kind.or r.slot.kind
  match r.resolver.start view params.selection kind r.slot.root true with
  | .failed cause => r.refuseChange n cause
  | .found interpreter => r.change n params kind interpreter
  | .unprobed path found =>
      { r.put n (.changing params kind path found) with slotHolder := some n }

/-- Moves to another root. A session that is there is replaced by one with its interpreter. -/
def moveTo (r : Router) (n : Nat) (root : Path) : Router :=
  let moved := { r with slot := { r.slot with root } }
  match r.slot.session.bind r.sessions.get? with
  | none => (moved.finish n (.ok (.ofMembers [("root", .text root.text)]))).unlock
  | some current =>
      let installed := moved.install current.interpreter
      { installed with slot := { installed.slot with since := n } }.replace n
        (some current.id) r.nextSession

def create (r : Router) (n : Nat) (call : Call) (interpreter : Interpreter) : Router :=
  ((r.install interpreter).serve n call r.nextSession).unlock

/-- Resolves the selection in the slot, unless meanwhile there is a session. -/
def startCreation (r : Router) (n : Nat) (call : Call) (view : FileView) : Router :=
  match r.slot.usable n with
  | .error cause => (r.finish n (.error cause)).unlock
  | .ok (some id) => (r.serve n call id).unlock
  | .ok none =>
      match r.resolver.start view r.slot.selection r.slot.kind r.slot.root false with
      | .failed cause => (r.finish n (.error (.environment cause))).unlock
      | .found interpreter => r.create n call interpreter
      | .unprobed path found =>
          { r.put n (.probing call path found) with slotHolder := some n }

def notFolder (root : Path) : Failure :=
  .invalidParams ("workspace root is not a directory: " ++ root.text)

def act (r : Router) (n : Nat) (view : FileView) : Option Router :=
  match r.task? n with
  | some (.locked .shutdown) =>
      let r := { r with lifecycle := r.lifecycle.beginShutdown }
      some (r.finish n (.ok (.ofMembers [("state", .text r.lifecycle.name)]))).unlock
  | some (.locked (.workspaceSet p)) =>
      if view.isFolder p.root then some (r.put n (.moving p.root))
      else some (r.finish n (.error (notFolder p.root))).unlock
  | some (.locked (.environmentSet p)) =>
      if r.slotHolder.isSome then none else some (r.startChange n p view)
  | some (.moving root) => if r.slotHolder.isSome then none else some (r.moveTo n root)
  | some (.creating call) =>
      if r.slotHolder.isSome then none else some (r.startCreation n call view)
  | _ => none

def probed (r : Router) (n : Nat) (answer : Except EnvironmentFailure (List Capability)) :
    Option Router :=
  match r.task? n with
  | some (.changing params kind path found) =>
      let (result, resolver) := r.resolver.finish path found answer
      match result with
      | .error cause => some ({ r with resolver }.refuseChange n cause)
      | .ok interpreter => some ({ r with resolver }.change n params kind interpreter)
  | some (.probing call path found) =>
      let (result, resolver) := r.resolver.finish path found answer
      match result with
      | .error cause => some ({ r with resolver }.finish n (.error (.environment cause))).unlock
      | .ok interpreter => some ({ r with resolver }.create n call interpreter)
  | _ => none

def isRetired (r : Router) (id : Nat) : Bool := (r.sessions.get? id).all (·.retired.isSome)

/-- Retires the session that a change has replaced. One that is retired already needs no wait. -/
def retireOld (r : Router) (n : Nat) : Option Router :=
  match r.task? n with
  | some (.replacing old new) =>
      if r.isRetired old then some (r.finish n (.ok (r.info new))).unlock
      else some ({ r with sessions := r.sessions.retire old .replaced }.put n (.draining old new))
  | _ => none

def endChange (r : Router) (n : Nat) (overdue : Bool) : Option Router :=
  match r.task? n with
  | some (.draining old new) =>
      if overdue || r.sessions.idle old then some (r.finish n (.ok (r.info new))).unlock else none
  | _ => none

def look (r : Router) (n : Nat) : Option Router :=
  match r.task? n with
  | some (.wantsSession call) =>
      if r.slotHolder.isSome then none
      else match r.slot.usable n with
        | .error cause => some (r.finish n (.error cause))
        | .ok (some id) => some (r.serve n call id)
        | .ok none => some (r.put n (.wantsCreation call))
  | _ => none

def lock (r : Router) (n : Nat) : Option Router :=
  if r.environmentHolder.isSome then none
  else match r.task? n with
    | some (.wantsLock call) => some { r.put n (.locked call) with environmentHolder := some n }
    | some (.wantsCreation call) =>
        some { r.put n (.creating call) with environmentHolder := some n }
    | _ => none

def collect (r : Router) (n : Nat) : Option Router := do
  match ← r.task? n with
  | .serving call id k =>
      let s ← r.sessions.get? id
      let v ← s.invocations[k]?
      let result ← v.stage.result?
      some (r.finish n (result.map call.answer))
  | _ => none

def drainStep? (r : Router) (e : Event) : Option Router :=
  match e, r.drain with
  | .drainStart, .idle => some { r with drain := .waiting }
  | .drainQuiet, .waiting => if r.quiet then some { r with drain := .idle } else none
  | .drainOverdue, .waiting =>
      some { r with drain := .wantsSlot, sessions := r.sessions.close }
  | .drainTake, .wantsSlot =>
      if r.slotHolder.isSome then none
      else
        let taken := { r with slot := { r.slot with session := none } }
        match r.slot.session with
        | some id => some { taken with drain := .retiring id }
        | none => some { taken with drain := .lastWait }
  | .drainRetire, .retiring id =>
      if r.isRetired id then some { r with drain := .lastWait }
      else some { r with drain := .draining id, sessions := r.sessions.retire id .shutdown }
  | .drainDrained, .draining id =>
      if r.sessions.idle id then some { r with drain := .lastWait } else none
  | .drainOverdue, .draining _ => some { r with drain := .lastWait }
  | .drainQuiet, .lastWait => if r.quiet then some { r with drain := .idle } else none
  | .drainOverdue, .lastWait => some { r with drain := .idle }
  | _, _ => none

def step? (r : Router) (e : Event) : Option Router :=
  match e with
  | .arrive request tracked =>
      some { r with
        nextArrival := r.nextArrival + 1
        received := Table.put r.nextArrival { request, tracked } r.received }
  | .dispatch n =>
      match r.received? n with
      | some { request, task := .arrived, .. } => some (r.dispatch n request)
      | _ => none
  | .lock n => r.lock n
  | .act n view => r.act n view
  | .probed n answer => r.probed n answer
  | .retire n => r.retireOld n
  | .drained n => r.endChange n false
  | .overdue n => r.endChange n true
  | .look n => r.look n
  | .collect n => r.collect n
  | .move id k m => (r.sessions.step? id k m).map fun sessions => { r with sessions }
  | .lifecycle next => some { r with lifecycle := r.lifecycle.moveTo next }
  | .drainStart | .drainQuiet | .drainOverdue | .drainTake | .drainRetire | .drainDrained =>
      r.drainStep? e

end Router

end CodeAssist
