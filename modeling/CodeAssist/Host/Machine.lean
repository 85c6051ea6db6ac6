import CodeAssist.Host.Floor
import CodeAssist.Router.Step

namespace CodeAssist

inductive Wait where
  | change (n : Nat)
  | drain
deriving DecidableEq, Repr

/-- A router at work on a host. `lockQueue` are the requests that have asked for the environment
lock, in that order; `waits` are the deadlines of the router's waits, and `drainTime` is how long
each wait of a shutdown may take. -/
structure Machine where
  floor : Floor
  router : Router
  lockQueue : List Nat := []
  waits : List (Wait × Nat) := []
  drainTime : Duration := .ofMillis 0

namespace Machine

def requests (m : Machine) : List Nat := List.range' 1 (m.router.nextArrival - 1)

def wantsLock (m : Machine) (n : Nat) : Bool :=
  match m.router.task? n with
  | some (.wantsLock _) | some (.wantsCreation _) => true
  | _ => false

def isNextToLock (m : Machine) (n : Nat) : Bool := m.lockQueue.find? m.wantsLock == some n

/-- What the host does about an event: it queues a request that wants the lock, starts the probe
that a request waits for, and sets deadlines. -/
def follow (m : Machine) (e : Event) : Machine :=
  match e with
  | .dispatch n | .look n =>
      if m.wantsLock n then { m with lockQueue := m.lockQueue ++ [n] } else m
  | .act n _ =>
      match m.router.task? n, m.router.resolver.probe with
      | some (.changing _ _ path _), .run budget | some (.probing _ path _), .run budget =>
          { m with floor := m.floor.launch (.probe n) (Probe.command path budget) }
      | _, _ => m
  | .probed n _ => { m with floor := m.floor.forget (.probe n) }
  | .retire n =>
      let deadline := m.floor.clock + m.router.settings.drainTimeout.nanos
      match m.router.task? n with
      | some (.draining _ _) => { m with waits := Table.put (.change n) deadline m.waits }
      | _ => m
  | .drained n | .overdue n => { m with waits := Table.without (.change n) m.waits }
  | .drainStart | .drainQuiet | .drainOverdue | .drainTake | .drainRetire | .drainDrained =>
      let deadline := m.floor.clock + m.drainTime.nanos
      match m.router.drain with
      | .waiting | .draining _ | .lastWait =>
          { m with waits := Table.put .drain deadline m.waits }
      | .idle | .wantsSlot | .retiring _ => { m with waits := Table.without .drain m.waits }
  | _ => m

def make (m : Machine) (e : Event) : Option Machine :=
  (m.router.step? e).map fun router => { m with router }.follow e

def probed? (m : Machine) (n : Nat) (path : Path) : Option Event :=
  match m.router.resolver.probe with
  | .fixed capabilities => some (.probed n (.ok capabilities))
  | .run _ => do
      let p ← m.floor.process? (.probe n)
      if p.isRefused then some (.probed n (Probe.ofEnd path p.result)) else none

def event? (m : Machine) (n : Nat) : Option Event := do
  match ← m.router.task? n with
  | .arrived => some (.dispatch n)
  | .wantsLock _ | .wantsCreation _ => if m.isNextToLock n then some (.lock n) else none
  | .locked _ | .moving _ | .creating _ => some (.act n m.floor.host.view)
  | .changing _ _ path _ | .probing _ path _ => m.probed? n path
  | .replacing _ _ => some (.retire n)
  | .draining _ _ => some (.drained n)
  | .wantsSession _ => some (.look n)
  | .serving _ _ _ => some (.collect n)
  | .done _ => none

def advance (m : Machine) (n : Nat) : Option Machine := do
  match ← m.router.task? n with
  | .serving _ id k =>
      let (floor, sessions) ← m.floor.advance m.router.sessions id k
      some { m with floor, router := { m.router with sessions } }
  | _ => none

def next (m : Machine) (n : Nat) : Option Machine :=
  ((m.event? n).bind m.make).or (m.advance n)

def drainEvents : List Event := [.drainQuiet, .drainTake, .drainRetire, .drainDrained]

def nextStep (m : Machine) : Option Machine :=
  (m.requests.findSome? m.next).or (drainEvents.findSome? m.make)

def finish (m : Machine) (p : Running) : Option Machine :=
  match p.owner with
  | .invocation id k =>
      (m.floor.make m.router.sessions id k (.finish p.result)).map fun (floor, sessions) =>
        { m with floor, router := { m.router with sessions } }
  | .probe n =>
      match m.router.task? n with
      | some (.changing _ _ path _) | some (.probing _ path _) =>
          m.make (.probed n (Probe.ofEnd path p.result))
      | _ => none

def nextEnd (m : Machine) : Option Machine := m.floor.nextEnd.bind m.finish

def nextWait (m : Machine) : Option (Wait × Nat) :=
  m.waits.foldl (fun best w => match best with
    | some (_, deadline) => if w.2 < deadline then some w else best
    | none => some w) none

def expire (m : Machine) : Wait → Option Machine
  | .change n => m.make (.overdue n)
  | .drain => m.make .drainOverdue

def nextDeadline (m : Machine) : Option Machine :=
  let clocked (deadline : Nat) : Machine :=
    { m with floor := { m.floor with clock := max m.floor.clock deadline } }
  match m.floor.nextDeadline, m.nextWait with
  | some p, some (wait, deadline) =>
      if p.deadline ≤ deadline then (clocked p.deadline).finish p
      else (clocked deadline).expire wait
  | some p, none => (clocked p.deadline).finish p
  | none, some (wait, deadline) => (clocked deadline).expire wait
  | none, none => none

def fuel (m : Machine) : Nat := 64 * (m.router.nextArrival + 1)

def nextOf (m : Machine) : Option Machine := (m.nextStep.or m.nextEnd).or m.nextDeadline

def arrive (m : Machine) (request : Request) (tracked : Bool) : Nat × Machine :=
  (m.router.nextArrival, (m.make (.arrive request tracked)).getD m)

/-- Lets a request go as far as it can without waiting. -/
def go (m : Machine) (n : Nat) : Machine :=
  runUntil (fun _ => false) (fun m => m.next n) m.fuel m

def await (m : Machine) (n : Nat) : Machine :=
  runUntil (fun m => (m.router.response? n).isSome) nextOf m.fuel m

/-- Runs until nothing is left to do but wait for time to pass. -/
def rest (m : Machine) : Machine :=
  runUntil (fun _ => false) (fun m => m.nextStep.or m.nextEnd) m.fuel m

def untilRun (m : Machine) (runs n : Nat) : Machine :=
  runUntil (fun m => runs < m.floor.host.runs.length || (m.router.response? n).isSome)
    (fun m => m.nextStep.or m.nextEnd) m.fuel m

def drain (m : Machine) (time : Duration) : Machine :=
  match { m with drainTime := time }.make .drainStart with
  | none => m
  | some m => runUntil (fun m => m.router.drain = .idle) nextOf m.fuel m

end Machine

end CodeAssist
