import CodeAssist.Host.Launch
import CodeAssist.Session.Group

namespace CodeAssist

/-! Sessions at work on a host. Of all that may happen next, a fixed order of precedence picks one:
steps that need not wait, then the end of the process that was started first, and last the passing
of time up to the next deadline. -/

def runUntil (goal : α → Bool) (next : α → Option α) : Nat → α → α
  | 0, a => a
  | fuel + 1, a =>
      if goal a then a
      else match next a with
        | none => a
        | some b => runUntil goal next fuel b

/-- What a process was started for: an invocation of a session, or the probe of a request. -/
inductive Owner where
  | invocation (session k : Nat)
  | probe (request : Nat)
deriving DecidableEq, Repr

/-- A process that has been started and whose end has not been noticed. -/
structure Running where
  owner : Owner
  launch : Launch
  budget : Duration
  deadline : Nat
deriving Repr

namespace Running

def result (p : Running) : ProcessEnd := p.launch.result p.budget

def isRefused (p : Running) : Bool :=
  match p.launch with
  | .refused _ => true
  | _ => false

def ends (p : Running) : Bool :=
  match p.launch with
  | .ends _ => p.budget.nanos ≠ 0
  | _ => false

end Running

/-- A host, the time in nanoseconds, the processes in the order they were started, and the
invocations that wait for a worker in the order they came. -/
structure Floor where
  host : Host
  clock : Nat := 0
  running : List Running := []
  queue : List (Nat × Nat) := []
deriving Repr

namespace Floor

def process? (f : Floor) (owner : Owner) : Option Running := f.running.find? (·.owner = owner)

def launch (f : Floor) (owner : Owner) (c : Command) : Floor :=
  let (launch, host) := f.host.launch c
  { f with
    host
    running := f.running ++
      [{ owner, launch, budget := c.budget, deadline := f.clock + c.budget.nanos }] }

def forget (f : Floor) (owner : Owner) : Floor :=
  { f with running := f.running.filter (·.owner ≠ owner) }

def invocation? (g : Sessions) (id k : Nat) : Option Invocation := do
  let s ← g.get? id
  s.invocations[k]?

def isWaiting (g : Sessions) (id k : Nat) : Bool :=
  (invocation? g id k).any fun v => match v.stage with
    | .waiting => true
    | _ => false

def isFirst (f : Floor) (g : Sessions) (id k : Nat) : Bool :=
  (f.queue.find? fun (id, k) => isWaiting g id k) == some (id, k)

def move? (f : Floor) (g : Sessions) (id k : Nat) : Option Move := do
  let s ← g.get? id
  let v ← s.invocations[k]?
  match v.stage with
  | .arrived => some .check
  | .admitted => some .register
  | .registered => some .enter
  | .waiting =>
      if g.pool.closed then some .refuse
      else if s.cancels v then some .giveUp
      else if g.pool.free ≠ 0 && f.isFirst g id k then some .take
      else none
  | .working => some .begin
  | .running _ =>
      let p ← f.process? (.invocation id k)
      if p.isRefused then some (.finish p.result)
      else if s.cancels v then some (.finish (.error .cancelled))
      else none
  | .leaving _ => some .settle
  | .closing _ => some .unregister
  | .reporting _ => some .report
  | .done _ => none

def follow (f : Floor) (g : Sessions) (id k : Nat) (m : Move) : Floor :=
  match invocation? g id k with
  | some v =>
      match m, v.stage with
      | .enter, .waiting => { f with queue := f.queue ++ [(id, k)] }
      | .begin, .running command => f.launch (.invocation id k) command
      | .finish _, _ => f.forget (.invocation id k)
      | _, _ => f
  | none => f

def make (f : Floor) (g : Sessions) (id k : Nat) (m : Move) : Option (Floor × Sessions) := do
  let g ← g.step? id k m
  some (f.follow g id k m, g)

def advance (f : Floor) (g : Sessions) (id k : Nat) : Option (Floor × Sessions) := do
  let m ← f.move? g id k
  f.make g id k m

def nextEnd (f : Floor) : Option Running := f.running.find? Running.ends

def nextDeadline (f : Floor) : Option Running :=
  f.running.foldl (fun best p => match best with
    | some q => if p.deadline < q.deadline then some p else best
    | none => some p) none

end Floor

end CodeAssist
