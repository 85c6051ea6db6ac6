import CodeAssist.Tool.Query

namespace CodeAssist

inductive Reason where
  | replaced
  | shutdown
deriving DecidableEq, Repr, Inhabited

def Reason.failure (reason : Reason) (c : Capability) : Failure :=
  match reason with
  | .replaced => .environment .sessionReplaced
  | .shutdown => .tool (.cancelled c)

structure Pool where
  free : Nat
  closed : Bool := false
deriving DecidableEq, Repr

namespace Pool

/-- The most workers that there can be: three bits of a word are taken for other uses. -/
def limit : Nat := Text.bound64 / 8 - 1

/-- There is always at least one worker. -/
def ofSize (size : Nat) : Pool := { free := max size 1 }

def release (p : Pool) : Pool := { p with free := p.free + 1 }

def close (p : Pool) : Pool := { p with closed := true }

end Pool

/-- The stages of an invocation. It is admitted if its tool is there, registered if it may be
superseded, entered unless its session is retired, and then waits for a worker. With a worker it
answers by itself or runs the tool by a command. The worker is given back before the result is
settled, the registration ends, and the result is reported. -/
inductive Stage where
  | arrived
  | admitted
  | registered
  | waiting
  | working
  | running (command : Command)
  | leaving (result : Except Failure Answer)
  | closing (result : Except Failure Answer)
  | reporting (result : Except Failure Answer)
  | done (result : Except Failure Answer)
deriving Repr

namespace Stage

/-- Whether a retiring session has to wait for the invocation. -/
def inFlight : Stage → Bool
  | .waiting => true
  | .working => true
  | .running _ => true
  | _ => false

def holdsWorker : Stage → Bool
  | .working => true
  | .running _ => true
  | _ => false

def command? : Stage → Option Command
  | .running command => some command
  | _ => none

def result? : Stage → Option (Except Failure Answer)
  | .done result => some result
  | _ => none

end Stage

/-- One query on its way through a session. Only diagnostics are registered, each under a number of
its own. -/
structure Invocation where
  query : Query
  number : Option Nat := none
  superseded : Bool := false
  stage : Stage := .arrived
deriving Repr

/-- The work that goes on with one interpreter in one project. `pending` has, by the components of
its path, the number of the last registered run for each file that is not finished. Runs are
numbered from 1, as by a counter of 64 bits that does not come round. -/
structure Session where
  id : Nat
  interpreter : Interpreter
  settings : ToolSettings
  retired : Option Reason := none
  caches : Caches := {}
  pending : List (List Path.Component × Nat) := []
  registered : Nat := 0
  invocations : List Invocation := []

namespace Session

def info (s : Session) : Json :=
  .ofMembers [("session", .ofNat s.id), ("interpreter", .text s.interpreter.path.text),
    ("kind", .text s.interpreter.kind.name), ("root", .text s.settings.root.text),
    ("capabilities", .ofMembers (Capability.all.map fun c =>
      (c.name, .boolean (s.interpreter.supports c))))]

def inFlight (s : Session) : Nat := s.invocations.countP (·.stage.inFlight)

def working (s : Session) : Nat := s.invocations.countP (·.stage.holdsWorker)

def cancels (s : Session) (v : Invocation) : Bool := s.retired.isSome || v.superseded

def start (s : Session) (q : Query) : Session :=
  { s with invocations := s.invocations ++ [{ query := q }] }

/-- Stops taking work. The first reason stays. -/
def retire (s : Session) (reason : Reason) : Session :=
  { s with retired := s.retired.or (some reason) }

end Session

end CodeAssist
