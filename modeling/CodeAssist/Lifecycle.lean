namespace CodeAssist

inductive Lifecycle where
  | starting
  | ready
  | shuttingDown
  | stopped
deriving DecidableEq, Repr, Inhabited

namespace Lifecycle

def all : List Lifecycle := [starting, ready, shuttingDown, stopped]

def name : Lifecycle → String
  | starting => "starting"
  | ready => "ready"
  | shuttingDown => "shutting-down"
  | stopped => "stopped"

def ofName? (s : String) : Option Lifecycle := all.find? (·.name == s)

def rank : Lifecycle → Nat
  | starting => 0
  | ready => 1
  | shuttingDown => 2
  | stopped => 3

def canMoveTo : Lifecycle → Lifecycle → Bool
  | starting, ready => true
  | starting, shuttingDown => true
  | starting, stopped => true
  | ready, shuttingDown => true
  | shuttingDown, stopped => true
  | _, _ => false

def moveTo (state next : Lifecycle) : Lifecycle :=
  if state.canMoveTo next then next else state

def hasReached (state target : Lifecycle) : Bool := target.rank ≤ state.rank

def isReady (state : Lifecycle) : Bool := state == ready

def beginShutdown (state : Lifecycle) : Lifecycle := state.moveTo shuttingDown

end Lifecycle

end CodeAssist
