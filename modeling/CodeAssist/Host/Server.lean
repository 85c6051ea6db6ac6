import CodeAssist.Engine
import CodeAssist.Host.Machine

namespace CodeAssist

structure Server where
  machine : Machine
  links : List (Nat × Link) := []
  listens : Bool := true

namespace Server

def engine (s : Server) : Engine :=
  { router := s.machine.router, links := s.links, listens := s.listens }

def make (s : Server) (event : Engine.Event) : Option Server :=
  (s.engine.step? event).map fun e =>
    let machine := { s.machine with router := e.router }
    let machine := match event with
      | .close => machine.follow .drainStart
      | _ => machine
    { machine, links := e.links, listens := e.listens }

def linkEvents (k : Nat) (l : Link) : List Engine.Event :=
  .read k :: l.awaited.map (.write k ·) ++ [.halt k]

def events (s : Server) : List Engine.Event :=
  s.links.reverse.flatMap (fun (k, l) => linkEvents k l) ++ [.close]

def isDrained (s : Server) : Bool :=
  !s.listens && s.machine.router.drain = .idle && s.machine.router.lifecycle ≠ .stopped

def withMachine (s : Server) (m : Option Machine) : Option Server :=
  m.map fun machine => { s with machine }

def nextStep (s : Server) : Option Server :=
  (s.events.findSome? s.make).or
    ((s.withMachine s.machine.nextStep).or (if s.isDrained then s.make .stop else none))

def next (s : Server) : Option Server :=
  s.nextStep.or ((s.withMachine s.machine.nextEnd).or (s.withMachine s.machine.nextDeadline))

def fuel (s : Server) : Nat :=
  64 * (s.machine.router.nextArrival + 1) +
    s.links.foldl (fun n (_, l) => n + 64 * (l.unread.length + 1)) 0

def run (s : Server) (goal : Server → Bool) : Server := runUntil goal next s.fuel s

def connect (s : Server) : Option (Nat × Server) :=
  (s.make .connect).map (s.links.length + 1, ·)

def link? (s : Server) (k : Nat) : Option Link := s.links.lookup k

/-- Runs until a connection has brought `count` responses, or will bring no more. -/
def receive (s : Server) (k count : Nat) : Server :=
  s.run fun s => (s.link? k).all fun l => count ≤ l.written.length || l.isClosed

def wait (s : Server) : Server :=
  s.run fun s => s.machine.router.lifecycle = .stopped && s.links.all (·.2.isClosed)

end Server

end CodeAssist
