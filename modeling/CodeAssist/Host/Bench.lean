import CodeAssist.Host.Floor

namespace CodeAssist

/-- One session at work on a host, by itself. -/
structure Bench where
  floor : Floor
  sessions : Sessions
  session : Nat

namespace Bench

def ofSession (host : Host) (s : Session) (workers : Nat) : Bench where
  floor := { host }
  sessions := Sessions.put { pool := { free := workers } } s
  session := s.id

def current? (b : Bench) : Option Session := b.sessions.get? b.session

def count (b : Bench) : Nat := (b.current?.map (·.invocations.length)).getD 0

def start (b : Bench) (q : Query) : Nat × Bench :=
  (b.count, { b with sessions := b.sessions.update b.session (·.start q) })

def stage? (b : Bench) (k : Nat) : Option Stage :=
  (Floor.invocation? b.sessions b.session k).map (·.stage)

def result? (b : Bench) (k : Nat) : Option (Except Failure Answer) :=
  (b.stage? k).bind Stage.result?

def advance (b : Bench) (k : Nat) : Option Bench :=
  (b.floor.advance b.sessions b.session k).map fun (floor, sessions) =>
    { b with floor, sessions }

def nextMove (b : Bench) : Option Bench := (List.range b.count).findSome? b.advance

def finish (b : Bench) (p : Running) : Option Bench :=
  match p.owner with
  | .invocation id k =>
      (b.floor.make b.sessions id k (.finish p.result)).map fun (floor, sessions) =>
        { b with floor, sessions }
  | .probe _ => none

def nextEnd (b : Bench) : Option Bench := b.floor.nextEnd.bind b.finish

def nextDeadline (b : Bench) (limit : Option Nat) : Option Bench := do
  let p ← b.floor.nextDeadline
  let floor := { b.floor with clock := max b.floor.clock p.deadline }
  if limit.all (p.deadline ≤ ·) then finish { b with floor } p else none

def fuel (b : Bench) : Nat := 32 * (b.count + 1)

def go (b : Bench) (k : Nat) : Bench :=
  runUntil (fun _ => false) (fun b => b.advance k) b.fuel b

def await (b : Bench) (k : Nat) : Bench :=
  runUntil (fun b => (b.result? k).isSome)
    (fun b => (b.nextMove.or b.nextEnd).or (b.nextDeadline none)) b.fuel b

def rest (b : Bench) : Bench :=
  runUntil (fun _ => false) (fun b => b.nextMove.or b.nextEnd) b.fuel b

def untilRun (b : Bench) (runs k : Nat) : Bench :=
  runUntil (fun b => runs < b.floor.host.runs.length || (b.result? k).isSome)
    (fun b => b.nextMove.or b.nextEnd) b.fuel b

def retire (b : Bench) (reason : Reason) (drain : Duration) : Bool × Bench :=
  if (b.current?.bind (·.retired)).isSome then (true, b)
  else
    let b := { b with sessions := b.sessions.retire b.session reason }
    let limit := b.floor.clock + drain.nanos
    let idle (b : Bench) : Bool := b.sessions.idle b.session
    let b := runUntil idle
      (fun b => (b.nextMove.or b.nextEnd).or (b.nextDeadline (some limit))) b.fuel b
    (idle b, b)

def closeWorkers (b : Bench) : Bench := { b with sessions := b.sessions.close }

end Bench

end CodeAssist
