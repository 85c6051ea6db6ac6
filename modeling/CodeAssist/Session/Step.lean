import CodeAssist.Session.Basic

namespace CodeAssist

/-- One step of an invocation. A run of the tool ends as the system says. -/
inductive Move where
  | check
  | register
  | enter
  | take
  | refuse
  | giveUp
  | begin
  | finish (result : ProcessEnd)
  | settle
  | unregister
  | report
deriving Repr

/-- The capability without which a query is turned away. Hovering goes through the tool that
completes. -/
def Query.lacks (q : Query) (i : Interpreter) : Option Capability :=
  match q with
  | .hover _ _ _ =>
      if !i.supports .completion then some .completion
      else if !i.supports .hover then some .hover
      else none
  | .completion _ _ _ | .format _ _ | .diagnostics _ _ =>
      if i.supports q.capability then none else some q.capability

def Query.supersedes? : Query → Option (List Path.Component)
  | .diagnostics path _ => some path.components
  | .completion _ _ _ | .hover _ _ _ | .format _ _ => none

/-- What follows a settled result: diagnostics are still registered. -/
def Query.settled (q : Query) (result : Except Failure Answer) : Stage :=
  if q.supersedes?.isSome then .closing result else .done result

namespace Session

def put (s : Session) (k : Nat) (v : Invocation) : Session :=
  { s with invocations := s.invocations.set k v }

def supersede (s : Session) (number : Nat) : Session :=
  { s with invocations := s.invocations.map fun v =>
      if v.number = some number then { v with superseded := true } else v }

def register (s : Session) (k : Nat) (v : Invocation) (file : List Path.Component) : Session :=
  let number := s.registered + 1
  let stopped := match s.pending.lookup file with
    | some previous => s.supersede previous
    | none => s
  ({ stopped with
    registered := number
    pending := Table.put file number s.pending }).put k
      { v with number := some number, stage := .registered }

/-- Ends the registration of a run, unless a newer one has taken its place. -/
def unregister (s : Session) (v : Invocation) : Session :=
  match v.query.supersedes? with
  | none => s
  | some file =>
      if (s.pending.lookup file).isSome && s.pending.lookup file == v.number then
        { s with pending := Table.without file s.pending }
      else s

/-- A run that was stopped because its session was retired fails for the reason of that. -/
def settle (s : Session) (c : Capability) (result : Except Failure Answer) :
    Except Failure Answer :=
  match result, s.retired with
  | .error (.tool (.cancelled _)), some reason => .error (reason.failure c)
  | result, _ => result

/-- A run that was stopped although its session goes on was superseded. -/
def report (s : Session) (path : Path) (result : Except Failure Answer) :
    Except Failure Answer :=
  match result with
  | .error (.tool (.cancelled c)) =>
      if s.retired.isSome then .error (.tool (.cancelled c)) else .error (.superseded path)
  | result => result

/-- Whether the system can end a tool this way: it is only stopped when it was told to. -/
def canEnd (s : Session) (v : Invocation) : ProcessEnd → Bool
  | .error .cancelled => s.cancels v
  | _ => true

def begin (pool : Pool) (s : Session) (k : Nat) (v : Invocation) : Pool × Session :=
  if !v.query.needsTool then
    (pool.release, s.put k { v with stage := .leaving (.ok v.query.nothing) })
  else
    match s.caches.lookup v.query with
    | (some answer, caches) =>
        (pool.release, ({ s with caches }).put k { v with stage := .leaving (.ok answer) })
    | (none, caches) =>
        let command := v.query.command s.interpreter s.settings
        (pool, ({ s with caches }).put k { v with stage := .running command })

/-- Takes in the end of a run. Only answers are kept. -/
def finish (pool : Pool) (s : Session) (k : Nat) (v : Invocation) (result : ProcessEnd) :
    Pool × Session :=
  match v.query.ofEnd result with
  | .ok answer =>
      (pool.release, ({ s with caches := s.caches.store v.query answer }).put k
        { v with stage := .leaving (.ok answer) })
  | .error cause => (pool.release, s.put k { v with stage := .leaving (.error (.tool cause)) })

def step? (pool : Pool) (s : Session) (k : Nat) (m : Move) : Option (Pool × Session) :=
  match s.invocations[k]? with
  | none => none
  | some v =>
      let c := v.query.capability
      let now (stage : Stage) : Session := s.put k { v with stage }
      match m, v.stage with
      | .check, .arrived =>
          match v.query.lacks s.interpreter with
          | some missing => some (pool, now (.done (.error (.capabilityUnavailable missing))))
          | none => some (pool, now .admitted)
      | .register, .admitted =>
          match v.query.supersedes? with
          | some file => some (pool, s.register k v file)
          | none => some (pool, now .registered)
      | .enter, .registered =>
          match s.retired with
          | some reason => some (pool, now (v.query.settled (.error (reason.failure c))))
          | none => some (pool, now .waiting)
      | .take, .waiting =>
          if pool.closed || pool.free = 0 then none
          else some ({ pool with free := pool.free - 1 }, now .working)
      | .refuse, .waiting =>
          if pool.closed then some (pool, now (.leaving (.error .shuttingDown))) else none
      | .giveUp, .waiting =>
          if s.cancels v then some (pool, now (.leaving (.error (.tool (.cancelled c))))) else none
      | .begin, .working => some (s.begin pool k v)
      | .finish result, .running _ =>
          if s.canEnd v result then some (s.finish pool k v result) else none
      | .settle, .leaving result => some (pool, now (v.query.settled (s.settle c result)))
      | .unregister, .closing result =>
          some (pool, (s.unregister v).put k { v with stage := .reporting result })
      | .report, .reporting result => some (pool, now (.done (s.report v.query.path result)))
      | _, _ => none

end Session

end CodeAssist
