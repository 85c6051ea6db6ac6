import CodeAssist.Session.Step

namespace CodeAssist

/-- All sessions there have been, by number, and the workers they share. -/
structure Sessions where
  pool : Pool
  all : List (Nat × Session) := []

namespace Sessions

def get? (g : Sessions) (id : Nat) : Option Session := g.all.lookup id

def put (g : Sessions) (s : Session) : Sessions := { g with all := Table.put s.id s g.all }

def working (g : Sessions) : Nat := g.all.foldr (fun (_, s) n => s.working + n) 0

def idle (g : Sessions) (id : Nat) : Bool := (g.get? id).all (·.inFlight = 0)

def update (g : Sessions) (id : Nat) (f : Session → Session) : Sessions :=
  match g.get? id with
  | some s => g.put (f s)
  | none => g

def retire (g : Sessions) (id : Nat) (reason : Reason) : Sessions := g.update id (·.retire reason)

def close (g : Sessions) : Sessions := { g with pool := g.pool.close }

def step? (g : Sessions) (id k : Nat) (m : Move) : Option Sessions := do
  let s ← g.get? id
  let (pool, s) ← s.step? g.pool k m
  some ({ g with pool }.put s)

end Sessions

end CodeAssist
