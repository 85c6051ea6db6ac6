import CodeAssist.Session.Group

namespace CodeAssist

/-! What one step of an invocation can do to its session and the workers. -/

namespace Session

/-- `s.Advance pool k v m pool' s'`: the step `m` takes invocation `k`, which is `v`, on. -/
inductive Advance (s : Session) (pool : Pool) (k : Nat) (v : Invocation) :
    Move → Pool → Session → Prop
  | lacking {missing : Capability} (hstage : v.stage = .arrived)
      (hlacks : v.query.lacks s.interpreter = some missing) :
      Advance s pool k v .check pool
        (s.put k { v with stage := .done (.error (.capabilityUnavailable missing)) })
  | admitted (hstage : v.stage = .arrived) (hlacks : v.query.lacks s.interpreter = none) :
      Advance s pool k v .check pool (s.put k { v with stage := .admitted })
  | registered {file : List Path.Component} (hstage : v.stage = .admitted)
      (hfile : v.query.supersedes? = some file) :
      Advance s pool k v .register pool (s.register k v file)
  | unregistrable (hstage : v.stage = .admitted) (hfile : v.query.supersedes? = none) :
      Advance s pool k v .register pool (s.put k { v with stage := .registered })
  | turnedAway {reason : Reason} (hstage : v.stage = .registered)
      (hretired : s.retired = some reason) :
      Advance s pool k v .enter pool
        (s.put k { v with
          stage := v.query.settled (.error (reason.failure v.query.capability)) })
  | entered (hstage : v.stage = .registered) (hretired : s.retired = none) :
      Advance s pool k v .enter pool (s.put k { v with stage := .waiting })
  | took (hstage : v.stage = .waiting) (hopen : pool.closed = false) (hfree : pool.free ≠ 0) :
      Advance s pool k v .take { pool with free := pool.free - 1 }
        (s.put k { v with stage := .working })
  | refused (hstage : v.stage = .waiting) (hclosed : pool.closed = true) :
      Advance s pool k v .refuse pool (s.put k { v with stage := .leaving (.error .shuttingDown) })
  | gaveUp (hstage : v.stage = .waiting) (hcancels : s.cancels v = true) :
      Advance s pool k v .giveUp pool
        (s.put k { v with stage := .leaving (.error (.tool (.cancelled v.query.capability))) })
  | trivial (hstage : v.stage = .working) (hneeds : v.query.needsTool = false) :
      Advance s pool k v .begin pool.release
        (s.put k { v with stage := .leaving (.ok v.query.nothing) })
  | recalled {answer : Answer} (hstage : v.stage = .working) (hneeds : v.query.needsTool = true)
      (hcache : (s.caches.lookup v.query).1 = some answer) :
      Advance s pool k v .begin pool.release
        ({ s with caches := (s.caches.lookup v.query).2 }.put k
          { v with stage := .leaving (.ok answer) })
  | began (hstage : v.stage = .working) (hneeds : v.query.needsTool = true)
      (hcache : (s.caches.lookup v.query).1 = none) :
      Advance s pool k v .begin pool
        ({ s with caches := (s.caches.lookup v.query).2 }.put k
          { v with stage := .running (v.query.command s.interpreter s.settings) })
  | answered {command : Command} {result : ProcessEnd} {answer : Answer}
      (hstage : v.stage = .running command) (hend : v.query.ofEnd result = .ok answer) :
      Advance s pool k v (.finish result) pool.release
        ({ s with caches := s.caches.store v.query answer }.put k
          { v with stage := .leaving (.ok answer) })
  | failed {command : Command} {result : ProcessEnd} {cause : ToolFailure}
      (hstage : v.stage = .running command) (hcan : s.canEnd v result = true)
      (hend : v.query.ofEnd result = .error cause) :
      Advance s pool k v (.finish result) pool.release
        (s.put k { v with stage := .leaving (.error (.tool cause)) })
  | settled {result : Except Failure Answer} (hstage : v.stage = .leaving result) :
      Advance s pool k v .settle pool
        (s.put k { v with stage := v.query.settled (s.settle v.query.capability result) })
  | unregistered {result : Except Failure Answer} (hstage : v.stage = .closing result) :
      Advance s pool k v .unregister pool
        ((s.unregister v).put k { v with stage := .reporting result })
  | reported {result : Except Failure Answer} (hstage : v.stage = .reporting result) :
      Advance s pool k v .report pool
        (s.put k { v with stage := .done (s.report v.query.path result) })

theorem begin_advance {s s' : Session} {pool pool' : Pool} {k : Nat} {v : Invocation}
    (hstage : v.stage = .working) (hbegin : s.begin pool k v = (pool', s')) :
    s.Advance pool k v .begin pool' s' := by
  unfold begin at hbegin
  split at hbegin
  · rename_i hneeds
    cases hbegin
    exact .trivial hstage (by simpa using hneeds)
  · rename_i hneeds
    have htool : v.query.needsTool = true := by simpa using hneeds
    split at hbegin
    · rename_i answer caches hcache
      have hcaches : caches = (s.caches.lookup v.query).2 := by rw [hcache]
      cases hbegin
      rw [hcaches]
      exact .recalled hstage htool (by rw [hcache])
    · rename_i caches hcache
      have hcaches : caches = (s.caches.lookup v.query).2 := by rw [hcache]
      cases hbegin
      rw [hcaches]
      exact .began hstage htool (by rw [hcache])

theorem finish_advance {s s' : Session} {pool pool' : Pool} {k : Nat} {v : Invocation}
    {command : Command} {result : ProcessEnd} (hstage : v.stage = .running command)
    (hcan : s.canEnd v result = true) (hfinish : s.finish pool k v result = (pool', s')) :
    s.Advance pool k v (.finish result) pool' s' := by
  unfold finish at hfinish
  split at hfinish
  · rename_i answer hend
    cases hfinish
    exact .answered hstage hend
  · rename_i cause hend
    cases hfinish
    exact .failed hstage hcan hend

theorem step?_advance {s s' : Session} {pool pool' : Pool} {k : Nat} {m : Move}
    (hstep : s.step? pool k m = some (pool', s')) :
    ∃ v, s.invocations[k]? = some v ∧ s.Advance pool k v m pool' s' := by
  unfold step? at hstep
  split at hstep
  · cases hstep
  · rename_i v hv
    refine ⟨v, hv, ?_⟩
    simp only at hstep
    split at hstep
    · rename_i hstage
      split at hstep
      · rename_i missing hlacks
        cases hstep
        exact .lacking hstage hlacks
      · rename_i hlacks
        cases hstep
        exact .admitted hstage hlacks
    · rename_i hstage
      split at hstep
      · rename_i file hfile
        cases hstep
        exact .registered hstage hfile
      · rename_i hfile
        cases hstep
        exact .unregistrable hstage hfile
    · rename_i hstage
      split at hstep
      · rename_i reason hretired
        cases hstep
        exact .turnedAway hstage hretired
      · rename_i hretired
        cases hstep
        exact .entered hstage hretired
    · rename_i hstage
      split at hstep
      · cases hstep
      · rename_i hpool
        have hpool' : pool.closed = false ∧ pool.free ≠ 0 := by simpa using hpool
        cases hstep
        exact .took hstage hpool'.1 hpool'.2
    · rename_i hstage
      split at hstep
      · rename_i hclosed
        cases hstep
        exact .refused hstage hclosed
      · cases hstep
    · rename_i hstage
      split at hstep
      · rename_i hcancels
        cases hstep
        exact .gaveUp hstage hcancels
      · cases hstep
    · rename_i hstage
      exact begin_advance hstage (Option.some.inj hstep)
    · rename_i result command hstage
      split at hstep
      · rename_i hcan
        exact finish_advance hstage hcan (Option.some.inj hstep)
      · cases hstep
    · rename_i result hstage
      cases hstep
      exact .settled hstage
    · rename_i result hstage
      cases hstep
      exact .unregistered hstage
    · rename_i result hstage
      cases hstep
      exact .reported hstage
    · cases hstep

/-- What requests and changes see of a session. -/
structure Face where
  id : Nat
  interpreter : Interpreter
  settings : ToolSettings
  retired : Option Reason

def face (s : Session) : Face := ⟨s.id, s.interpreter, s.settings, s.retired⟩

def Face.retire (f : Face) (reason : Reason) : Face :=
  { f with retired := f.retired.or (some reason) }

@[simp] theorem face_start (s : Session) (q : Query) : (s.start q).face = s.face := rfl

theorem face_register (s : Session) (k : Nat) (v : Invocation) (file : List Path.Component) :
    (s.register k v file).face = s.face := by
  unfold Session.register
  simp only
  split <;> rfl

theorem face_unregister (s : Session) (v : Invocation) : (s.unregister v).face = s.face := by
  unfold Session.unregister
  split
  · rfl
  · split <;> rfl

theorem Advance.face {s s' : Session} {pool pool' : Pool} {k : Nat} {v : Invocation} {m : Move}
    (hadvance : s.Advance pool k v m pool' s') : s'.face = s.face := by
  cases hadvance with
  | registered => exact face_register ..
  | unregistered => exact face_unregister s v
  | _ => rfl

theorem getElem?_put {s : Session} {j k : Nat} {v w u : Invocation} (hw : s.invocations[k]? = some w)
    (hquery : v.query = w.query) (hu : s.invocations[j]? = some u) :
    ∃ u', (s.put k v).invocations[j]? = some u' ∧ u'.query = u.query := by
  rw [Session.put, List.getElem?_set]
  split
  · rename_i hj
    subst hj
    cases Option.some.inj (hw.symm.trans hu)
    exact ⟨v, by simp [(List.getElem?_eq_some_iff.mp hw).1], hquery⟩
  · exact ⟨u, hu, rfl⟩

theorem getElem?_supersede {s : Session} {j : Nat} {u : Invocation} (number : Nat)
    (hu : s.invocations[j]? = some u) : ∃ u', (s.supersede number).invocations[j]? = some u' ∧
      u'.query = u.query ∧ u'.stage = u.stage := by
  rw [supersede, List.getElem?_map, hu]
  refine ⟨_, rfl, ?_⟩
  dsimp only
  split <;> exact ⟨rfl, rfl⟩

theorem invocations_unregister (s : Session) (v : Invocation) :
    (s.unregister v).invocations = s.invocations := by
  unfold Session.unregister
  split
  · rfl
  · split <;> rfl

theorem Advance.query {s s' : Session} {pool pool' : Pool} {j k : Nat} {v u : Invocation} {m : Move}
    (hv : s.invocations[k]? = some v) (hadvance : s.Advance pool k v m pool' s')
    (hu : s.invocations[j]? = some u) :
    ∃ u', s'.invocations[j]? = some u' ∧ u'.query = u.query := by
  cases hadvance with
  | registered =>
      unfold Session.register
      simp only
      split
      · rename_i previous _
        obtain ⟨v', hv', hquery, _⟩ := getElem?_supersede previous hv
        obtain ⟨u', hu', hother, _⟩ := getElem?_supersede previous hu
        rw [← hother]
        exact getElem?_put (s := { s.supersede previous with registered := _, pending := _ }) hv'
          hquery.symm hu'
      · exact getElem?_put (s := { s with registered := _, pending := _ }) hv rfl hu
  | unregistered =>
      rw [← invocations_unregister s v] at hv hu
      exact getElem?_put hv rfl hu
  | recalled | began => exact getElem?_put (s := { s with caches := _ }) hv rfl hu
  | answered => exact getElem?_put (s := { s with caches := _ }) hv rfl hu
  | _ => exact getElem?_put hv rfl hu

end Session

namespace Sessions

theorem get?_put (g : Sessions) (s : Session) (id : Nat) :
    (g.put s).get? id = if id = s.id then some s else g.get? id := by
  split
  case isTrue heq => rw [heq]; exact Table.lookup_put_self ..
  case isFalse hne => exact Table.lookup_put_of_ne hne ..

def face? (g : Sessions) (id : Nat) : Option Session.Face := (g.get? id).map Session.face

def Filed (g : Sessions) : Prop := ∀ {id s}, g.get? id = some s → s.id = id

theorem face?_put (g : Sessions) (s : Session) (id : Nat) :
    (g.put s).face? id = if id = s.id then some s.face else g.face? id := by
  unfold face?
  rw [get?_put]
  split <;> rfl

theorem face?_put_of_face_eq {g : Sessions} {s s' : Session} {id : Nat} (hfiled : g.Filed)
    (hs : g.get? id = some s) (hface : s'.face = s.face) (other : Nat) :
    (g.put s').face? other = g.face? other := by
  have hid : s'.id = id := (congrArg Session.Face.id hface).trans (hfiled hs)
  rw [face?_put, hid]
  split
  case isTrue heq => rw [heq, face?, hs, hface]; rfl
  case isFalse => rfl

theorem face?_step? {g g' : Sessions} {id k : Nat} {m : Move} (hfiled : g.Filed)
    (hstep : g.step? id k m = some g') (other : Nat) : g'.face? other = g.face? other := by
  unfold step? at hstep
  simp only [Option.bind_eq_bind, Option.bind_eq_some_iff] at hstep
  obtain ⟨s, hs, ⟨pool, s'⟩, hsession, hg⟩ := hstep
  cases hg
  obtain ⟨v, _, hadvance⟩ := Session.step?_advance hsession
  exact face?_put_of_face_eq hfiled hs hadvance.face other

theorem face?_retire {g : Sessions} (hfiled : g.Filed) (id : Nat) (reason : Reason) (other : Nat) :
    (g.retire id reason).face? other =
      if other = id then (g.face? id).map (·.retire reason) else g.face? other := by
  unfold retire update
  cases hs : g.get? id with
  | none =>
      have hnone : g.face? id = none := by rw [face?, hs]; rfl
      by_cases heq : other = id
      · rw [if_pos heq, heq, hnone]
        rfl
      · rw [if_neg heq]
  | some s =>
      have hsome : g.face? id = some s.face := by rw [face?, hs]; rfl
      have hid : s.id = id := hfiled hs
      rw [hsome, ← hid]
      exact face?_put g (s.retire reason) other

theorem filed_of_face? {g : Sessions} (hface : ∀ {id f}, g.face? id = some f → f.id = id) :
    g.Filed := by
  intro id s hs
  have hsome : g.face? id = some s.face := by rw [face?, hs]; rfl
  exact hface hsome

def Distinct (g : Sessions) : Prop := (g.all.map Prod.fst).Nodup

section distinct

variable {g g' : Sessions} {id : Nat}

theorem Distinct.put (hdistinct : g.Distinct) (s : Session) : (g.put s).Distinct :=
  Table.nodup_keys_put hdistinct

theorem Distinct.retire (hdistinct : g.Distinct) (reason : Reason) :
    (g.retire id reason).Distinct := by
  unfold Sessions.retire update
  split
  · exact hdistinct.put _
  · exact hdistinct

theorem Distinct.step? {k : Nat} {m : Move} (hdistinct : g.Distinct)
    (hstep : g.step? id k m = some g') : g'.Distinct := by
  unfold Sessions.step? at hstep
  simp only [Option.bind_eq_bind, Option.bind_eq_some_iff] at hstep
  obtain ⟨s, _, ⟨pool, s'⟩, _, heq⟩ := hstep
  cases heq
  exact Table.nodup_keys_put hdistinct

end distinct

end Sessions

end CodeAssist
