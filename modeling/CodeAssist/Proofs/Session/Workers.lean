import CodeAssist.Proofs.Session.Advance
import Mathlib.Algebra.Ring.Nat

namespace CodeAssist

/-! Every worker is free or has an invocation, so that of the invocations that are not done one can
always get on; and each step brings an invocation nearer to its end. -/

namespace Table

variable [DecidableEq α] {key : α} {value old : β} {table : List (α × β)}

/-- What the values of a table come to. -/
def total (f : β → Nat) (table : List (α × β)) : Nat := (table.map fun (_, value) => f value).sum

theorem perm_without (hnodup : (table.map Prod.fst).Nodup) (hold : table.lookup key = some old) :
    table.Perm ((key, old) :: without key table) := by
  induction table with
  | nil => cases hold
  | cons entry table ih =>
      obtain ⟨name, found⟩ := entry
      rw [List.map_cons, List.nodup_cons] at hnodup
      by_cases hname : name = key
      · subst hname
        have hnone : table.lookup name = none := by
          rw [← Option.not_isSome_iff_eq_none, ← mem_keys_iff]
          exact hnodup.1
        have hrest : without name ((name, found) :: table) = table := by
          rw [← without_of_lookup_eq_none hnone]
          simp [without]
        have hfound : found = old := by simpa using hold
        rw [hrest, hfound]
      · have hrest : without key ((name, found) :: table) = (name, found) :: without key table := by
          simp [without, hname]
        have hbeq : (key == name) = false := by simpa using Ne.symm hname
        rw [List.lookup_cons, hbeq] at hold
        rw [hrest]
        exact ((ih hnodup.2 hold).cons _).trans (.swap ..)

theorem total_put (f : β → Nat) (hnodup : (table.map Prod.fst).Nodup)
    (hold : table.lookup key = some old) :
    total f (put key value table) + f old = total f table + f value := by
  have hparts : total f table = f old + total f (without key table) := by
    unfold total
    rw [((perm_without hnodup hold).map _).sum_nat, List.map_cons, List.sum_cons]
  have hput : total f (put key value table) = f value + total f (without key table) := by
    rw [total, put, List.map_cons, List.sum_cons, total]
  omega

theorem total_put_new (f : β → Nat) (hnone : table.lookup key = none) :
    total f (put key value table) = total f table + f value := by
  rw [put, without_of_lookup_eq_none hnone, total, List.map_cons, List.sum_cons, Nat.add_comm]
  rfl

theorem exists_of_total_pos {f : β → Nat} (hnodup : (table.map Prod.fst).Nodup)
    (hpos : 0 < total f table) : ∃ key value, table.lookup key = some value ∧ 0 < f value := by
  obtain ⟨n, hn, hpos⟩ := List.sum_pos_iff_exists_pos_nat.mp hpos
  obtain ⟨⟨key, value⟩, hmem, rfl⟩ := List.mem_map.mp hn
  exact ⟨key, value, lookup_of_mem hnodup hmem, hpos⟩

end Table

namespace Stage

def rank : Stage → Nat
  | .arrived => 9
  | .admitted => 8
  | .registered => 7
  | .waiting => 6
  | .working => 5
  | .running _ => 4
  | .leaving _ => 3
  | .closing _ => 2
  | .reporting _ => 1
  | .done _ => 0

def workers (stage : Stage) : Nat := stage.holdsWorker.toNat

end Stage

namespace Query

theorem rank_settled (q : Query) (result : Except Failure Answer) : (q.settled result).rank ≤ 2 := by
  unfold settled
  split <;> simp [Stage.rank]

theorem workers_settled (q : Query) (result : Except Failure Answer) :
    (q.settled result).workers = 0 := by
  unfold settled
  split <;> rfl

end Query

namespace Session

/-- What the stages of a session's invocations come to. -/
def load (f : Stage → Nat) (s : Session) : Nat := (s.invocations.map fun v => f v.stage).sum

theorem working_eq_load (s : Session) : s.working = s.load Stage.workers := by
  unfold working load
  induction s.invocations with
  | nil => rfl
  | cons v invocations ih =>
      rw [List.countP_cons, List.map_cons, List.sum_cons, ih, Nat.add_comm]
      cases hholds : v.stage.holdsWorker <;> simp [Stage.workers, hholds]

@[simp] theorem load_start (f : Stage → Nat) (s : Session) (q : Query) :
    (s.start q).load f = s.load f + f .arrived := by
  simp [load, start]

variable {s s' : Session} {pool pool' : Pool} {k : Nat} {v : Invocation} {m : Move}

theorem load_put (f : Stage → Nat) (hv : s.invocations[k]? = some v) (w : Invocation) :
    (s.put k w).load f + f v.stage = s.load f + f w.stage := by
  unfold load put
  generalize s.invocations = invocations at hv
  induction invocations generalizing k with
  | nil => cases hv
  | cons u invocations ih =>
      cases k with
      | zero =>
          cases hv
          simp only [List.set_cons_zero, List.map_cons, List.sum_cons]
          omega
      | succ k =>
          have hlater := ih hv
          simp only [List.set_cons_succ, List.map_cons, List.sum_cons] at hlater ⊢
          omega

theorem load_supersede (f : Stage → Nat) (s : Session) (number : Nat) :
    (s.supersede number).load f = s.load f := by
  unfold load supersede
  rw [List.map_map]
  congr 1
  refine List.map_congr_left fun u _ => ?_
  simp only [Function.comp]
  split <;> rfl

theorem load_register (f : Stage → Nat) (hv : s.invocations[k]? = some v)
    (file : List Path.Component) :
    (s.register k v file).load f + f v.stage = s.load f + f .registered := by
  unfold Session.register
  simp only
  split
  · rename_i previous _
    obtain ⟨v', hv', _, hstage⟩ := getElem?_supersede previous hv
    have hput := load_put (s := { s.supersede previous with registered := _, pending := _ }) f hv'
    rw [← hstage, ← load_supersede f s previous]
    exact hput _
  · exact load_put (s := { s with registered := _, pending := _ }) f hv _

/-- A step takes an invocation to a stage that is nearer to its end. What it takes from the pool,
or gives back, is what it has more or less. -/
theorem Advance.load (hv : s.invocations[k]? = some v) (hadvance : s.Advance pool k v m pool' s') :
    ∃ stage : Stage, (∀ f, s'.load f + f v.stage = s.load f + f stage) ∧
      stage.rank < v.stage.rank ∧ pool'.free + stage.workers = pool.free + v.stage.workers := by
  have hput (w : Invocation) (f : Stage → Nat) :
      (s.put k w).load f + f v.stage = s.load f + f w.stage := load_put f hv w
  have hleft (result : Except Failure Answer)
      (hstage : v.stage = .working ∨ ∃ command, v.stage = .running command) :
      (Stage.leaving result).rank < v.stage.rank ∧
        pool.release.free + (Stage.leaving result).workers = pool.free + v.stage.workers := by
    obtain hstage | ⟨_, hstage⟩ := hstage <;> rw [hstage] <;> exact ⟨by simp [Stage.rank], rfl⟩
  cases hadvance with
  | lacking hstage | admitted hstage | unregistrable hstage | entered hstage | refused hstage
  | gaveUp hstage | reported hstage =>
      exact ⟨_, hput _, by simp [hstage, Stage.rank], by rw [hstage]; rfl⟩
  | registered hstage =>
      refine ⟨.registered, fun f => load_register f hv _, by simp [hstage, Stage.rank], ?_⟩
      rw [hstage]
      rfl
  | turnedAway hstage | settled hstage =>
      refine ⟨_, hput _, ?_, ?_⟩
      · rw [hstage]
        exact Nat.lt_of_le_of_lt (Query.rank_settled ..) (by simp [Stage.rank])
      · rw [hstage]
        exact congrArg (pool.free + ·) (Query.workers_settled ..)
  | took hstage _ hfree =>
      refine ⟨_, hput _, by simp [hstage, Stage.rank], ?_⟩
      rw [hstage]
      exact Nat.sub_add_cancel (Nat.pos_of_ne_zero hfree)
  | began hstage => exact ⟨_, hput _, by simp [hstage, Stage.rank], by rw [hstage]; rfl⟩
  | trivial hstage | recalled hstage => exact ⟨_, hput _, hleft _ (.inl hstage)⟩
  | answered hstage | failed hstage => exact ⟨_, hput _, hleft _ (.inr ⟨_, hstage⟩)⟩
  | unregistered hstage =>
      rename_i result
      refine ⟨.reporting result, fun f => ?_, by simp [hstage, Stage.rank], by rw [hstage]; rfl⟩
      rw [← invocations_unregister s v] at hv
      rw [load_put f hv, Session.load, invocations_unregister, Session.load]

theorem exists_step (hv : s.invocations[k]? = some v) (hopen : v.stage.result? = none)
    (hpool : v.stage = .waiting → pool.closed = false → pool.free ≠ 0) :
    ∃ m, (s.step? pool k m).isSome := by
  cases hstage : v.stage with
  | arrived =>
      refine ⟨.check, ?_⟩
      simp only [step?, hv, hstage]
      split <;> rfl
  | admitted =>
      refine ⟨.register, ?_⟩
      simp only [step?, hv, hstage]
      split <;> rfl
  | registered =>
      refine ⟨.enter, ?_⟩
      simp only [step?, hv, hstage]
      split <;> rfl
  | waiting =>
      cases hclosed : pool.closed with
      | true => exact ⟨.refuse, by simp [step?, hv, hstage, hclosed]⟩
      | false => exact ⟨.take, by simp [step?, hv, hstage, hclosed, hpool hstage hclosed]⟩
  | working => exact ⟨.begin, by simp [step?, hv, hstage]⟩
  | running command => exact ⟨.finish (.error (.notStarted "")), by simp [step?, hv, hstage, canEnd]⟩
  | leaving result => exact ⟨.settle, by simp [step?, hv, hstage]⟩
  | closing result => exact ⟨.unregister, by simp [step?, hv, hstage]⟩
  | reporting result => exact ⟨.report, by simp [step?, hv, hstage]⟩
  | done result =>
      rw [hstage] at hopen
      cases hopen

end Session

namespace Sessions

/-- What the stages of all invocations come to. -/
def load (f : Stage → Nat) (g : Sessions) : Nat := Table.total (Session.load f) g.all

theorem working_eq_load (g : Sessions) : g.working = g.load Stage.workers := by
  unfold working load Table.total
  induction g.all with
  | nil => rfl
  | cons entry all ih =>
      rw [List.foldr_cons, List.map_cons, List.sum_cons, ih]
      exact congrArg (· + _) (Session.working_eq_load entry.2)

variable {g g' : Sessions} {s s' : Session} {id k : Nat} {v : Invocation} {m : Move}

theorem load_put (f : Stage → Nat) (hdistinct : g.Distinct) (hs : g.get? s'.id = some s) :
    (g.put s').load f + s.load f = g.load f + s'.load f :=
  Table.total_put (Session.load f) hdistinct hs

theorem load_put_new (f : Stage → Nat) (hnone : g.get? s.id = none) :
    (g.put s).load f = g.load f + s.load f := Table.total_put_new (Session.load f) hnone

theorem load_retire (f : Stage → Nat) (hdistinct : g.Distinct) (hfiled : g.Filed) (id : Nat)
    (reason : Reason) :
    (g.retire id reason).load f = g.load f ∧ (g.retire id reason).pool = g.pool := by
  unfold retire update
  cases hs : g.get? id with
  | none => exact ⟨rfl, rfl⟩
  | some s =>
      have hid : (s.retire reason).id = id := hfiled (s := s) hs
      have hput : (g.put (s.retire reason)).load f + s.load f = g.load f + s.load f :=
        load_put f hdistinct (hid ▸ hs)
      exact ⟨Nat.add_right_cancel hput, rfl⟩

/-- Every one of so many workers is free or has an invocation. -/
def Staffed (g : Sessions) (size : Nat) : Prop := g.pool.free + g.working = size

theorem Staffed.congr {size : Nat} (h : g.Staffed size)
    (hload : g'.load Stage.workers = g.load Stage.workers) (hpool : g'.pool = g.pool) :
    g'.Staffed size := by
  unfold Staffed at h ⊢
  rw [working_eq_load] at h ⊢
  rw [hload, hpool, h]

/-- A step takes one of the invocations nearer to its end. -/
theorem step?_load (hdistinct : g.Distinct) (hfiled : g.Filed)
    (hstep : g.step? id k m = some g') :
    ∃ before after : Stage, (∀ f, g'.load f + f before = g.load f + f after) ∧
      after.rank < before.rank ∧ g'.pool.free + after.workers = g.pool.free + before.workers := by
  unfold step? at hstep
  simp only [Option.bind_eq_bind, Option.bind_eq_some_iff] at hstep
  obtain ⟨s, hs, ⟨pool, s'⟩, hsession, heq⟩ := hstep
  cases heq
  obtain ⟨v, hv, hadvance⟩ := Session.step?_advance hsession
  obtain ⟨stage, hload, hrank, hfree⟩ := hadvance.load hv
  refine ⟨v.stage, stage, fun f => ?_, hrank, hfree⟩
  have hid : s'.id = id := (congrArg Session.Face.id hadvance.face).trans (hfiled hs)
  have hput : ({ g with pool }.put s').load f + s.load f = g.load f + s'.load f :=
    load_put (g := { g with pool }) f hdistinct (hid ▸ hs)
  have hsame := hload f
  change ({ g with pool }.put s').load f + f v.stage = g.load f + f stage
  omega

theorem Staffed.step? {size : Nat} (h : g.Staffed size) (hdistinct : g.Distinct)
    (hfiled : g.Filed) (hstep : g.step? id k m = some g') : g'.Staffed size := by
  obtain ⟨before, after, hload, _, hfree⟩ := step?_load hdistinct hfiled hstep
  have hworkers := hload Stage.workers
  unfold Staffed at h ⊢
  rw [working_eq_load] at h ⊢
  omega

def HasWorker (g : Sessions) (id k : Nat) : Prop :=
  ∃ s v, g.get? id = some s ∧ s.invocations[k]? = some v ∧ v.stage.holdsWorker = true

theorem exists_hasWorker (hdistinct : g.Distinct) (hpos : 0 < g.working) :
    ∃ id k, g.HasWorker id k := by
  rw [working_eq_load] at hpos
  obtain ⟨id, s, hs, hpos⟩ := Table.exists_of_total_pos hdistinct hpos
  rw [← Session.working_eq_load] at hpos
  obtain ⟨v, hmem, hholds⟩ := List.countP_pos_iff.mp hpos
  obtain ⟨k, hv⟩ := List.mem_iff_getElem?.mp hmem
  exact ⟨id, k, s, v, hs, hv, hholds⟩

/-- While an invocation is not done, a step can be made: by itself, or by one whose worker it
waits for. -/
theorem exists_step {size : Nat} (h : g.Staffed size) (hsize : 0 < size) (hdistinct : g.Distinct)
    (hs : g.get? id = some s) (hv : s.invocations[k]? = some v) (hopen : v.stage.result? = none) :
    ∃ id k m, (g.step? id k m).isSome := by
  have hlift {id k : Nat} {s : Session} (hs : g.get? id = some s)
      (hcan : ∃ m, (s.step? g.pool k m).isSome) : ∃ id k m, (g.step? id k m).isSome := by
    obtain ⟨m, hcan⟩ := hcan
    obtain ⟨p, hp⟩ := Option.isSome_iff_exists.mp hcan
    exact ⟨id, k, m, by simp [step?, hs, hp]⟩
  by_cases hfree : g.pool.free = 0
  · have hworking : 0 < g.working := by
      unfold Staffed at h
      omega
    obtain ⟨other, j, busy, w, hbusy, hw, hholds⟩ := exists_hasWorker hdistinct hworking
    refine hlift hbusy (Session.exists_step hw ?_ ?_)
    · cases hstage : w.stage <;> simp [hstage, Stage.holdsWorker, Stage.result?] at hholds ⊢
    · intro hwaits
      rw [hwaits] at hholds
      cases hholds
  · exact hlift hs (Session.exists_step hv hopen fun _ _ => hfree)

end Sessions

end CodeAssist
