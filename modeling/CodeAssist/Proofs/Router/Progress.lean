import CodeAssist.Proofs.Router.Answering
import CodeAssist.Proofs.Router.Erasure
import CodeAssist.Proofs.Router.SingleSession
import CodeAssist.Proofs.Session.Workers

namespace CodeAssist

/-! Requests are answered in the end: while one is open, some step can be made, and there is a bound
on how many steps the open requests can make. -/

def Event.isWork : Event → Bool
  | .move _ _ _ => true
  | e => e.request?.isSome

namespace Task

/-- How many steps a request can still make at most, with those of the invocation that it may yet
start. -/
def rank : Task → Nat
  | .arrived => 15
  | .wantsSession _ => 14
  | .wantsCreation _ => 13
  | .creating _ => 12
  | .probing _ _ _ => 11
  | .wantsLock _ => 5
  | .locked _ => 4
  | .moving _ => 3
  | .changing _ _ _ _ => 3
  | .replacing _ _ => 2
  | .draining _ _ => 1
  | .serving _ _ _ => 1
  | .done _ => 0

/-- What the invocation counts for that a request starts when it gets to a stage. -/
def brings (f : Stage → Nat) : Task → Nat
  | .serving _ _ _ => f .arrived
  | _ => 0

end Task

namespace Router

/-- How many steps the requests can still make at most. -/
def work (r : Router) : Nat :=
  Table.total (fun v => v.task.rank) r.received + r.sessions.load Stage.rank

variable {r r' rest : Router} {e : Event} {n : Nat} {t t' : Task}

theorem Given.load {call : Call} {id : Nat} (hgiven : Given r call id rest t')
    (hdistinct : r.sessions.Distinct) (hfiled : r.sessions.Filed) (f : Stage → Nat) :
    rest.sessions.load f = r.sessions.load f + t'.brings f ∧
      rest.sessions.pool = r.sessions.pool := by
  cases hgiven with
  | told => exact ⟨rfl, rfl⟩
  | @asked q s hq hs =>
      have hid : (s.start q).id = id := hfiled (s := s) hs
      have hput : (r.sessions.put (s.start q)).load f + s.load f =
          r.sessions.load f + (s.start q).load f := Sessions.load_put f hdistinct (hid ▸ hs)
      rw [Session.load_start] at hput
      refine ⟨?_, rfl⟩
      simp only [Task.brings]
      omega

theorem load_made (h : Succession r) {s : Session} (hid : s.id = r.nextSession)
    (hnew : s.invocations = []) (f : Stage → Nat) :
    (r.sessions.put s).load f = r.sessions.load f := by
  have hnone : r.sessions.get? s.id = none := by
    cases hs : r.sessions.get? s.id with
    | none => rfl
    | some other => exact absurd (h.lt_of_get? hs) (hid ▸ Nat.lt_irrefl _)
  rw [Sessions.load_put_new f hnone, Session.load, hnew]
  rfl

theorem Given.load_installed {resolver : Resolver} {interpreter : Interpreter} {call : Call}
    (hgiven : Given ({ r with resolver }.install interpreter) call r.nextSession rest t')
    (h : Succession r) (hdistinct : r.sessions.Distinct) (f : Stage → Nat) :
    rest.sessions.load f = r.sessions.load f + t'.brings f ∧
      rest.sessions.pool = r.sessions.pool := by
  obtain ⟨hload, hpool⟩ := hgiven.load (hdistinct.put _) (h.install_filed resolver interpreter) f
  exact ⟨hload.trans (congrArg (· + _) (load_made h rfl rfl f)), hpool⟩

/-- A step of a request does to the sessions no more than to start an invocation. -/
theorem Advance.load (h : Succession r) (hdistinct : r.sessions.Distinct)
    (hadvance : Advance r e n t rest t') (f : Stage → Nat) :
    rest.sessions.load f = r.sessions.load f + t'.brings f ∧
      rest.sessions.pool = r.sessions.pool := by
  cases hadvance with
  | dispatched =>
      obtain ⟨_, heq, _⟩ | ⟨_, _, _, heq⟩ | ⟨_, _, _, heq⟩ := firstStage_cases r.lifecycle _
      all_goals rw [heq]; exact ⟨rfl, rfl⟩
  | switched | switchedFirst | moved => exact ⟨load_made h rfl rfl f, rfl⟩
  | retires => exact Sessions.load_retire f hdistinct h.sessions_filed _ .replaced
  | given _ _ hgiven => exact hgiven.load hdistinct h.sessions_filed f
  | givenLate _ _ hgiven => exact hgiven.load hdistinct h.sessions_filed f
  | created _ _ _ hgiven => exact hgiven.load_installed h hdistinct f
  | createdLate hgiven => exact hgiven.load_installed h hdistinct f
  | _ => exact ⟨rfl, rfl⟩

theorem Given.rank_le {call : Call} {id : Nat} (hgiven : Given r call id rest t') :
    t'.rank + t'.brings Stage.rank ≤ 10 := by
  cases hgiven with
  | asked => exact Nat.le_refl _
  | told => exact Nat.zero_le _

theorem Advance.rank_lt (hadvance : Advance r e n t rest t') :
    t'.rank + t'.brings Stage.rank < t.rank := by
  cases hadvance with
  | dispatched =>
      obtain ⟨_, heq, _⟩ | ⟨_, _, _, heq⟩ | ⟨_, _, _, heq⟩ := firstStage_cases r.lifecycle _
      all_goals rw [heq]; simp [Task.rank, Task.brings]
  | given _ _ hgiven => exact Nat.lt_of_le_of_lt hgiven.rank_le (by simp [Task.rank])
  | givenLate _ _ hgiven => exact Nat.lt_of_le_of_lt hgiven.rank_le (by simp [Task.rank])
  | created _ _ _ hgiven => exact Nat.lt_of_le_of_lt hgiven.rank_le (by simp [Task.rank])
  | createdLate hgiven => exact Nat.lt_of_le_of_lt hgiven.rank_le (by simp [Task.rank])
  | _ => simp [Task.rank, Task.brings]

theorem total_put (hdistinct : DistinctRequests r) (ht : r.task? n = some t) (t' : Task) :
    Table.total (fun v => v.task.rank) (r.put n t').received + t.rank =
      Table.total (fun v => v.task.rank) r.received + t'.rank := by
  obtain ⟨v, hv, rfl⟩ := exists_received ht
  unfold put
  rw [hv]
  exact Table.total_put (fun v => v.task.rank) hdistinct hv

theorem Advance.work_lt (h : Succession r) (hdistinct : r.sessions.Distinct)
    (hrequests : DistinctRequests r) (ht : r.task? n = some t)
    (hadvance : Advance r e n t rest t') : (rest.put n t').work < r.work := by
  have hsame : rest.received = r.received := hadvance.received
  have hbefore : rest.task? n = some t := by
    rw [← ht, Router.task?, Router.task?, Router.received?, Router.received?, hsame]
  have hput := total_put (r := rest) (hsame ▸ hrequests : (rest.received.map Prod.fst).Nodup)
    hbefore t'
  have hload := (hadvance.load h hdistinct Stage.rank).1
  have hrank := hadvance.rank_lt
  rw [hsame] at hput
  unfold work
  rw [put_sessions]
  omega

section run

variable {settings : Settings} {resolver : Resolver} {lifecycle : Lifecycle}
  {history : List Moment}

theorem Run.staffed (hrun : (Router.ofSettings settings resolver lifecycle).Run history r) :
    r.sessions.Staffed (max settings.maxWorkers 1) := by
  refine hrun.invariant (P := fun _ r => r.sessions.Staffed (max settings.maxWorkers 1)) rfl ?_
  intro history r e r' hrun h hhappens
  have hdistinct := hrun.distinct
  cases hhappens with
  | @advanced _ n t t' rest he ht hadvance =>
      obtain ⟨hload, hpool⟩ := hadvance.load hrun.succession hdistinct Stage.workers
      have hidle : t'.brings Stage.workers = 0 := by cases t' <;> rfl
      rw [hidle] at hload
      rw [put_sessions]
      exact h.congr hload hpool
  | worked hstep => exact h.step? hdistinct hrun.succession.sessions_filed hstep
  | drainRetires =>
      obtain ⟨hload, hpool⟩ := Sessions.load_retire Stage.workers hdistinct
        hrun.succession.sessions_filed _ .shutdown
      exact h.congr hload hpool
  | _ => exact h

theorem Run.work_lt (hrun : (Router.ofSettings settings resolver lifecycle).Run history r)
    (hstep : r.step? e = some r') (hwork : e.isWork) : r'.work < r.work := by
  have hown {n : Nat} (he : e.request? = some n) : r'.work < r.work := by
    cases step?_happens hstep with
    | advanced _ ht hadvance =>
        exact hadvance.work_lt hrun.succession hrun.distinct hrun.distinctRequests ht
    | drainWaits hnone => cases hnone.symm.trans he
    | _ => cases he
  cases e with
  | move id k m =>
      obtain ⟨sessions, hmove, rfl⟩ := Option.map_eq_some_iff.mp hstep
      obtain ⟨before, after, hload, hrank, _⟩ :=
        Sessions.step?_load hrun.distinct hrun.succession.sessions_filed hmove
      have hless := hload Stage.rank
      unfold work
      dsimp only
      omega
  | dispatch | lock | act | probed | retire | drained | overdue | look | collect => exact hown rfl
  | _ => cases hwork

/-- Who has the environment lock does not wait for anybody. -/
theorem Locks.exists_work (h : Locks r) (hfitting : Fitting r) (ht : r.task? n = some t)
    (hholds : t.holdsEnvironment) : ∃ e, e.isWork ∧ (r.step? e).isSome := by
  let view : FileView := ⟨fun _ => none, fun _ => none⟩
  have hfree (hslot : t.holdsSlot = false) : r.slotHolder = none :=
    h.slotHolder_eq_none ht hholds hslot
  obtain ⟨v, hv, htask⟩ := exists_received ht
  have hsuits : Suits v.request t := htask ▸ hfitting hv
  cases t with
  | locked call =>
      refine ⟨.act n view, rfl, ?_⟩
      cases call with
      | shutdown => simp [step?, act, ht]
      | workspaceSet p =>
          simp only [step?, act, ht]
          split <;> rfl
      | environmentSet p => simp [step?, act, ht, hfree rfl]
      | _ => cases hsuits.2
  | moving root => exact ⟨.act n view, rfl, by simp [step?, act, ht, hfree rfl]⟩
  | creating call => exact ⟨.act n view, rfl, by simp [step?, act, ht, hfree rfl]⟩
  | changing p kind path found =>
      exact ⟨.probed n (.ok []), rfl, by simp [step?, probed, ht, Resolver.finish]⟩
  | probing call path found =>
      exact ⟨.probed n (.ok []), rfl, by simp [step?, probed, ht, Resolver.finish]⟩
  | replacing old new =>
      refine ⟨.retire n, rfl, ?_⟩
      simp only [step?, retireOld, ht]
      split <;> rfl
  | draining old new => exact ⟨.overdue n, rfl, by simp [step?, endChange, ht]⟩
  | _ => cases hholds

/-- While a request is open, some step can be made. -/
theorem Run.exists_work (hrun : (Router.ofSettings settings resolver lifecycle).Run history r)
    (ht : r.task? n = some t) (hopen : t.isDone = false) :
    ∃ e, e.isWork ∧ (r.step? e).isSome := by
  have hlocks := hrun.locks
  -- A request that finds the environment lock or the slot taken leaves the step to who has it.
  have hlock (hcan : r.environmentHolder = Option.none → ∃ e, e.isWork ∧ (r.step? e).isSome) :
      ∃ e, e.isWork ∧ (r.step? e).isSome := by
    cases hheld : r.environmentHolder with
    | none => exact hcan hheld
    | some m =>
        obtain ⟨u, hu, hholds⟩ := hlocks.environmentHeld hheld
        exact hlocks.exists_work hrun.fitting hu hholds
  obtain ⟨v, hv, htask⟩ := exists_received ht
  cases t with
  | arrived =>
      obtain ⟨request, tracked, task⟩ := v
      cases htask
      exact ⟨.dispatch n, rfl, by simp [step?, hv]⟩
  | wantsLock call =>
      exact hlock fun hfree => ⟨.lock n, rfl, by simp [step?, lock, ht, hfree]⟩
  | wantsCreation call =>
      exact hlock fun hfree => ⟨.lock n, rfl, by simp [step?, lock, ht, hfree]⟩
  | wantsSession call =>
      cases hheld : r.slotHolder with
      | none =>
          refine ⟨.look n, rfl, ?_⟩
          have hfree : ¬r.slotHolder.isSome = true := by simp [hheld]
          simp only [step?, look, ht, if_neg hfree]
          split <;> rfl
      | some m =>
          obtain ⟨u, hu, hslot⟩ := hlocks.slotHeld hheld
          exact hlocks.exists_work hrun.fitting hu (Task.holdsEnvironment_of_holdsSlot hslot)
  | serving call id k =>
      obtain ⟨_, s, w, hs, hw, _⟩ := (hrun.vouches hv).serving htask
      cases hresult : w.stage.result? with
      | some result => exact ⟨.collect n, rfl, by simp [step?, collect, ht, hs, hw, hresult]⟩
      | none =>
          obtain ⟨other, j, m, hcan⟩ := Sessions.exists_step hrun.staffed
            (Nat.le_max_right ..) hrun.distinct hs hw hresult
          exact ⟨.move other j m, rfl, by simpa [step?] using hcan⟩
  | done result => cases hopen
  | _ => exact hlocks.exists_work hrun.fitting ht rfl

end run

/-- Whichever steps of requests and invocations are made, something holds in the end: until then
there is always one that can be made. -/
inductive InTheEnd (P : Router → Prop) : Router → Prop
  | now {r : Router} (h : P r) : InTheEnd P r
  | goesOn {r : Router} (hcan : ∃ e, e.isWork ∧ (r.step? e).isSome)
      (hall : ∀ e r', e.isWork → r.step? e = some r' → InTheEnd P r') : InTheEnd P r

/-- What some open request waits for comes about in the end, if every step either brings it or lets
the request go on waiting. -/
theorem Run.inTheEnd_of_waits {settings : Settings} {resolver : Resolver} {lifecycle : Lifecycle}
    {history : List Moment} {P : Router → Prop} (Waits : Router → Prop)
    (hopen : ∀ {r}, Waits r → ∃ n t, r.task? n = some t ∧ t.isDone = false)
    (hnext : ∀ {history r e r'}, (Router.ofSettings settings resolver lifecycle).Run history r →
      Waits r → r.step? e = some r' → Waits r' ∨ P r')
    (hrun : (Router.ofSettings settings resolver lifecycle).Run history r) (hwaits : Waits r) :
    InTheEnd P r := by
  induction hsize : r.work using Nat.strong_induction_on generalizing history r with
  | _ size ih =>
      obtain ⟨n, t, ht, hnot⟩ := hopen hwaits
      refine .goesOn (hrun.exists_work ht hnot) fun e r' hwork hstep => ?_
      obtain hlater | hnow := hnext hrun hwaits hstep
      · exact ih _ (hsize ▸ hrun.work_lt hstep hwork) (.step hrun hstep) hlater rfl
      · exact .now hnow

end Router

end CodeAssist
