import CodeAssist.Proofs.Engine.Account
import CodeAssist.Proofs.Router.Progress

namespace CodeAssist

/-! From its shutdown on, the engine refuses everything but to be shut down once more. -/

namespace Lifecycle

def Closing (state : Lifecycle) : Prop := state = .shuttingDown ∨ state = .stopped

theorem closing_iff {state : Lifecycle} : state.Closing ↔ state.hasReached .shuttingDown := by
  cases state <;> simp [Closing, hasReached, rank]

theorem Closing.later {state state' : Lifecycle} (hclosing : state.Closing)
    (hle : state.rank ≤ state'.rank) : state'.Closing := by
  rw [closing_iff, hasReached, decide_eq_true_iff] at hclosing ⊢
  exact Nat.le_trans hclosing hle

theorem rank_le_moveTo (state next : Lifecycle) : state.rank ≤ (state.moveTo next).rank := by
  cases state <;> cases next <;> decide

theorem closing_beginShutdown (state : Lifecycle) : state.beginShutdown.Closing := by
  cases state with
  | starting | ready | shuttingDown => exact .inl rfl
  | stopped => exact .inr rfl

def report (state : Lifecycle) : Json := .ofMembers [("state", .text state.name)]

end Lifecycle

def Task.OfShutdown : Task → Prop
  | .arrived | .wantsLock .shutdown | .locked .shutdown => True
  | .done result => ∃ state : Lifecycle, state.Closing ∧ result = .ok state.report
  | _ => False

namespace Router

variable {start r r' rest : Router} {history : List Moment} {e : Event} {n : Nat} {t t' : Task}
  {v : Received}

theorem Given.lifecycle {call : Call} {id : Nat} (hgiven : Given r call id rest t') :
    rest.lifecycle = r.lifecycle := by
  cases hgiven <;> rfl

theorem Advance.lifecycle (hadvance : Advance r e n t rest t') :
    rest.lifecycle = r.lifecycle ∨ rest.lifecycle = r.lifecycle.beginShutdown := by
  cases hadvance with
  | shutDown => exact .inr rfl
  | given _ _ hgiven | givenLate _ _ hgiven | created _ _ _ hgiven | createdLate hgiven =>
      exact .inl hgiven.lifecycle
  | _ => exact .inl rfl

theorem Happens.rank_le (hhappens : Happens r e r') : r.lifecycle.rank ≤ r'.lifecycle.rank := by
  cases hhappens with
  | advanced _ _ hadvance =>
      rw [put_lifecycle]
      obtain hsame | hshut := hadvance.lifecycle
      · rw [hsame]
      · rw [hshut]
        exact Lifecycle.rank_le_moveTo ..
  | lifecycle next => exact Lifecycle.rank_le_moveTo ..
  | _ => exact Nat.le_refl _

theorem Run.rank_le (hrun : start.Run history r) : start.lifecycle.rank ≤ r.lifecycle.rank :=
  hrun.invariant (P := fun _ r => start.lifecycle.rank ≤ r.lifecycle.rank) (Nat.le_refl _)
    fun _ h hhappens => Nat.le_trans h hhappens.rank_le

theorem firstStage_shutdown {lifecycle : Lifecycle} {request : Request}
    (hmethod : request.method = "shutdown") :
    firstStage lifecycle request = .wantsLock .shutdown := by
  simp [firstStage, hmethod, Call.ofRequest, Call.affectsEnvironment]

theorem step?_dispatch (hv : r.received? n = some v) (harrived : v.task = .arrived) :
    r.step? (.dispatch n) = some (r.put n (firstStage r.lifecycle v.request)) := by
  obtain ⟨request, tracked, task⟩ := v
  cases harrived
  simp only [step?, hv, dispatch_eq]

section past

variable {settings : Settings} {resolver : Resolver} {lifecycle : Lifecycle}
  {past : List Moment} (hpast : (Router.ofSettings settings resolver lifecycle).Run past start)

include hpast

/-- A request that has been answered stays so, and makes no more steps. -/
theorem Run.answered {response : Response} (hresponse : start.response? n = some response)
    (hrun : start.Run history r) :
    r.response? n = some response ∧ ∀ m ∈ history, m.event.request? ≠ some n := by
  induction hrun with
  | none => exact ⟨hresponse, fun m hm => by cases hm⟩
  | step hrun hstep ih =>
      have hnumbered := (hpast.append hrun).numbered
      obtain ⟨hbefore, hothers⟩ := ih
      obtain ⟨v, result, hv, hdone, -⟩ := response?_eq_some.mp hbefore
      have hother := (done_step hnumbered (hdone ▸ task?_of_received? hv) hstep).1
      exact ⟨response?_step hnumbered hstep hbefore, List.forall_mem_cons.mpr ⟨hother, hothers⟩⟩

end past

theorem Advance.ofShutdown (hadvance : Advance r e n t rest t') (hv : r.received? n = some v)
    (hmethod : v.request.method = "shutdown") (ht : t.OfShutdown) :
    t'.OfShutdown ∧ ∀ result, t' = .done result →
      rest.lifecycle.Closing ∧ result = .ok rest.lifecycle.report := by
  cases hadvance with
  | dispatched hv' =>
      cases Option.some.inj (hv.symm.trans hv')
      rw [firstStage_shutdown hmethod]
      exact ⟨trivial, nofun⟩
  | @locked n call =>
      cases call with
      | shutdown => exact ⟨trivial, nofun⟩
      | _ => exact ht.elim
  | shutDown =>
      have hclosing := r.lifecycle.closing_beginShutdown
      refine ⟨⟨_, hclosing, rfl⟩, fun result hresult => ⟨hclosing, ?_⟩⟩
      cases hresult
      rfl
  | _ => exact ht.elim

def Shutting (r : Router) : Prop :=
  ∀ ⦃n v⦄, r.received? n = some v → v.request.method = "shutdown" → v.task.OfShutdown

theorem Shutting.happens (h : Shutting r) (hhappens : Happens r e r') : Shutting r' := by
  intro n v hv hmethod
  cases hhappens with
  | arrived =>
      obtain hnew | hbefore := received?_arrived hv
      · rw [hnew]
        trivial
      · exact h hbefore hmethod
  | advanced _ ht hadvance =>
      obtain ⟨u, hu, htask⟩ := exists_received ht
      obtain ⟨-, rfl⟩ | ⟨-, hbefore⟩ := hadvance.received? hu hv
      · exact (hadvance.ofShutdown hu hmethod (htask ▸ h hu hmethod)).1
      · exact h hbefore hmethod
  | _ => exact h hv hmethod

/-- Request `n` has been answered that the engine is shutting down, or has stopped. -/
def Told (n : Nat) (id : Json) (r : Router) : Prop :=
  ∃ state : Lifecycle, state.Closing ∧ r.response? n = some (.ofResult id (.ok state.report))

section run

variable {settings : Settings} {resolver : Resolver} {lifecycle : Lifecycle}
  (hrun : (Router.ofSettings settings resolver lifecycle).Run history r)

include hrun

theorem Run.shutting : Shutting r :=
  hrun.invariant (P := fun _ r => Shutting r) (fun _ _ hv => by cases hv) fun _ h hhappens =>
    h.happens hhappens

theorem Run.told_of_done {result : Except Failure Json} (hv : r.received? n = some v)
    (hmethod : v.request.method = "shutdown") (hdone : v.task = .done result) :
    Told n v.request.id r := by
  have hstage := hrun.shutting hv hmethod
  rw [hdone] at hstage
  obtain ⟨state, hclosing, rfl⟩ := hstage
  exact ⟨state, hclosing, response?_eq_some.mpr ⟨v, _, hv, hdone, rfl⟩⟩

/-- What holds as soon as a request has been answered holds in the end. -/
theorem Run.inTheEnd {P : Router → Prop} (hv : r.received? n = some v)
    (hanswered : ∀ {later r' response}, r.Run later r' → r'.response? n = some response → P r') :
    InTheEnd P r := by
  have hdone {later : List Moment} {r' : Router} {w : Received} (hlater : r.Run later r')
      (hw : r'.received? n = some w) : w.task.isDone = false ∨ P r' := by
    cases hresult : w.task.result? with
    | none => exact .inl (by simp [Task.isDone, hresult])
    | some result =>
        have htask : w.task = .done result := by
          cases ht : w.task <;> rw [ht] at hresult <;> cases hresult
          rfl
        exact .inr (hanswered hlater (response?_eq_some.mpr ⟨w, result, hw, htask, rfl⟩))
  obtain hwaits | hnow := hdone .none hv
  · refine Run.inTheEnd_of_waits (P := P) (fun r' => ∃ past later w,
      (Router.ofSettings settings resolver lifecycle).Run past r' ∧ r.Run later r' ∧
        r'.received? n = some w ∧ w.task.isDone = false) ?_ ?_ hrun ⟨_, _, v, hrun, .none, hv, hwaits⟩
    · rintro r' ⟨-, -, w, -, -, hw, hopen⟩
      exact ⟨n, _, task?_of_received? hw, hopen⟩
    · rintro - r' e r'' - ⟨past, later, w, hpast, hlater, hw, -⟩ hstep
      obtain ⟨t, ht, -⟩ := received?_step hpast.numbered hstep hw
      exact (hdone (hlater.step hstep) ht).imp_left fun hopen =>
        ⟨_, _, _, hpast.step hstep, hlater.step hstep, ht, hopen⟩
  · exact .now hnow

theorem Run.received?_kept {later : List Moment} (hv : r.received? n = some v)
    (hlater : r.Run later r') : ∃ t, r'.received? n = some { v with task := t } := by
  induction hlater with
  | none => exact ⟨v.task, hv⟩
  | step hlater hstep ih =>
      obtain ⟨t, ht⟩ := ih
      obtain ⟨t', ht', -⟩ := received?_step (hrun.append hlater).numbered hstep ht
      exact ⟨t', ht'⟩

theorem Run.told (hv : r.received? n = some v) (hmethod : v.request.method = "shutdown") :
    InTheEnd (Told n v.request.id) r := by
  refine hrun.inTheEnd hv fun hlater hresponse => ?_
  obtain ⟨t, ht⟩ := hrun.received?_kept hv hlater
  obtain ⟨w, result, hw, hdone, -⟩ := response?_eq_some.mp hresponse
  cases Option.some.inj (ht.symm.trans hw)
  have htold := (hrun.append hlater).told_of_done ht hmethod hdone
  exact htold

end run

/-- A shutdown, with params that mean nothing to it, is answered; the engine stops, and is asked for
something that it does not know and for another shutdown. -/
def Trial.stopped : List Event :=
  [.arrive ⟨.text "first", "shutdown", .list []⟩ false, .dispatch 1, .lock 1, .act 1 Trial.view,
    .lifecycle .stopped, .arrive ⟨.text "other", "nonsense", .null⟩ true,
    .arrive ⟨.text "again", "shutdown", .null⟩ false]

end Router

end CodeAssist
