import CodeAssist.Proofs.Engine.Run
import CodeAssist.Proofs.Router.Progress

namespace CodeAssist

namespace Engine

/-! What is awaited on a connection is a request of the router. -/

/-- The router has the requests that are awaited. -/
def Held (e : Engine) : Prop :=
  ∀ ⦃k l n⦄, e.link? k = some l → n ∈ l.awaited → ∃ v, e.router.received? n = some v

variable {e e' : Engine} {event : Engine.Event} {k : Nat} {l l' : Link}

theorem Held.put (h : Held e)
    (hl' : ∀ n ∈ l'.awaited, ∃ v, e.router.received? n = some v) : Held (e.put k l') := by
  intro j m n hm hn
  by_cases hj : j = k
  · rw [hj, link?_put_self] at hm
    cases hm
    exact hl' n hn
  · rw [link?_put_of_ne hj] at hm
    exact h hm hn

theorem Held.routed (h : Held e) (hnumbered : e.router.Numbered) {inner : CodeAssist.Event}
    {router : Router} (hstep : e.router.step? inner = some router) (listens : Bool) :
    Held { e with router, listens } := by
  intro k l n hl hn
  obtain ⟨v, hv⟩ := h hl hn
  obtain ⟨t, ht, _⟩ := Router.received?_step hnumbered hstep hv
  exact ⟨_, ht⟩

theorem Held.happens (h : Held e) (hnumbered : e.router.Numbered) (hhappens : Happens e event e') :
    Held e' := by
  cases hhappens with
  | connected => exact h.put fun n hn => by cases hn
  | sent hl | ended hl | refused hl | finished hl | halted hl =>
      refine h.put ?_
      exact fun n hn => h hl hn
  | wrote hl => exact h.put fun n hn => h hl (List.mem_of_mem_erase hn)
  | routed _ hstep => exact h.routed hnumbered hstep _
  | exits => exact h
  | @requested k l body rest request router hl _ _ _ _ hstep =>
      have hlater := h.routed hnumbered hstep e.listens
      refine hlater.put fun n hn => ?_
      obtain hn | hn := List.mem_append.mp hn
      · exact hlater hl hn
      · rw [List.mem_singleton.mp hn]
        cases hstep
        exact ⟨_, Table.lookup_put_self ..⟩

section run

variable {settings : Settings} {resolver : Resolver} {lifecycle : Lifecycle}
  {history : List Moment}

theorem Run.numbered (hrun : (fresh (.ofSettings settings resolver lifecycle)).Run history e) :
    e.router.Numbered := by
  obtain ⟨past, hpast⟩ := hrun.router
  exact Router.Run.numbered hpast

theorem Run.held (hrun : (fresh (.ofSettings settings resolver lifecycle)).Run history e) :
    Held e :=
  hrun.invariant (P := fun _ e => Held e) (fun _ _ _ hl => by cases hl) fun hrun h hhappens =>
    h.happens hrun.numbered hhappens

end run

/-- The steps that serve connection `k`: those that read from it and write on it, and the work on
requests. -/
inductive Serves (k : Nat) : Engine.Event → Prop
  | read : Serves k (.read k)
  | write (n : Nat) : Serves k (.write k n)
  | router {inner : CodeAssist.Event} (hwork : inner.isWork) : Serves k (.router inner)

section run

variable {settings : Settings} {resolver : Resolver} {lifecycle : Lifecycle}
  {history : List Moment}

/-- A process does not end by serving connections. -/
theorem Serves.stays (hserves : Serves k event) (hstep : e.step? event = some e') :
    e'.exited = false := by
  obtain ⟨halive, -⟩ := step?_alive hstep
  cases step?_happens hstep with
  | exits => cases hserves
  | _ => exact halive

end run

end Engine

end CodeAssist
