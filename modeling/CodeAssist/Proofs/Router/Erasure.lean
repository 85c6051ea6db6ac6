import CodeAssist.Proofs.Router.Attribution

namespace CodeAssist

/-! Taking a request out of a router: the steps of all others stay what they are. -/

namespace Router

def without (r : Router) (n : Nat) : Router :=
  { r with
    received := Table.without n r.received
    environmentHolder := r.environmentHolder.filter (· ≠ n)
    slotHolder := r.slotHolder.filter (· ≠ n) }

variable {r r' : Router} {n m : Nat} {e : Event}

theorem put_without_self (t : Task) : (r.put n t).without n = r.without n := by
  unfold put
  cases r.received? n with
  | none => rfl
  | some v => simp only [without, Table.without_put_self]

section pieces

variable (hne : m ≠ n)

include hne

end pieces

section steps

variable (hne : m ≠ n)

include hne

end steps

def DistinctRequests (r : Router) : Prop := (r.received.map Prod.fst).Nodup

theorem put_distinct (hdistinct : DistinctRequests r) (n : Nat) (t : Task) :
    DistinctRequests (r.put n t) := by
  unfold put
  split
  · exact Table.nodup_keys_put hdistinct
  · exact hdistinct

theorem DistinctRequests.happens (hdistinct : DistinctRequests r) (hhappens : Happens r e r') :
    DistinctRequests r' := by
  cases hhappens with
  | arrived => exact Table.nodup_keys_put hdistinct
  | advanced _ _ hadvance =>
      refine put_distinct ?_ _ _
      rw [DistinctRequests, hadvance.received]
      exact hdistinct
  | _ => exact hdistinct

theorem advance_of_own {t t' : Task} (hown : e.request? = some n) (ht : r.task? n = some t)
    (ht' : r'.task? n = some t') (hstep : r.step? e = some r') :
    ∃ rest, Advance r e n t rest t' ∧ r' = rest.put n t' := by
  cases step?_happens hstep with
  | advanced he hbefore hadvance =>
      cases Option.some.inj (he.symm.trans hown)
      cases Option.some.inj (hbefore.symm.trans ht)
      rw [hadvance.task? ht, if_pos rfl] at ht'
      cases ht'
      exact ⟨_, hadvance, rfl⟩
  | drainWaits he => cases he.symm.trans hown
  | _ => cases hown

/-- A step is one of another than request `n` and leaves it at its stage, or takes it on. -/
theorem received?_step (hnumbered : Numbered r) (hstep : r.step? e = some r') {v : Received}
    (hv : r.received? n = some v) :
    ∃ t, r'.received? n = some { v with task := t } ∧
      (e.request? ≠ some n ∧ t = v.task ∨
        e.request? = some n ∧ ∃ rest, Advance r e n v.task rest t ∧ r' = rest.put n t) := by
  obtain ⟨t, ht, hsame⟩ := received?_happens hnumbered (step?_happens hstep) hv
  refine ⟨t, ht, ?_⟩
  by_cases hown : e.request? = some n
  · exact .inr ⟨hown,
      advance_of_own hown (task?_of_received? hv) (task?_of_received? ht) hstep⟩
  · exact .inl ⟨hown, hsame hown⟩

theorem done_step (hnumbered : Numbered r) {result : Except Failure Json}
    (hdone : r.task? n = some (.done result)) (hstep : r.step? e = some r') :
    e.request? ≠ some n ∧ r'.task? n = some (.done result) := by
  obtain ⟨v, hv, htask⟩ := exists_received hdone
  obtain ⟨t, ht, ⟨hother, rfl⟩ | ⟨_, rest, hadvance, _⟩⟩ := received?_step hnumbered hstep hv
  · exact ⟨hother, htask ▸ task?_of_received? ht⟩
  · rw [htask] at hadvance
    cases hadvance

/-- Whether a request at a stage has done nothing yet that others could see. -/
def isPending : Task → Bool
  | .arrived | .wantsLock _ | .locked _ | .changing _ _ _ _ => true
  | .moving _ | .replacing _ _ | .draining _ _ | .wantsSession _ | .wantsCreation _ | .creating _
  | .probing _ _ _ | .serving _ _ _ | .done _ => false

/-- Who has the environment lock gives up no more with it than what is its own. -/
theorem unlock_without_self (hlocks : Locks r) {t : Task} (ht : r.task? n = some t)
    (hholds : t.holdsEnvironment) : r.unlock.without n = r.without n := by
  have henvironment : r.environmentHolder.filter (· ≠ n) = none := by
    rw [hlocks.environment ht hholds]
    simp [Option.filter]
  have hslot : r.slotHolder.filter (· ≠ n) = none := by
    cases hheld : r.slotHolder with
    | none => rfl
    | some k =>
        obtain ⟨u, hu, huslot⟩ := hlocks.slotHeld hheld
        cases hlocks.unique ht hholds hu (Task.holdsEnvironment_of_holdsSlot huslot)
        simp [Option.filter]
  unfold without unlock
  rw [hslot, henvironment]
  rfl

end Router

namespace Moment

def without (m : Moment) (n : Nat) : Moment := ⟨m.before.without n, m.event, m.after.without n⟩

def erase (n : Nat) (history : List Moment) : List Moment :=
  (history.filter fun m => m.event.request? ≠ some n).map (·.without n)

end Moment

namespace Router

section run

variable {settings : Settings} {resolver : Resolver} {lifecycle : Lifecycle}
  {past history : List Moment} {start r r' : Router} {n : Nat} {e : Event}
  (hpast : (Router.ofSettings settings resolver lifecycle).Run past start)

include hpast

theorem Run.distinctRequests : DistinctRequests start :=
  hpast.invariant (P := fun _ r => DistinctRequests r) List.nodup_nil fun _ h hhappens =>
    h.happens hhappens

end run

end Router

end CodeAssist
