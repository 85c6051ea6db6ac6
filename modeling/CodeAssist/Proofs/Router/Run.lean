import CodeAssist.Proofs.Router.Advance

namespace CodeAssist

/-- One step of a router, with the router before and after it. -/
structure Moment where
  before : Router
  event : Event
  after : Router

namespace Router

/-- The steps of a history, the last one first, lead from `start` to a router. -/
inductive Run (start : Router) : List Moment → Router → Prop
  | none : Run start [] start
  | step {history : List Moment} {r r' : Router} {e : Event} (hrun : Run start history r)
      (hstep : r.step? e = some r') : Run start (⟨r, e, r'⟩ :: history) r'

/-- What holds at the start and is kept by everything that can happen on a run holds after every
run. -/
theorem Run.invariant {start r : Router} {history : List Moment} {P : List Moment → Router → Prop}
    (hrun : start.Run history r) (hstart : P [] start)
    (hkeep : ∀ {history r e r'}, start.Run history r → P history r → Happens r e r' →
      P (⟨r, e, r'⟩ :: history) r') : P history r := by
  induction hrun with
  | none => exact hstart
  | step hrun hstep ih => exact hkeep hrun ih (step?_happens hstep)

theorem Run.append {start middle r : Router} {earlier later : List Moment}
    (hfirst : start.Run earlier middle) (hsecond : middle.Run later r) :
    start.Run (later ++ earlier) r := by
  induction hsecond with
  | none => exact hfirst
  | step _ hstep ih => exact .step ih hstep

/-- A step of a run was made after a run of its own. -/
theorem Run.moment {start r : Router} {history : List Moment} (hrun : start.Run history r)
    {m : Moment} (hm : m ∈ history) :
    ∃ earlier, start.Run earlier m.before ∧ m.before.step? m.event = some m.after ∧
      ∀ x ∈ earlier, x ∈ history := by
  induction hrun with
  | none => cases hm
  | step hrun hstep ih =>
      obtain rfl | hm := List.mem_cons.mp hm
      · exact ⟨_, hrun, hstep, fun x => List.mem_cons_of_mem _⟩
      · obtain ⟨earlier, hbefore, hnext, hsub⟩ := ih hm
        exact ⟨earlier, hbefore, hnext, fun x hx => List.mem_cons_of_mem _ (hsub x hx)⟩

/-- The history and the router after those of the events that can happen, the first one first. -/
def playFrom (history : List Moment) (r : Router) : List Event → List Moment × Router
  | [] => (history, r)
  | e :: events =>
      match r.step? e with
      | some r' => playFrom (⟨r, e, r'⟩ :: history) r' events
      | none => playFrom history r events

def play (start : Router) (events : List Event) : List Moment × Router := playFrom [] start events

theorem run_playFrom {start r : Router} {history : List Moment} (hrun : start.Run history r)
    (events : List Event) :
    start.Run (playFrom history r events).1 (playFrom history r events).2 := by
  induction events generalizing history r with
  | nil => exact hrun
  | cons e events ih =>
      unfold playFrom
      split
      · rename_i hstep
        exact ih (.step hrun hstep)
      · exact ih hrun

theorem run_play (start : Router) (events : List Event) :
    start.Run (start.play events).1 (start.play events).2 := run_playFrom .none events

/-! A small engine to try things on. It finds its interpreter at one path, every path but one folder
is that of an interpreter, and each request is taken through all its stages at once. -/

namespace Trial

def start : Router :=
  .ofSettings { Settings.standard 1 with interpreter := .path ⟨"/old"⟩ }
    { search := {}, probe := .fixed Capability.all } .ready

def view : FileView where
  stat? path := if path.text = "/sub" then some ⟨false, true, true⟩ else some ⟨true, false, true⟩
  names? _ := none

def ask : Event := .arrive ⟨.null, "capabilities", .null⟩ true

def switch : Event :=
  .arrive ⟨.null, "environment.set", .object [("interpreterPath", .text "/new")]⟩ true

/-- A change that fails, as its path is that of the folder. -/
def broken : Event :=
  .arrive ⟨.null, "environment.set", .object [("interpreterPath", .text "/sub")]⟩ true

def move (root : String) : Event :=
  .arrive ⟨.null, "workspace.set", .object [("root", .text root)]⟩ true

def asks (n : Nat) : List Event :=
  [.dispatch n, .look n, .lock n, .act n view, .probed n (.ok Capability.all)]

def changes (n : Nat) : List Event :=
  [.dispatch n, .lock n, .act n view, .act n view, .probed n (.ok Capability.all), .retire n,
    .drained n]

/-- Change 3 comes in after request 2 and is done before it; request 4 comes in after both. -/
def overtaken : List Event :=
  [ask] ++ asks 1 ++ [ask, switch, ask] ++ changes 3 ++ asks 4 ++ asks 2

/-- Change 4 of the interpreter is done before change 2 of the root, and request 3 after both. -/
def handedOn : List Event :=
  [ask] ++ asks 1 ++ [move "/sub", ask, switch] ++ changes 4 ++ changes 2 ++ asks 3

end Trial

end Router

namespace Task

def holdsEnvironment : Task → Bool
  | .locked _ | .moving _ | .changing _ _ _ _ | .replacing _ _ | .draining _ _ | .creating _
  | .probing _ _ _ => true
  | .arrived | .wantsLock _ | .wantsSession _ | .wantsCreation _ | .serving _ _ _ | .done _ =>
      false

/-- Whether a request at a stage keeps others from reading the slot. -/
def holdsSlot : Task → Bool
  | .changing _ _ _ _ | .probing _ _ _ => true
  | .arrived | .wantsLock _ | .locked _ | .moving _ | .replacing _ _ | .draining _ _
  | .wantsSession _ | .wantsCreation _ | .creating _ | .serving _ _ _ | .done _ => false

theorem holdsEnvironment_of_holdsSlot {t : Task} (hslot : t.holdsSlot) : t.holdsEnvironment := by
  cases t with
  | changing | probing => rfl
  | _ => simp [holdsSlot] at hslot

theorem holdsSlot_eq_false {t : Task} (hfree : t.holdsEnvironment = false) : t.holdsSlot = false :=
  Bool.eq_false_iff.mpr fun hslot => by
    simp [holdsEnvironment_of_holdsSlot hslot] at hfree

end Task

namespace Router

theorem holdsEnvironment_firstStage (lifecycle : Lifecycle) (request : Request) :
    (firstStage lifecycle request).holdsEnvironment = false := by
  rcases firstStage_cases lifecycle request with
    ⟨_, heq, _⟩ | ⟨_, _, _, heq⟩ | ⟨_, _, _, heq⟩ <;> rw [heq] <;> rfl

theorem Given.rest_eq {r rest : Router} {call : Call} {id : Nat} {t' : Task}
    (hgiven : Given r call id rest t') : rest = { r with sessions := rest.sessions } := by
  cases hgiven <;> rfl

theorem Given.holdsEnvironment {r rest : Router} {call : Call} {id : Nat} {t' : Task}
    (hgiven : Given r call id rest t') : t'.holdsEnvironment = false := by
  cases hgiven <;> rfl

theorem Advance.received {r rest : Router} {e : Event} {n : Nat} {t t' : Task}
    (hadvance : Advance r e n t rest t') : rest.received = r.received := by
  cases hadvance with
  | given _ _ hgiven => rw [hgiven.rest_eq]
  | givenLate _ _ hgiven => rw [hgiven.rest_eq]; rfl
  | created _ _ _ hgiven => rw [hgiven.rest_eq]; rfl
  | createdLate hgiven => rw [hgiven.rest_eq]; rfl
  | _ => rfl

theorem Advance.nextArrival {r rest : Router} {e : Event} {n : Nat} {t t' : Task}
    (hadvance : Advance r e n t rest t') : rest.nextArrival = r.nextArrival := by
  cases hadvance with
  | given _ _ hgiven => rw [hgiven.rest_eq]
  | givenLate _ _ hgiven => rw [hgiven.rest_eq]; rfl
  | created _ _ _ hgiven => rw [hgiven.rest_eq]; rfl
  | createdLate hgiven => rw [hgiven.rest_eq]; rfl
  | _ => rfl

theorem Advance.task? {r rest : Router} {e : Event} {n : Nat} {t t' : Task}
    (ht : r.task? n = some t) (hadvance : Advance r e n t rest t') (m : Nat) :
    (rest.put n t').task? m = if m = n then some t' else r.task? m := by
  have hsame (k : Nat) : rest.task? k = r.task? k := by
    unfold Router.task? received?
    rw [hadvance.received]
  rw [task?_put ((hsame n).trans ht), hsame]

theorem Advance.request? {r rest : Router} {e : Event} {n : Nat} {t t' : Task}
    (hadvance : Advance r e n t rest t') : e.request? = some n := by
  cases hadvance with
  | drained he => obtain rfl | rfl := he <;> rfl
  | _ => rfl

theorem task?_arrived (r : Router) (request : Request) (tracked : Bool) {m : Nat} {t : Task}
    (ht : { r with
      nextArrival := r.nextArrival + 1
      received := Table.put r.nextArrival { request, tracked } r.received }.task? m = some t) :
    t = .arrived ∧ m = r.nextArrival ∨ m ≠ r.nextArrival ∧ r.task? m = some t := by
  by_cases hm : m = r.nextArrival
  · subst hm
    have hnew : some Task.arrived = some t := by
      rw [← ht, task?, received?, Table.lookup_put_self]
      rfl
    exact .inl ⟨(Option.some.inj hnew).symm, rfl⟩
  · refine .inr ⟨hm, ?_⟩
    rw [← ht, task?, task?, received?, received?, Table.lookup_put_of_ne hm]

/-- The requests there are have the numbers that have been given out. -/
structure Numbered (r : Router) : Prop where
  one_le : 0 < r.nextArrival
  received : ∀ {n v}, r.received? n = some v → 0 < n ∧ n < r.nextArrival

namespace Numbered

variable {r r' : Router} {e : Event}

theorem task (h : Numbered r) {n : Nat} {t : Task} (ht : r.task? n = some t) :
    0 < n ∧ n < r.nextArrival := by
  obtain ⟨v, hv, _⟩ := exists_received ht
  exact h.received hv

theorem task?_kept (h : Numbered r) (request : Request) (tracked : Bool) {n : Nat} {t : Task}
    (ht : r.task? n = some t) :
    { r with
      nextArrival := r.nextArrival + 1
      received := Table.put r.nextArrival { request, tracked } r.received }.task? n = some t := by
  have hne : n ≠ r.nextArrival := Nat.ne_of_lt (h.task ht).2
  rw [← ht, Router.task?, Router.task?, received?, received?, Table.lookup_put_of_ne hne]

theorem ofSettings (settings : Settings) (resolver : Resolver) (lifecycle : Lifecycle) :
    Numbered (Router.ofSettings settings resolver lifecycle) where
  one_le := Nat.one_pos
  received hv := by cases hv

theorem happens (h : Numbered r) (hhappens : Happens r e r') : Numbered r' := by
  cases hhappens with
  | arrived request tracked =>
      refine ⟨Nat.succ_pos _, fun {n v} hv => ?_⟩
      by_cases hn : n = r.nextArrival
      · exact ⟨hn ▸ h.one_le, hn ▸ Nat.lt_succ_self _⟩
      · have hold : r.received? n = some v :=
          (Table.lookup_put_of_ne hn _ r.received).symm.trans hv
        exact ⟨(h.received hold).1, Nat.lt_succ_of_lt (h.received hold).2⟩
  | advanced he ht hadvance =>
      rename_i n t t' rest
      have hnext : (rest.put n t').nextArrival = r.nextArrival := by
        rw [put_nextArrival, hadvance.nextArrival]
      refine ⟨hnext ▸ h.one_le, fun {m v} hv => ?_⟩
      rw [hnext]
      have htask : (rest.put n t').task? m = some v.task := task?_of_received? hv
      rw [hadvance.task? ht] at htask
      split at htask
      · rename_i hm
        exact hm ▸ h.task ht
      · exact h.task htask
  | _ => exact ⟨h.one_le, h.received⟩

end Numbered

theorem Run.numbered {settings : Settings} {resolver : Resolver} {lifecycle : Lifecycle}
    {history : List Moment} {r : Router}
    (hrun : (Router.ofSettings settings resolver lifecycle).Run history r) : Numbered r :=
  hrun.invariant (P := fun _ r => Numbered r) (.ofSettings ..) fun _ h hhappens =>
    h.happens hhappens

/-- A lock has who is at a stage that needs it, and nobody else. -/
structure HeldBy (r : Router) (needs : Task → Bool) (holder : Option Nat) : Prop where
  needed : ∀ {n t}, r.task? n = some t → needs t → holder = some n
  held : ∀ {n}, holder = some n → ∃ t, r.task? n = some t ∧ needs t

namespace HeldBy

variable {r rest : Router} {e : Event} {needs : Task → Bool} {holder holder' : Option Nat} {n : Nat}
  {t t' : Task}

theorem arrived (h : HeldBy r needs holder) (hnumbered : Numbered r)
    (hnew : needs .arrived = false) (request : Request) (tracked : Bool) :
    HeldBy { r with
      nextArrival := r.nextArrival + 1
      received := Table.put r.nextArrival { request, tracked } r.received } needs holder where
  needed hu hneeds := by
    obtain ⟨rfl, _⟩ | ⟨_, hbefore⟩ := task?_arrived r request tracked hu
    · simp [hnew] at hneeds
    · exact h.needed hbefore hneeds
  held hholder := by
    obtain ⟨u, hu, hneeds⟩ := h.held hholder
    exact ⟨u, hnumbered.task?_kept request tracked hu, hneeds⟩

/-- A request takes a lock when it comes to need it, and gives it up with the environment lock. -/
theorem advance (h : HeldBy r needs holder) (ht : r.task? n = some t)
    (hadvance : Advance r e n t rest t')
    (hholder : holder' = if needs t' then some n else if t.holdsEnvironment then none else holder)
    (hneeds : needs t → t.holdsEnvironment)
    (hothers : ∀ {m u}, m ≠ n → r.task? m = some u → needs u →
      needs t' = false ∧ t.holdsEnvironment = false) :
    HeldBy (rest.put n t') needs holder' where
  needed {m u} hu hm := by
    rw [hadvance.task? ht] at hu
    split at hu
    · rename_i heq
      cases hu
      rw [hholder, if_pos hm, heq]
    · rename_i hne
      obtain ⟨hnot, hfree⟩ := hothers hne hu hm
      rw [hholder, hnot, hfree]
      exact h.needed hu hm
  held {m} hm := by
    rw [hholder] at hm
    split at hm
    · rename_i hnow
      cases hm
      exact ⟨t', by rw [hadvance.task? ht, if_pos rfl], hnow⟩
    · split at hm
      · cases hm
      · rename_i hfree
        obtain ⟨u, hu, hu'⟩ := h.held hm
        have hne : m ≠ n := by
          rintro rfl
          cases Option.some.inj (ht.symm.trans hu)
          exact hfree (hneeds hu')
        exact ⟨u, by rw [hadvance.task? ht, if_neg hne, hu], hu'⟩

end HeldBy

/-- Both locks have who needs them. -/
structure Locks (r : Router) : Prop where
  environmentLock : HeldBy r Task.holdsEnvironment r.environmentHolder
  slotLock : HeldBy r Task.holdsSlot r.slotHolder

namespace Locks

variable {r r' rest : Router} {e : Event} {n m : Nat} {t t' u : Task}

theorem environment (h : Locks r) (ht : r.task? n = some t) (hholds : t.holdsEnvironment) :
    r.environmentHolder = some n := h.environmentLock.needed ht hholds

theorem slot (h : Locks r) (ht : r.task? n = some t) (hslot : t.holdsSlot) :
    r.slotHolder = some n := h.slotLock.needed ht hslot

theorem environmentHeld (h : Locks r) (hheld : r.environmentHolder = some n) :
    ∃ t, r.task? n = some t ∧ t.holdsEnvironment := h.environmentLock.held hheld

theorem slotHeld (h : Locks r) (hheld : r.slotHolder = some n) :
    ∃ t, r.task? n = some t ∧ t.holdsSlot := h.slotLock.held hheld

theorem unique (h : Locks r) (ht : r.task? n = some t) (hholds : t.holdsEnvironment)
    (hu : r.task? m = some u) (hother : u.holdsEnvironment) : m = n :=
  Option.some.inj ((h.environment hu hother).symm.trans (h.environment ht hholds))

theorem slotHolder_eq_none (h : Locks r) (ht : r.task? n = some t)
    (hholds : t.holdsEnvironment) (hslot : t.holdsSlot = false) : r.slotHolder = none := by
  cases hheld : r.slotHolder with
  | none => rfl
  | some m =>
      obtain ⟨u, hu, huslot⟩ := h.slotHeld hheld
      have hm : m = n := h.unique ht hholds hu (Task.holdsEnvironment_of_holdsSlot huslot)
      subst hm
      have heq : t = u := Option.some.inj (ht.symm.trans hu)
      rw [← heq, hslot] at huslot
      cases huslot

theorem ofSettings (settings : Settings) (resolver : Resolver) (lifecycle : Lifecycle) :
    Locks (Router.ofSettings settings resolver lifecycle) where
  environmentLock :=
    { needed := fun ht => by cases ht
      held := fun hheld => by cases hheld }
  slotLock :=
    { needed := fun ht => by cases ht
      held := fun hheld => by cases hheld }

theorem advance_environment (h : Locks r) (ht : r.task? n = some t)
    (hadvance : Advance r e n t rest t') :
    rest.environmentHolder = if t'.holdsEnvironment then some n
      else if t.holdsEnvironment then none else r.environmentHolder := by
  have hown := h.environment ht
  cases hadvance with
  | dispatched => rw [holdsEnvironment_firstStage]; rfl
  | given _ _ hgiven => rw [hgiven.holdsEnvironment, hgiven.rest_eq]; rfl
  | givenLate _ _ hgiven => rw [hgiven.holdsEnvironment]; rfl
  | created _ _ _ hgiven => rw [hgiven.holdsEnvironment]; rfl
  | createdLate hgiven => rw [hgiven.holdsEnvironment]; rfl
  | moving | changing | switched | moved | retires | probing => exact hown rfl
  | _ => rfl

theorem advance_slot (h : Locks r) (ht : r.task? n = some t)
    (hadvance : Advance r e n t rest t') :
    rest.slotHolder = if t'.holdsSlot then some n
      else if t.holdsEnvironment then none else r.slotHolder := by
  have hnot {u : Task} (hu : u.holdsEnvironment = false) : u.holdsSlot = false :=
    Task.holdsSlot_eq_false hu
  cases hadvance with
  | dispatched => rw [hnot (holdsEnvironment_firstStage ..)]; rfl
  | given _ _ hgiven => rw [hnot hgiven.holdsEnvironment, hgiven.rest_eq]; rfl
  | givenLate _ _ hgiven => rw [hnot hgiven.holdsEnvironment]; rfl
  | created _ _ _ hgiven => rw [hnot hgiven.holdsEnvironment]; rfl
  | createdLate hgiven => rw [hnot hgiven.holdsEnvironment]; rfl
  | moving | retires => exact h.slotHolder_eq_none ht rfl rfl
  | _ => rfl

theorem advance_free (hadvance : Advance r e n t rest t') (hholds : t'.holdsEnvironment) :
    t.holdsEnvironment ∨ r.environmentHolder = none := by
  cases hadvance with
  | dispatched => simp [holdsEnvironment_firstStage] at hholds
  | locked hfree => exact .inr hfree
  | creating hfree => exact .inr hfree
  | given _ _ hgiven => simp [hgiven.holdsEnvironment] at hholds
  | refused | absent | collected => simp [Task.holdsEnvironment] at hholds
  | _ => exact .inl rfl

/-- While another has the environment lock, a request neither has it nor gets it. -/
theorem advance_other (h : Locks r) (ht : r.task? n = some t) (hadvance : Advance r e n t rest t')
    (hne : m ≠ n) (hu : r.task? m = some u) (hother : u.holdsEnvironment) :
    t'.holdsEnvironment = false ∧ t.holdsEnvironment = false := by
  have hbefore : t.holdsEnvironment = false := Bool.eq_false_iff.mpr fun hmine =>
    hne (h.unique ht hmine hu hother)
  refine ⟨Bool.eq_false_iff.mpr fun hmine => ?_, hbefore⟩
  obtain hheld | hfree := advance_free hadvance hmine
  · rw [hbefore] at hheld
    cases hheld
  · cases (h.environment hu hother).symm.trans hfree

theorem happens (h : Locks r) (hnumbered : Numbered r) (hhappens : Happens r e r') :
    Locks r' := by
  cases hhappens with
  | arrived request tracked =>
      exact ⟨h.environmentLock.arrived hnumbered rfl request tracked,
        h.slotLock.arrived hnumbered rfl request tracked⟩
  | advanced he ht hadvance =>
      constructor
      · rw [put_environmentHolder]
        exact h.environmentLock.advance ht hadvance (h.advance_environment ht hadvance) id
          (h.advance_other ht hadvance)
      · rw [put_slotHolder]
        refine h.slotLock.advance ht hadvance (h.advance_slot ht hadvance)
          Task.holdsEnvironment_of_holdsSlot fun hne hu hslot => ?_
        obtain ⟨hafter, hbefore⟩ := h.advance_other ht hadvance hne hu
          (Task.holdsEnvironment_of_holdsSlot hslot)
        exact ⟨Task.holdsSlot_eq_false hafter, hbefore⟩
  | _ => exact ⟨⟨h.environmentLock.needed, h.environmentLock.held⟩,
      ⟨h.slotLock.needed, h.slotLock.held⟩⟩

end Locks

theorem Run.locks {settings : Settings} {resolver : Resolver} {lifecycle : Lifecycle}
    {history : List Moment} {r : Router}
    (hrun : (Router.ofSettings settings resolver lifecycle).Run history r) : Locks r :=
  hrun.invariant (P := fun _ r => Locks r) (.ofSettings ..) fun hrun h hhappens =>
    h.happens hrun.numbered hhappens

end Router

end CodeAssist
