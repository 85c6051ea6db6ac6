import CodeAssist.Proofs.Session.Answers
import CodeAssist.Proofs.Session.Workers

namespace CodeAssist

namespace Session

/-! What happens to one session, whatever the others do with the workers meanwhile. -/

/-- What can happen to a session: it takes up a query, one of its invocations makes a step with the
workers that there are then, or it is retired. -/
inductive Event where
  | start (q : Query)
  | move (pool : Pool) (k : Nat) (m : Move)
  | retire (reason : Reason)

def next? (s : Session) : Event → Option Session
  | .start q => some (s.start q)
  | .move pool k m => (s.step? pool k m).map Prod.snd
  | .retire reason => some (s.retire reason)

structure Moment where
  before : Session
  event : Event
  after : Session

/-- The events of a history, the last one first, lead from `start` to a session. -/
inductive Run (start : Session) : List Moment → Session → Prop
  | none : Run start [] start
  | step {history : List Moment} {s s' : Session} {e : Event} (hrun : Run start history s)
      (hnext : s.next? e = some s') : Run start (⟨s, e, s'⟩ :: history) s'

inductive Happens (s : Session) : Event → Session → Prop
  | started (q : Query) : Happens s (.start q) (s.start q)
  | moved {pool pool' : Pool} {k : Nat} {m : Move} {v : Invocation} {s' : Session}
      (hv : s.invocations[k]? = some v) (hadvance : s.Advance pool k v m pool' s') :
      Happens s (.move pool k m) s'
  | retired (reason : Reason) : Happens s (.retire reason) (s.retire reason)

theorem next?_happens {s s' : Session} {e : Event} (hnext : s.next? e = some s') :
    Happens s e s' := by
  cases e with
  | start q =>
      cases hnext
      exact .started q
  | move pool k m =>
      obtain ⟨⟨pool', s''⟩, hstep, rfl⟩ := Option.map_eq_some_iff.mp hnext
      obtain ⟨v, hv, hadvance⟩ := step?_advance hstep
      exact .moved hv hadvance
  | retire reason =>
      cases hnext
      exact .retired reason

theorem Advance.step? {s s' : Session} {pool pool' : Pool} {k : Nat} {v : Invocation} {m : Move}
    (hadvance : s.Advance pool k v m pool' s') (hv : s.invocations[k]? = some v) :
    s.step? pool k m = some (pool', s') := by
  cases hadvance with
  | lacking hstage hlacks | admitted hstage hlacks => simp [Session.step?, hv, hstage, hlacks]
  | registered hstage hfile | unregistrable hstage hfile => simp [Session.step?, hv, hstage, hfile]
  | turnedAway hstage hretired | entered hstage hretired =>
      simp [Session.step?, hv, hstage, hretired]
  | took hstage hopen hfree => simp [Session.step?, hv, hstage, hopen, hfree]
  | refused hstage hcan | gaveUp hstage hcan => simp [Session.step?, hv, hstage, hcan]
  | trivial hstage hneeds => simp [Session.step?, hv, hstage, begin, hneeds]
  | recalled hstage hneeds hcache | began hstage hneeds hcache =>
      have hlookup : s.caches.lookup v.query = (_, (s.caches.lookup v.query).2) :=
        Prod.ext hcache rfl
      simp only [Session.step?, hv, hstage, begin, hneeds]
      rw [hlookup]
      rfl
  | @answered _ result _ hstage hend =>
      cases result with
      | ok o => simp [Session.step?, hv, hstage, finish, hend, canEnd]
      | error => cases hend
  | failed hstage hcan hend => simp [Session.step?, hv, hstage, finish, hend, hcan]
  | settled hstage | unregistered hstage | reported hstage => simp [Session.step?, hv, hstage]

theorem Happens.next? {s s' : Session} {e : Event} (hhappens : Happens s e s') :
    s.next? e = some s' := by
  cases hhappens with
  | started | retired => rfl
  | moved hv hadvance =>
      unfold Session.next?
      simp only [hadvance.step? hv, Option.map_some]

/-- What holds at the start and is kept by everything that can happen on a run holds after every
run. -/
theorem Run.invariant {start s : Session} {history : List Moment} {P : List Moment → Session → Prop}
    (hrun : start.Run history s) (hstart : P [] start)
    (hkeep : ∀ {history s e s'}, start.Run history s → P history s → Happens s e s' →
      P (⟨s, e, s'⟩ :: history) s') : P history s := by
  induction hrun with
  | none => exact hstart
  | step hrun hnext ih => exact hkeep hrun ih (next?_happens hnext)

/-- The history and the session after those of the events that can happen, the first one first. -/
def playFrom (history : List Moment) (s : Session) : List Event → List Moment × Session
  | [] => (history, s)
  | e :: events =>
      match s.next? e with
      | some s' => playFrom (⟨s, e, s'⟩ :: history) s' events
      | none => playFrom history s events

def play (start : Session) (events : List Event) : List Moment × Session := playFrom [] start events

theorem run_playFrom {start s : Session} {history : List Moment} (hrun : start.Run history s)
    (events : List Event) :
    start.Run (playFrom history s events).1 (playFrom history s events).2 := by
  induction events generalizing history s with
  | nil => exact hrun
  | cons e events ih =>
      unfold playFrom
      split
      · rename_i hnext
        exact ih (.step hrun hnext)
      · exact ih hrun

theorem event_mem_playFrom {history : List Moment} {s : Session} {events : List Event} {m : Moment}
    (hm : m ∈ (playFrom history s events).1) : m ∈ history ∨ m.event ∈ events := by
  induction events generalizing history s with
  | nil => exact .inl hm
  | cons e events ih =>
      unfold playFrom at hm
      split at hm
      · obtain hm | hm := ih hm
        · obtain rfl | hm := List.mem_cons.mp hm
          · exact .inr List.mem_cons_self
          · exact .inl hm
        · exact .inr (List.mem_cons_of_mem _ hm)
      · exact (ih hm).imp_right (List.mem_cons_of_mem _)

theorem run_play (start : Session) (events : List Event) :
    start.Run (start.play events).1 (start.play events).2 := run_playFrom .none events

namespace Trial

def start : Session :=
  { id := 1, interpreter := ⟨⟨"/python"⟩, .system, Capability.all⟩
    settings := ⟨⟨"/"⟩, ⟨1⟩, .none⟩ }

def path : Path := ⟨"a"⟩

def lint (buffer : String) : Event := .start (.diagnostics path buffer)

def moves (k : Nat) (steps : List Move) : List Event := steps.map (.move { free := 2 } k)

def opening : List Move := [.check, .register, .enter, .take, .begin]

def ending : List Move := [.settle, .unregister, .report]

end Trial

end Session

namespace Invocation

/-- What becomes of an invocation when the one with a number is told to stop. -/
def told (u : Invocation) (number : Option Nat) : Invocation :=
  if u.number.isSome ∧ u.number = number then { u with superseded := true } else u

@[simp] theorem told_none (u : Invocation) : u.told none = u := by
  refine if_neg ?_
  rintro ⟨hsome, hnone⟩
  rw [hnone] at hsome
  cases hsome

@[simp] theorem told_query (u : Invocation) (number : Option Nat) :
    (u.told number).query = u.query := by
  unfold told
  split <;> rfl

@[simp] theorem told_stage (u : Invocation) (number : Option Nat) :
    (u.told number).stage = u.stage := by
  unfold told
  split <;> rfl

@[simp] theorem told_number (u : Invocation) (number : Option Nat) :
    (u.told number).number = u.number := by
  unfold told
  split <;> rfl

theorem superseded_told {u : Invocation} {number : Option Nat} :
    (u.told number).superseded = true ↔
      u.superseded = true ∨ u.number.isSome ∧ u.number = number := by
  unfold told
  split
  case isTrue h => exact ⟨fun _ => .inr h, fun _ => rfl⟩
  case isFalse h => exact ⟨.inl, fun hor => hor.resolve_right h⟩

end Invocation

theorem Stage.eq_done_of_result? {stage : Stage} {result : Except Failure Answer}
    (hresult : stage.result? = some result) : stage = .done result := by
  cases stage with
  | done =>
      cases hresult
      rfl
  | _ => cases hresult

/-- Whether a run at a stage has a registration that has not ended, if it is of a kind to be
registered. -/
def Stage.inRegistry : Stage → Bool
  | .registered | .waiting | .working | .running _ | .leaving _ | .closing _ => true
  | .arrived | .admitted | .reporting _ | .done _ => false

theorem Query.inRegistry_settled {q : Query} (hkind : q.supersedes?.isSome)
    (result : Except Failure Answer) : (q.settled result).inRegistry = true := by
  rw [settled, if_pos hkind]
  rfl

namespace Session

section change

variable {s s' : Session} {pool pool' : Pool} {j k : Nat} {v u : Invocation} {m : Move}

/-- What a step can do to the registrations: it registers a run, ends the registration of one, or
takes an invocation to another stage and leaves them alone. -/
inductive Change (s : Session) (k : Nat) (v : Invocation) : Move → Session → Prop
  | registers {file : List Path.Component} (hstage : v.stage = .admitted)
      (hfile : v.query.supersedes? = some file) : Change s k v .register (s.register k v file)
  | finishes {result : Except Failure Answer} (hstage : v.stage = .closing result) :
      Change s k v .unregister ((s.unregister v).put k { v with stage := .reporting result })
  | goesOn {m : Move} {caches : Caches} {stage : Stage} (hrank : stage.rank < v.stage.rank)
      (hregistry : v.query.supersedes?.isSome →
        m ≠ .register ∧ stage.inRegistry = v.stage.inRegistry) :
      Change s k v m ({ s with caches }.put k { v with stage })

theorem Advance.change (hadvance : s.Advance pool k v m pool' s') : s.Change k v m s' := by
  cases hadvance with
  | registered hstage hfile => exact .registers hstage hfile
  | unregistered hstage => exact .finishes hstage
  | unregistrable hstage hfile =>
      refine .goesOn (by simp [hstage, Stage.rank]) fun hkind => ?_
      rw [hfile] at hkind
      cases hkind
  | turnedAway hstage | settled hstage =>
      refine .goesOn ?_ fun hkind => ⟨by simp, ?_⟩
      · rw [hstage]
        exact Nat.lt_of_le_of_lt (Query.rank_settled ..) (by simp [Stage.rank])
      · rw [hstage, Query.inRegistry_settled hkind]
        rfl
  | lacking hstage | admitted hstage | entered hstage | took hstage | refused hstage
  | gaveUp hstage | trivial hstage | recalled hstage | began hstage | answered hstage
  | failed hstage | reported hstage =>
      exact .goesOn (by simp [hstage, Stage.rank]) fun _ => ⟨by simp, by rw [hstage]; rfl⟩

theorem getElem?_put_self (hv : s.invocations[k]? = some v) (w : Invocation) :
    (s.put k w).invocations[k]? = some w := by
  rw [put, List.getElem?_set_self (List.getElem?_eq_some_iff.mp hv).1]

theorem eq_of_getElem?_put {w v' : Invocation} (hv : s.invocations[k]? = some v)
    (hv' : (s.put k w).invocations[k]? = some v') : v' = w :=
  Option.some.inj (hv'.symm.trans (getElem?_put_self hv w))

theorem getElem?_put_of_ne (hne : j ≠ k) (s : Session) (w : Invocation) :
    (s.put k w).invocations[j]? = s.invocations[j]? := by
  rw [put, List.getElem?_set_ne hne.symm]

theorem getElem?_register_self (hv : s.invocations[k]? = some v) (file : List Path.Component) :
    (s.register k v file).invocations[k]? =
      some { v with number := some (s.registered + 1), stage := .registered } := by
  unfold register
  simp only
  split
  · rename_i previous _
    obtain ⟨v', hv', -⟩ := getElem?_supersede previous hv
    exact getElem?_put_self (s := { s.supersede previous with registered := _, pending := _ }) hv' _
  · exact getElem?_put_self (s := { s with registered := _, pending := _ }) hv _

theorem getElem?_register_of_ne (hne : j ≠ k) (s : Session) (v : Invocation)
    (file : List Path.Component) :
    (s.register k v file).invocations[j]? =
      s.invocations[j]?.map (·.told (s.pending.lookup file)) := by
  unfold register
  simp only
  rw [getElem?_put_of_ne hne]
  cases s.pending.lookup file with
  | none => simp
  | some previous =>
      change (s.supersede previous).invocations[j]? = _
      rw [supersede, List.getElem?_map]
      congr 1
      funext u
      by_cases hnumber : u.number = some previous <;> simp [Invocation.told, hnumber]

theorem caches_register (s : Session) (k : Nat) (v : Invocation) (file : List Path.Component) :
    (s.register k v file).caches = s.caches := by
  unfold register
  simp only
  split <;> rfl

theorem caches_unregister (s : Session) (v : Invocation) : (s.unregister v).caches = s.caches := by
  unfold unregister
  split
  · rfl
  · split <;> rfl

/-- A step leaves the other invocations as they are, unless it tells one that it has been
superseded. -/
theorem Change.other (hchange : s.Change k v m s') (hne : j ≠ k) :
    ∃ number, s'.invocations[j]? = s.invocations[j]?.map (·.told number) := by
  cases hchange with
  | registers => exact ⟨_, getElem?_register_of_ne hne s v _⟩
  | finishes =>
      refine ⟨none, ?_⟩
      rw [getElem?_put_of_ne hne, invocations_unregister]
      simp
  | goesOn =>
      refine ⟨none, ?_⟩
      rw [getElem?_put_of_ne hne]
      simp

/-- A step takes its own invocation on. Only those that may be superseded get a number. -/
theorem Change.own (hv : s.invocations[k]? = some v) (hchange : s.Change k v m s') :
    ∃ v', s'.invocations[k]? = some v' ∧ v'.query = v.query ∧ v'.superseded = v.superseded ∧
      v'.stage.rank < v.stage.rank ∧ (v'.number = v.number ∨ v.query.supersedes?.isSome) := by
  cases hchange with
  | registers hstage hfile =>
      exact ⟨_, getElem?_register_self hv _, rfl, rfl, by simp [hstage, Stage.rank],
        .inr (by rw [hfile]; rfl)⟩
  | finishes hstage =>
      rw [← invocations_unregister s v] at hv
      exact ⟨_, getElem?_put_self hv _, rfl, rfl, by simp [hstage, Stage.rank], .inl rfl⟩
  | goesOn hrank =>
      exact ⟨_, getElem?_put_self (s := { s with caches := _ }) hv _, rfl, rfl, hrank, .inl rfl⟩

theorem getElem?_start {q : Query} (hv : (s.start q).invocations[k]? = some v) :
    s.invocations[k]? = some v ∨ k = s.invocations.length ∧ v = { query := q } := by
  rw [start, List.getElem?_append] at hv
  split at hv
  · exact .inl hv
  · rw [List.getElem?_singleton] at hv
    split at hv <;> cases hv
    exact .inr ⟨by omega, rfl⟩

/-- Whatever happens to a session, an invocation makes a step, or is told at most that it has been
superseded. -/
theorem Happens.steps_or_told {e : Event} (hhappens : Happens s e s')
    (hu : s.invocations[j]? = some u) :
    (∃ pool step pool', e = .move pool j step ∧ s.Advance pool j u step pool' s') ∨
      (∀ pool step, e ≠ .move pool j step) ∧
        ∃ number, s'.invocations[j]? = some (u.told number) := by
  cases hhappens with
  | started q =>
      have hlt := (List.getElem?_eq_some_iff.mp hu).1
      refine .inr ⟨nofun, .none, ?_⟩
      rw [Invocation.told_none]
      exact (List.getElem?_append_left hlt).trans hu
  | @moved pool pool' k step v _ hv hadvance =>
      by_cases hj : j = k
      · subst hj
        cases Option.some.inj (hu.symm.trans hv)
        exact .inl ⟨pool, step, pool', rfl, hadvance⟩
      · obtain ⟨number, hother⟩ := hadvance.change.other hj
        rw [hu] at hother
        refine .inr ⟨fun _ _ hmove => ?_, number, hother⟩
        cases hmove
        exact hj rfl
  | retired reason =>
      refine .inr ⟨nofun, .none, ?_⟩
      rw [Invocation.told_none]
      exact hu

/-- An invocation has just begun, or was there before and has made a step, or was told at most that it
has been superseded. -/
theorem Happens.origin {e : Event} (hhappens : Happens s e s')
    (hv : s'.invocations[k]? = some v) :
    (∃ q, e = .start q ∧ k = s.invocations.length ∧ v = { query := q }) ∨
      (∃ pool step pool' u, e = .move pool k step ∧ s.invocations[k]? = some u ∧
        s.Advance pool k u step pool' s') ∨
      (∀ pool step, e ≠ .move pool k step) ∧
        ∃ u number, s.invocations[k]? = some u ∧ v = u.told number := by
  cases hu : s.invocations[k]? with
  | some u =>
      obtain ⟨pool, step, pool', hmove, hadvance⟩ | ⟨hidle, number, htold⟩ :=
        hhappens.steps_or_told hu
      · exact .inr (.inl ⟨pool, step, pool', u, hmove, rfl, hadvance⟩)
      · exact .inr (.inr ⟨hidle, u, number, rfl, Option.some.inj (hv.symm.trans htold)⟩)
  | none =>
      cases hhappens with
      | started q =>
          obtain hold | ⟨hk, rfl⟩ := getElem?_start hv
          · cases hu.symm.trans hold
          · exact .inl ⟨q, rfl, hk, rfl⟩
      | @moved _ _ j _ _ _ hw hadvance =>
          have hne : k ≠ j := by
            rintro rfl
            cases hu.symm.trans hw
          obtain ⟨number, hother⟩ := hadvance.change.other hne
          rw [hv, hu] at hother
          cases hother
      | retired => cases hu.symm.trans hv

theorem Happens.kept {e : Event} (hhappens : Happens s e s') (hu : s.invocations[j]? = some u) :
    ∃ u', s'.invocations[j]? = some u' ∧ u'.query = u.query ∧
      (u.superseded = true → u'.superseded = true) := by
  obtain ⟨pool, step, pool', -, hadvance⟩ | ⟨-, number, hu'⟩ := hhappens.steps_or_told hu
  · obtain ⟨u', hu', hquery, hsuperseded, -⟩ := hadvance.change.own hu
    exact ⟨u', hu', hquery, fun h => hsuperseded.trans h⟩
  · exact ⟨_, hu', u.told_query number, fun h => Invocation.superseded_told.mpr (.inl h)⟩

theorem Happens.face {e : Event} (hhappens : Happens s e s') :
    s'.interpreter = s.interpreter ∧
      ∀ reason, s.retired = some reason → s'.retired = some reason := by
  cases hhappens with
  | started => exact ⟨rfl, fun _ h => h⟩
  | moved _ hadvance =>
      exact ⟨congrArg Face.interpreter hadvance.face, fun _ h =>
        (congrArg Face.retired hadvance.face).trans h⟩
  | retired => exact ⟨rfl, fun _ h => by rw [retire, h]; rfl⟩

end change

section run

variable {start s : Session} {history : List Moment} {m : Moment} {k : Nat} {v : Invocation}

theorem Run.interpreter (hrun : start.Run history s) : s.interpreter = start.interpreter :=
  hrun.invariant (P := fun _ s => s.interpreter = start.interpreter) rfl
    fun _ h hhappens => hhappens.face.1.trans h

theorem Run.happens (hrun : start.Run history s) (hm : m ∈ history) :
    Happens m.before m.event m.after := by
  induction hrun with
  | none => cases hm
  | step _ hnext ih =>
      obtain rfl | hm := List.mem_cons.mp hm
      · exact next?_happens hnext
      · exact ih hm

theorem Run.of_append {later earlier : List Moment} (hrun : start.Run (later ++ m :: earlier) s) :
    start.Run earlier m.before := by
  induction later generalizing s with
  | nil =>
      cases hrun with
      | step hrun => exact hrun
  | cons _ later ih =>
      cases hrun with
      | step hrun => exact ih hrun

theorem Run.before (hrun : start.Run history s) (hm : m ∈ history) :
    ∃ earlier, start.Run earlier m.before := by
  obtain ⟨later, earlier, rfl⟩ := List.append_of_mem hm
  exact ⟨earlier, hrun.of_append⟩

theorem Run.kept_after (hrun : start.Run history s) (hm : m ∈ history)
    (hv : m.after.invocations[k]? = some v) :
    ∃ v', s.invocations[k]? = some v' ∧ v'.query = v.query := by
  induction hrun with
  | none => cases hm
  | step _ hnext ih =>
      obtain rfl | hm := List.mem_cons.mp hm
      · exact ⟨v, hv, rfl⟩
      · obtain ⟨u, hu, hsame⟩ := ih hm
        obtain ⟨v', hv', hquery, -⟩ := (next?_happens hnext).kept hu
        exact ⟨v', hv', hquery.trans hsame⟩

theorem Run.kept (hrun : start.Run history s) (hm : m ∈ history)
    (hv : m.before.invocations[k]? = some v) :
    ∃ v', s.invocations[k]? = some v' ∧ v'.query = v.query := by
  obtain ⟨u, hu, hsame, -⟩ := (hrun.happens hm).kept hv
  obtain ⟨v', hv', hquery⟩ := hrun.kept_after hm hu
  exact ⟨v', hv', hquery.trans hsame⟩

theorem Run.query_eq {u : Invocation} (hrun : start.Run history s) (hm : m ∈ history)
    (hu : m.before.invocations[k]? = some u) (hv : s.invocations[k]? = some v) :
    u.query = v.query := by
  obtain ⟨v', hv', hquery⟩ := hrun.kept hm hu
  cases Option.some.inj (hv.symm.trans hv')
  exact hquery.symm

/-- The step of an invocation that is in a history was one that it could make. -/
theorem Run.advance {pool : Pool} {step : Move} (hrun : start.Run history s) (hm : m ∈ history)
    (hevent : m.event = .move pool k step) :
    ∃ u pool', m.before.invocations[k]? = some u ∧
      m.before.Advance pool k u step pool' m.after := by
  have hhappens := hrun.happens hm
  rw [hevent] at hhappens
  generalize m.after = s' at hhappens
  cases hhappens with
  | moved hu hadvance => exact ⟨_, _, hu, hadvance⟩

/-- A tool that was run for a query has left some output. -/
def Ran (history : List Moment) (q : Query) (o : ProcessOutput) : Prop :=
  ∃ m ∈ history, ∃ pool k v, m.event = .move pool k (.finish (.ok o)) ∧
    m.before.invocations[k]? = some v ∧ v.query = q

theorem Ran.cons {q : Query} {o : ProcessOutput} (hran : Ran history q o) :
    Ran (m :: history) q o := by
  obtain ⟨step, hstep, hrest⟩ := hran
  exact ⟨step, List.mem_cons_of_mem _ hstep, hrest⟩

theorem Run.lt_length (hrun : start.Run history s) (hm : m ∈ history) {pool : Pool} {step : Move}
    (hevent : m.event = .move pool k step) : k < s.invocations.length := by
  obtain ⟨u, -, hu, -⟩ := hrun.advance hm hevent
  obtain ⟨v, hv, -⟩ := hrun.kept hm hu
  exact (List.getElem?_eq_some_iff.mp hv).1

def Moment.moves (m : Moment) (k : Nat) : Bool :=
  match m.event with
  | .move _ j _ => j == k
  | .start _ | .retire _ => false

@[simp] theorem Moment.moves_start (s s' : Session) (q : Query) (k : Nat) :
    Moment.moves ⟨s, .start q, s'⟩ k = false := rfl

@[simp] theorem Moment.moves_move (s s' : Session) (pool : Pool) (j : Nat) (step : Move) (k : Nat) :
    Moment.moves ⟨s, .move pool j step, s'⟩ k = (j == k) := rfl

theorem Run.lt_length_of_moves (hrun : start.Run history s) (hm : m ∈ history)
    (hmoves : m.moves k = true) : k < s.invocations.length := by
  unfold Moment.moves at hmoves
  split at hmoves
  · rename_i hmove
    rw [← beq_iff_eq.mp hmoves]
    exact hrun.lt_length hm hmove
  · cases hmoves
  · cases hmoves

theorem Moment.moves_eq_false (hidle : ∀ pool step, m.event ≠ .move pool k step) :
    m.moves k = false := by
  unfold Moment.moves
  split
  · rename_i pool j step hmove
    refine beq_false_of_ne fun hj => ?_
    subst hj
    exact hidle pool step hmove
  · rfl
  · rfl

/-- What holds of an invocation that has just begun, and is kept by its steps and by whatever else
happens, holds of every invocation after every run. -/
theorem Run.each {P : List Moment → Session → Nat → Invocation → Prop}
    (hrun : start.Run history s) (hnew : start.invocations = [])
    (hbegun : ∀ {history s} q, start.Run history s →
      P (⟨s, .start q, s.start q⟩ :: history) (s.start q) s.invocations.length { query := q })
    (hsteps : ∀ {history s s' pool pool' k step u v}, start.Run history s →
      s.invocations[k]? = some u → P history s k u → s.Advance pool k u step pool' s' →
      s'.invocations[k]? = some v → P (⟨s, .move pool k step, s'⟩ :: history) s' k v)
    (htold : ∀ {history s s' e k u} number, start.Run history s → P history s k u →
      Happens s e s' → (∀ pool step, e ≠ .move pool k step) →
      P (⟨s, e, s'⟩ :: history) s' k (u.told number))
    (hv : s.invocations[k]? = some v) : P history s k v := by
  refine hrun.invariant (P := fun history s => ∀ k v, s.invocations[k]? = some v →
    P history s k v) (fun k v hv => ?_) ?_ k v hv
  · rw [hnew] at hv
    cases hv
  · intro history s e s' hrun h hhappens k v hv
    obtain ⟨q, rfl, rfl, rfl⟩ | ⟨pool, step, pool', u, rfl, hu, hadvance⟩ |
      ⟨hidle, u, number, hu, rfl⟩ := hhappens.origin hv
    · cases hhappens
      exact hbegun q hrun
    · exact hsteps hrun hu (h k u hu) hadvance hv
    · exact htold number hrun (h k u hu) hhappens hidle

theorem Run.countP_moves (hrun : start.Run history s) (hnew : start.invocations = [])
    (hv : s.invocations[k]? = some v) : history.countP (·.moves k) + v.stage.rank ≤ 9 := by
  refine hrun.each (P := fun history _ k v => history.countP (·.moves k) + v.stage.rank ≤ 9)
    hnew ?_ ?_ ?_ hv
  · intro history s q hrun
    -- No step was made under a number that no invocation had.
    have hnone : history.countP (·.moves s.invocations.length) = 0 :=
      List.countP_eq_zero.mpr fun m hm hmoves =>
        Nat.lt_irrefl _ (hrun.lt_length_of_moves hm hmoves)
    simp [hnone, Stage.rank]
  · intro history s s' pool pool' k step u v _ hu h hadvance hv
    obtain ⟨v', hv', -, -, hrank, -⟩ := hadvance.change.own hu
    cases Option.some.inj (hv.symm.trans hv')
    rw [List.countP_cons]
    simp only [Moment.moves_move, beq_self_eq_true, if_true]
    omega
  · intro history s s' e k u number _ h _ hidle
    rw [List.countP_cons, Moment.moves_eq_false hidle, Invocation.told_stage]
    exact h

variable {id : Nat} {interpreter : Interpreter} {settings : ToolSettings}

/-- Only diagnostics are registered, and superseded. -/
theorem Run.supersedes (hrun : Run { id, interpreter, settings } history s)
    (hv : s.invocations[k]? = some v) (hknown : v.number.isSome ∨ v.superseded = true) :
    v.query.supersedes?.isSome := by
  refine hrun.each (P := fun _ _ _ v => v.number.isSome ∨ v.superseded = true →
    v.query.supersedes?.isSome) rfl ?_ ?_ ?_ hv hknown
  · rintro history s q - (hnumber | hsuperseded)
    · cases hnumber
    · cases hsuperseded
  · intro history s s' pool pool' k step u v _ hu h hadvance hv hknown
    obtain ⟨v', hv', hquery, hsuperseded, -, hnumber⟩ := hadvance.change.own hu
    cases Option.some.inj (hv.symm.trans hv')
    rw [hquery]
    obtain hnumber | hquery := hnumber
    · exact h (by rwa [← hnumber, ← hsuperseded])
    · exact hquery
  · intro history s s' e k u number _ h _ _ hknown
    rw [Invocation.told_query]
    rw [Invocation.told_number, Invocation.superseded_told] at hknown
    obtain hnumber | hsuperseded | ⟨hnumber, -⟩ := hknown
    · exact h (.inl hnumber)
    · exact h (.inr hsuperseded)
    · exact h (.inl hnumber)

theorem Run.sound (hrun : Run { id, interpreter, settings } history s) : s.Sound (Ran history) := by
  refine hrun.invariant (P := fun history s => s.Sound (Ran history)) .new ?_
  intro history s e s' _ h hhappens
  have hmore : s.Sound (Ran (⟨s, e, s'⟩ :: history)) := h.mono Ran.cons
  cases hhappens with
  | started q => exact hmore.start q
  | moved hv hadvance =>
      refine hmore.advance hv hadvance fun {o} hfinish => ?_
      rw [hfinish]
      exact ⟨_, List.mem_cons_self, _, _, _, rfl, hv, rfl⟩
  | retired reason => exact hmore.retire reason

end run

end Session

end CodeAssist
