import CodeAssist.Proofs.Router.ArrivalOrder
import CodeAssist.Proofs.Session.Answers
import CodeAssist.Proofs.Session.Command

namespace CodeAssist

open Moment (Gave Placed)

/-! What requests are answered comes from the session that they were given. -/

/-- A run of a tool that has ended: the session and the query it was for, and the command. -/
structure ToolRun where
  session : Nat
  query : Query
  command : Command
  result : ProcessEnd
deriving Repr

/-- A request makes the call that it reads as. -/
def Request.Makes (request : Request) (call : Call) : Prop :=
  Call.ofRequest request.method request.params = .ok call

theorem Request.Makes.unique {request : Request} {call other : Call} (h : request.Makes call)
    (hother : request.Makes other) : call = other := Except.ok.inj (h.symm.trans hother)

namespace Moment

/-- The run that ends with a step, by the command that the invocation was running. -/
def toolRun? (m : Moment) : Option ToolRun :=
  match m.event with
  | .move id k (.finish result) => do
      let s ← m.before.sessions.get? id
      let v ← s.invocations[k]?
      let command ← v.stage.command?
      some ⟨id, v.query, command, result⟩
  | _ => none

def toolRuns (history : List Moment) : List ToolRun := history.filterMap toolRun?

/-- A command that asks a query, with an interpreter and settings, was run for a session and has
left some output. -/
def Ran (history : List Moment) (id : Nat) (interpreter : Interpreter) (settings : ToolSettings)
    (q : Query) (o : ProcessOutput) : Prop :=
  ∃ command : Command, command.Asks q interpreter settings ∧
    ⟨id, q, command, .ok o⟩ ∈ toolRuns history

theorem Ran.cons {m : Moment} {history : List Moment} {id : Nat} {interpreter : Interpreter}
    {settings : ToolSettings} {q : Query} {o : ProcessOutput}
    (hran : Ran history id interpreter settings q o) :
    Ran (m :: history) id interpreter settings q o := by
  obtain ⟨command, hasks, hrun⟩ := hran
  exact ⟨command, hasks, (List.sublist_cons_self m history).filterMap toolRun? |>.subset hrun⟩

end Moment

namespace Router

/-- A session after a step: it may be new, be retired, have taken up a query or have got on with
one. -/
inductive Becomes (r : Router) (e : Event) (id : Nat) : Session → Prop
  | stays {s : Session} (hs : r.sessions.get? id = some s) : Becomes r e id s
  | new {interpreter : Interpreter} {settings : ToolSettings} (hid : id = r.nextSession) :
      Becomes r e id { id, interpreter, settings }
  | starts {s : Session} (hbecomes : Becomes r e id s) (q : Query) : Becomes r e id (s.start q)
  | retires {s : Session} (hs : r.sessions.get? id = some s) (reason : Reason) :
      Becomes r e id (s.retire reason)
  | works {s s' : Session} {k : Nat} {v : Invocation} {m : Move} {pool pool' : Pool}
      (he : e = .move id k m) (hs : r.sessions.get? id = some s)
      (hv : s.invocations[k]? = some v) (hadvance : s.Advance pool k v m pool' s') :
      Becomes r e id s'

variable {r r' : Router} {e : Event} {id : Nat} {s s' : Session}

theorem becomes_retire {other : Nat} {reason : Reason} (hfiled : r.sessions.Filed)
    (hs : (r.sessions.retire other reason).get? id = some s) : Becomes r e id s := by
  unfold Sessions.retire Sessions.update at hs
  split at hs
  · rename_i old hold
    rw [Sessions.get?_put] at hs
    split at hs
    · rename_i hid
      cases hs
      have hsame : old.id = other := hfiled hold
      rw [hid]
      exact .retires (by rw [← hold, ← hsame]; rfl) reason
    · exact .stays hs
  · exact .stays hs

theorem becomes_install {interpreter : Interpreter} {resolver : Resolver} {slot : Slot}
    (hs : ({ r with resolver, slot }.install interpreter).sessions.get? id = some s) :
    Becomes r e id s := by
  unfold install at hs
  simp only [Sessions.get?_put] at hs
  split at hs
  · rename_i hid
    cases hs
    rw [hid]
    exact .new rfl
  · exact .stays hs

theorem Given.becomes {middle rest : Router} {call : Call} {t' : Task} {other : Nat}
    (hgiven : Given middle call other rest t') (hfiled : middle.sessions.Filed)
    (hbecomes : ∀ {id s}, middle.sessions.get? id = some s → Becomes r e id s)
    (hs : rest.sessions.get? id = some s) : Becomes r e id s := by
  cases hgiven with
  | asked hq hold =>
      rename_i q old
      simp only [Sessions.get?_put] at hs
      split at hs
      · rename_i hid
        cases hs
        have hsame : old.id = other := hfiled hold
        rw [hid]
        exact .starts (hbecomes (by rw [← hold, ← hsame]; rfl)) q
      · exact hbecomes hs
  | told => exact hbecomes hs

/-- Every session after a step is what became of one, or new. -/
theorem becomes_happens (hsuccession : Succession r) (hhappens : Happens r e r')
    (hs : r'.sessions.get? id = some s) : Becomes r e id s := by
  have hfiled : r.sessions.Filed := hsuccession.sessions_filed
  cases hhappens with
  | advanced he ht hadvance =>
      rw [put_sessions] at hs
      cases hadvance with
      | switched | switchedFirst => exact becomes_install hs
      | moved => exact becomes_install hs
      | retires => exact becomes_retire hfiled hs
      | given _ _ hgiven => exact hgiven.becomes hfiled .stays hs
      | givenLate _ _ hgiven => exact hgiven.becomes hfiled .stays hs
      | created _ _ _ hgiven => exact hgiven.becomes (hsuccession.install_filed _ _) becomes_install hs
      | createdLate hgiven => exact hgiven.becomes (hsuccession.install_filed _ _) becomes_install hs
      | _ => exact .stays hs
  | worked hstep =>
      unfold Sessions.step? at hstep
      simp only [Option.bind_eq_bind, Option.bind_eq_some_iff] at hstep
      obtain ⟨old, hold, ⟨pool, next⟩, hsession, heq⟩ := hstep
      obtain ⟨v, hv, hadvance⟩ := Session.step?_advance hsession
      cases heq
      rw [Sessions.get?_put] at hs
      split at hs
      · rename_i hid
        cases hs
        have hsame : next.id = old.id := congrArg Session.Face.id hadvance.face
        cases hid.trans (hsame.trans (hfiled hold))
        exact .works rfl hold hv hadvance
      · exact .stays hs
  | drainRetires => exact becomes_retire hfiled hs
  | _ => exact .stays hs

/-- What every session runs is its own, and it answers from that. -/
def Honours (history : List Moment) (r : Router) : Prop :=
  ∀ ⦃id s⦄, r.sessions.get? id = some s →
    s.Commands ∧ s.Sound (Moment.Ran history id s.interpreter s.settings)

theorem Becomes.commands {history : List Moment} (h : Honours history r)
    (hbecomes : Becomes r e id s) : s.Commands := by
  induction hbecomes with
  | stays hs | retires hs => exact (h hs).1
  | new => exact .new
  | starts _ q ih => exact ih.start q
  | works _ hs _ hadvance => exact (h hs).1.advance hadvance

theorem Becomes.sound {history : List Moment} (h : Honours history r)
    (hbecomes : Becomes r e id s) :
    s.Sound (Moment.Ran (⟨r, e, r'⟩ :: history) id s.interpreter s.settings) := by
  induction hbecomes with
  | stays hs => exact (h hs).2.mono Moment.Ran.cons
  | new => exact .new
  | starts _ q ih => exact ih.start q
  | retires hs reason => exact ((h hs).2.mono Moment.Ran.cons).retire reason
  | works he hs hv hadvance =>
      have hinterpreter := congrArg Session.Face.interpreter hadvance.face
      have hsettings := congrArg Session.Face.settings hadvance.face
      simp only [Session.face] at hinterpreter hsettings
      rw [hinterpreter, hsettings]
      refine ((h hs).2.mono Moment.Ran.cons).advance hv hadvance fun {o} hfinish => ?_
      subst he hfinish
      obtain ⟨command, hstage⟩ := hadvance.running_of_finish
      refine ⟨command, (h hs).1 hv hstage, List.mem_filterMap.mpr ⟨_, List.mem_cons_self, ?_⟩⟩
      simp [Moment.toolRun?, hs, hv, hstage, Stage.command?]

theorem Honours.happens {history : List Moment} (h : Honours history r)
    (hsuccession : Succession r) (hhappens : Happens r e r') :
    Honours (⟨r, e, r'⟩ :: history) r' :=
  fun _ _ hs =>
    have hbecomes := becomes_happens hsuccession hhappens hs
    ⟨hbecomes.commands h, hbecomes.sound h⟩

/-- What was made with a session stays, and so do its invocations with their queries. -/
structure Continues (s s' : Session) : Prop where
  id : s'.id = s.id
  interpreter : s'.interpreter = s.interpreter
  settings : s'.settings = s.settings
  query : ∀ {k : Nat} {v : Invocation}, s.invocations[k]? = some v →
    ∃ v' : Invocation, s'.invocations[k]? = some v' ∧ v'.query = v.query

theorem Becomes.continues (hsuccession : Succession r) (hbecomes : Becomes r e id s')
    (hs : r.sessions.get? id = some s) : Continues s s' := by
  have hsame {t : Session} (ht : r.sessions.get? id = some t) : t = s :=
    Option.some.inj (ht.symm.trans hs)
  induction hbecomes with
  | stays hs' =>
      cases hsame hs'
      exact ⟨rfl, rfl, rfl, fun hv => ⟨_, hv, rfl⟩⟩
  | new hid =>
      have hlt := hsuccession.lt_of_get? hs
      omega
  | starts _ q ih =>
      refine ⟨ih.id, ih.interpreter, ih.settings, fun {k v} hv => ?_⟩
      obtain ⟨v', hv', hquery⟩ := ih.query hv
      have hlt := (List.getElem?_eq_some_iff.mp hv').1
      exact ⟨v', (List.getElem?_append_left hlt).trans hv', hquery⟩
  | retires hs' =>
      cases hsame hs'
      exact ⟨rfl, rfl, rfl, fun hv => ⟨_, hv, rfl⟩⟩
  | works _ hs' hu hadvance =>
      cases hsame hs'
      exact ⟨congrArg Session.Face.id hadvance.face,
        congrArg Session.Face.interpreter hadvance.face,
        congrArg Session.Face.settings hadvance.face, hadvance.query hu⟩

theorem session_continues (hsuccession : Succession r) (hhappens : Happens r e r')
    (hs : r.sessions.get? id = some s) :
    ∃ s', r'.sessions.get? id = some s' ∧ Continues s s' := by
  have heffect := hsuccession.effect hhappens
  have hpos : 0 < id ∧ id < r'.nextSession := by
    have hbefore := (hsuccession.known id).mp (by rw [Router.face?, Sessions.face?, hs]; rfl)
    exact ⟨hbefore.1, Nat.lt_of_lt_of_le hbefore.2 (Succession.nextSession_le heffect)⟩
  obtain ⟨f, hf⟩ := Option.isSome_iff_exists.mp ((hsuccession.effect_known heffect id).mpr hpos)
  obtain ⟨s', hs', _⟩ := Option.map_eq_some_iff.mp hf
  exact ⟨s', hs', (becomes_happens hsuccession hhappens hs').continues hsuccession hs⟩

def Suits (request : Request) : Task → Prop
  | .arrived | .done _ => True
  | .wantsLock call | .locked call => request.Makes call ∧ call.affectsEnvironment
  | .moving root => request.Makes (.workspaceSet ⟨root⟩)
  | .changing p _ path _ =>
      request.Makes (.environmentSet p) ∧ p.selection.Admits path
  | .replacing _ _ | .draining _ _ => ∃ call, request.Makes call ∧ call.affectsEnvironment
  | .wantsSession call | .wantsCreation call | .creating call | .probing call _ _
  | .serving call _ _ => request.Makes call ∧ call.needsSession

def Fitting (r : Router) : Prop := ∀ ⦃n v⦄, r.received? n = some v → Suits v.request v.task

theorem suits_firstStage (lifecycle : Lifecycle) (request : Request) :
    Suits request (firstStage lifecycle request) := by
  obtain ⟨_, heq, _⟩ | ⟨c, hc, haffects, heq⟩ | ⟨c, hc, hneeds, heq⟩ :=
    firstStage_cases lifecycle request
  · rw [heq]
    trivial
  · rw [heq]
    exact ⟨hc, haffects⟩
  · rw [heq]
    exact ⟨hc, hneeds⟩

theorem Given.suits {middle rest : Router} {call : Call} {request : Request} {t' : Task}
    (hgiven : Given middle call id rest t') (hcall : request.Makes call ∧ call.needsSession) :
    Suits request t' := by
  cases hgiven with
  | asked => exact hcall
  | told => trivial

theorem suits_advance {n : Nat} {t t' : Task} {rest : Router} {v : Received}
    (hv : r.received? n = some v) (hsuits : Suits v.request t)
    (hadvance : Advance r e n t rest t') : Suits v.request t' := by
  cases hadvance with
  | dispatched hv' =>
      cases Option.some.inj (hv.symm.trans hv')
      exact suits_firstStage _ _
  | given _ _ hgiven => exact hgiven.suits hsuits
  | givenLate _ _ hgiven => exact hgiven.suits hsuits
  | created _ _ _ hgiven => exact hgiven.suits hsuits
  | createdLate hgiven => exact hgiven.suits hsuits
  | moving => exact hsuits.1
  | changing _ hstart =>
      exact ⟨hsuits.1, Resolver.admits_of_choose (Resolver.choose_of_unprobed hstart)⟩
  | switched => exact ⟨_, hsuits.1, rfl⟩
  | moved => exact ⟨_, hsuits, rfl⟩
  | locked | creating | retires | absent | probing => exact hsuits
  | _ => trivial

theorem Advance.received? {n m : Nat} {t t' : Task} {rest : Router} {v v' : Received}
    (hadvance : Advance r e n t rest t') (hv : r.received? n = some v)
    (hv' : (rest.put n t').received? m = some v') :
    m = n ∧ v' = { v with task := t' } ∨ m ≠ n ∧ r.received? m = some v' := by
  have hsame : rest.received? n = some v := by
    rw [← hv, Router.received?, hadvance.received, Router.received?]
  by_cases hm : m = n
  · subst hm
    rw [received?_put_self hsame] at hv'
    exact .inl ⟨rfl, (Option.some.inj hv').symm⟩
  · rw [received?_put_of_ne hm, Router.received?, hadvance.received] at hv'
    exact .inr ⟨hm, hv'⟩

theorem received?_happens (hnumbered : Numbered r) (hhappens : Happens r e r') {n : Nat} {v : Received}
    (hv : r.received? n = some v) :
    ∃ t, r'.received? n = some { v with task := t } ∧ (e.request? ≠ some n → t = v.task) := by
  cases hhappens with
  | arrived request tracked =>
      have hne : n ≠ r.nextArrival := Nat.ne_of_lt (hnumbered.received hv).2
      exact ⟨v.task, (Table.lookup_put_of_ne hne _ _).trans hv, fun _ => rfl⟩
  | advanced he ht hadvance =>
      rename_i m t t' rest
      have hsame : rest.received? n = some v := by
        rw [Router.received?, hadvance.received]
        exact hv
      by_cases hm : n = m
      · subst hm
        exact ⟨t', received?_put_self hsame t', fun hother => (hother he).elim⟩
      · exact ⟨v.task, (received?_put_of_ne hm rest t').trans hsame, fun _ => rfl⟩
  | _ => exact ⟨v.task, hv, fun _ => rfl⟩

theorem received?_arrived {request : Request} {tracked : Bool} {n : Nat} {v : Received}
    (hv : { r with
      nextArrival := r.nextArrival + 1
      received := Table.put r.nextArrival { request, tracked } r.received }.received? n = some v) :
    v.task = .arrived ∨ r.received? n = some v := by
  by_cases hn : n = r.nextArrival
  · subst hn
    rw [Router.received?, Table.lookup_put_self] at hv
    cases hv
    exact .inl rfl
  · rw [Router.received?, Table.lookup_put_of_ne hn] at hv
    exact .inr hv

theorem Fitting.happens (h : Fitting r) (hhappens : Happens r e r') : Fitting r' := by
  intro n v hv
  cases hhappens with
  | arrived request tracked =>
      obtain hnew | hbefore := received?_arrived hv
      · rw [hnew]
        trivial
      · exact h hbefore
  | advanced he ht hadvance =>
      obtain ⟨u, hu, htask⟩ := exists_received ht
      obtain ⟨_, rfl⟩ | ⟨_, hbefore⟩ := hadvance.received? hu hv
      · exact suits_advance (v := u) hu (htask ▸ h hu) hadvance
      · exact h hbefore
  | _ => exact h hv

section run

variable {settings : Settings} {resolver : Resolver} {lifecycle : Lifecycle}
  {history : List Moment} (hrun : (Router.ofSettings settings resolver lifecycle).Run history r)

include hrun

theorem Run.honours : Honours history r :=
  hrun.invariant (P := Honours) (fun _ _ hs => by cases hs) fun hrun h hhappens =>
    h.happens hrun.succession hhappens

theorem Run.fitting : Fitting r :=
  hrun.invariant (P := fun _ r => Fitting r) (fun _ _ hv => by cases hv) fun _ h hhappens =>
    h.happens hhappens

end run

end Router

end CodeAssist
