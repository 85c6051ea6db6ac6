import CodeAssist.Proofs.Session.Caching
import CodeAssist.Proofs.Session.Command
import CodeAssist.Proofs.Tool.Ending

namespace CodeAssist

/-! A tool that fails makes its call fail, and nothing else. -/

namespace Session

section play

variable {s s' : Session} {e : Event} {events : List Event}

theorem playFrom_snd (history : List Moment) (s : Session) (events : List Event) :
    (playFrom history s events).2 = (s.play events).2 := by
  unfold play
  induction events generalizing history s with
  | nil => rfl
  | cons e events ih =>
      unfold playFrom
      split
      · rw [ih, ih [_]]
      · exact ih history s

theorem play_cons (hnext : s.next? e = some s') : (s.play (e :: events)).2 = (s'.play events).2 := by
  rw [play, playFrom, hnext]
  exact playFrom_snd ..

theorem play_skip (hnext : s.next? e = none) : (s.play (e :: events)).2 = (s.play events).2 := by
  rw [play, playFrom, hnext]
  rfl

end play

def At (s : Session) (k : Nat) (q : Query) (stage : Stage) : Prop :=
  ∃ v, s.invocations[k]? = some v ∧ v.query = q ∧ v.stage = stage

/-- Whatever is found in the caches of `s` is found in those of `s'`. -/
def CachedIn (s s' : Session) : Prop :=
  ∀ p a, (s.caches.lookup p).1 = some a → (s'.caches.lookup p).1 = some a

/-- The session when a query has been taken up and has got as far as its tool. -/
def called (s : Session) (pool : Pool) (q : Query) : Session :=
  (s.play (.start q :: [.check, .register, .enter, .take, .begin].map
    (.move pool s.invocations.length))).2

/-- The session when the tool of invocation `k` has ended and the invocation has been brought to its
end. -/
def ended (s : Session) (pool : Pool) (k : Nat) (e : ToolEnd) : Session :=
  (s.play ([.finish e.result, .settle, .unregister, .report].map (.move pool k))).2

section steps

variable {s s' : Session} {pool pool' : Pool} {k : Nat} {q : Query} {v : Invocation} {m : Move}
  {stage : Stage} {result : Except Failure Answer}

theorem CachedIn.trans {t : Session} (h : s.CachedIn s') (h' : s'.CachedIn t) : s.CachedIn t :=
  fun p a hfound => h' p a (h p a hfound)

theorem CachedIn.miss (h : s'.CachedIn s) (hmiss : (s.caches.lookup q).1 = none) :
    (s'.caches.lookup q).1 = none := by
  cases hfound : (s'.caches.lookup q).1 with
  | none => rfl
  | some a => cases hmiss.symm.trans (h q a hfound)

/-- A step takes an invocation of a query to a stage. It makes something to be found only if a tool
has answered. -/
structure Leads (s : Session) (pool : Pool) (k : Nat) (q : Query) (m : Move) (stage : Stage)
    (s' : Session) : Prop where
  next : s.next? (.move pool k m) = some s'
  reached : s'.At k q stage
  face : s'.face = s.face
  found : (∀ result a, m = .finish result → q.ofEnd result ≠ .ok a) → s'.CachedIn s

theorem Advance.leads (hadvance : s.Advance pool k v m pool' s') (hv : s.invocations[k]? = some v)
    (hreached : s'.At k v.query stage) : s.Leads pool k v.query m stage s' where
  next := (Happens.moved hv hadvance).next?
  reached := hreached
  face := hadvance.face
  found hquiet p a hfound := by
    obtain hbefore | ⟨_, _, result, u, answer, hmove, hu, hend⟩ :=
      (Happens.moved hv hadvance).found_or_answered hfound
    · exact hbefore
    · cases hmove
      cases Option.some.inj (hv.symm.trans hu)
      exact absurd hend (hquiet result answer rfl)

theorem At.check (hat : s.At k q .arrived) (hlacks : q.lacks s.interpreter = none) (pool : Pool) :
    ∃ s', s.Leads pool k q .check .admitted s' := by
  obtain ⟨v, hv, rfl, hstage⟩ := hat
  exact ⟨_, (Advance.admitted hstage hlacks).leads hv ⟨_, getElem?_put_self hv _, rfl, rfl⟩⟩

theorem At.register (hat : s.At k q .admitted) (pool : Pool) :
    ∃ s', s.Leads pool k q .register .registered s' := by
  obtain ⟨v, hv, rfl, hstage⟩ := hat
  cases hfile : v.query.supersedes? with
  | none =>
      exact ⟨_, (Advance.unregistrable hstage hfile).leads hv
        ⟨_, getElem?_put_self hv _, rfl, rfl⟩⟩
  | some file =>
      exact ⟨_, (Advance.registered hstage hfile).leads hv
        ⟨_, getElem?_register_self hv file, rfl, rfl⟩⟩

theorem At.enter (hat : s.At k q .registered) (hopen : s.retired = none) (pool : Pool) :
    ∃ s', s.Leads pool k q .enter .waiting s' := by
  obtain ⟨v, hv, rfl, hstage⟩ := hat
  exact ⟨_, (Advance.entered hstage hopen).leads hv ⟨_, getElem?_put_self hv _, rfl, rfl⟩⟩

theorem At.take (hat : s.At k q .waiting) (hopen : pool.closed = false) (hfree : pool.free ≠ 0) :
    ∃ s', s.Leads pool k q .take .working s' := by
  obtain ⟨v, hv, rfl, hstage⟩ := hat
  exact ⟨_, (Advance.took hstage hopen hfree).leads hv ⟨_, getElem?_put_self hv _, rfl, rfl⟩⟩

theorem At.begin (hat : s.At k q .working) (hneeds : q.needsTool = true)
    (hmiss : (s.caches.lookup q).1 = none) (pool : Pool) :
    ∃ s', s.Leads pool k q .begin (.running (q.command s.interpreter s.settings)) s' := by
  obtain ⟨v, hv, rfl, hstage⟩ := hat
  exact ⟨_, (Advance.began hstage hneeds hmiss).leads hv
    ⟨_, getElem?_put_self (s := { s with caches := _ }) hv _, rfl, rfl⟩⟩

theorem At.finish {command : Command} (hat : s.At k q (.running command)) (pool : Pool)
    (e : ToolEnd) :
    ∃ s', s.Leads pool k q (.finish e.result)
      (.leaving ((q.ofEnd e.result).mapError .tool)) s' := by
  obtain ⟨v, hv, rfl, hstage⟩ := hat
  cases hend : v.query.ofEnd e.result with
  | ok answer =>
      exact ⟨_, (Advance.answered hstage hend).leads hv
        ⟨_, getElem?_put_self (s := { s with caches := _ }) hv _, rfl, rfl⟩⟩
  | error cause =>
      have hcan := canEnd_of_ne e.result_ne_cancelled s v
      exact ⟨_, (Advance.failed hstage hcan hend).leads hv ⟨_, getElem?_put_self hv _, rfl, rfl⟩⟩

/-- A result that is not that of a run that was stopped. -/
def Unstopped (result : Except Failure Answer) : Prop :=
  ∀ failure, result = .error failure → failure.kind ≠ .cancelled

theorem unstopped_ofEnd (q : Query) (e : ToolEnd) :
    Unstopped ((q.ofEnd e.result).mapError .tool) := by
  intro failure hfailure
  obtain ⟨cause, hend, rfl⟩ := Query.mapError_eq_error_iff.mp hfailure
  exact Query.ofEnd_kind hend e.result_ne_cancelled

theorem settle_of_unstopped (h : Unstopped result) (s : Session) (c : Capability) :
    s.settle c result = result := by
  unfold settle
  split
  · exact absurd rfl (h _ rfl)
  · rfl

theorem report_of_unstopped (h : Unstopped result) (s : Session) (path : Path) :
    s.report path result = result := by
  cases result with
  | ok => rfl
  | error => exact report_of_kind (h _ rfl) s path

theorem At.settle (hat : s.At k q (.leaving result)) (h : Unstopped result) (pool : Pool) :
    ∃ s', s.Leads pool k q .settle (q.settled result) s' := by
  obtain ⟨v, hv, rfl, hstage⟩ := hat
  refine ⟨_, (Advance.settled hstage).leads hv ⟨_, getElem?_put_self hv _, rfl, ?_⟩⟩
  exact congrArg v.query.settled (settle_of_unstopped h s _)

theorem At.unregister (hat : s.At k q (.closing result)) (pool : Pool) :
    ∃ s', s.Leads pool k q .unregister (.reporting result) s' := by
  obtain ⟨v, hv, rfl, hstage⟩ := hat
  refine ⟨_, (Advance.unregistered hstage).leads hv ?_⟩
  rw [← invocations_unregister s v] at hv
  exact ⟨_, getElem?_put_self hv _, rfl, rfl⟩

theorem At.report (hat : s.At k q (.reporting result)) (h : Unstopped result) (pool : Pool) :
    ∃ s', s.Leads pool k q .report (.done result) s' := by
  obtain ⟨v, hv, rfl, hstage⟩ := hat
  refine ⟨_, (Advance.reported hstage).leads hv ⟨_, getElem?_put_self hv _, rfl, ?_⟩⟩
  exact congrArg Stage.done (report_of_unstopped h s _)

theorem At.next?_of_done (hat : s.At k q (.done result)) (pool : Pool)
    (hm : m = .unregister ∨ m = .report) :
    s.next? (.move pool k m) = none := by
  obtain ⟨v, hv, rfl, hstage⟩ := hat
  obtain rfl | rfl := hm <;> simp [next?, step?, hv, hstage]

/-- A settled result is handed on, from behind its registration if there is one. -/
theorem At.hand_on (hat : s.At k q (q.settled result)) (h : Unstopped result) (pool : Pool) :
    let s' := (s.play ([.unregister, .report].map (.move pool k))).2
    s'.At k q (.done result) ∧ s'.face = s.face ∧ s'.CachedIn s := by
  cases hkind : q.supersedes?.isSome with
  | false =>
      have hdone : s.At k q (.done result) := by
        rwa [Query.settled, if_neg (ne_true_of_eq_false hkind)] at hat
      have hsame : (s.play ([.unregister, .report].map (.move pool k))).2 = s :=
        (play_skip (hdone.next?_of_done pool (.inl rfl))).trans
          (play_skip (hdone.next?_of_done pool (.inr rfl)))
      rw [hsame]
      exact ⟨hdone, rfl, fun _ _ hfound => hfound⟩
  | true =>
      have hclosing : s.At k q (.closing result) := by
        rwa [Query.settled, if_pos hkind] at hat
      obtain ⟨s₁, h₁⟩ := hclosing.unregister pool
      obtain ⟨s₂, h₂⟩ := h₁.reached.report h pool
      have hplay : (s.play ([.unregister, .report].map (.move pool k))).2 = s₂ :=
        (play_cons h₁.next).trans (play_cons h₂.next)
      rw [hplay]
      refine ⟨h₂.reached, h₂.face.trans h₁.face, (h₂.found ?_).trans (h₁.found ?_)⟩
      all_goals
        intro _ _ hmove
        cases hmove

theorem start_at (s : Session) (q : Query) : (s.start q).At s.invocations.length q .arrived :=
  ⟨{ query := q }, List.getElem?_concat_length, rfl, rfl⟩

theorem called_at (hopen : s.retired = none) (hlacks : q.lacks s.interpreter = none)
    (hneeds : q.needsTool = true) (hmiss : (s.caches.lookup q).1 = none)
    (hpool : pool.closed = false) (hfree : pool.free ≠ 0) :
    (s.called pool q).At s.invocations.length q (.running (q.command s.interpreter s.settings)) ∧
      (s.called pool q).face = s.face ∧ (s.called pool q).CachedIn s := by
  obtain ⟨s₁, h₁⟩ := (s.start_at q).check hlacks pool
  obtain ⟨s₂, h₂⟩ := h₁.reached.register pool
  have hface₂ : s₂.face = s.face := h₂.face.trans h₁.face
  obtain ⟨s₃, h₃⟩ := h₂.reached.enter ((congrArg Face.retired hface₂).trans hopen) pool
  obtain ⟨s₄, h₄⟩ := h₃.reached.take hpool hfree
  have hface₄ : s₄.face = s.face := h₄.face.trans (h₃.face.trans hface₂)
  have hfound₄ : s₄.CachedIn s :=
    (h₄.found nofun).trans ((h₃.found nofun).trans ((h₂.found nofun).trans (h₁.found nofun)))
  obtain ⟨s₅, h₅⟩ := h₄.reached.begin hneeds (hfound₄.miss hmiss) pool
  have hcalled : s.called pool q = s₅ :=
    calc s.called pool q
      _ = (s₁.play ([.register, .enter, .take, .begin].map (.move pool s.invocations.length))).2 :=
          (play_cons (e := .start q) rfl).trans (play_cons h₁.next)
      _ = (s₃.play ([.take, .begin].map (.move pool s.invocations.length))).2 :=
          (play_cons h₂.next).trans (play_cons h₃.next)
      _ = (s₅.play []).2 := (play_cons h₄.next).trans (play_cons h₅.next)
  rw [hcalled]
  exact ⟨command_of_face hface₄ q ▸ h₅.reached, h₅.face.trans hface₄,
    (h₅.found nofun).trans hfound₄⟩

theorem ended_at {command : Command} (hat : s.At k q (.running command)) (pool : Pool)
    (e : ToolEnd) :
    (s.ended pool k e).At k q (.done ((q.ofEnd e.result).mapError .tool)) ∧
      (s.ended pool k e).face = s.face ∧
      ((∀ a, q.ofEnd e.result ≠ .ok a) → (s.ended pool k e).CachedIn s) := by
  have hgoes := unstopped_ofEnd q e
  obtain ⟨s₁, h₁⟩ := hat.finish pool e
  obtain ⟨s₂, h₂⟩ := h₁.reached.settle hgoes pool
  obtain ⟨hdone, hface, hcached⟩ := h₂.reached.hand_on hgoes pool
  have hplay : s.ended pool k e = (s₂.play ([.unregister, .report].map (.move pool k))).2 :=
    (play_cons h₁.next).trans (play_cons h₂.next)
  rw [hplay]
  refine ⟨hdone, hface.trans (h₂.face.trans h₁.face), fun hfails => ?_⟩
  refine hcached.trans ((h₂.found nofun).trans (h₁.found fun _ a hmove => ?_))
  cases hmove
  exact hfails a

end steps

/-- The session is not retired at this moment, and no tool answers. -/
structure Moment.Idle (m : Moment) : Prop where
  goesOn : ∀ reason, m.event ≠ .retire reason
  unanswered : ∀ {pool k result v a}, m.event = .move pool k (.finish result) →
    m.before.invocations[k]? = some v → v.query.ofEnd result ≠ .ok a

section run

variable {start s s' : Session} {history : List Moment} {m : Moment} {pool pool' : Pool} {k : Nat}
  {q : Query} {v : Invocation} {step : Move} {stage : Stage} {result : Except Failure Answer}
  {e : ToolEnd}

theorem Run.idle (hrun : start.Run history s) (hidle : ∀ m ∈ history, m.Idle) :
    s.retired = start.retired ∧ s.CachedIn start := by
  induction hrun with
  | none => exact ⟨rfl, fun _ _ hfound => hfound⟩
  | @step history s s' e hrun hnext ih =>
      obtain ⟨hretired, hcached⟩ := ih fun m hm => hidle m (List.mem_cons_of_mem _ hm)
      have hnow := hidle _ List.mem_cons_self
      have hhappens := next?_happens hnext
      refine ⟨?_, fun p a hfound => ?_⟩
      · rw [hhappens.reason, hretired]
        cases e with
        | retire reason => exact absurd rfl (hnow.goesOn reason)
        | start | move => exact Option.or_none
      · obtain hbefore | ⟨_, _, _, _, _, hmove, hu, hend⟩ := hhappens.found_or_answered hfound
        · exact hcached p a hbefore
        · exact absurd hend (hnow.unanswered hmove hu)

theorem Run.at_of_at (hrun : start.Run history s) (hat : start.At k q stage) :
    ∃ v, s.invocations[k]? = some v ∧ v.query = q := by
  obtain ⟨u, hu, hquery, -⟩ := hat
  exact hrun.invariant (P := fun _ s => ∃ v, s.invocations[k]? = some v ∧ v.query = q)
    ⟨u, hu, hquery⟩ fun _ ⟨w, hw, hw'⟩ hhappens => by
      obtain ⟨v, hv, hsame, -⟩ := hhappens.kept hw
      exact ⟨v, hv, hsame.trans hw'⟩

/-- What an invocation has come to it keeps, if it was not stopped. -/
theorem Advance.keeps_outcome (hadvance : s.Advance pool k v step pool' s')
    (hv : s.invocations[k]? = some v) (hgoes : Unstopped result)
    (hresult : v.stage.outcome? = some result) :
    ∃ v', s'.invocations[k]? = some v' ∧ v'.stage.outcome? = some result := by
  have hnow {r : Except Failure Answer} (hr : v.stage.outcome? = some r) : r = result :=
    Option.some.inj (hr.symm.trans hresult)
  cases hadvance with
  | settled hstage =>
      obtain rfl := hnow (congrArg Stage.outcome? hstage)
      refine ⟨_, getElem?_put_self hv _, ?_⟩
      rw [Query.outcome?_settled, settle_of_unstopped hgoes]
  | unregistered hstage =>
      obtain rfl := hnow (congrArg Stage.outcome? hstage)
      rw [← invocations_unregister s v] at hv
      exact ⟨_, getElem?_put_self hv _, rfl⟩
  | reported hstage =>
      obtain rfl := hnow (congrArg Stage.outcome? hstage)
      refine ⟨_, getElem?_put_self hv _, ?_⟩
      rw [report_of_unstopped hgoes]
      rfl
  | lacking hstage | admitted hstage | registered hstage | unregistrable hstage
  | turnedAway hstage | entered hstage | took hstage | refused hstage | gaveUp hstage
  | trivial hstage | recalled hstage | began hstage | answered hstage | failed hstage =>
      rw [hstage] at hresult
      cases hresult

/-- A call has come to what the end of its tool says, whatever happens afterwards. -/
theorem Run.outcome_of_end (hrun : start.Run history s) (hm : m ∈ history)
    (hevent : m.event = .move pool k (.finish e.result)) (hv : s.invocations[k]? = some v) :
    v.stage.outcome? = some ((v.query.ofEnd e.result).mapError .tool) := by
  induction hrun generalizing v with
  | none => cases hm
  | @step history s s' event hrun hnext ih =>
      have hhappens := next?_happens hnext
      obtain rfl | hm := List.mem_cons.mp hm
      · obtain rfl : event = .move pool k (.finish e.result) := hevent
        cases hhappens with
        | moved hu hadvance =>
            cases hadvance with
            | answered _ hend =>
                obtain rfl := eq_of_getElem?_put (s := { s with caches := _ }) hu hv
                rw [hend]
                rfl
            | failed _ _ hend =>
                obtain rfl := eq_of_getElem?_put hu hv
                rw [hend]
                rfl
      · obtain ⟨u, hu⟩ : ∃ u, s.invocations[k]? = some u :=
          ⟨_, List.getElem?_eq_getElem (hrun.lt_length hm hevent)⟩
        obtain ⟨v', hv', hquery, -⟩ := hhappens.kept hu
        cases Option.some.inj (hv.symm.trans hv')
        rw [hquery]
        obtain ⟨_, _, _, -, hadvance⟩ | ⟨-, number, htold⟩ := hhappens.steps_or_told hu
        · obtain ⟨w, hw, houtcome⟩ :=
            hadvance.keeps_outcome hu (unstopped_ofEnd u.query e) (ih hm hu)
          rwa [← Option.some.inj (hw.symm.trans hv)]
        · rw [Option.some.inj (hv.symm.trans htold), Invocation.told_stage]
          exact ih hm hu

end run

/-- Whenever there is a worker, a call of the query runs its tool. -/
def RunsTool (s : Session) (q : Query) : Prop :=
  ∀ pool : Pool, pool.closed = false → pool.free ≠ 0 →
    (s.called pool q).At s.invocations.length q (.running (q.command s.interpreter s.settings))

/-- A call that has to run its tool comes to what the end of that says, by itself as well as among
others. If it fails, the session is not retired by that, and nothing is found in the caches that was
not found there before. The same call would run the tool again then, and later too if the session is
not retired and no tool answers. -/
theorem tool_failures_contained {s : Session} {q : Query} {pool : Pool} (hopen : s.retired = none)
    (hlacks : q.lacks s.interpreter = none) (hneeds : q.needsTool = true)
    (hmiss : (s.caches.lookup q).1 = none) (hpool : pool.closed = false) (hfree : pool.free ≠ 0)
    (e : ToolEnd) :
    let k := s.invocations.length
    let begun := s.called pool q
    let ended := begun.ended pool k e
    begun.At k q (.running (q.command s.interpreter s.settings)) ∧
      ∃ result, q.Verdict e result ∧ ended.At k q (.done result) ∧
      (∀ failure, result = .error failure →
        ended.retired = none ∧ ended.CachedIn s ∧ ended.RunsTool q) ∧
      ∀ history later, begun.Run history later →
        (∀ m ∈ history, ∀ pool, m.event = .move pool k (.finish e.result) →
          (∃ v, later.invocations[k]? = some v ∧ v.query = q ∧ v.stage.outcome? = some result) ∧
          ∀ failure, result = .error failure →
            m.after.retired = m.before.retired ∧ m.after.caches = m.before.caches) ∧
        ((∀ m ∈ history, m.Idle) →
          later.retired = none ∧ later.CachedIn s ∧ later.RunsTool q) := by
  intro k begun ended
  obtain ⟨hbegun, hface, hcached⟩ := called_at hopen hlacks hneeds hmiss hpool hfree
  obtain ⟨hended, hface', hcached'⟩ := ended_at hbegun pool e
  have hagain {t : Session} (hretired : t.retired = none)
      (hinterpreter : t.interpreter = s.interpreter) (h : t.CachedIn s) : t.RunsTool q :=
    fun pool hpool hfree =>
      (called_at hretired (hinterpreter ▸ hlacks) hneeds (h.miss hmiss) hpool hfree).1
  refine ⟨hbegun, _, q.verdict e, hended, fun failure hfailure => ?_, fun history later hrun =>
    ⟨fun m hm pool hevent => ?_, fun hidle => ?_⟩⟩
  · obtain ⟨cause, hend, rfl⟩ := Query.mapError_eq_error_iff.mp hfailure
    have hsame : ended.face = s.face := hface'.trans hface
    have hretired : ended.retired = none := (congrArg Face.retired hsame).trans hopen
    have hfound : ended.CachedIn s :=
      (hcached' fun a hanswer => nomatch hend.symm.trans hanswer).trans hcached
    exact ⟨hretired, hfound, hagain hretired (congrArg Face.interpreter hsame) hfound⟩
  · obtain ⟨v, hv, hquery⟩ := hrun.at_of_at hbegun
    refine ⟨⟨v, hv, hquery, ?_⟩, fun failure hfailure => ?_⟩
    · rw [hrun.outcome_of_end hm hevent hv, hquery]
    · obtain ⟨cause, hend, rfl⟩ := Query.mapError_eq_error_iff.mp hfailure
      obtain ⟨earlier, hbefore⟩ := hrun.before hm
      obtain ⟨u, hu, rfl⟩ := hbefore.at_of_at hbegun
      obtain ⟨_, _, -, hadvance⟩ := hrun.advance hm hevent
      exact ⟨congrArg Face.retired hadvance.face, hrun.caches_of_failed hm hevent hu hend⟩
  · obtain ⟨hretired, hfound⟩ := hrun.idle hidle
    have hretired' : later.retired = none :=
      hretired.trans ((congrArg Face.retired hface).trans hopen)
    have hinterpreter : later.interpreter = s.interpreter :=
      hrun.interpreter.trans (congrArg Face.interpreter hface)
    have hfound' : later.CachedIn s := hfound.trans hcached
    exact ⟨hretired', hfound', hagain hretired' hinterpreter hfound'⟩

/-- The formatter refuses a buffer, and is run again for it. -/
theorem tool_failures_contained_refused :
    let q := Query.format Trial.path "y"
    let ended := (Trial.start.called { free := 1 } q).ended { free := 1 } 0
      (.ended (.exited 123) [] (Text.encode " no\n"))
    ended.At 0 q (.done (.error (.tool (.cannotFormat "no")))) ∧ ended.RunsTool q := by
  intro q ended
  obtain ⟨-, result, hverdict, hended, hcontained, -⟩ :=
    tool_failures_contained (s := Trial.start) (q := q) rfl (by decide) (by decide) rfl
      (show ({ free := 1 } : Pool).closed = false from rfl) (by decide)
      (.ended (.exited 123) [] (Text.encode " no\n"))
  have hresult : result = .error (.tool (.cannotFormat "no")) :=
    (hverdict.refused "no").mpr ⟨_, _, _, _, _, rfl, rfl, by decide, by decide +kernel⟩
  rw [hresult] at hended
  exact ⟨hended, (hcontained _ hresult).2.2⟩

end Session

end CodeAssist
