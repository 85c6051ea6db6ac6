import CodeAssist.Proofs.Session.Run

namespace CodeAssist

/-! How the invocations of a session end that is retired, and of one that is not. -/

theorem ProcessFailure.ofTool_kind {failure : ProcessFailure} (c : Capability)
    (hgoes : failure ≠ .cancelled) : (Failure.tool (failure.ofTool c)).kind ≠ .cancelled := by
  cases failure with
  | cancelled => exact (hgoes rfl).elim
  | notStarted | unreadable | timedOut => exact nofun

namespace Query

variable {q : Query} {o : ProcessOutput} {cause : ToolFailure}

theorem parsed_kind {shape : Json.Shape} (hparsed : q.parsed shape o = .error cause) :
    (Failure.tool cause).kind = .tool := by
  unfold parsed at hparsed
  split at hparsed <;> cases hparsed
  rfl

theorem printed_kind (hprinted : q.printed o = .error cause) :
    (Failure.tool cause).kind = .tool := by
  cases q with
  | format => cases hprinted
  | completion | hover | diagnostics =>
      simp only [printed, bind, Except.bind] at hprinted
      split at hprinted
      · rename_i hparsed
        cases hprinted
        exact parsed_kind hparsed
      · cases hprinted

theorem refused_kind (hrefused : q.refused o = some cause) :
    (Failure.tool cause).kind = .format := by
  cases q with
  | format =>
      simp only [refused] at hrefused
      split at hrefused <;> cases hrefused
      rfl
  | completion | hover | diagnostics => cases hrefused

/-- Whatever a tool leaves, the failure that is read off it is not that of a tool that was
stopped. -/
theorem ofOutput_kind (hread : q.ofOutput o = .error cause) :
    (Failure.tool cause).kind ≠ .cancelled := by
  unfold ofOutput at hread
  split at hread
  · rw [printed_kind hread]
    exact nofun
  · cases hread
    cases hrefused : q.refused o with
    | none => exact nofun
    | some cause =>
        rw [Option.getD_some, refused_kind hrefused]
        exact nofun

theorem ofEnd_kind {result : ProcessEnd} (hend : q.ofEnd result = .error cause)
    (hgoes : result ≠ .error .cancelled) : (Failure.tool cause).kind ≠ .cancelled := by
  cases result with
  | ok o => exact ofOutput_kind hend
  | error failure =>
      cases hend
      exact ProcessFailure.ofTool_kind _ fun h => hgoes (by rw [h])

end Query

/-- Whether an invocation is on the way of one that is turned away with a failure: it does not wait
for a worker, and has come to that failure if it has come to anything. -/
def Stage.KeptOut (failure : Failure) : Stage → Prop
  | .arrived | .admitted | .registered => True
  | .closing result | .reporting result | .done result => result = .error failure
  | .waiting | .working | .running _ | .leaving _ => False

theorem Query.keptOut_settled (q : Query) (failure : Failure) :
    (q.settled (.error failure)).KeptOut failure := by
  unfold settled
  split <;> rfl

namespace Session

def Event.reason? : Event → Option Reason
  | .retire reason => some reason
  | .start _ | .move _ _ _ => none

def firstReason (history : List Moment) : Option Reason :=
  (history.filterMap (·.event.reason?)).getLast?

theorem firstReason_cons (m : Moment) (history : List Moment) :
    firstReason (m :: history) = (firstReason history).or m.event.reason? := by
  unfold firstReason
  rw [List.filterMap_cons]
  split
  · rename_i hnone
    rw [hnone, Option.or_none]
  · rename_i reason hsome
    rw [hsome, List.getLast?_cons]
    cases (history.filterMap (·.event.reason?)).getLast? <;> rfl

section outcomes

variable {start s s' : Session} {history : List Moment} {m : Moment} {e : Event} {k : Nat}
  {v v' : Invocation} {failure : Failure}

theorem Happens.reason (hhappens : Happens s e s') : s'.retired = s.retired.or e.reason? := by
  cases hhappens with
  | started => exact Option.or_none.symm
  | moved _ hadvance => exact (congrArg Face.retired hadvance.face).trans Option.or_none.symm
  | retired => rfl

theorem Run.retired (hrun : start.Run history s) :
    s.retired = start.retired.or (firstReason history) := by
  refine hrun.invariant (P := fun history s => s.retired = start.retired.or (firstReason history))
    Option.or_none.symm fun _ h hhappens => ?_
  rw [hhappens.reason, firstReason_cons, h, Option.or_assoc]

/-- Why an invocation may fail: it is turned away for a capability that is missing, its tool fails,
there are no more workers, its session has been retired, or it has been superseded. -/
inductive Fails (history : List Moment) (s : Session) (k : Nat) (v : Invocation) : Failure → Prop
  | lacking {missing : Capability} (hlacks : v.query.lacks s.interpreter = some missing) :
      Fails history s k v (.capabilityUnavailable missing)
  | failed {m : Moment} {pool : Pool} {result : ProcessEnd} {cause : ToolFailure}
      (hm : m ∈ history) (hevent : m.event = .move pool k (.finish result))
      (hgoes : result ≠ .error .cancelled) (hend : v.query.ofEnd result = .error cause) :
      Fails history s k v (.tool cause)
  | refused {m : Moment} {pool : Pool} (hm : m ∈ history) (hevent : m.event = .move pool k .refuse)
      (hclosed : pool.closed = true) : Fails history s k v .shuttingDown
  | retired {reason : Reason} (hretired : s.retired = some reason) :
      Fails history s k v (reason.failure v.query.capability)
  | superseded {failure : Failure} (hkind : v.query.supersedes?.isSome)
      (hsuperseded : v.superseded = true)
      (hfailure : failure = .superseded v.query.path ∨
        failure = .tool (.cancelled v.query.capability)) : Fails history s k v failure

theorem Fails.later (hfails : Fails history s k v failure) (hhappens : Happens s e s')
    (hquery : v'.query = v.query) (hsuperseded : v.superseded = true → v'.superseded = true) :
    Fails (m :: history) s' k v' failure := by
  obtain ⟨hinterpreter, hretired⟩ := hhappens.face
  cases hfails with
  | lacking hlacks => exact .lacking (by rwa [hquery, hinterpreter])
  | failed hm hevent hgoes hend =>
      exact .failed (List.mem_cons_of_mem _ hm) hevent hgoes (by rwa [hquery])
  | refused hm hevent hclosed => exact .refused (List.mem_cons_of_mem _ hm) hevent hclosed
  | retired hreason =>
      rw [← hquery]
      exact .retired (hretired _ hreason)
  | superseded hkind hold hfailure =>
      exact .superseded (by rwa [hquery]) (hsuperseded hold) (by rwa [hquery])

theorem Fails.sessionReplaced (hfails : Fails history s k v (.environment .sessionReplaced)) :
    s.retired = some .replaced := by
  generalize hfailure : Failure.environment .sessionReplaced = failure at hfails
  cases hfails with
  | retired hretired => rw [hretired, failure_eq_sessionReplaced hfailure.symm]
  | superseded _ _ hor =>
      subst hfailure
      obtain h | h := hor <;> cases h
  | lacking | failed | refused => cases hfailure

/-- Only retirement for a shutdown and supersession stop an invocation. -/
theorem Fails.cancelled (hfails : Fails history s k v failure) (hkind : failure.kind = .cancelled) :
    s.retired = some .shutdown ∨ v.query.supersedes?.isSome ∧ v.superseded = true := by
  cases hfails with
  | lacking | refused => cases hkind
  | failed _ _ hgoes hend => exact (Query.ofEnd_kind hend hgoes hkind).elim
  | @retired reason hretired =>
      cases reason with
      | replaced => cases hkind
      | shutdown => exact .inl hretired
  | superseded hsupersedes hsuperseded => exact .inr ⟨hsupersedes, hsuperseded⟩

/-- What is known of how an invocation fails: on a retired session, one that has just been stopped
is about to get the failure for that. -/
def Explained (history : List Moment) (s : Session) (k : Nat) (v : Invocation) : Prop :=
  ∀ failure, v.stage.outcome? = some (.error failure) → Fails history s k v failure ∨
    s.retired.isSome ∧ v.stage = .leaving (.error (.tool (.cancelled v.query.capability)))

theorem explained_of_cancels (hkind : v.superseded = true → v.query.supersedes?.isSome)
    (hcancels : s.cancels v = true) :
    Explained history s k
      { v with stage := .leaving (.error (.tool (.cancelled v.query.capability))) } := by
  intro failure hfailure
  cases hfailure
  obtain hgone | hsuperseded := Bool.or_eq_true_iff.mp hcancels
  · exact .inr ⟨hgone, rfl⟩
  · exact .inl (.superseded (hkind hsuperseded) hsuperseded (.inr rfl))

theorem Explained.later (hexplained : Explained history s k v) (hhappens : Happens s e s')
    (hquery : v'.query = v.query) (hstage : v'.stage = v.stage)
    (hsuperseded : v.superseded = true → v'.superseded = true) :
    Explained (m :: history) s' k v' := by
  intro failure hfailure
  rw [hstage] at hfailure ⊢
  rw [hquery]
  obtain hfails | ⟨hgone, hstopped⟩ := hexplained failure hfailure
  · exact .inl (hfails.later hhappens hquery hsuperseded)
  · obtain ⟨reason, hretired⟩ := Option.isSome_iff_exists.mp hgone
    exact .inr ⟨by rw [hhappens.face.2 _ hretired]; rfl, hstopped⟩

theorem settle_eq_error {c : Capability} {result : Except Failure Answer}
    (hsettle : s.settle c result = .error failure) :
    (∃ reason, s.retired = some reason ∧ failure = reason.failure c) ∨
      result = .error failure ∧ (s.retired.isSome → ∀ d, failure ≠ .tool (.cancelled d)) := by
  unfold settle at hsettle
  split at hsettle
  · rename_i reason hretired
    cases hsettle
    exact .inl ⟨reason, hretired, rfl⟩
  · rename_i hnot
    refine .inr ⟨hsettle, fun hgone d hfailure => ?_⟩
    obtain ⟨reason, hretired⟩ := Option.isSome_iff_exists.mp hgone
    exact hnot d reason (hsettle.trans (by rw [hfailure])) hretired

theorem report_eq_error {path : Path} {result : Except Failure Answer}
    (hreport : s.report path result = .error failure) :
    result = .error failure ∨
      s.retired = none ∧ failure = .superseded path ∧
        ∃ c, result = .error (.tool (.cancelled c)) := by
  unfold report at hreport
  split at hreport
  · rename_i c
    split at hreport
    · exact .inl hreport
    · rename_i hgoes
      cases hreport
      exact .inr ⟨by simpa using hgoes, rfl, c, rfl⟩
  · exact .inl hreport

theorem Explained.advance {pool pool' : Pool} {step : Move}
    (hexplained : Explained history s k v)
    (hkind : v.superseded = true → v.query.supersedes?.isSome)
    (hv : s.invocations[k]? = some v) (hadvance : s.Advance pool k v step pool' s')
    (hv' : s'.invocations[k]? = some v') :
    Explained (⟨s, .move pool k step, s'⟩ :: history) s' k v' := by
  have hhappens : Happens s (.move pool k step) s' := .moved hv hadvance
  have hlater {u : Invocation} {failure : Failure} (hfails : Fails history s k v failure)
      (hquery : u.query = v.query) (hsuperseded : u.superseded = v.superseded) :
      Fails (⟨s, .move pool k step, s'⟩ :: history) s' k u failure :=
    hfails.later hhappens hquery fun h => hsuperseded.trans h
  cases hadvance with
  | lacking hstage hlacks =>
      obtain rfl := eq_of_getElem?_put hv hv'
      intro failure hfailure
      cases hfailure
      exact .inl (.lacking hlacks)
  | turnedAway hstage hretired =>
      obtain rfl := eq_of_getElem?_put hv hv'
      intro failure hfailure
      simp only [Query.outcome?_settled, Option.some.injEq, Except.error.injEq] at hfailure
      subst hfailure
      exact .inl (.retired hretired)
  | refused hstage hclosed =>
      obtain rfl := eq_of_getElem?_put hv hv'
      intro failure hfailure
      cases hfailure
      exact .inl (.refused List.mem_cons_self rfl hclosed)
  | gaveUp hstage hcancels =>
      obtain rfl := eq_of_getElem?_put hv hv'
      exact explained_of_cancels hkind hcancels
  | @failed _ result cause hstage hcan hend =>
      obtain rfl := eq_of_getElem?_put hv hv'
      -- A tool that was stopped fails like one that was given up, for what had it stopped.
      by_cases hstopped : result = .error .cancelled
      · subst hstopped
        cases hend
        exact explained_of_cancels hkind hcan
      · intro failure hfailure
        cases hfailure
        exact .inl (.failed List.mem_cons_self rfl hstopped hend)
  | @settled result hstage =>
      obtain rfl := eq_of_getElem?_put hv hv'
      intro failure hfailure
      simp only [Query.outcome?_settled, Option.some.injEq] at hfailure
      obtain ⟨reason, hretired, rfl⟩ | ⟨rfl, hgoes⟩ := settle_eq_error hfailure
      · exact .inl (.retired hretired)
      · obtain hfails | ⟨hgone, hstopped⟩ := hexplained failure (by rw [hstage]; rfl)
        · exact .inl (hlater hfails rfl rfl)
        · rw [hstage] at hstopped
          cases hstopped
          exact (hgoes hgone _ rfl).elim
  | @unregistered result hstage =>
      rw [← invocations_unregister s v] at hv
      obtain rfl := eq_of_getElem?_put hv hv'
      intro failure hfailure
      cases hfailure
      obtain hfails | ⟨-, hstopped⟩ := hexplained failure (by rw [hstage]; rfl)
      · exact .inl (hlater hfails rfl rfl)
      · rw [hstage] at hstopped
        cases hstopped
  | @reported result hstage =>
      obtain rfl := eq_of_getElem?_put hv hv'
      have hbefore {failure : Failure} (hresult : result = .error failure) :
          Fails history s k v failure := by
        subst hresult
        obtain hfails | ⟨-, hstopped⟩ := hexplained failure (by rw [hstage]; rfl)
        · exact hfails
        · rw [hstage] at hstopped
          cases hstopped
      intro failure hfailure
      obtain hresult | ⟨hgoes, rfl, c, hresult⟩ := report_eq_error (Option.some.inj hfailure)
      · exact .inl (hlater (hbefore hresult) rfl rfl)
      · -- The session goes on, so supersession is what cancelled.
        obtain hretired | ⟨hsupersedes, hsuperseded⟩ := (hbefore hresult).cancelled rfl
        · rw [hgoes] at hretired
          cases hretired
        · exact .inl (.superseded hsupersedes hsuperseded (.inl rfl))
  | trivial | recalled | answered =>
      obtain rfl := eq_of_getElem?_put (s := { s with caches := _ }) hv hv'
      exact nofun
  | registered =>
      cases Option.some.inj ((getElem?_register_self hv _).symm.trans hv')
      exact nofun
  | admitted | unregistrable | entered | took | began =>
      obtain rfl := eq_of_getElem?_put (s := { s with caches := _ }) hv hv'
      exact nofun

theorem Run.explained {id : Nat} {interpreter : Interpreter} {settings : ToolSettings}
    (hrun : Run { id, interpreter, settings } history s) (hv : s.invocations[k]? = some v) :
    Explained history s k v := by
  refine hrun.each (P := Explained) rfl ?_ ?_ ?_ hv
  · intro history s q _
    exact nofun
  · intro history s s' pool pool' k step u v hrun hu h hadvance hv
    exact h.advance (fun hsuperseded => hrun.supersedes hu (.inr hsuperseded)) hu hadvance hv
  · intro history s s' e k u number _ h hhappens _
    exact h.later hhappens (u.told_query number) (u.told_stage number)
      fun h => Invocation.superseded_told.mpr (.inl h)

/-- Invocation `k` was begun when the session had been retired for a reason. -/
def BegunAfter (history : List Moment) (k : Nat) (reason : Reason) : Prop :=
  ∃ m ∈ history, ∃ q, m.event = .start q ∧ m.before.invocations.length = k ∧
    m.before.retired = some reason

theorem report_failure {reason : Reason} (hretired : s.retired = some reason) (c : Capability)
    (path : Path) : s.report path (.error (reason.failure c)) = .error (reason.failure c) := by
  cases reason with
  | replaced => rfl
  | shutdown => simp [report, Reason.failure, hretired]

theorem Advance.keptOut {pool pool' : Pool} {step : Move} {reason : Reason}
    (hadvance : s.Advance pool k v step pool' s') (hv : s.invocations[k]? = some v)
    (hretired : s.retired = some reason) (hlacks : v.query.lacks s.interpreter = none)
    (hout : v.stage.KeptOut (reason.failure v.query.capability)) :
    ∃ v', s'.invocations[k]? = some v' ∧ v'.query = v.query ∧
      v'.stage.KeptOut (reason.failure v.query.capability) ∧
      step ≠ .begin ∧ s'.caches = s.caches := by
  cases hadvance with
  | lacking _ hmissing => cases hlacks.symm.trans hmissing
  | admitted | unregistrable =>
      exact ⟨_, getElem?_put_self hv _, rfl, True.intro, nofun, rfl⟩
  | registered =>
      exact ⟨_, getElem?_register_self hv _, rfl, True.intro, nofun, caches_register ..⟩
  | turnedAway _ hreason =>
      cases hretired.symm.trans hreason
      exact ⟨_, getElem?_put_self hv _, rfl, v.query.keptOut_settled _, nofun, rfl⟩
  | entered _ hgoes => cases hretired.symm.trans hgoes
  | unregistered hstage =>
      rw [hstage] at hout
      rw [← invocations_unregister s v] at hv
      exact ⟨_, getElem?_put_self hv _, rfl, hout, nofun, caches_unregister s v⟩
  | reported hstage =>
      rw [hstage] at hout
      cases hout
      refine ⟨_, getElem?_put_self hv _, rfl, ?_, nofun, rfl⟩
      exact report_failure hretired v.query.capability v.query.path
  | took hstage | refused hstage | gaveUp hstage | trivial hstage | recalled hstage | began hstage
  | answered hstage | failed hstage | settled hstage =>
      rw [hstage] at hout
      cases hout

/-- An invocation that began after its session was retired stays out: it runs no tool, and leaves
what the session has kept alone. -/
structure StaysOut (history : List Moment) (s : Session) (k : Nat) (reason : Reason) : Prop where
  retired : s.retired = some reason
  begun : k < s.invocations.length
  out : ∀ v, s.invocations[k]? = some v → v.query.lacks s.interpreter = none →
    v.stage.KeptOut (reason.failure v.query.capability) ∧
      ∀ m ∈ history, ∀ pool step, m.event = .move pool k step →
        step ≠ .begin ∧ m.after.caches = m.before.caches

theorem StaysOut.later {reason : Reason} (h : StaysOut history s k reason)
    (hhappens : Happens s e s') : StaysOut (⟨s, e, s'⟩ :: history) s' k reason := by
  obtain ⟨hinterpreter, hretired⟩ := hhappens.face
  obtain ⟨v, hv⟩ : ∃ v, s.invocations[k]? = some v := ⟨_, List.getElem?_eq_getElem h.begun⟩
  obtain ⟨v', hv', hquery, -⟩ := hhappens.kept hv
  refine ⟨hretired _ h.retired, (List.getElem?_eq_some_iff.mp hv').1, fun w hw hlacks => ?_⟩
  cases Option.some.inj (hv'.symm.trans hw)
  rw [hinterpreter, hquery] at hlacks
  obtain ⟨hout, hmoves⟩ := h.out _ hv hlacks
  rw [hquery, List.forall_mem_cons]
  obtain ⟨pool, step, pool', rfl, hadvance⟩ | ⟨hother, number, htold⟩ := hhappens.steps_or_told hv
  · obtain ⟨w, hw, -, hout, hbegin, hcaches⟩ := hadvance.keptOut hv h.retired hlacks hout
    cases Option.some.inj (hv'.symm.trans hw)
    refine ⟨hout, fun _ _ hmove => ?_, hmoves⟩
    cases hmove
    exact ⟨hbegin, hcaches⟩
  · cases Option.some.inj (hv'.symm.trans htold)
    rw [Invocation.told_stage]
    exact ⟨hout, fun _ _ hmove => (hother _ _ hmove).elim, hmoves⟩

theorem Run.staysOut {reason : Reason} (hrun : start.Run history s)
    (hbegun : BegunAfter history k reason) : StaysOut history s k reason := by
  refine hrun.invariant
    (P := fun history s => BegunAfter history k reason → StaysOut history s k reason)
    (fun hbegun => ?_) ?_ hbegun
  · obtain ⟨m, hm, -⟩ := hbegun
    cases hm
  · rintro history s e s' hrun h hhappens ⟨m, hm, q, hstart, rfl, hretired⟩
    obtain rfl | hm := List.mem_cons.mp hm
    · cases hstart
      cases hhappens with
      | started =>
          refine ⟨hretired, by simp [Session.start], fun v hv _ => ?_⟩
          obtain hold | ⟨-, rfl⟩ := getElem?_start hv
          · exact absurd (List.getElem?_eq_some_iff.mp hold).1 (Nat.lt_irrefl _)
          · -- The invocation has just begun, so no step was one of its.
            refine ⟨True.intro, fun m hm pool step hmove => ?_⟩
            obtain rfl | hm := List.mem_cons.mp hm
            · cases hmove
            · exact absurd (hrun.lt_length hm hmove) (Nat.lt_irrefl _)
    · exact (h ⟨m, hm, q, hstart, rfl, hretired⟩).later hhappens

theorem exists_step_of_retired (hretired : s.retired.isSome) (hv : s.invocations[k]? = some v)
    (hopen : v.stage.result? = none) (pool : Pool) : ∃ step, (s.step? pool k step).isSome := by
  by_cases hwaits : v.stage = .waiting
  · exact ⟨.giveUp, by simp [step?, hv, hwaits, cancels, hretired]⟩
  · exact exists_step hv hopen fun h => (hwaits h).elim

/-- The first reason for which a session is retired stays. An invocation that is answered is
answered from runs of the session's tools; one that fails does so for a capability that is missing,
by its tool, because the workers are gone, for the reason that the session was retired for, or as
diagnostics that have been superseded. Only a session that has been replaced says so, and only
retirement for a shutdown and supersession cancel. What begins after the retirement and has its
capability fails for that reason, and neither runs a tool nor changes what the session has kept.
No invocation makes more than nine steps, and on a retired session each one that is not done can
make one, whatever workers there are. -/
theorem retirement_outcomes {id : Nat} {interpreter : Interpreter} {settings : ToolSettings}
    (hrun : Run { id, interpreter, settings } history s) :
    s.retired = firstReason history ∧
      ∀ {k : Nat} {v : Invocation}, s.invocations[k]? = some v →
        (∀ {a}, v.stage.result? = some (.ok a) → Answered (Ran history) v.query a) ∧
        (∀ {failure}, v.stage.result? = some (.error failure) →
          Fails history s k v failure ∧
          (failure = .environment .sessionReplaced → s.retired = some .replaced) ∧
          (failure.kind = .cancelled → s.retired = some .shutdown ∨
            v.query.supersedes?.isSome ∧ v.superseded = true)) ∧
        (∀ {reason}, BegunAfter history k reason → v.query.lacks interpreter = none →
          s.retired = some reason ∧
          (∀ {result}, v.stage.result? = some result →
            result = .error (reason.failure v.query.capability)) ∧
          ∀ m ∈ history, ∀ pool step, m.event = .move pool k step →
            step ≠ .begin ∧ m.after.caches = m.before.caches) ∧
        history.countP (·.moves k) ≤ 9 ∧
        (s.retired.isSome → v.stage.result? = none → ∀ pool, ∃ step, (s.step? pool k step).isSome)
    := by
  refine ⟨hrun.retired, fun {k v} hv => ⟨fun ha => ?_, fun {failure} hfailure => ?_,
    fun {reason} hbegun hlacks => ?_, ?_, fun hretired hopen =>
      exists_step_of_retired hretired hv hopen⟩⟩
  · exact hrun.sound.answers hv (Stage.outcome?_of_result? ha)
  · have hfails : Fails history s k v failure := by
      obtain hfails | ⟨-, hstopped⟩ := hrun.explained hv _ (Stage.outcome?_of_result? hfailure)
      · exact hfails
      · rw [hstopped] at hfailure
        cases hfailure
    exact ⟨hfails, fun h => Fails.sessionReplaced (h ▸ hfails), hfails.cancelled⟩
  · have hstays := hrun.staysOut hbegun
    obtain ⟨hout, hmoves⟩ := hstays.out v hv (by rw [hrun.interpreter]; exact hlacks)
    refine ⟨hstays.retired, fun {result} hresult => ?_, hmoves⟩
    rw [Stage.eq_done_of_result? hresult] at hout
    exact hout
  · have hcount := hrun.countP_moves rfl hv
    omega

end outcomes

/-- Diagnostics that are superseded, those that supersede them and are cut off as the session is
replaced, and some that begin after it was. -/
def Trial.replaced : List Event :=
  [lint "x"] ++ moves 0 opening ++ [lint "y"] ++ moves 1 opening ++
    moves 0 (.finish (.error .cancelled) :: ending) ++ [.retire .replaced, .retire .shutdown] ++
    moves 1 (.finish (.error .cancelled) :: ending) ++ [lint "x"] ++
    moves 2 [.check, .register, .enter, .unregister, .report]

def Trial.replacedEnds : List Invocation :=
  [⟨.diagnostics path "x", some 1, true, .done (.error (.superseded path))⟩,
    ⟨.diagnostics path "y", some 2, false, .done (.error (.environment .sessionReplaced))⟩,
    ⟨.diagnostics path "x", some 3, false, .done (.error (.environment .sessionReplaced))⟩]

theorem Trial.run_replaced :
    ∃ history s, start.Run history s ∧ BegunAfter history 2 .replaced ∧
      s.invocations = replacedEnds := by
  refine ⟨_, _, run_play start replaced, ?_, ?_⟩ <;>
    simp [BegunAfter, replaced, replacedEnds, lint, moves, opening, ending, start, play,
      playFrom, next?, step?, Session.start, retire, put, register, supersede, unregister, begin,
      finish, canEnd, cancels, settle, report, Query.lacks, Query.supersedes?, Query.capability,
      Query.path, Query.needsTool, Query.settled, Query.ofEnd, ProcessFailure.ofTool,
      Reason.failure, Interpreter.supports, Capability.all, Caches.lookup, FileCache.get,
      FileCache.entry?, Table.put, Table.without]

theorem retirement_outcomes_replaced :
    ∃ history s, Trial.start.Run history s ∧ s.retired = some .replaced ∧
      (∃ v, s.invocations[0]? = some v ∧ Fails history s 0 v (.superseded Trial.path)) ∧
      (∃ v, s.invocations[1]? = some v ∧ Fails history s 1 v (.environment .sessionReplaced) ∧
        v.superseded = false) ∧
      ∃ v, s.invocations[2]? = some v ∧ BegunAfter history 2 .replaced ∧
        v.stage.result? = some (.error (.environment .sessionReplaced)) ∧
        ∀ m ∈ history, ∀ pool step, m.event = .move pool 2 step → step ≠ .begin := by
  obtain ⟨history, s, hrun, hbegun, hinvocations⟩ := Trial.run_replaced
  obtain ⟨-, hall⟩ := retirement_outcomes hrun
  have hnth (k : Nat) : s.invocations[k]? = Trial.replacedEnds[k]? := by rw [hinvocations]
  obtain ⟨-, hfirst, -⟩ := hall (hnth 0)
  obtain ⟨-, hsecond, -⟩ := hall (hnth 1)
  obtain ⟨-, -, hthird, -⟩ := hall (hnth 2)
  obtain ⟨hretired, -, hmoves⟩ := hthird hbegun rfl
  exact ⟨history, s, hrun, hretired, ⟨_, hnth 0, (hfirst rfl).1⟩,
    ⟨_, hnth 1, (hsecond rfl).1, rfl⟩,
    ⟨_, hnth 2, hbegun, rfl, fun m hm pool step hmove => (hmoves m hm pool step hmove).1⟩⟩

end Session

end CodeAssist
