import CodeAssist.Proofs.Json.Members
import CodeAssist.Proofs.Message.Params
import CodeAssist.Proofs.Router.FirstSession
import CodeAssist.Proofs.Router.SessionHistory
import CodeAssist.Proofs.Router.ShutdownGate
import CodeAssist.Proofs.Session.Retirement

namespace CodeAssist

/-! For which missing capability a request is turned away, by what clients are told of its session. -/

/-- What an answer to a call for the capabilities says of one. -/
def Json.reports? (answer : Json) (c : Capability) : Option Bool := do
  let capabilities ← answer.get? "capabilities"
  match ← capabilities.get? c.name with
  | .boolean supported => some supported
  | _ => none

namespace Query

/-- The capabilities that a session has to have for a query, in the order it is asked for them. -/
def needs : Query → List Capability
  | .hover _ _ _ => [.completion, .hover]
  | .completion _ _ _ => [.completion]
  | .format _ _ => [.format]
  | .diagnostics _ _ => [.diagnostics]

theorem lacks_eq_find? (q : Query) (i : Interpreter) :
    q.lacks i = q.needs.find? fun c => !i.supports c := by
  have hone (c : Capability) :
      (if i.supports c then none else some c) = [c].find? fun d => !i.supports d := by
    cases hc : i.supports c <;> simp [hc]
  cases q with
  | hover =>
      cases hcompletion : i.supports .completion <;> cases hhover : i.supports .hover <;>
        simp [lacks, needs, hcompletion, hhover]
  | completion | format | diagnostics => exact hone _

end Query

theorem Capability.name_injective : Function.Injective Capability.name := by
  intro c d hname
  cases c <;> cases d <;> first | rfl | exact absurd hname (by decide)

namespace Response

/-- No other failure looks like that of a missing capability. -/
theorem ofResult_eq_unavailable {id : Json} {result : Except Failure Json} {c : Capability} :
    ofResult id result = ofResult id (.error (.capabilityUnavailable c)) ↔
      result = .error (.capabilityUnavailable c) := by
  refine ⟨fun heq => ?_, fun heq => by rw [heq]⟩
  cases result with
  | ok value => cases heq
  | error cause =>
      simp only [ofResult, failure, Response.mk.injEq, Outcome.failure.injEq, true_and] at heq
      obtain ⟨hkind, hmessage⟩ := heq
      cases cause with
      | capabilityUnavailable d =>
          rw [Capability.name_injective ((String.append_right_inj _).mp hmessage)]
      | tool cause => cases cause <;> cases hkind
      | _ => cases hkind

end Response

namespace Session

theorem reports?_info (s : Session) (c : Capability) :
    s.info.reports? c = some (s.interpreter.supports c) := by
  cases c <;> simp [info, Json.reports?, Json.ofMembers, Json.get?, Json.lookup_sortMembers,
    Capability.all, Capability.name, List.lookup_cons]

/-- What a query lacks is what it needs and clients are told is missing. -/
theorem lacks_eq_reported (s : Session) (q : Query) :
    q.lacks s.interpreter = q.needs.find? fun c => s.info.reports? c = some false := by
  simp [Query.lacks_eq_find?, reports?_info]

variable {s : Session} {history : List Moment} {k : Nat} {v : Invocation} {c : Capability}

theorem Fails.lacks (hfails : Fails history s k v (.capabilityUnavailable c)) :
    v.query.lacks s.interpreter = some c := by
  generalize hfailure : Failure.capabilityUnavailable c = failure at hfails
  cases hfails with
  | lacking hlacks =>
      cases hfailure
      exact hlacks
  | @retired reason => cases reason <;> cases hfailure
  | superseded _ _ hor =>
      subst hfailure
      obtain h | h := hor <;> cases h
  | failed | refused => cases hfailure

/-- An invocation that lacks a capability is turned away before it does anything. -/
theorem Run.turnedAway {id : Nat} {interpreter : Interpreter} {settings : ToolSettings}
    (hrun : Run { id, interpreter, settings } history s) (hv : s.invocations[k]? = some v)
    (hlacks : v.query.lacks s.interpreter = some c) :
    v.stage = .arrived ∨ v.stage = .done (.error (.capabilityUnavailable c)) := by
  refine hrun.each (P := fun _ s _ v => v.query.lacks s.interpreter = some c →
    v.stage = .arrived ∨ v.stage = .done (.error (.capabilityUnavailable c)))
    rfl ?_ ?_ ?_ hv hlacks
  · exact fun _ _ _ => .inl rfl
  · intro history s s' pool pool' k step u v _ hu h hadvance hv hlacks
    obtain ⟨v', hv', hquery, -⟩ := hadvance.change.own hu
    cases Option.some.inj (hv.symm.trans hv')
    have hinterpreter := congrArg Face.interpreter hadvance.face
    simp only [face] at hinterpreter
    rw [hquery, hinterpreter] at hlacks
    have hstage := h hlacks
    cases hadvance with
    | lacking _ hmissing =>
        obtain rfl := eq_of_getElem?_put hu hv
        cases hlacks.symm.trans hmissing
        exact .inr rfl
    | admitted _ hnone => cases hlacks.symm.trans hnone
    | _ => simp_all
  · intro history s s' e k u number _ h hhappens _ hlacks
    rw [Invocation.told_query, hhappens.face.1] at hlacks
    rw [Invocation.told_stage]
    exact h hlacks

/-- What an invocation has come to tells of a missing capability just if the query lacks it. -/
theorem Lived.unavailable_iff (hlived : s.Lived) (hv : s.invocations[k]? = some v)
    {result : Except Failure Answer} (hresult : v.stage.result? = some result) :
    result = .error (.capabilityUnavailable c) ↔ v.query.lacks s.interpreter = some c := by
  obtain ⟨history, hrun⟩ := hlived
  have hdone := Stage.eq_done_of_result? hresult
  constructor
  · rintro rfl
    obtain hfails | ⟨-, hleaving⟩ := hrun.explained hv _ (Stage.outcome?_of_result? hresult)
    · exact hfails.lacks
    · cases hdone.symm.trans hleaving
  · intro hlacks
    obtain harrived | hunavailable := hrun.turnedAway hv hlacks
    · cases hdone.symm.trans harrived
    · exact Stage.done.inj (hdone.symm.trans hunavailable)

end Session

namespace Router

variable {start r r' : Router} {history : List Moment} {e : Event} {n id k : Nat} {call : Call}
  {q : Query} {s : Session} {v : Received}

theorem since_lt_of_happens (hnumbered : Numbered r) (h : r.slot.since < r.nextArrival)
    (hhappens : Happens r e r') : r'.slot.since < r'.nextArrival := by
  cases hhappens with
  | arrived => exact Nat.lt_succ_of_lt h
  | advanced _ ht hadvance =>
      have hlt := (hnumbered.task ht).2
      rw [put_slot, put_nextArrival, hadvance.nextArrival]
      cases hadvance with
      | switched | switchedFirst | moved => exact hlt
      | unchosen | unusable =>
          rw [unlock, Slot.failedChange_eq]
          exact h
      | given _ _ hgiven =>
          rw [hgiven.rest_eq]
          exact h
      | givenLate _ _ hgiven | created _ _ _ hgiven | createdLate hgiven =>
          rw [hgiven.rest_eq]
          exact h
      | _ => exact h
  | _ => exact h

theorem firstStage_of_needsSession {lifecycle : Lifecycle} {request : Request}
    (hready : lifecycle.isReady) (hmakes : request.Makes call) (hneeds : call.needsSession) :
    firstStage lifecycle request = .wantsSession call := by
  unfold Request.Makes at hmakes
  unfold firstStage
  rw [if_neg (by simp [hready]), hmakes]
  cases call with
  | capabilities | completion | hover | format | diagnostics => rfl
  | _ => cases hneeds

section run

variable {settings : Settings} {resolver : Resolver} {lifecycle : Lifecycle}

theorem Run.since_lt (hrun : (Router.ofSettings settings resolver lifecycle).Run history r) :
    r.slot.since < r.nextArrival :=
  hrun.invariant (P := fun _ r => r.slot.since < r.nextArrival) Nat.one_pos
    fun hrun h hhappens => since_lt_of_happens hrun.numbered h hhappens

/-- The steps that bring a new request to the session in the slot, the last one first. -/
def reaching (n : Nat) (request : Request) (tracked : Bool) : List Event :=
  [.look n, .dispatch n, .arrive request tracked]

theorem Run.reaches (hrun : (Router.ofSettings settings resolver lifecycle).Run history r)
    (hready : r.lifecycle.isReady) (hid : r.slot.session = some id) (hfree : r.slotHolder = .none)
    {request : Request} (tracked : Bool) (hmakes : request.Makes call) (hneeds : call.needsSession) :
    ∃ (later : List Moment) (r' middle : Router), r.Run later r' ∧
      later.map (·.event) = reaching r.nextArrival request tracked ∧
      middle.sessions = r.sessions ∧ r' = middle.serve r.nextArrival call id ∧
      middle.received? r.nextArrival = some ⟨request, tracked, .wantsSession call⟩ := by
  obtain ⟨r₁, hr₁⟩ : ∃ r₁, r.step? (.arrive request tracked) = some r₁ := ⟨_, rfl⟩
  have hv : r₁.received? r.nextArrival = some { request, tracked } := by
    cases hr₁
    exact Table.lookup_put_self ..
  have hr₂ := step?_dispatch hv rfl
  have hsame : r₁.lifecycle = r.lifecycle ∧ r₁.slot = r.slot ∧ r₁.slotHolder = r.slotHolder ∧
      r₁.sessions = r.sessions := by
    cases hr₁
    exact ⟨rfl, rfl, rfl, rfl⟩
  obtain ⟨hlifecycle, hslot, hholder, hsessions⟩ := hsame
  rw [hlifecycle, firstStage_of_needsSession hready hmakes hneeds] at hr₂
  have hv₂ := received?_put_self hv (.wantsSession call)
  have husable : r.slot.usable r.nextArrival = .ok (some id) :=
    hid ▸ usable_ok (hrun.succession.current hid).2.1 (Nat.le_of_lt hrun.since_lt)
  have hr₃ : (r₁.put r.nextArrival (.wantsSession call)).step? (.look r.nextArrival) =
      some ((r₁.put r.nextArrival (.wantsSession call)).serve r.nextArrival call id) := by
    simp [step?, look, task?_of_received? hv₂, hslot, hholder, hfree, husable]
  exact ⟨_, _, _, .step (.step (.step .none hr₁) hr₂) hr₃, rfl, by rw [put_sessions, hsessions],
    rfl, hv₂⟩

end run

section past

variable {settings : Settings} {resolver : Resolver} {lifecycle : Lifecycle} {past : List Moment}
  (hpast : (Router.ofSettings settings resolver lifecycle).Run past start)

include hpast

/-- A request that has been put to a session waits for it, or has been answered as the session has:
that a capability is missing just if the session lacks it for the query. -/
theorem Run.served (hv : start.received? n = some v) (htask : v.task = .serving call id k)
    (hs : start.sessions.get? id = some s) (hq : call.query? = some q)
    (hrun : start.Run history r) :
    (∃ s', r.sessions.get? id = some s' ∧ s'.interpreter = s.interpreter) ∧
      ∃ t, r.received? n = some { v with task := t } ∧
        (t = .serving call id k ∨ ∃ result, t = .done (Except.map call.answer result) ∧
          ∀ c, result = .error (.capabilityUnavailable c) ↔
            q.lacks s.interpreter = some c) := by
  induction hrun with
  | none => exact ⟨⟨s, hs, rfl⟩, v.task, hv, .inl htask⟩
  | @step history r r' e hrun hstep ih =>
      obtain ⟨⟨s', hs', hinterpreter⟩, t, ht, hstage⟩ := ih
      have hreached := hpast.append hrun
      obtain ⟨s'', hs'', hcontinues⟩ :=
        session_continues hreached.succession (step?_happens hstep) hs'
      refine ⟨⟨s'', hs'', hcontinues.interpreter.trans hinterpreter⟩, ?_⟩
      obtain ⟨t', ht', ⟨-, rfl⟩ | ⟨-, rest, hadvance, -⟩⟩ :=
        received?_step hreached.numbered hstep ht
      · exact ⟨_, ht', hstage⟩
      · refine ⟨t', ht', .inr ?_⟩
        obtain rfl | ⟨result, rfl, -⟩ := hstage
        · cases hadvance with
          | @collected _ _ _ _ w _ result hw hu hresult =>
              cases Option.some.inj (hs'.symm.trans hw)
              obtain ⟨-, w', u, hw', hu', hquery⟩ := (hreached.vouches ht).serving rfl
              cases Option.some.inj (hs'.symm.trans hw')
              cases Option.some.inj (hu.symm.trans hu')
              cases Option.some.inj (hq.symm.trans hquery)
              refine ⟨result, rfl, fun c => ?_⟩
              rw [← hinterpreter]
              exact (hreached.lived hs').unavailable_iff hu hresult
        · cases hadvance

end past

theorem firstStage_ne_unavailable {lifecycle : Lifecycle} {request : Request} {c : Capability} :
    firstStage lifecycle request ≠ .done (.error (.capabilityUnavailable c)) := by
  unfold firstStage
  split
  · exact nofun
  · cases hcall : Call.ofRequest request.method request.params with
    | error cause =>
        obtain ⟨-, reason, rfl⟩ | ⟨-, rfl⟩ := Call.ofRequest_error hcall <;> exact nofun
    | ok call => cases call <;> exact nofun

theorem usable_ne_unavailable {slot : Slot} {c : Capability} :
    slot.usable n ≠ .error (.capabilityUnavailable c) := by
  unfold Slot.usable
  split
  · split <;> exact nofun
  · exact nofun
  · exact nofun

theorem Advance.of_unavailable {t t' : Task} {rest : Router} {c : Capability}
    (hadvance : Advance r e n t rest t') (ht' : t' = .done (.error (.capabilityUnavailable c))) :
    ∃ call id k s w, t = .serving call id k ∧ r.sessions.get? id = some s ∧
      s.invocations[k]? = some w ∧ w.stage.result? = some (.error (.capabilityUnavailable c)) := by
  cases hadvance with
  | @collected _ _ _ _ _ _ result hs hw hresult =>
      cases result with
      | ok answer => cases ht'
      | error cause =>
          cases ht'
          exact ⟨_, _, _, _, _, rfl, hs, hw, hresult⟩
  | dispatched => exact (firstStage_ne_unavailable ht').elim
  | refused _ husable | refusedLate _ husable =>
      cases ht'
      exact (usable_ne_unavailable husable).elim
  | given _ _ hgiven | givenLate _ _ hgiven | created _ _ _ hgiven | createdLate hgiven =>
      subst ht'
      cases hgiven
  | _ => cases ht'

/-- Request `n` was given a session that tells that `c` is missing, and of what the query needs
nothing before it. -/
def Misses (history : List Moment) (r : Router) (n : Nat) (request : Request) (c : Capability) :
    Prop :=
  ∃ call q id s, request.Makes call ∧ call.query? = some q ∧ Moment.Gave history n id ∧
    r.sessions.get? id = some s ∧
    (q.needs.find? fun d => s.info.reports? d = some false) = some c

theorem Misses.happens {request : Request} {c : Capability} (h : Misses history r n request c)
    (hsuccession : Succession r) (hhappens : Happens r e r') :
    Misses (⟨r, e, r'⟩ :: history) r' n request c := by
  obtain ⟨call, q, id, s, hmakes, hq, hgave, hs, hfirst⟩ := h
  obtain ⟨s', hs', hcontinues⟩ := session_continues hsuccession hhappens hs
  refine ⟨call, q, id, s', hmakes, hq, hgave.cons, hs', ?_⟩
  rw [← s.lacks_eq_reported] at hfirst
  rw [← s'.lacks_eq_reported, hcontinues.interpreter, hfirst]

theorem Run.misses {settings : Settings} {resolver : Resolver} {lifecycle : Lifecycle}
    {c : Capability} (hrun : (Router.ofSettings settings resolver lifecycle).Run history r)
    (hv : r.received? n = some v) (hdone : v.task = .done (.error (.capabilityUnavailable c))) :
    Misses history r n v.request c := by
  refine hrun.invariant (P := fun history r => ∀ n v, r.received? n = some v →
    v.task = .done (.error (.capabilityUnavailable c)) → Misses history r n v.request c)
    (fun _ _ hv => by cases hv) ?_ n v hv hdone
  intro history r e r' hrun h hhappens n v hv hdone
  have hkept (hbefore : r.received? n = some v) :
      Misses (⟨r, e, r'⟩ :: history) r' n v.request c :=
    (h n v hbefore hdone).happens hrun.succession hhappens
  cases hhappens with
  | arrived =>
      obtain hnew | hbefore := received?_arrived hv
      · cases hnew.symm.trans hdone
      · exact hkept hbefore
  | advanced he ht hadvance =>
      obtain ⟨u, hu, rfl⟩ := exists_received ht
      obtain ⟨rfl, rfl⟩ | ⟨-, hbefore⟩ := hadvance.received? hu hv
      · obtain ⟨call, id, k, s, w, hserving, hs, hw, hresult⟩ := hadvance.of_unavailable hdone
        obtain ⟨hgave, s', w', hs', hw', hquery⟩ := (hrun.vouches hu).serving hserving
        cases Option.some.inj (hs.symm.trans hs')
        cases Option.some.inj (hw.symm.trans hw')
        have hsuits := hrun.fitting hu
        rw [hserving] at hsuits
        have hlacks := ((hrun.lived hs).unavailable_iff hw hresult).mp rfl
        rw [s.lacks_eq_reported] at hlacks
        exact Misses.happens ⟨call, w.query, id, s, hsuits.1, hquery, hgave, hs, hlacks⟩
          hrun.succession (.advanced he ht hadvance)
      · exact hkept hbefore
  | _ => exact hkept hv

/-- A request that needs a session, and comes in while the engine is ready and nobody keeps it from
the slot, gets to the session there: a call for the capabilities is answered with what is known of
that session, and any other is put to it. A request that has been put to a session is answered in the
end. Whatever happens until then, it is answered that a capability is missing just if the session
tells that one is missing of those that the query needs, and which one: the first of them. Only
hovering needs another than its own, which is completion, and before its own. Nothing else is
answered so. -/
theorem turned_away_as_told (settings : Settings) (resolver : Resolver) (lifecycle : Lifecycle)
    (hrun : (Router.ofSettings settings resolver lifecycle).Run history r) :
    (∀ {id}, r.lifecycle.isReady → r.slot.session = some id → r.slotHolder = none →
      ∃ s, r.sessions.get? id = some s ∧
        ∀ {request call} tracked, request.Makes call → call.needsSession →
          ∃ later r', r.Run later r' ∧
            later.map (·.event) = reaching r.nextArrival request tracked ∧
            (call = .capabilities →
              r'.response? r.nextArrival = some (.ofResult request.id (.ok s.info))) ∧
            (call ≠ .capabilities →
              ∃ k, r'.task? r.nextArrival = some (.serving call id k))) ∧
    (∀ {n v call id k s q}, r.received? n = some v → v.task = .serving call id k →
      r.sessions.get? id = some s → call.query? = some q →
      InTheEnd (fun r' => (r'.response? n).isSome) r ∧
      ∀ {later r' response}, r.Run later r' → r'.response? n = some response → ∀ c,
        response = .ofResult v.request.id (.error (.capabilityUnavailable c)) ↔
          (q.needs.find? fun d => s.info.reports? d = some false) = some c) ∧
    ∀ {n v c}, r.received? n = some v →
      r.response? n = some (.ofResult v.request.id (.error (.capabilityUnavailable c))) →
      Misses history r n v.request c := by
  refine ⟨fun {id} hready hid hfree => ?_, fun {n v call id k s q} hv htask hs hq =>
    ⟨hrun.inTheEnd hv fun _ hresponse => by rw [hresponse]; rfl,
      fun {later r' response} hlater hresponse c => ?_⟩, fun {n v c} hv hresponse => ?_⟩
  · obtain ⟨s, hs, -⟩ := hrun.succession.current_session hid
    refine ⟨s, hs, fun {request call} tracked hmakes hneeds => ?_⟩
    obtain ⟨later, r', middle, hlater, hevents, hsessions, rfl, hv⟩ :=
      hrun.reaches hready hid hfree tracked hmakes hneeds
    refine ⟨later, _, hlater, hevents, ?_, fun hother => ?_⟩
    · rintro rfl
      refine response?_eq_some.mpr ⟨_, _, received?_put_self hv _, rfl, ?_⟩
      rw [info_eq (hsessions ▸ hs)]
    · have hsome : call.query? ≠ none := by
        cases call with
        | completion | hover | format | diagnostics => simp [Call.query?]
        | capabilities => exact (hother rfl).elim
        | _ => cases hneeds
      obtain ⟨rest, t, hserve, hgiven⟩ := serve_given middle r.nextArrival call id
      have ht : rest.task? r.nextArrival = some (.wantsSession call) := by
        rw [hgiven.rest_eq]
        exact task?_of_received? hv
      rw [hserve, task?_put_self ht]
      cases hgiven with
      | asked => exact ⟨_, rfl⟩
      | told hnone =>
          rw [hsessions, hs] at hnone
          exact (hnone.elim hsome nofun).elim
  · obtain ⟨-, t, ht, hstage⟩ := Run.served hrun hv htask hs hq hlater
    obtain ⟨w, result, hw, hdone, rfl⟩ := response?_eq_some.mp hresponse
    cases Option.some.inj (ht.symm.trans hw)
    obtain hserving | ⟨answer, rfl, hunavailable⟩ := hstage
    · cases hdone.symm.trans hserving
    · cases hdone
      rw [← s.lacks_eq_reported, ← hunavailable, Response.ofResult_eq_unavailable]
      cases answer <;> simp [Except.map]
  · obtain ⟨w, result, hw, hdone, hresult⟩ := response?_eq_some.mp hresponse
    cases Option.some.inj (hv.symm.trans hw)
    rw [Response.ofResult_eq_unavailable.mp hresult.symm] at hdone
    exact hrun.misses hv hdone

namespace Trial

/-- Only the formatter's package is there. The first request makes the session, and the second asks
it what is at a place. -/
def hovering : List Event :=
  [ask, .dispatch 1, .look 1, .lock 1, .act 1 view, .probed 1 (.ok [.format]),
    .arrive ⟨.text "hover", "hover.get",
      .object [("path", .text "a.py"), ("buffer", .text "x"), ("offset", .ofNat 0)]⟩ true,
    .dispatch 2, .look 2]

/-- The session has neither of the capabilities that the second request needs. -/
theorem hovering_missing {s : Session} (hs : (Trial.start.play hovering).2.sessions.get? 1 = some s)
    (c : Capability) : s.info.reports? c = some false ↔ c ≠ .format := by
  have hfound : ((Trial.start.play hovering).2.sessions.get? 1).map (·.interpreter.capabilities) =
      some [.format] := by decide
  rw [hs] at hfound
  have hsupports : s.interpreter.capabilities = [.format] := Option.some.inj hfound
  rw [Session.reports?_info, Interpreter.supports, hsupports]
  cases c <;> decide

end Trial

theorem turned_away_as_told_hovering :
    ∃ history r s, Trial.start.Run history r ∧ r.sessions.get? 1 = some s ∧
      (∃ later r', r.Run later r' ∧
        r'.response? 3 = some (.ofResult (.text "told") (.ok s.info))) ∧
      s.info.reports? .hover = some false ∧
      InTheEnd (fun r' => (r'.response? 2).isSome) r ∧
      ∃ later r', r.Run later r' ∧ r'.response? 2 =
        some (.ofResult (.text "hover") (.error (.capabilityUnavailable .completion))) := by
  have hrun := run_play Trial.start Trial.hovering
  obtain ⟨hreaches, hserved, -⟩ := turned_away_as_told _ _ _ hrun
  obtain ⟨s, hs, htold⟩ := @hreaches 1 rfl rfl rfl
  obtain ⟨later, r', hlater, -, hcapabilities, -⟩ :=
    @htold ⟨.text "told", "capabilities", .null⟩ .capabilities true rfl rfl
  obtain ⟨hends, hanswers⟩ :=
    @hserved 2 _ (.hover ⟨⟨"a.py"⟩, "x", 0⟩) _ 0 _ _ rfl rfl hs rfl
  have hmissing := Trial.hovering_missing hs
  refine ⟨_, _, s, hrun, hs, ⟨later, r', hlater, hcapabilities rfl⟩, (hmissing .hover).mpr nofun,
    hends, _, _, run_play _ [.move 1 0 .check, .collect 2], ?_⟩
  obtain ⟨response, hresponse⟩ : ∃ response,
      ((Trial.start.play Trial.hovering).2.play [.move 1 0 .check, .collect 2]).2.response? 2 =
        some response := ⟨_, rfl⟩
  rw [hresponse, (hanswers (run_play _ _) hresponse .completion).mpr]
  simp [Query.needs, hmissing]

end Router

end CodeAssist
