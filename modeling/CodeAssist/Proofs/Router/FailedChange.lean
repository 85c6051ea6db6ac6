import CodeAssist.Proofs.Router.Erasure

namespace CodeAssist

/-! Changes of the environment that fail. -/

namespace Router

/-- An event at which change `n` fails: its root is not a folder, its selection stands for no
interpreter, or the interpreter does not answer as one should. -/
inductive Fails (r : Router) (n : Nat) : Event → Failure → Prop
  | notFolder {view : FileView} {p : WorkspaceParams}
      (ht : r.task? n = some (.locked (.workspaceSet p))) (hroot : view.isFolder p.root = false) :
      Fails r n (.act n view) (Router.notFolder p.root)
  | unchosen {view : FileView} {p : EnvironmentParams} {cause : EnvironmentFailure}
      (ht : r.task? n = some (.locked (.environmentSet p)))
      (hchoose : r.resolver.choose view p.selection (p.kind.or r.slot.kind) r.slot.root =
        .error cause) :
      Fails r n (.act n view) (.environment cause)
  | unusable {p : EnvironmentParams} {kind : Option Kind} {path : Path} {found : Kind}
      {cause : EnvironmentFailure} (ht : r.task? n = some (.changing p kind path found)) :
      Fails r n (.probed n (.error cause)) (.environment cause)

/-- What a failed change leaves behind: its own answer, and in the slot the reason for which there is
no session, if there was none. -/
structure Kept (r r' : Router) (n : Nat) (cause : Failure) : Prop where
  answered : r'.task? n = some (.done (.error cause))
  others : ∀ m ≠ n, r'.received? m = r.received? m
  sessions : r'.sessions = r.sessions
  nextSession : r'.nextSession = r.nextSession
  resolver : r'.resolver = r.resolver
  current : ∀ id, r'.slot.session = some id → r'.isRetired id = false
  slot : r.slot.session.isSome ∨ (∃ root, cause = notFolder root) → r'.slot = r.slot
  noted : ∀ reason, r.slot.session = none → cause = .environment reason →
    r'.slot = { r.slot with lastError := some reason }
  without : r'.without n = { r.without n with slot := r'.slot }

def failedSlot (slot : Slot) : Failure → Slot
  | .environment cause => slot.failedChange cause
  | _ => slot

variable {r r' : Router} {n : Nat} {e : Event} {cause : Failure}

theorem failedSlot_session (slot : Slot) (cause : Failure) :
    (failedSlot slot cause).session = slot.session := by
  unfold failedSlot
  split
  · exact Succession.session_failedChange ..
  · rfl

theorem Fails.step (hlocks : Locks r) (hfails : Fails r n e cause) :
    ∃ t, r.task? n = some t ∧ isPending t ∧ t.holdsEnvironment ∧
      r.step? e = some ({ r with slot := failedSlot r.slot cause }.unlock.put n
        (.done (.error cause))) := by
  cases hfails with
  | notFolder ht hroot =>
      refine ⟨_, ht, rfl, rfl, ?_⟩
      simp only [step?, act, ht, hroot]
      exact congrArg some (unlock_put _ _ _)
  | unchosen ht hchoose =>
      refine ⟨_, ht, rfl, rfl, ?_⟩
      have hfree := hlocks.slotHolder_eq_none ht rfl rfl
      simp only [step?, act, ht, hfree, startChange, Resolver.start, hchoose]
      exact congrArg some (unlock_put _ _ _)
  | unusable ht =>
      refine ⟨_, ht, rfl, rfl, ?_⟩
      simp only [step?, probed, ht, Resolver.finish]
      exact congrArg some (unlock_put _ _ _)

theorem Succession.not_retired (h : Succession r) {id : Nat} (hid : r.slot.session = some id) :
    r.isRetired id = false := by
  obtain ⟨_, _, f, hf, hretired, _⟩ := h.current hid
  obtain ⟨s, hs, rfl⟩ := Option.map_eq_some_iff.mp hf
  have hsession : s.retired = none := hretired
  simp [isRetired, hs, hsession]

theorem Fails.kept (hlocks : Locks r) (hsuccession : Succession r)
    (hfails : Fails r n e cause) : ∃ r', r.step? e = some r' ∧ Kept r r' n cause := by
  obtain ⟨t, ht, _, hholds, hstep⟩ := hfails.step hlocks
  refine ⟨_, hstep, ?_⟩
  have hbefore : { r with slot := failedSlot r.slot cause }.unlock.task? n = some t := ht
  have hsession : ({ r with slot := failedSlot r.slot cause }.unlock.put n
      (.done (.error cause))).slot.session = r.slot.session :=
    (congrArg Slot.session (put_slot ..)).trans (failedSlot_session r.slot cause)
  exact {
    answered := task?_put_self hbefore _
    others := fun m hm => received?_put_of_ne hm _ _
    sessions := put_sessions ..
    nextSession := put_nextSession ..
    resolver := put_resolver ..
    current := by
      intro id hid
      rw [isRetired, put_sessions]
      exact hsuccession.not_retired (hsession.symm.trans hid)
    slot := by
      rw [put_slot]
      rintro (hsome | ⟨root, rfl⟩)
      · cases hfails with
        | notFolder => rfl
        | unchosen | unusable => exact if_pos hsome
      · rfl
    noted := by
      rintro reason hnone rfl
      rw [put_slot]
      exact if_neg (by simp [hnone])
    without := by
      rw [put_without_self, put_slot]
      exact congrArg (fun q : Router => { q with slot := failedSlot r.slot cause })
        (unlock_without_self hlocks ht hholds) }

/-- There is no session for a reason. -/
structure Vacant (r : Router) (reason : EnvironmentFailure) : Prop where
  session : r.slot.session = none
  lastError : r.slot.lastError = some reason

end Router

def Moment.Settles (m : Moment) : Prop :=
  (∃ n reason, m.before.Fails n m.event (.environment reason)) ∨
  ∃ n p kind path found capabilities,
    m.before.task? n = some (.changing p kind path found) ∧ m.event = .probed n (.ok capabilities)

namespace Router

variable {r r' : Router} {n : Nat} {e : Event} {reason : EnvironmentFailure}

namespace Vacant

theorem usable (h : Vacant r reason) (n : Nat) :
    r.slot.usable n = .error (.environment (.noSession reason.message)) := by
  rw [Slot.usable, h.session, h.lastError]

theorem not_usable (h : Vacant r reason) {session : Option Nat}
    (husable : r.slot.usable n = .ok session) : False := by
  cases (h.usable n).symm.trans husable

theorem put {rest : Router} (h : Vacant rest reason) (t : Task) : Vacant (rest.put n t) reason :=
  ⟨by rw [put_slot, h.session], by rw [put_slot, h.lastError]⟩

theorem happens (h : Vacant r reason) (hsuccession : Succession r) (hhappens : Happens r e r')
    (hnot : ¬Moment.Settles ⟨r, e, r'⟩) : Vacant r' reason := by
  cases hhappens with
  | advanced he ht hadvance =>
      refine put ?_ _
      cases hadvance with
      | unchosen _ hstart =>
          exact (hnot (.inl ⟨_, _, .unchosen ht (Resolver.choose_of_failed hstart)⟩)).elim
      | unusable => exact (hnot (.inl ⟨_, _, .unusable ht⟩)).elim
      | switched | switchedFirst => exact (hnot (.inr ⟨_, _, _, _, _, _, ht, rfl⟩)).elim
      | moved _ hcurrent => simp [h.session] at hcurrent
      | given _ husable => exact (h.not_usable husable).elim
      | givenLate _ husable => exact (h.not_usable husable).elim
      | created _ husable => exact (h.not_usable husable).elim
      | createdLate =>
          have hnone := (hsuccession.vacant ht).2
          cases h.lastError.symm.trans hnone
      | _ => exact ⟨h.session, h.lastError⟩
  | drainTakes _ _ hsession => cases h.session.symm.trans hsession
  | _ => exact ⟨h.session, h.lastError⟩

/-- A change of the interpreter that is settled leaves another reason, or a session. -/
theorem settled (h : Vacant r reason) (hlocks : Locks r) (hsuccession : Succession r)
    (hstep : r.step? e = some r') (hsettles : Moment.Settles ⟨r, e, r'⟩) :
    (∃ n reason', Fails r n e (.environment reason') ∧ Vacant r' reason') ∨
      r'.slot.session = some r.nextSession ∧ r'.slot.lastError = none := by
  obtain ⟨n, reason', hfails⟩ | ⟨n, p, kind, path, found, capabilities, ht, he⟩ := hsettles
  · obtain ⟨next, hnext, hkept⟩ := hfails.kept hlocks hsuccession
    cases Option.some.inj (hstep.symm.trans hnext)
    have hslot := hkept.noted reason' h.session rfl
    exact .inl ⟨n, reason', hfails, by rw [hslot]; exact h.session, by rw [hslot]⟩
  · cases step?_happens hstep with
    | advanced he' ht' hadvance =>
        cases he
        cases he'
        cases Option.some.inj (ht.symm.trans ht')
        cases hadvance with
        | switched hold => cases h.session.symm.trans hold
        | switchedFirst => exact .inr ⟨by rw [put_slot]; rfl, by rw [put_slot]; rfl⟩
    | drainWaits he' =>
        cases he
        cases he'
    | _ => cases he

end Vacant

/-- Request `k` waits to read the slot, or has been told that there is no session and why. -/
def Turned (r : Router) (k : Nat) (id : Json) (call : Call) (reason : EnvironmentFailure) : Prop :=
  ∃ v, r.received? k = some v ∧ v.request.id = id ∧ (v.task = .wantsSession call ∨
    v.task = .done (.error (.environment (.noSession reason.message))))

end Router

/-- Request `k`, which makes a call that needs a session, is looked at while the engine is ready. -/
def Moment.Asks (m : Moment) (k : Nat) (id : Json) (call : Call) : Prop :=
  m.event = .dispatch k ∧ m.before.lifecycle.isReady ∧ call.needsSession ∧
    ∃ v, m.before.received? k = some v ∧ v.request.id = id ∧
      Call.ofRequest v.request.method v.request.params = .ok call

namespace Router

variable {r r' : Router} {e : Event} {reason : EnvironmentFailure} {k : Nat} {id : Json}
  {call : Call}

theorem firstStage_eq {lifecycle : Lifecycle} {request : Request} (hready : lifecycle.isReady)
    (hcall : Call.ofRequest request.method request.params = .ok call)
    (hneeds : call.needsSession) : firstStage lifecycle request = .wantsSession call := by
  unfold firstStage
  rw [hcall, hready]
  cases call with
  | ping | shutdown | environmentSet | workspaceSet => cases hneeds
  | _ => simp [Call.affectsEnvironment]

theorem received?_of_asks (hnumbered : Numbered r) (hstep : r.step? e = some r')
    (hasks : Moment.Asks ⟨r, e, r'⟩ k id call) :
    ∃ v, r'.received? k = some v ∧ v.request.id = id ∧ v.task = .wantsSession call := by
  obtain ⟨rfl, hready, hneeds, v, hv, hid, hcall⟩ := hasks
  obtain ⟨t, ht, ⟨hother, _⟩ | ⟨_, rest, hadvance, _⟩⟩ := received?_step hnumbered hstep hv
  · exact (hother rfl).elim
  · refine ⟨_, ht, hid, ?_⟩
    generalize v.task = before at hadvance
    cases hadvance with
    | dispatched hv' =>
        cases Option.some.inj (hv.symm.trans hv')
        exact firstStage_eq hready hcall hneeds
    | drained he => simp at he

theorem Turned.step (h : Turned r k id call reason) (hvacant : Vacant r reason)
    (hnumbered : Numbered r) (hstep : r.step? e = some r') : Turned r' k id call reason := by
  obtain ⟨v, hv, hid, hstage⟩ := h
  obtain ⟨t, ht, ⟨_, rfl⟩ | ⟨_, rest, hadvance, _⟩⟩ := received?_step hnumbered hstep hv
  · exact ⟨_, ht, hid, hstage⟩
  · refine ⟨_, ht, hid, ?_⟩
    obtain hwants | hdone := hstage
    · rw [hwants] at hadvance
      cases hadvance with
      | refused _ husable =>
          cases (hvacant.usable k).symm.trans husable
          exact .inr rfl
      | absent _ husable => exact (hvacant.not_usable husable).elim
      | given _ husable => exact (hvacant.not_usable husable).elim
    · rw [hdone] at hadvance
      cases hadvance

/-- The answer of a request that finds no session because of a reason. -/
def refusal (id : Json) (reason : EnvironmentFailure) : Response :=
  .failure id .environment ("environment error: " ++ ("no active environment: " ++ reason.message))

theorem Vacant.holder (hvacant : Vacant r reason) (hlocks : Locks r) (hsuccession : Succession r)
    {n : Nat} (hheld : r.slotHolder = some n) :
    ∃ p kind path found, r.task? n = some (.changing p kind path found) := by
  obtain ⟨t, ht, hholds⟩ := hlocks.slotHeld hheld
  cases t with
  | changing p kind path found => exact ⟨p, kind, path, found, ht⟩
  | probing =>
      have hnone := (hsuccession.vacant ht).2
      cases hvacant.lastError.symm.trans hnone
  | _ => cases hholds

section run

variable {settings : Settings} {resolver : Resolver} {lifecycle : Lifecycle}
  {past history : List Moment} {start : Router}
  (hpast : (Router.ofSettings settings resolver lifecycle).Run past start)

include hpast

end run

end Router

end CodeAssist
