import CodeAssist.Proofs.Router.Answering
import CodeAssist.Proofs.Router.FailedChange
import CodeAssist.Proofs.Router.Progress

namespace CodeAssist

open Moment (Gave)

/-! The first session is made once. Requests find the slot empty, one after the other take the
environment lock, and look at the slot a second time before they make a session. -/

namespace Task

/-- Whether a request at a stage is changing the environment. -/
def alters : Task → Bool
  | .locked (.environmentSet _) | .locked (.workspaceSet _) | .moving _ | .changing _ _ _ _ => true
  | _ => false

/-- Whether a request at a stage has still to be given a session. -/
def seeks : Task → Bool
  | .wantsSession _ | .wantsCreation _ | .creating _ | .probing _ _ _ => true
  | _ => false

end Task

/-- Who made a first session, and which. -/
def Deed.created? : Deed → Option (Nat × Nat)
  | .created n id => some (n, id)
  | .switched _ _ | .moved _ _ _ | .rooted _ | .given _ _ | .refused _ => none

namespace Moment

/-- Whether a step is one of a change of the environment, or takes the session out of the slot. -/
def disturbs (m : Moment) : Bool :=
  match m.event with
  | .drainTake => true
  | e => (e.request?.bind m.before.task?).any Task.alters

def creations (history : List Moment) : List (Nat × Nat) :=
  (deeds history).filterMap Deed.created?

variable {m : Moment} {history : List Moment}

theorem disturbs_eq {n : Nat} {t : Task} (he : m.event.request? = some n)
    (ht : m.before.task? n = some t) : m.disturbs = t.alters := by
  unfold disturbs
  split
  · rename_i hevent
    rw [hevent] at he
    cases he
  · rw [he, Option.bind_some, ht]
    rfl

theorem creations_cons_created {n id : Nat} (hdeed : m.deed? = some (.created n id)) :
    creations (m :: history) = (n, id) :: creations history := by
  simp [creations, deeds, hdeed, Deed.created?]

theorem creations_cons (hdeed : ∀ n id, m.deed? ≠ some (.created n id)) :
    creations (m :: history) = creations history := by
  unfold creations deeds
  cases hd : m.deed? with
  | none => rw [List.filterMap_cons_none hd]
  | some d =>
      rw [List.filterMap_cons_some hd]
      cases d with
      | created n id => exact (hdeed n id hd).elim
      | switched | moved | rooted | given | refused => rfl

theorem Gave.append {n id : Nat} {later earlier : List Moment} (hgave : Gave later n id) :
    Gave (later ++ earlier) n id := by
  simp only [Gave, deeds, List.filterMap_append, List.mem_append] at hgave ⊢
  exact hgave.imp .inl .inl

end Moment

namespace Router

variable {r r' start : Router} {e : Event} {n k : Nat} {history : List Moment}

/-- A step that makes no session. -/
structure Keeps (r r' : Router) : Prop where
  slot : r'.slot = r.slot
  nextSession : r'.nextSession = r.nextSession

/-- A step that makes the first session. -/
structure Creates (r : Router) (e : Event) (r' : Router) (n : Nat) : Prop where
  deed : Moment.deed? ⟨r, e, r'⟩ = some (.created n r.nextSession)
  session : r.slot.session = none
  slot : r'.slot = { r.slot with session := some r.nextSession }
  nextSession : r'.nextSession = r.nextSession + 1

theorem Creates.of_places (hsuccession : Succession r) {t : Task} (he : e.request? = some n)
    (ht : r.task? n = some t) (hstage : (∃ call, t = .creating call) ∨
      ∃ call path found, t = .probing call path found) (hnone : r.slot.session = none)
    {interpreter : Interpreter} (hplaces : Places r r' interpreter r.slot) : Creates r e r' n where
  deed := by
    rw [Moment.deed?_eq he ht]
    obtain ⟨call, rfl⟩ | ⟨call, path, found, rfl⟩ := hstage
    · rw [Moment.deedAt?, hsuccession.placed?_of_places hplaces]
      rfl
    · rw [Moment.deedAt?, hsuccession.placed?_of_places hplaces]
      rfl
  session := hnone
  slot := hplaces.slot
  nextSession := hplaces.nextSession

theorem keeps_or_creates (hsuccession : Succession r) (hhappens : Happens r e r')
    (hcalm : Moment.disturbs ⟨r, e, r'⟩ = false) : Keeps r r' ∨ ∃ n, Creates r e r' n := by
  cases hhappens with
  | advanced he ht hadvance =>
      rename_i n t t' rest
      rw [Moment.disturbs_eq he ht] at hcalm
      have hkeeps (hslot : rest.slot = r.slot) (hnext : rest.nextSession = r.nextSession) :
          Keeps r (rest.put n t') := ⟨(put_slot ..).trans hslot, (put_nextSession ..).trans hnext⟩
      cases hadvance with
      | notFolder | moving | unchosen | changing | unusable | switched | switchedFirst | rooted
      | moved => cases hcalm
      | given _ _ hgiven => exact .inl (hkeeps (by rw [hgiven.rest_eq]) (by rw [hgiven.rest_eq]))
      | givenLate _ _ hgiven =>
          exact .inl (hkeeps (by rw [hgiven.rest_eq]; rfl) (by rw [hgiven.rest_eq]; rfl))
      | created _ husable _ hgiven =>
          exact .inr ⟨n, .of_places hsuccession he ht (.inl ⟨_, rfl⟩)
            (Succession.usable_eq_none husable).1 (hsuccession.places_given hgiven n)⟩
      | createdLate hgiven =>
          exact .inr ⟨n, .of_places hsuccession he ht (.inr ⟨_, _, _, rfl⟩)
            (hsuccession.vacant ht).1 (hsuccession.places_given hgiven n)⟩
      | _ => exact .inl (hkeeps rfl rfl)
  | drainTakes => cases hcalm
  | _ => exact .inl ⟨rfl, rfl⟩

/-- How far the making of the first session has got: the slot is still as it was, or one request has
put a session there. -/
inductive Progress (start : Router) (history : List Moment) (r : Router) : Prop
  | empty (hslot : r.slot = start.slot) (hnext : r.nextSession = start.nextSession)
      (hcreations : Moment.creations history = []) (hgave : ∀ k id, ¬Gave history k id)
  | made (n : Nat) (hslot : r.slot = { start.slot with session := some start.nextSession })
      (hnext : r.nextSession = start.nextSession + 1)
      (hcreations : Moment.creations history = [(n, start.nextSession)])
      (hgave : ∀ k id, Gave history k id → id = start.nextSession)

namespace Progress

theorem not_created (hkeeps : Keeps r r') (heffect : Effect r (Moment.deed? ⟨r, e, r'⟩) r')
    (n id : Nat) : Moment.deed? ⟨r, e, r'⟩ ≠ some (.created n id) := by
  intro hdeed
  rw [hdeed] at heffect
  have hnext := Ledger.created_of_effect heffect
  have hsame := hkeeps.nextSession
  omega

theorem kept (h : Progress start history r) (hempty : start.slot.session = none)
    (hkeeps : Keeps r r') (heffect : Effect r (Moment.deed? ⟨r, e, r'⟩) r') :
    Progress start (⟨r, e, r'⟩ :: history) r' := by
  have hnot := not_created hkeeps heffect
  have hgiven {k id : Nat} (hgave : Gave (⟨r, e, r'⟩ :: history) k id) :
      r.slot.session = some id ∨ Gave history k id := by
    obtain hdeed | hdeed | hbefore := Moment.gave_cons.mp hgave
    · rw [hdeed] at heffect
      exact .inl (Ledger.given_of_effect heffect).1
    · exact (hnot k id hdeed).elim
    · exact .inr hbefore
  cases h with
  | empty hslot hnext hcreations hgave =>
      refine .empty (hkeeps.slot.trans hslot) (hkeeps.nextSession.trans hnext)
        ((Moment.creations_cons hnot).trans hcreations) fun k id hnow => ?_
      obtain hsession | hbefore := hgiven hnow
      · rw [hslot, hempty] at hsession
        cases hsession
      · exact hgave k id hbefore
  | made n hslot hnext hcreations hgave =>
      refine .made n (hkeeps.slot.trans hslot) (hkeeps.nextSession.trans hnext)
        ((Moment.creations_cons hnot).trans hcreations) fun k id hnow => ?_
      obtain hsession | hbefore := hgiven hnow
      · rw [hslot] at hsession
        exact (Option.some.inj hsession).symm
      · exact hgave k id hbefore

theorem created (h : Progress start history r) (hcreates : Creates r e r' n) :
    Progress start (⟨r, e, r'⟩ :: history) r' := by
  cases h with
  | empty hslot hnext hcreations hgave =>
      refine .made n ?_ ?_ ?_ fun k id hnow => ?_
      · rw [hcreates.slot, hslot, hnext]
      · rw [hcreates.nextSession, hnext]
      · rw [Moment.creations_cons_created hcreates.deed, hcreations, hnext]
      · obtain hdeed | hdeed | hbefore := Moment.gave_cons.mp hnow
        · cases Option.some.inj (hcreates.deed.symm.trans hdeed)
        · cases Option.some.inj (hcreates.deed.symm.trans hdeed)
          exact hnext
        · exact (hgave k id hbefore).elim
  | made _ hslot =>
      -- Who makes a session has found the slot empty once more.
      have hsession := hcreates.session
      rw [hslot] at hsession
      cases hsession

theorem slot_eq (h : Progress start history r) :
    r.slot = { start.slot with session := r.slot.session } := by
  cases h with
  | empty hslot => rw [hslot]
  | made _ hslot => rw [hslot]

theorem session_eq (h : Progress start history r) (hempty : start.slot.session = none) {id : Nat}
    (hid : r.slot.session = some id) : id = start.nextSession := by
  cases h with
  | empty hslot =>
      rw [hslot, hempty] at hid
      cases hid
  | made _ hslot =>
      rw [hslot] at hid
      exact (Option.some.inj hid).symm

end Progress

section run

variable {settings : Settings} {resolver : Resolver} {lifecycle : Lifecycle}
  {past history : List Moment}
  (hpast : (Router.ofSettings settings resolver lifecycle).Run past start)

include hpast

theorem progress_of_run (hempty : start.slot.session = none) (hrun : start.Run history r)
    (hcalm : ∀ m ∈ history, m.disturbs = false) : Progress start history r := by
  induction hrun with
  | none => exact .empty rfl rfl rfl fun k id => Moment.not_gave_nil
  | step hrun hstep ih =>
      have hsuccession := (hpast.append hrun).succession
      have hbefore := ih fun m hm => hcalm m (List.mem_cons_of_mem _ hm)
      have hhappens := step?_happens hstep
      obtain hkeeps | ⟨n, hcreates⟩ :=
        keeps_or_creates hsuccession hhappens (hcalm _ List.mem_cons_self)
      · exact hbefore.kept hempty hkeeps (hsuccession.effect hhappens)
      · exact hbefore.created hcreates

theorem madeIn_of_progress (hrun : start.Run history r) (hprogress : Progress start history r) :
    Moment.madeIn history = (Moment.creations history).map Prod.snd := by
  have hall := (hpast.append hrun).madeIn_eq
  have hbefore := hpast.madeIn_eq
  have hpos := hpast.succession.one_le
  obtain ⟨size, hsize⟩ : ∃ size, start.nextSession = size + 1 := ⟨start.nextSession - 1, by omega⟩
  rw [Moment.madeIn, List.reverse_append, List.flatMap_append] at hall
  change Moment.madeIn past ++ Moment.madeIn history = _ at hall
  rw [hbefore, hsize, Nat.add_sub_cancel] at hall
  cases hprogress with
  | empty hslot hnext hcreations =>
      rw [hnext, hsize, Nat.add_sub_cancel] at hall
      rw [hcreations]
      simpa using hall
  | made n hslot hnext hcreations =>
      rw [hnext, hsize, Nat.add_sub_cancel, List.range'_1_concat] at hall
      rw [hcreations, List.append_cancel_left hall, hsize, Nat.add_comm]
      rfl

end run

/-- An event at which request `n`, which would make the first session, fails to: its selection stands
for no interpreter, or the interpreter does not answer as one should. -/
inductive Unresolved (r : Router) (n : Nat) : Event → EnvironmentFailure → Prop
  | unchosen {view : FileView} {call : Call} {cause : EnvironmentFailure}
      (ht : r.task? n = some (.creating call)) (husable : r.slot.usable n = .ok none)
      (hstart : r.resolver.start view r.slot.selection r.slot.kind r.slot.root false =
        .failed cause) :
      Unresolved r n (.act n view) cause
  | unusable {call : Call} {path : Path} {found : Kind} {cause : EnvironmentFailure}
      (ht : r.task? n = some (.probing call path found)) :
      Unresolved r n (.probed n (.error cause)) cause

theorem Unresolved.vacant (hsuccession : Succession r) {cause : EnvironmentFailure}
    (h : Unresolved r n e cause) : r.slot.session = none ∧ r.slot.lastError = none := by
  cases h with
  | unchosen _ husable => exact Succession.usable_eq_none husable
  | unusable ht => exact hsuccession.vacant ht

/-- Request `n` has been put to session `id`, or told what is known of that session. -/
def Serves (r : Router) (id n : Nat) : Prop :=
  ∃ s, r.sessions.get? id = some s ∧
    ((∃ call k, r.task? n = some (.serving call id k)) ∨ r.task? n = some (.done (.ok s.info)))

theorem Given.serves {rest : Router} {call : Call} {id : Nat} {t' : Task}
    (hgiven : Given r call id rest t') (hfiled : r.sessions.Filed)
    (hsome : (r.sessions.get? id).isSome) (hsessions : r'.sessions = rest.sessions)
    (ht : r'.task? n = some t') : r'.Serves id n := by
  cases hgiven with
  | @asked q s _ hs =>
      have hid : s.id = id := hfiled hs
      refine ⟨s.start q, ?_, .inl ⟨_, _, ht⟩⟩
      rw [hsessions, ← hid]
      exact Table.lookup_put_self ..
  | told =>
      obtain ⟨s, hs⟩ := Option.isSome_iff_exists.mp hsome
      exact ⟨s, hsessions ▸ hs, .inr (by rw [ht, info_eq hs])⟩

/-- What has become of request `k`, which asked for a session: it still waits, it was given the one
session there is and put to it, or it was told that its own attempt to make one has failed. -/
inductive Fate (history : List Moment) (session : Nat) (r : Router) (k : Nat) : Prop
  | seeks {t : Task} (ht : r.task? k = some t) (hseeks : t.seeks)
  | given {m : Moment} (hm : m ∈ history) (hserves : m.after.Serves session k)
      (hgave : Gave history k session)
  | failed {m : Moment} {cause : EnvironmentFailure} (hm : m ∈ history)
      (hunresolved : m.before.Unresolved k m.event cause)
      (hdone : r.task? k = some (.done (.error (.environment cause))))

theorem usable_ok (hlast : r.slot.lastError = none) (hsince : r.slot.since ≤ k) :
    r.slot.usable k = .ok r.slot.session := by
  unfold Slot.usable
  rw [hlast]
  cases r.slot.session with
  | none => rfl
  | some id => exact if_neg (Nat.not_lt.mpr hsince)

theorem Creates.gave (hcreates : Creates r e r' n) :
    Gave (⟨r, e, r'⟩ :: history) n r.nextSession :=
  Moment.gave_cons.mpr (.inr (.inl hcreates.deed))

/-- A request that waits for a session and finds no reason not to have one goes on waiting, is given
the session in the slot or makes one, or fails to. -/
theorem seeks_advance (history : List Moment) (hsuccession : Succession r)
    (hlast : r.slot.lastError = none) (hsince : r.slot.since ≤ k) (he : e.request? = some k)
    {t t' : Task} {rest : Router}
    (ht : r.task? k = some t) (hseeks : t.seeks) (hadvance : Advance r e k t rest t')
    (ht' : (rest.put k t').task? k = some t') :
    t'.seeks ∨
    (∃ id, Gave (⟨r, e, rest.put k t'⟩ :: history) k id ∧
      (rest.put k t').slot.session = some id ∧ (rest.put k t').Serves id k) ∨
    ∃ cause, Unresolved r k e cause ∧ t' = .done (.error (.environment cause)) := by
  have husable := usable_ok hlast hsince
  have hdeed := Moment.deed?_eq (m := ⟨r, e, rest.put k t'⟩) he ht
  cases hadvance with
  | creating | absent | probing => exact .inl rfl
  | refused _ hrefused => cases husable.symm.trans hrefused
  | refusedLate _ hrefused => cases husable.symm.trans hrefused
  | given _ hid hgiven =>
      have hgave := hdeed.trans (reading?_some hid)
      refine .inr (.inl ⟨_, Moment.gave_cons.mpr (.inl hgave), ?_, ?_⟩)
      · rw [put_slot, hgiven.rest_eq]
        exact (Ledger.usable_eq_some hid).1
      · exact hgiven.serves hsuccession.sessions_filed (hsuccession.isSome_of_usable hid)
          (put_sessions ..) ht'
  | givenLate _ hid hgiven =>
      have hsame := (hgiven.same hsuccession.sessions_filed).trans (.unlock _ k t')
      rw [deedAt?_creating hsame.slot, reading?_some hid] at hdeed
      refine .inr (.inl ⟨_, Moment.gave_cons.mpr (.inl hdeed), ?_, ?_⟩)
      · rw [hsame.slot]
        exact (Ledger.usable_eq_some hid).1
      · exact hgiven.serves hsuccession.sessions_filed (hsuccession.isSome_of_usable hid)
          (put_sessions ..) ht'
  | unresolved _ hnone hstart => exact .inr (.inr ⟨_, .unchosen ht hnone hstart, rfl⟩)
  | unprobed => exact .inr (.inr ⟨_, .unusable ht, rfl⟩)
  | created _ hnone _ hgiven =>
      have hcreates := Creates.of_places hsuccession he ht (.inl ⟨_, rfl⟩)
        (Succession.usable_eq_none hnone).1 (hsuccession.places_given hgiven k)
      exact .inr (.inl ⟨_, hcreates.gave, by rw [hcreates.slot],
        hgiven.serves (hsuccession.install_filed _ _) isSome_install (put_sessions ..) ht'⟩)
  | createdLate hgiven =>
      have hcreates := Creates.of_places hsuccession he ht (.inr ⟨_, _, _, rfl⟩)
        (hsuccession.vacant ht).1 (hsuccession.places_given hgiven k)
      exact .inr (.inl ⟨_, hcreates.gave, by rw [hcreates.slot],
        hgiven.serves (hsuccession.install_filed _ _) isSome_install (put_sessions ..) ht'⟩)
  | _ => cases hseeks

theorem Fate.step (h : Fate history start.nextSession r k) (hempty : start.slot.session = none)
    (hlast : start.slot.lastError = none) (hsince : start.slot.since ≤ k)
    (hnumbered : Numbered r) (hsuccession : Succession r) (hprogress : Progress start history r)
    (hafter : Progress start (⟨r, e, r'⟩ :: history) r') (hstep : r.step? e = some r') :
    Fate (⟨r, e, r'⟩ :: history) start.nextSession r' k := by
  cases h with
  | seeks ht hseeks =>
      obtain ⟨v, hv, rfl⟩ := exists_received ht
      obtain ⟨t', hv', ⟨_, rfl⟩ | ⟨hown, rest, hadvance, rfl⟩⟩ := received?_step hnumbered hstep hv
      · exact .seeks (task?_of_received? hv') hseeks
      · have hslot := hprogress.slot_eq
        have hlast' : r.slot.lastError = none := by rw [hslot]; exact hlast
        have hsince' : r.slot.since ≤ k := by rw [hslot]; exact hsince
        obtain hlater | ⟨id, hgave, hid, hserves⟩ | ⟨cause, hunresolved, rfl⟩ :=
          seeks_advance _ hsuccession hlast' hsince' hown ht hseeks hadvance
            (task?_of_received? hv')
        · exact .seeks (task?_of_received? hv') hlater
        · cases hafter.session_eq hempty hid
          exact .given List.mem_cons_self hserves hgave
        · exact .failed List.mem_cons_self hunresolved (task?_of_received? hv')
  | given hm hserves hgave => exact .given (List.mem_cons_of_mem _ hm) hserves hgave.cons
  | failed hm hunresolved hdone =>
      exact .failed (List.mem_cons_of_mem _ hm) hunresolved (done_step hnumbered hdone hstep).2

/-- Request `k` waits for a session at the start, or is looked at later and sent to wait for one. -/
def Asking (start : Router) (history : List Moment) (k : Nat) : Prop :=
  (∃ t, start.task? k = some t ∧ t.seeks) ∨ ∃ m ∈ history, ∃ id call, m.Asks k id call

section run

variable {settings : Settings} {resolver : Resolver} {lifecycle : Lifecycle}
  {past history : List Moment}
  (hpast : (Router.ofSettings settings resolver lifecycle).Run past start)

include hpast

theorem fate_of_asking (hempty : start.slot.session = none) (hlast : start.slot.lastError = none)
    (hrun : start.Run history r) (hcalm : ∀ m ∈ history, m.disturbs = false)
    (hasking : Asking start history k) (hsince : start.slot.since ≤ k) :
    Fate history start.nextSession r k := by
  induction hrun with
  | none =>
      obtain ⟨t, ht, hseeks⟩ | ⟨m, hm, _⟩ := hasking
      · exact .seeks ht hseeks
      · cases hm
  | step hrun hstep ih =>
      have hreached := hpast.append hrun
      have hbefore (m : Moment) (hm : m ∈ _) := hcalm m (List.mem_cons_of_mem _ hm)
      have hprogress := progress_of_run hpast hempty hrun hbefore
      have hafter := progress_of_run hpast hempty (hrun.step hstep) hcalm
      have hkept (h : Asking start _ k) :=
        (ih hbefore h).step hempty hlast hsince hreached.numbered hreached.succession hprogress
          hafter hstep
      obtain hwaits | ⟨m, hm, id, call, hasks⟩ := hasking
      · exact hkept (.inl hwaits)
      · obtain rfl | hm := List.mem_cons.mp hm
        · obtain ⟨v, hv, _, hwants⟩ := received?_of_asks hreached.numbered hstep hasks
          exact .seeks (task?_of_received? hv) (by rw [hwants]; rfl)
        · exact hkept (.inr ⟨m, hm, id, call, hasks⟩)

end run

theorem Succession.slot_kept (h : Succession r) (hhappens : Happens r e r') {id : Nat}
    (hid : r.slot.session = some id) (hid' : r'.slot.session = some id) : r'.slot = r.slot := by
  have hplaces {interpreter : Interpreter} {base : Slot} (hp : Places r r' interpreter base) :
      r'.slot = r.slot := by
    rw [hp.slot] at hid'
    have hlast := (h.current hid).1
    have hnew := Option.some.inj hid'
    omega
  have heffect := h.effect hhappens
  generalize Moment.deed? ⟨r, e, r'⟩ = deed at heffect
  cases heffect with
  | same hsame | given _ hsame | refused _ hsame => exact hsame.slot
  | failed hslot =>
      rw [hslot, Slot.failedChange, hid]
      rfl
  | retired _ _ _ hslot => exact hslot
  | taken _ hslot =>
      rw [hslot] at hid'
      cases hid'
  | rooted hnone | created hnone => cases hnone.symm.trans hid
  | switched hp | moved _ _ _ hp => exact hplaces hp

/-- A request that waits for a session while there is one waits on after a step, or is put to it. -/
theorem seeks_step (hsuccession : Succession r) (hnumbered : Numbered r) {id : Nat}
    (hid : r.slot.session = some id) (hsince : r.slot.since ≤ k) {t : Task}
    (ht : r.task? k = some t) (hseeks : t.seeks) (hstep : r.step? e = some r') :
    (∃ t', r'.task? k = some t' ∧ t'.seeks) ∨ r'.Serves id k := by
  have hlast := (hsuccession.current hid).2.1
  obtain ⟨v, hv, rfl⟩ := exists_received ht
  obtain ⟨t', hv', ⟨-, rfl⟩ | ⟨hown, rest, hadvance, rfl⟩⟩ := received?_step hnumbered hstep hv
  · exact .inl ⟨_, task?_of_received? hv', hseeks⟩
  · have ht' := task?_of_received? hv'
    obtain hlater | ⟨id', hgave, -, hserves⟩ | ⟨cause, hunresolved, -⟩ :=
      seeks_advance [] hsuccession hlast hsince hown ht hseeks hadvance ht'
    · exact .inl ⟨t', ht', hlater⟩
    · have heffect := hsuccession.effect (step?_happens hstep)
      obtain hdeed | hdeed | hnone := Moment.gave_cons.mp hgave
      · rw [hdeed] at heffect
        cases hid.symm.trans (Ledger.given_of_effect heffect).1
        exact .inr hserves
      · rw [hdeed] at heffect
        cases heffect with
        | created hnone => cases hnone.symm.trans hid
      · exact (Moment.not_gave_nil hnone).elim
    · cases (hunresolved.vacant hsuccession).1.symm.trans hid

/-- A request that waits for a session while there is one is put to it in the end, if the session
stays in the slot until then. -/
theorem Run.serves_inTheEnd {settings : Settings} {resolver : Resolver} {lifecycle : Lifecycle}
    {history : List Moment} (hrun : (Router.ofSettings settings resolver lifecycle).Run history r)
    {id : Nat} (hid : r.slot.session = some id) (hsince : r.slot.since ≤ k) {t : Task}
    (ht : r.task? k = some t) (hseeks : t.seeks) :
    InTheEnd (fun r' => r'.Serves id k ∨ r'.slot.session ≠ some id) r := by
  refine Run.inTheEnd_of_waits (fun r => r.slot.session = some id ∧ r.slot.since ≤ k ∧
    ∃ t, r.task? k = some t ∧ t.seeks) ?_ ?_ hrun ⟨hid, hsince, t, ht, hseeks⟩
  · rintro r ⟨-, -, t, ht, hseeks⟩
    refine ⟨k, t, ht, ?_⟩
    cases t with
    | wantsSession | wantsCreation | creating | probing => rfl
    | _ => cases hseeks
  · rintro history r e r' hrun ⟨hid, hsince, t, ht, hseeks⟩ hstep
    by_cases hid' : r'.slot.session = some id
    · have hslot := hrun.succession.slot_kept (step?_happens hstep) hid hid'
      obtain hlater | hserves :=
        seeks_step hrun.succession hrun.numbered hid hsince ht hseeks hstep
      · exact .inl ⟨hid', hslot ▸ hsince, hlater⟩
      · exact .inr (.inl hserves)
    · exact .inr (.inr hid')

/-- Request `n` has given up both locks, and nothing else has become of the other requests and the
slot. -/
structure Released (r r' : Router) (n : Nat) : Prop where
  environmentHolder : r'.environmentHolder = none
  slotHolder : r'.slotHolder = none
  slot : r'.slot = r.slot
  others : ∀ k ≠ n, r'.task? k = r.task? k

theorem Released.of_put {rest : Router} (hslot : rest.slot = r.slot)
    (hreceived : rest.received = r.received) (t : Task) : Released r (rest.put n t).unlock n where
  environmentHolder := rfl
  slotHolder := rfl
  slot := (put_slot ..).trans hslot
  others k hk := by
    have hput : (rest.put n t).unlock.task? k = rest.task? k := task?_put_of_ne hk rest t
    rw [hput, task?, received?, hreceived, task?, received?]

theorem serve_released (r : Router) (n : Nat) (call : Call) (id : Nat) :
    Released r (r.serve n call id).unlock n := by
  obtain ⟨rest, t, hserve, hgiven⟩ := serve_given r n call id
  rw [hserve]
  exact .of_put (by rw [hgiven.rest_eq]) (by rw [hgiven.rest_eq]) t

/-- There is a way on from a router, without a change, to one with which something is so. -/
def Leads (r : Router) (P : List Moment → Router → Prop) : Prop :=
  ∃ later r', r.Run later r' ∧ (∀ m ∈ later, m.disturbs = false) ∧ P later r'

theorem Leads.now {P : List Moment → Router → Prop} (h : P [] r) : Leads r P :=
  ⟨[], r, .none, fun _ hm => (List.not_mem_nil hm).elim, h⟩

theorem Leads.step {P : List Moment → Router → Prop} {t : Task} (hstep : r.step? e = some r')
    (he : e.request? = some n) (ht : r.task? n = some t) (halters : t.alters = false)
    (h : Leads r' fun later => P (later ++ [⟨r, e, r'⟩])) : Leads r P := by
  obtain ⟨later, last, hrun, hcalm, hlast⟩ := h
  refine ⟨_, last, (Run.step .none hstep).append hrun, ?_, hlast⟩
  intro m hm
  obtain hm | hm := List.mem_append.mp hm
  · exact hcalm m hm
  · obtain rfl := List.mem_singleton.mp hm
    exact (Moment.disturbs_eq he ht).trans halters

def blindView : FileView := ⟨fun _ => none, fun _ => none⟩

theorem Released.after {q : Router} (hslot : q.slot = r.slot)
    (hothers : ∀ k ≠ n, q.task? k = r.task? k) (h : Released q r' n) : Released r r' n where
  environmentHolder := h.environmentHolder
  slotHolder := h.slotHolder
  slot := h.slot.trans hslot
  others k hk := (h.others k hk).trans (hothers k hk)

theorem release_draining {old new : Nat} (ht : r.task? n = some (.draining old new)) :
    Leads r fun _ r' => Released r r' n := by
  have hstep : r.step? (.overdue n) = some (r.finish n (.ok (r.info new))).unlock := by
    simp [step?, endChange, ht]
  exact .step hstep rfl ht rfl (.now (.of_put rfl rfl _))

theorem release_replacing {old new : Nat} (ht : r.task? n = some (.replacing old new)) :
    Leads r fun _ r' => Released r r' n := by
  cases hretired : r.isRetired old with
  | true =>
      have hstep : r.step? (.retire n) = some (r.finish n (.ok (r.info new))).unlock := by
        simp [step?, retireOld, ht, hretired]
      exact .step hstep rfl ht rfl (.now (.of_put rfl rfl _))
  | false =>
      let q : Router := { r with sessions := r.sessions.retire old .replaced }
      have hstep : r.step? (.retire n) = some (q.put n (.draining old new)) := by
        simp [step?, retireOld, ht, hretired, q]
      have hq : q.task? n = some (.replacing old new) := ht
      obtain ⟨later, r', hrun, hcalm, hreleased⟩ := release_draining (task?_put_self hq _)
      refine .step hstep rfl ht rfl ⟨later, r', hrun, hcalm, ?_⟩
      have hslot : (q.put n (.draining old new)).slot = r.slot := put_slot q n _
      exact hreleased.after hslot fun k hk => task?_put_of_ne hk q _

theorem release_creating (hlocks : Locks r) {call : Call} (ht : r.task? n = some (.creating call))
    (hsome : r.slot.session.isSome) : Leads r fun _ r' => Released r r' n := by
  have hfree := hlocks.slotHolder_eq_none ht rfl rfl
  have hstep : r.step? (.act n blindView) = some (r.startCreation n call blindView) := by
    simp [step?, act, ht, hfree]
  refine .step hstep rfl ht rfl (.now ?_)
  unfold startCreation
  cases husable : r.slot.usable n with
  | error cause => exact .of_put rfl rfl _
  | ok session =>
      cases session with
      | some id => exact serve_released r n call id
      | none =>
          rw [(Succession.usable_eq_none husable).1] at hsome
          cases hsome

theorem release_locked {call : Call} (ht : r.task? n = some (.locked call))
    (haffects : call.affectsEnvironment) (halters : (Task.locked call).alters = false) :
    Leads r fun _ r' => Released r r' n := by
  cases call with
  | shutdown =>
      let q : Router := { r with lifecycle := r.lifecycle.beginShutdown }
      have hstep : r.step? (.act n blindView) =
          some (q.finish n (.ok (.ofMembers [("state", .text q.lifecycle.name)]))).unlock := by
        simp only [step?, act, ht]
        rfl
      have hreleased (t : Task) : Released r (q.put n t).unlock n :=
        @Released.of_put r n q rfl rfl t
      exact .step hstep rfl ht rfl (.now (hreleased _))
  | environmentSet | workspaceSet => cases halters
  | ping | capabilities | completion | hover | format | diagnostics => cases haffects

/-- While there is a session, who has the environment lock can give it up, unless for a change. -/
theorem release (hlocks : Locks r) (hsuccession : Succession r) (hfitting : Fitting r)
    (hsome : r.slot.session.isSome) (hidle : ∀ m t, r.task? m = some t → t.alters = false)
    (hheld : r.environmentHolder = some n) : Leads r fun _ r' => Released r r' n := by
  obtain ⟨t, ht, hholds⟩ := hlocks.environmentHeld hheld
  have halters := hidle n t ht
  cases t with
  | locked call =>
      obtain ⟨v, hv, hlocked⟩ := exists_received ht
      have hsuits := hfitting hv
      rw [hlocked] at hsuits
      exact release_locked ht hsuits.2 halters
  | moving | changing => cases halters
  | replacing => exact release_replacing ht
  | draining => exact release_draining ht
  | creating => exact release_creating hlocks ht hsome
  | probing =>
      rw [(hsuccession.vacant ht).1] at hsome
      cases hsome
  | arrived | wantsLock | wantsSession | wantsCreation | serving | done => cases hholds

theorem Locks.slotHolder_of_free (h : Locks r) (hfree : r.environmentHolder = none) :
    r.slotHolder = none := by
  cases hheld : r.slotHolder with
  | none => rfl
  | some n =>
      obtain ⟨t, ht, hholds⟩ := h.slotHeld hheld
      have henvironment := h.environment ht (Task.holdsEnvironment_of_holdsSlot hholds)
      cases hfree.symm.trans henvironment

theorem leads_creating {call : Call} {id : Nat} (ht : r.task? k = some (.creating call))
    (hfree : r.slotHolder = none) (husable : r.slot.usable k = .ok (some id)) :
    Leads r fun later _ => Gave later k id := by
  have hstep : r.step? (.act k blindView) = some (r.serve k call id).unlock := by
    simp [step?, act, ht, hfree, startCreation, husable]
  refine .step hstep rfl ht rfl (.now (Moment.gave_cons.mpr (.inl ?_)))
  rw [Moment.deed?_eq rfl ht, deedAt?_creating (serve_released r k call id).slot]
  exact reading?_some husable

theorem lock_wantsCreation {call : Call} (ht : r.task? k = some (.wantsCreation call))
    (henvironment : r.environmentHolder = none) :
    ∃ q, r.step? (.lock k) = some q ∧ q.task? k = some (.creating call) ∧ q.slot = r.slot ∧
      q.resolver = r.resolver ∧ q.slotHolder = r.slotHolder :=
  ⟨{ r.put k (.creating call) with environmentHolder := some k },
    by simp [step?, lock, ht, henvironment], task?_put_self ht _, put_slot .., put_resolver ..,
    put_slotHolder ..⟩

theorem leads_wantsCreation {call : Call} {id : Nat} (ht : r.task? k = some (.wantsCreation call))
    (henvironment : r.environmentHolder = none) (hfree : r.slotHolder = none)
    (husable : r.slot.usable k = .ok (some id)) : Leads r fun later _ => Gave later k id := by
  obtain ⟨q, hstep, hq, hslot, _, hholder⟩ := lock_wantsCreation ht henvironment
  obtain ⟨later, r', hrun, hcalm, hgave⟩ :=
    leads_creating hq (hholder.trans hfree) (hslot ▸ husable)
  exact .step hstep rfl ht rfl ⟨later, r', hrun, hcalm, hgave.append⟩

theorem leads_to_given (hlocks : Locks r) (hsuccession : Succession r) (hfitting : Fitting r)
    {id : Nat} (hid : r.slot.session = some id) (hsince : r.slot.since ≤ k)
    (hidle : ∀ m t, r.task? m = some t → t.alters = false) {t : Task} (ht : r.task? k = some t)
    (hseeks : t.seeks) : Leads r fun later _ => Gave later k id := by
  have husable : r.slot.usable k = .ok (some id) := hid ▸ usable_ok (hsuccession.current hid).2.1 hsince
  cases t with
  | wantsSession call =>
      have hfree : r.slotHolder = none := by
        cases hheld : r.slotHolder with
        | none => rfl
        | some n =>
            obtain ⟨u, hu, hholds⟩ := hlocks.slotHeld hheld
            have halters := hidle n u hu
            cases u with
            | changing => cases halters
            | probing => cases (hsuccession.vacant hu).1.symm.trans hid
            | _ => cases hholds
      have hstep : r.step? (.look k) = some (r.serve k call id) := by
        simp [step?, look, ht, hfree, husable]
      refine .step hstep rfl ht rfl (.now (Moment.gave_cons.mpr (.inl ?_)))
      rw [Moment.deed?_eq rfl ht]
      exact reading?_some husable
  | wantsCreation call =>
      cases hheld : r.environmentHolder with
      | none => exact leads_wantsCreation ht hheld (hlocks.slotHolder_of_free hheld) husable
      | some n =>
          have hne : k ≠ n := by
            rintro rfl
            obtain ⟨u, hu, hholds⟩ := hlocks.environmentHeld hheld
            cases Option.some.inj (ht.symm.trans hu)
            cases hholds
          have hsome : r.slot.session.isSome := by rw [hid]; rfl
          obtain ⟨later, r', hrun, hcalm, hreleased⟩ :=
            release hlocks hsuccession hfitting hsome hidle hheld
          obtain ⟨last, r'', hrun', hcalm', hgave⟩ := leads_wantsCreation
            ((hreleased.others k hne).trans ht) hreleased.environmentHolder hreleased.slotHolder
            ((congrArg (·.usable k) hreleased.slot).trans husable)
          refine ⟨last ++ later, r'', hrun.append hrun', fun m hm => ?_, hgave.append⟩
          exact (List.mem_append.mp hm).elim (hcalm' m) (hcalm m)
  | creating call => exact leads_creating ht (hlocks.slotHolder_eq_none ht rfl rfl) husable
  | probing => cases (hsuccession.vacant ht).1.symm.trans hid
  | _ => cases hseeks

/-- Request `k` makes the first session, or does not, as the file system then has it. -/
def Resolves (r : Router) (k : Nat) (call : Call) : Prop :=
  ∀ view, ∃ r', r.step? (.act k view) = some r' ∧
    match r.resolver.start view r.slot.selection r.slot.kind r.slot.root false with
    | .failed cause =>
        r'.task? k = some (.done (.error (.environment cause))) ∧ r'.slot = r.slot
    | .found _ => r'.slot = { r.slot with session := some r.nextSession }
    | .unprobed path found => r'.task? k = some (.probing call path found)

theorem resolves {call : Call} (ht : r.task? k = some (.creating call))
    (hfree : r.slotHolder = none) (husable : r.slot.usable k = .ok none) : Resolves r k call := by
  intro view
  refine ⟨r.startCreation k call view, by simp [step?, act, ht, hfree], ?_⟩
  unfold startCreation
  rw [husable]
  cases hstart : r.resolver.start view r.slot.selection r.slot.kind r.slot.root false with
  | failed cause => exact ⟨task?_put_self ht _, put_slot ..⟩
  | found interpreter =>
      obtain ⟨rest, t, hserve, hgiven⟩ := serve_given (r.install interpreter) k call r.nextSession
      simp only [create, hserve]
      refine (put_slot rest k t).trans ?_
      rw [hgiven.rest_eq]
      rfl
  | unprobed path found => exact task?_put_self ht _

/-- What a resolution that has failed leaves behind: its own answer. Whoever waits for a session can
take the locks and resolve what the slot says, as if nobody had before. -/
structure Undone (r r' : Router) (n : Nat) (cause : EnvironmentFailure) : Prop where
  answered : r'.task? n = some (.done (.error (.environment cause)))
  slot : r'.slot = r.slot
  sessions : r'.sessions = r.sessions
  nextSession : r'.nextSession = r.nextSession
  resolver : r'.resolver = r.resolver
  others : ∀ k ≠ n, r'.received? k = r.received? k
  again : ∀ k call, r'.task? k = some (.wantsSession call) ∨ r'.task? k = some (.wantsCreation call) →
    Leads r' fun _ q => q.slot = r.slot ∧ q.resolver = r.resolver ∧ Resolves q k call

theorem resolves_after_lock {call : Call} (ht : r.task? k = some (.wantsCreation call))
    (henvironment : r.environmentHolder = none) (hfree : r.slotHolder = none)
    (husable : r.slot.usable k = .ok none) :
    Leads r fun _ q => q.slot = r.slot ∧ q.resolver = r.resolver ∧ Resolves q k call := by
  obtain ⟨q, hstep, hq, hslot, hresolver, hholder⟩ := lock_wantsCreation ht henvironment
  refine .step hstep rfl ht rfl (.now ⟨hslot, hresolver, ?_⟩)
  exact resolves hq (hholder.trans hfree) (hslot ▸ husable)

theorem resolves_after_look {call : Call} (ht : r.task? k = some (.wantsSession call))
    (henvironment : r.environmentHolder = none) (hfree : r.slotHolder = none)
    (husable : r.slot.usable k = .ok none) :
    Leads r fun _ q => q.slot = r.slot ∧ q.resolver = r.resolver ∧ Resolves q k call := by
  have hstep : r.step? (.look k) = some (r.put k (.wantsCreation call)) := by
    simp [step?, look, ht, hfree, husable]
  have hslot : (r.put k (.wantsCreation call)).slot = r.slot := put_slot ..
  have hleads := resolves_after_lock (task?_put_self ht (.wantsCreation call))
    ((put_environmentHolder ..).trans henvironment) ((put_slotHolder ..).trans hfree)
    ((congrArg (·.usable k) hslot).trans husable)
  rw [hslot, put_resolver] at hleads
  exact .step hstep rfl ht rfl hleads

theorem Unresolved.step (hlocks : Locks r) {cause : EnvironmentFailure}
    (h : Unresolved r n e cause) :
    r.step? e = some (r.unlock.put n (.done (.error (.environment cause)))) := by
  cases h with
  | unchosen ht husable hstart =>
      have hfree := hlocks.slotHolder_eq_none ht rfl rfl
      simp only [step?, act, ht, hfree, startCreation, husable, hstart]
      exact congrArg some (unlock_put ..)
  | unusable ht =>
      simp only [step?, probed, ht, Resolver.finish]
      exact congrArg some (unlock_put ..)

theorem Unresolved.undone (hlocks : Locks r) (hsuccession : Succession r)
    {cause : EnvironmentFailure} (h : Unresolved r n e cause) (hstep : r.step? e = some r') :
    Undone r r' n cause := by
  obtain rfl := Option.some.inj ((h.step hlocks).symm.trans hstep)
  obtain ⟨hsession, hlast⟩ := h.vacant hsuccession
  have husable (k : Nat) : r.slot.usable k = .ok none := by
    unfold Slot.usable
    rw [hsession, hlast]
  have hheld : ∃ t, r.unlock.task? n = some t := by
    cases h with
    | unchosen ht => exact ⟨_, ht⟩
    | unusable ht => exact ⟨_, ht⟩
  obtain ⟨t, ht⟩ := hheld
  generalize hr' : r.unlock.put n (.done (.error (.environment cause))) = r'
  have hslot : r'.slot = r.slot := by rw [← hr', put_slot]; rfl
  have hresolver : r'.resolver = r.resolver := by rw [← hr', put_resolver]; rfl
  have henvironment : r'.environmentHolder = none := by rw [← hr', put_environmentHolder]; rfl
  have hfree : r'.slotHolder = none := by rw [← hr', put_slotHolder]; rfl
  refine ⟨?_, hslot, ?_, ?_, hresolver, ?_, ?_⟩
  · rw [← hr', task?_put_self ht]
  · rw [← hr', put_sessions]; rfl
  · rw [← hr', put_nextSession]; rfl
  · intro k hk
    rw [← hr', received?_put_of_ne hk]; rfl
  · have hnone (k : Nat) : r'.slot.usable k = .ok none := by rw [hslot, husable]
    intro k call hwaits
    rw [← hslot, ← hresolver]
    obtain hwants | hwants := hwaits
    · exact resolves_after_look hwants henvironment hfree (hnone k)
    · exact resolves_after_lock hwants henvironment hfree (hnone k)

/-- While the slot has neither a session nor a failure, and until the environment is changed or a
shutdown takes the session away, at most one session is made. Each request that asks for one, and is
not older than the change which last put a session in the slot, waits, is given that session and put
to it, or fails because its own resolution has. Once the session is there, each that waits is put to
it in the end, whatever is done until then, unless the session is taken out of the slot before; and
while nobody is about to do that, it can be given it. A resolution fails only while the slot is as it
was and leaves it so, and whoever comes next resolves again. -/
theorem first_session_made_once (settings : Settings) (resolver : Resolver) (lifecycle : Lifecycle)
    {past history : List Moment} {start r : Router}
    (hpast : (Router.ofSettings settings resolver lifecycle).Run past start)
    (hempty : start.slot.session = none) (hlast : start.slot.lastError = none)
    (hrun : start.Run history r) (hcalm : ∀ m ∈ history, m.disturbs = false) :
    (Moment.creations history = [] ∧ Moment.madeIn history = [] ∧ r.slot = start.slot ∨
      ∃ n, Moment.creations history = [(n, start.nextSession)] ∧
        Moment.madeIn history = [start.nextSession] ∧
        r.slot = { start.slot with session := some start.nextSession }) ∧
    (∀ k id, Gave history k id → id = start.nextSession) ∧
    (∀ k, Asking start history k → start.slot.since ≤ k →
      Fate history start.nextSession r k ∧
      ∀ t, r.task? k = some t → t.seeks → r.slot.session.isSome →
        InTheEnd (fun r' => r'.Serves start.nextSession k ∨
          r'.slot.session ≠ some start.nextSession) r ∧
        ((∀ m u, r.task? m = some u → u.alters = false) →
          Leads r fun later _ => Gave later k start.nextSession)) ∧
    ∀ m ∈ history, ∀ n cause, m.before.Unresolved n m.event cause →
      m.before.slot = start.slot ∧ Undone m.before m.after n cause := by
  have hreached := hpast.append hrun
  have hprogress := progress_of_run hpast hempty hrun hcalm
  have hmade := madeIn_of_progress hpast hrun hprogress
  refine ⟨?_, ?_, ?_, ?_⟩
  · cases hprogress with
    | empty hslot _ hcreations => exact .inl ⟨hcreations, by rw [hmade, hcreations]; rfl, hslot⟩
    | made n hslot _ hcreations =>
        exact .inr ⟨n, hcreations, by rw [hmade, hcreations]; rfl, hslot⟩
  · intro k id hgave
    cases hprogress with
    | empty _ _ _ hnone => exact (hnone k id hgave).elim
    | made _ _ _ _ hone => exact hone k id hgave
  · intro k hasking hsince
    refine ⟨fate_of_asking hpast hempty hlast hrun hcalm hasking hsince, ?_⟩
    intro t ht hseeks hsome
    obtain ⟨id, hid⟩ := Option.isSome_iff_exists.mp hsome
    have hsince' : r.slot.since ≤ k := by
      rw [hprogress.slot_eq]
      exact hsince
    cases hprogress.session_eq hempty hid
    exact ⟨hreached.serves_inTheEnd hid hsince' ht hseeks, fun hidle => leads_to_given
      hreached.locks hreached.succession hreached.fitting hid hsince' hidle ht hseeks⟩
  · intro m hm n cause hunresolved
    obtain ⟨earlier, hbefore, hstep, hsub⟩ := hrun.moment hm
    have hthen := hpast.append hbefore
    have hearlier := progress_of_run hpast hempty hbefore fun x hx => hcalm x (hsub x hx)
    refine ⟨?_, hunresolved.undone hthen.locks hthen.succession hstep⟩
    rw [hearlier.slot_eq, (hunresolved.vacant hthen.succession).1, ← hempty]

/-- Three requests find the slot empty before any of them takes a lock. The first sees no
interpreter, the second makes the session, and the third, which has waited, is given it. -/
theorem first_session_made_once_at_second_try :
    let crowd := [Trial.ask, Trial.ask, Trial.ask, .dispatch 1, .dispatch 2, .dispatch 3, .look 1,
      .look 2, .look 3]
    let making := [.lock 1, .act 1 blindView, .lock 2, .act 2 Trial.view,
      .probed 2 (.ok Capability.all)]
    let attempts := making ++ [.lock 3, .act 3 Trial.view]
    let start := (Trial.start.play crowd).2
    let history := (start.play attempts).1
    (∀ m ∈ history, m.disturbs = false) ∧ Moment.creations history = [(2, 1)] ∧
      Moment.madeIn history = [1] ∧ (∀ k ∈ [1, 2, 3], Fate history 1 (start.play attempts).2 k) ∧
      InTheEnd (fun r => r.Serves 1 3 ∨ r.slot.session ≠ some 1) (start.play making).2 := by
  intro crowd making attempts start history
  have hcalm : ∀ m ∈ history, m.disturbs = false := by decide
  have hcreations : Moment.creations history = [(2, 1)] := by decide
  have hasking (history : List Moment) : ∀ k ∈ [1, 2, 3], Asking start history k := by
    have hwaits : ∀ k ∈ [1, 2, 3], (start.task? k).any Task.seeks := by decide
    intro k hk
    exact .inl ((Option.any_eq_true ..).mp (hwaits k hk))
  have hstart := run_play Trial.start crowd
  obtain ⟨hmade, _, hfate, _⟩ :=
    first_session_made_once _ _ _ hstart rfl rfl (run_play start attempts) hcalm
  obtain ⟨_, _, hwaiting, _⟩ :=
    first_session_made_once _ _ _ hstart rfl rfl (run_play start making) (by decide)
  refine ⟨hcalm, hcreations, ?_, fun k hk => (hfate k (hasking _ k hk) (Nat.zero_le k)).1,
    ((hwaiting 3 (hasking _ 3 (by decide)) (Nat.zero_le 3)).2 _ rfl rfl rfl).1⟩
  obtain ⟨hnone, _⟩ | ⟨n, _, hone, _⟩ := hmade
  · cases hcreations.symm.trans hnone
  · exact hone

end Router

end CodeAssist
