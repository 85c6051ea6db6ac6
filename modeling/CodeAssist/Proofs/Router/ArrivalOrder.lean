import CodeAssist.Proofs.Router.Succession

namespace CodeAssist

open Moment (Gave Placed)

/-! Requests are served in the order in which they came in: none gets a session that a later change
put in the slot. -/

/-- Whether a change at a stage has done what it came for. -/
def Task.past : Task → Bool
  | .replacing _ _ | .draining _ _ | .done _ => true
  | .arrived | .wantsLock _ | .locked _ | .moving _ | .changing _ _ _ _ | .wantsSession _
  | .wantsCreation _ | .creating _ | .probing _ _ _ | .serving _ _ _ => false

namespace Router

/-- What the slot knows of the deeds of a history. A session in it that a change put there bears the
number of that change, and changes that came later than a request have given it nothing. -/
structure Ledger (history : List Moment) (r : Router) : Prop where
  gave : ∀ {n id}, Gave history n id → 0 < id ∧ id < r.nextSession
  placed : ∀ {n id}, Placed history n id → id < r.nextSession
  since : ∀ {n id}, Placed history n id → r.slot.session = some id → r.slot.since = n
  change : 0 < r.slot.since → ∃ id, Placed history r.slot.since id
  past : ∀ {n id}, Placed history n id → ∃ t, r.task? n = some t ∧ t.past
  order : ∀ {a b id}, Gave history a id → Placed history b id → b < a

variable {r r' : Router} {e : Event}

theorem past_happens (hnumbered : Numbered r) (hhappens : Happens r e r') {n : Nat} {t : Task}
    (ht : r.task? n = some t) (hpast : t.past) : ∃ t', r'.task? n = some t' ∧ t'.past := by
  cases hhappens with
  | arrived request tracked => exact ⟨t, hnumbered.task?_kept request tracked ht, hpast⟩
  | advanced he hu hadvance =>
      rename_i m u u' rest
      rw [hadvance.task? hu]
      split
      · rename_i hm
        subst hm
        cases Option.some.inj (ht.symm.trans hu)
        cases hadvance with
        | retiredBefore | retires | drained => exact ⟨_, rfl, rfl⟩
        | _ => cases hpast
      · exact ⟨t, ht, hpast⟩
  | _ => exact ⟨t, ht, hpast⟩

theorem not_past_of_deed {m : Moment} {d : Deed} (hdeed : m.deed? = some d) :
    ∃ t, m.event.request? = some d.request ∧ m.before.task? d.request = some t ∧
      t.past = false ∧ m.deedAt? d.request t = some d := by
  simp only [Moment.deed?, Option.bind_eq_bind, Option.bind_eq_some_iff] at hdeed
  obtain ⟨n, hn, t, ht, hdeed⟩ := hdeed
  cases Moment.request_of_deedAt? hdeed
  refine ⟨t, hn, ht, ?_, hdeed⟩
  cases t with
  | replacing | draining | done => cases hdeed
  | _ => rfl

theorem past_of_change (hhappens : Happens r e r') {d : Deed}
    (hdeed : Moment.deed? ⟨r, e, r'⟩ = some d) (hchange : d.isChange) :
    ∃ t', r'.task? d.request = some t' ∧ t'.past := by
  obtain ⟨t, hn, ht, _, hat⟩ := not_past_of_deed hdeed
  cases hhappens with
  | advanced he hu hadvance =>
      rename_i n u t' rest
      cases Option.some.inj (he.symm.trans hn)
      cases Option.some.inj (hu.symm.trans ht)
      refine ⟨t', by rw [hadvance.task? hu, if_pos rfl], ?_⟩
      have hnone (hslot : rest.slot.session = r.slot.session) :
          Moment.placed? ⟨r, e, rest.put d.request t'⟩ = none :=
        Succession.placed?_eq_none ((congrArg Slot.session (put_slot ..)).trans hslot)
      obtain ⟨p, rfl⟩ | ⟨p, kind, path, found, rfl⟩ | ⟨root, rfl⟩ :=
        Moment.stage_of_isChange hat hchange
      · cases hadvance with
        | unchosen => rfl
        | changing =>
            rw [Moment.deedAt?, hnone rfl] at hat
            cases hat
      · cases hadvance with
        | unusable | switched | switchedFirst => rfl
      · cases hadvance with
        | rooted | moved => rfl
  | drainWaits he => cases he.symm.trans hn
  | _ => cases hn

namespace Ledger

variable {history : List Moment}

theorem start (settings : Settings) (resolver : Resolver) (lifecycle : Lifecycle) :
    Ledger [] (Router.ofSettings settings resolver lifecycle) where
  gave hgave := (Moment.not_gave_nil hgave).elim
  placed hplaced := (Moment.not_placed_nil hplaced).elim
  since hplaced := (Moment.not_placed_nil hplaced).elim
  change hsince := (Nat.lt_irrefl _ hsince).elim
  past hplaced := (Moment.not_placed_nil hplaced).elim
  order hgave := (Moment.not_gave_nil hgave).elim

theorem usable_eq_some {slot : Slot} {n id : Nat} (husable : slot.usable n = .ok (some id)) :
    slot.session = some id ∧ slot.since ≤ n := by
  unfold Slot.usable at husable
  split at husable
  · rename_i current _ hsession
    split at husable
    · cases husable
    · rename_i hlate
      cases husable
      exact ⟨hsession, Nat.le_of_not_lt hlate⟩
  · cases husable
  · cases husable

theorem since_of_effect {d : Option Deed} (heffect : Effect r d r') :
    r'.slot.since = r.slot.since ∨ ∃ deed, d = some deed ∧ deed.isChange ∧
      r'.slot.since = deed.request ∧ r'.slot.session = some r.nextSession := by
  cases heffect with
  | same hsame => exact .inl (congrArg Slot.since hsame.slot)
  | failed hslot => exact .inl (by rw [hslot, Slot.failedChange_eq])
  | retired _ _ _ hslot => exact .inl (congrArg Slot.since hslot)
  | taken _ hslot => exact .inl (by rw [hslot])
  | given _ hsame => exact .inl (congrArg Slot.since hsame.slot)
  | refused _ hsame => exact .inl (congrArg Slot.since hsame.slot)
  | rooted _ hslot => exact .inl (by rw [hslot])
  | created _ _ hplaces => exact .inl (by rw [hplaces.slot])
  | switched hplaces =>
      exact .inr ⟨_, rfl, rfl, congrArg Slot.since hplaces.slot, congrArg Slot.session hplaces.slot⟩
  | moved _ _ _ hplaces =>
      exact .inr ⟨_, rfl, rfl, congrArg Slot.since hplaces.slot, congrArg Slot.session hplaces.slot⟩

theorem placed_of_effect {d : Deed} {n id : Nat} (heffect : Effect r (some d) r')
    (hplaced : d = .switched n id ∨ ∃ old, d = .moved n old id) :
    id = r.nextSession ∧ r'.nextSession = id + 1 ∧ r'.slot.since = n := by
  obtain rfl | ⟨old, rfl⟩ := hplaced
  · cases heffect with
    | switched hplaces => exact ⟨rfl, hplaces.nextSession, by rw [hplaces.slot]⟩
  · cases heffect with
    | moved _ _ _ hplaces => exact ⟨rfl, hplaces.nextSession, by rw [hplaces.slot]⟩

theorem given_of_effect {n id : Nat} (heffect : Effect r (some (.given n id)) r') :
    r.slot.session = some id ∧ r.slot.since ≤ n := by
  cases heffect with
  | given husable => exact usable_eq_some husable

theorem created_of_effect {n id : Nat} (heffect : Effect r (some (.created n id)) r') :
    id = r.nextSession ∧ r'.nextSession = id + 1 := by
  cases heffect with
  | created _ _ hplaces => exact ⟨rfl, hplaces.nextSession⟩

theorem exists_placed {m : Moment} {d : Deed} (hdeed : m.deed? = some d) (hchange : d.isChange) :
    ∃ id, Placed (m :: history) d.request id := by
  cases d with
  | switched n id => exact ⟨id, Moment.placed_cons.mpr (.inl hdeed)⟩
  | moved n old id => exact ⟨id, Moment.placed_cons.mpr (.inr (.inl ⟨old, hdeed⟩))⟩
  | rooted | created | given | refused => cases hchange

section step

variable (h : Ledger history r) (heffect : Effect r (Moment.deed? ⟨r, e, r'⟩) r') {n id : Nat}

include h heffect

theorem gave_step (hsuccession : Succession r) (hgave : Gave (⟨r, e, r'⟩ :: history) n id) :
    0 < id ∧ id < r'.nextSession := by
  have hle := Succession.nextSession_le heffect
  obtain hdeed | hdeed | hbefore := Moment.gave_cons.mp hgave
  · rw [hdeed] at heffect
    obtain ⟨hlast, _, f, hf, _⟩ := hsuccession.current (given_of_effect heffect).1
    have hknown := (hsuccession.known id).mp (by rw [hf]; rfl)
    exact ⟨hknown.1, by omega⟩
  · rw [hdeed] at heffect
    obtain ⟨hid, hnext⟩ := created_of_effect heffect
    exact ⟨hid ▸ hsuccession.one_le, by omega⟩
  · obtain ⟨hpos, hlt⟩ := h.gave hbefore
    exact ⟨hpos, Nat.lt_of_lt_of_le hlt hle⟩

/-- A change that puts a session in the slot puts a new one there; those that changes have put there
before are older. -/
theorem placed_step (hplaced : Placed (⟨r, e, r'⟩ :: history) n id) :
    (id = r.nextSession ∧ r'.nextSession = id + 1 ∧ r'.slot.since = n ∧
      ∃ d, Moment.deed? ⟨r, e, r'⟩ = some d ∧ d.isChange) ∨
    id < r.nextSession ∧ Placed history n id := by
  obtain hdeed | ⟨old, hdeed⟩ | hbefore := Moment.placed_cons.mp hplaced
  · rw [hdeed] at heffect
    obtain ⟨hid, hnext, hsince⟩ := placed_of_effect heffect (.inl rfl)
    exact .inl ⟨hid, hnext, hsince, _, hdeed, rfl⟩
  · rw [hdeed] at heffect
    obtain ⟨hid, hnext, hsince⟩ := placed_of_effect heffect (.inr ⟨old, rfl⟩)
    exact .inl ⟨hid, hnext, hsince, _, hdeed, rfl⟩
  · exact .inr ⟨h.placed hbefore, hbefore⟩

theorem since_step (hplaced : Placed (⟨r, e, r'⟩ :: history) n id)
    (hid : r'.slot.session = some id) : r'.slot.since = n := by
  obtain ⟨_, _, hsince, _⟩ | ⟨hlt, hbefore⟩ := h.placed_step heffect hplaced
  · exact hsince
  · obtain hcurrent | hnew := Succession.session_of_effect heffect hid
    · obtain hkept | ⟨_, _, _, _, hsession⟩ := since_of_effect heffect
      · exact hkept.trans (h.since hbefore hcurrent)
      · cases Option.some.inj (hid.symm.trans hsession)
        omega
    · omega

theorem change_step (hsince : 0 < r'.slot.since) :
    ∃ id, Placed (⟨r, e, r'⟩ :: history) r'.slot.since id := by
  obtain hkept | ⟨d, hdeed, hchange, hrequest, _⟩ := since_of_effect heffect
  · rw [hkept] at hsince ⊢
    obtain ⟨id, hplaced⟩ := h.change hsince
    exact ⟨id, Moment.placed_cons.mpr (.inr (.inr hplaced))⟩
  · rw [hrequest]
    exact exists_placed hdeed hchange

theorem order_step {a b : Nat} (hgave : Gave (⟨r, e, r'⟩ :: history) a id)
    (hplaced : Placed (⟨r, e, r'⟩ :: history) b id) : b < a := by
  obtain ⟨hnew, _, _, d, hdeed, hchange⟩ | ⟨hlt, hbefore⟩ := h.placed_step heffect hplaced
  · -- A session that a change has just put there has not been given to anybody.
    obtain hgiven | hcreated | hearlier := Moment.gave_cons.mp hgave
    · cases Option.some.inj (hdeed.symm.trans hgiven)
      cases hchange
    · cases Option.some.inj (hdeed.symm.trans hcreated)
      cases hchange
    · have hlt := (h.gave hearlier).2
      omega
  · obtain hgiven | hcreated | hearlier := Moment.gave_cons.mp hgave
    · obtain ⟨t, _, ht, hnot, _⟩ := not_past_of_deed hgiven
      rw [hgiven] at heffect
      obtain ⟨hcurrent, hle⟩ := given_of_effect heffect
      have hsince := h.since hbefore hcurrent
      obtain ⟨u, hu, hpast⟩ := h.past hbefore
      have hne : a ≠ b := by
        rintro rfl
        cases Option.some.inj (ht.symm.trans hu)
        rw [hnot] at hpast
        cases hpast
      omega
    · rw [hcreated] at heffect
      have hnew := (created_of_effect heffect).1
      omega
    · exact h.order hearlier hbefore

end step

theorem happens (h : Ledger history r) (hnumbered : Numbered r) (hsuccession : Succession r)
    (hhappens : Happens r e r') : Ledger (⟨r, e, r'⟩ :: history) r' where
  gave := h.gave_step (hsuccession.effect hhappens) hsuccession
  placed hplaced := by
    have hle := Succession.nextSession_le (hsuccession.effect hhappens)
    obtain ⟨_, hnext, _⟩ | ⟨hlt, _⟩ := h.placed_step (hsuccession.effect hhappens) hplaced
    · omega
    · omega
  since := h.since_step (hsuccession.effect hhappens)
  change := h.change_step (hsuccession.effect hhappens)
  past hplaced := by
    obtain hdeed | ⟨old, hdeed⟩ | hbefore := Moment.placed_cons.mp hplaced
    · exact past_of_change hhappens hdeed rfl
    · exact past_of_change hhappens hdeed rfl
    · obtain ⟨t, ht, hpast⟩ := h.past hbefore
      exact past_happens hnumbered hhappens ht hpast
  order := h.order_step (hsuccession.effect hhappens)

end Ledger

variable {settings : Settings} {resolver : Resolver} {lifecycle : Lifecycle}
  {history : List Moment}

theorem Run.ledger (hrun : (Router.ofSettings settings resolver lifecycle).Run history r) :
    Ledger history r :=
  hrun.invariant (.start ..) fun hrun h hhappens => h.happens hrun.numbered hrun.succession hhappens

end Router

end CodeAssist
