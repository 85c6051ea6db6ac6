import CodeAssist.Proofs.Router.Succession

namespace CodeAssist

/-! While neither a change nor a shutdown's wait is going on, the last session made is the only one
that may serve requests. -/

/-- Whether a request at a stage has the environment lock in order to change the environment. -/
def Task.changes : Task → Bool
  | .locked _ | .moving _ | .changing _ _ _ _ | .replacing _ _ | .draining _ _ => true
  | .arrived | .wantsLock _ | .wantsSession _ | .wantsCreation _ | .creating _ | .probing _ _ _
  | .serving _ _ _ | .done _ => false

/-- Whether neither a change nor a shutdown's wait is going on. -/
def Router.calm (r : Router) : Bool :=
  r.drain = .idle && r.received.all fun (_, v) => !v.task.changes

namespace Moment

def made (m : Moment) : List Nat :=
  (m.after.sessions.all.map Prod.fst).filter fun id => (m.before.sessions.get? id).isNone

/-- The sessions that were made in a history, the first one first. -/
def madeIn (history : List Moment) : List Nat := history.reverse.flatMap made

end Moment

namespace Sessions

theorem isSome_get? {g : Sessions} {id : Nat} : (g.get? id).isSome = (g.face? id).isSome := by
  rw [face?, Option.isSome_map]

end Sessions

namespace Router

variable {r r' : Router} {e : Event}

theorem Given.distinct {rest : Router} {call : Call} {id : Nat} {t' : Task}
    (hgiven : Given r call id rest t') (hdistinct : r.sessions.Distinct) :
    rest.sessions.Distinct := by
  cases hgiven with
  | asked => exact hdistinct.put _
  | told => exact hdistinct

theorem distinct_happens (hhappens : Happens r e r') (hdistinct : r.sessions.Distinct) :
    r'.sessions.Distinct := by
  cases hhappens with
  | advanced _ _ hadvance =>
      rw [put_sessions]
      cases hadvance with
      | switched | switchedFirst | moved => exact hdistinct.put _
      | retires => exact hdistinct.retire _
      | given _ _ hgiven => exact hgiven.distinct hdistinct
      | givenLate _ _ hgiven => exact hgiven.distinct hdistinct
      | created _ _ _ hgiven => exact hgiven.distinct (hdistinct.put _)
      | createdLate hgiven => exact hgiven.distinct (hdistinct.put _)
      | _ => exact hdistinct
  | worked hstep => exact hdistinct.step? hstep
  | drainRetires => exact hdistinct.retire _
  | _ => exact hdistinct

theorem mem_made (id : Nat) :
    id ∈ Moment.made ⟨r, e, r'⟩ ↔ (r'.face? id).isSome ∧ ¬(r.face? id).isSome := by
  unfold Moment.made
  rw [List.mem_filter, Table.mem_keys_iff]
  change (r'.sessions.get? id).isSome ∧ _ ↔ _
  rw [Sessions.isSome_get?, Router.face?, Router.face?, ← Sessions.isSome_get? (g := r.sessions)]
  simp

theorem made_of_succession (e : Event) (h : Succession r) (h' : Succession r')
    (hdistinct : r'.sessions.Distinct) {deed : Option Deed} (heffect : Effect r deed r') :
    List.range' 1 (r.nextSession - 1) ++ Moment.made ⟨r, e, r'⟩ =
      List.range' 1 (r'.nextSession - 1) := by
  have hmem (id : Nat) : id ∈ Moment.made ⟨r, e, r'⟩ ↔
      (0 < id ∧ id < r'.nextSession) ∧ ¬(0 < id ∧ id < r.nextSession) := by
    rw [mem_made, h.known, h'.known]
  obtain ⟨hnext, _⟩ | ⟨_, _, hplaces⟩ := Succession.effect_faces heffect
  · have hnone : Moment.made ⟨r, e, r'⟩ = [] := by
      rw [List.eq_nil_iff_forall_not_mem]
      intro id hid
      have := (hmem id).mp hid
      omega
    rw [hnone, hnext, List.append_nil]
  · have hnext := hplaces.nextSession
    have hpos := h.one_le
    have hone : Moment.made ⟨r, e, r'⟩ = [r.nextSession] := by
      have hnodup : (Moment.made ⟨r, e, r'⟩).Nodup := hdistinct.sublist List.filter_sublist
      have hsingle : [r.nextSession].Nodup := by simp
      refine List.perm_singleton.mp ((List.perm_ext_iff_of_nodup hnodup hsingle).mpr fun id => ?_)
      rw [hmem, List.mem_singleton]
      omega
    obtain ⟨n, hn⟩ : ∃ n, r.nextSession = n + 1 := ⟨r.nextSession - 1, by omega⟩
    rw [hone, hnext, hn, Nat.add_sub_cancel, Nat.add_sub_cancel, List.range'_1_concat, Nat.add_comm]

variable {settings : Settings} {resolver : Resolver} {lifecycle : Lifecycle}
  {history : List Moment}

theorem Run.distinct (hrun : (Router.ofSettings settings resolver lifecycle).Run history r) :
    r.sessions.Distinct :=
  hrun.invariant (P := fun _ r => r.sessions.Distinct) List.nodup_nil fun _ h hhappens =>
    distinct_happens hhappens h

theorem Run.madeIn_eq (hrun : (Router.ofSettings settings resolver lifecycle).Run history r) :
    Moment.madeIn history = List.range' 1 (r.nextSession - 1) := by
  refine hrun.invariant
    (P := fun history r => Moment.madeIn history = List.range' 1 (r.nextSession - 1)) rfl ?_
  intro history r e r' hrun h hhappens
  have hsuccession := hrun.succession.happens hrun.numbered hrun.locks hhappens
  rw [← made_of_succession e hrun.succession hsuccession (distinct_happens hhappens hrun.distinct)
    (hrun.succession.effect hhappens), ← h]
  simp [Moment.madeIn]

theorem not_changes_of_calm (hcalm : r.calm) {n : Nat} {t : Task} (ht : r.task? n = some t) :
    t.changes = false := by
  obtain ⟨v, hv, rfl⟩ := exists_received ht
  simp only [calm, Bool.and_eq_true, List.all_eq_true] at hcalm
  obtain ⟨earlier, later, hreceived, _⟩ := List.lookup_eq_some_iff.mp hv
  have hmem : (n, v) ∈ r.received := by simp [hreceived]
  simpa using hcalm.2 (n, v) hmem

/-- Sessions are made with the numbers 1, 2, ..., `n`, in that order. Whenever neither a change nor
a shutdown's wait is going on, the slot is empty or has session `n`, which is not retired and has the
root of the slot; every other session is retired; and a failure is kept only in an empty slot. -/
theorem single_session (settings : Settings) (resolver : Resolver) (lifecycle : Lifecycle)
    {history : List Moment} {r : Router}
    (hrun : (Router.ofSettings settings resolver lifecycle).Run history r) (hcalm : r.calm) :
    ∃ n, r.nextSession = n + 1 ∧ Moment.madeIn history = List.range' 1 n ∧
      (∀ id, (r.sessions.get? id).isSome ↔ id ∈ Moment.madeIn history) ∧
      (r.slot.session = none ∨ r.slot.session = some n ∧ ∃ s, r.sessions.get? n = some s ∧
        s.retired = none ∧ s.settings.root = r.slot.root) ∧
      (∀ id s, r.sessions.get? id = some s → s.id = id ∧
        (r.slot.session = some id ∨ s.retired.isSome)) ∧
      (r.slot.lastError.isSome → r.slot.session = none) := by
  have h := hrun.succession
  have hpos := h.one_le
  obtain ⟨n, hn⟩ : ∃ n, r.nextSession = n + 1 := ⟨r.nextSession - 1, by omega⟩
  have hmade : Moment.madeIn history = List.range' 1 n := by rw [hrun.madeIn_eq, hn]; rfl
  refine ⟨n, hn, hmade, ?_, ?_, ?_, ?_⟩
  · intro id
    rw [hmade, List.mem_range'_1, Sessions.isSome_get?]
    have hknown := h.known id
    rw [Router.face?] at hknown
    rw [hknown]
    omega
  · cases hid : r.slot.session with
    | none => exact .inl rfl
    | some id =>
        obtain ⟨hlast, _, f, hf, hopen, hroot⟩ := h.current hid
        have heq : id = n := by omega
        subst heq
        obtain ⟨s, hs, rfl⟩ := Option.map_eq_some_iff.mp hf
        exact .inr ⟨rfl, s, hs, hopen, hroot⟩
  · intro id s hs
    refine ⟨h.sessions_filed hs, ?_⟩
    have hf : r.face? id = some s.face := by rw [Router.face?, Sessions.face?, hs]; rfl
    cases hretired : s.retired with
    | some reason => exact .inr rfl
    | none =>
        obtain hcurrent | ⟨m, new, hm⟩ | hretiring := h.others hf hretired
        · exact .inl hcurrent
        · cases not_changes_of_calm hcalm hm
        · simp [calm, hretiring] at hcalm
  · intro hlast
    cases hid : r.slot.session with
    | none => rfl
    | some id =>
        rw [(h.current hid).2.1] at hlast
        cases hlast

theorem single_session_after_changes :
    ∃ history r, Trial.start.Run history r ∧ r.calm ∧ Moment.madeIn history = [1, 2, 3] ∧
      r.slot.session = some 3 := by
  have hrun := run_play Trial.start ([Trial.ask, Trial.switch, Trial.move "/sub"] ++
    Trial.asks 1 ++ Trial.changes 2 ++ Trial.changes 3)
  have hcalm := (by decide : (Trial.start.play ([Trial.ask, Trial.switch, Trial.move "/sub"] ++
    Trial.asks 1 ++ Trial.changes 2 ++ Trial.changes 3)).2.calm = true)
  obtain ⟨n, hnext, hmade, _, hslot, _⟩ := single_session _ _ _ hrun hcalm
  have hn : n = 3 := (Nat.succ.inj hnext).symm
  subst hn
  refine ⟨_, _, hrun, hcalm, hmade, ?_⟩
  obtain hempty | ⟨hcurrent, _⟩ := hslot
  · cases hempty
  · exact hcurrent

end Router

end CodeAssist
