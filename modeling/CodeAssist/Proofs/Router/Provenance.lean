import CodeAssist.Proofs.Router.Attribution

namespace CodeAssist

open Moment (Gave Placed deeds)

/-! Which changes the interpreter and the root of a session come from. A session has them from the
change that put it in the slot only in part: a change of the root leaves the interpreter as it was, a
change of the interpreter the root, and the first session has both from the slot. -/

namespace Deed

def placed? : Deed → Option Nat
  | .switched _ id | .moved _ _ id | .created _ id => some id
  | .rooted _ | .given _ _ | .refused _ => none

def isSwitch : Deed → Bool
  | .switched _ _ => true
  | .moved _ _ _ | .rooted _ | .created _ _ | .given _ _ | .refused _ => false

def isMove : Deed → Bool
  | .moved _ _ _ => true
  | .switched _ _ | .rooted _ | .created _ _ | .given _ _ | .refused _ => false

/-- The change that the slot has its selection from. -/
def lastSwitch : List Deed → Option Nat
  | [] => none
  | .switched n _ :: _ => some n
  | _ :: earlier => lastSwitch earlier

/-- The change that the slot has its root from. -/
def lastRooting : List Deed → Option Nat
  | [] => none
  | .moved n _ _ :: _ | .rooted n :: _ => some n
  | _ :: earlier => lastRooting earlier

/-- The deed that put a session in the slot, and those before it. -/
def placing? : List Deed → Nat → Option (Deed × List Deed)
  | [], _ => none
  | d :: earlier, id => if d.placed? = some id then some (d, earlier) else placing? earlier id

/-- The change that resolved the interpreter of a session. -/
def interpreterFrom : List Deed → Nat → Option Nat
  | [], _ => none
  | d :: earlier, id =>
      if d.placed? = some id then
        match d with
        | .switched n _ => some n
        | .moved _ old _ => interpreterFrom earlier old
        | _ => lastSwitch earlier
      else interpreterFrom earlier id

/-- The change that set the root of a session. -/
def rootFrom : List Deed → Nat → Option Nat
  | [], _ => none
  | d :: earlier, id =>
      if d.placed? = some id then
        match d with
        | .moved n _ _ => some n
        | _ => lastRooting earlier
      else rootFrom earlier id

variable {deeds earlier : List Deed} {d : Deed} {id : Nat}

theorem interpreterFrom_of_ne (hne : d.placed? ≠ some id) :
    interpreterFrom (d :: earlier) id = interpreterFrom earlier id := if_neg hne

theorem rootFrom_of_ne (hne : d.placed? ≠ some id) :
    rootFrom (d :: earlier) id = rootFrom earlier id := if_neg hne

theorem from_switched {n : Nat} : interpreterFrom (.switched n id :: earlier) id = some n ∧
    rootFrom (.switched n id :: earlier) id = lastRooting earlier :=
  ⟨if_pos rfl, if_pos rfl⟩

theorem from_moved {n old : Nat} :
    interpreterFrom (.moved n old id :: earlier) id = interpreterFrom earlier old ∧
      rootFrom (.moved n old id :: earlier) id = some n :=
  ⟨if_pos rfl, if_pos rfl⟩

theorem from_created {n : Nat} :
    interpreterFrom (.created n id :: earlier) id = lastSwitch earlier ∧
      rootFrom (.created n id :: earlier) id = lastRooting earlier :=
  ⟨if_pos rfl, if_pos rfl⟩

theorem placing?_of_ne (hne : d.placed? ≠ some id) :
    placing? (d :: earlier) id = placing? earlier id := if_neg hne

theorem placing?_self (hplaced : d.placed? = some id) :
    placing? (d :: earlier) id = some (d, earlier) := if_pos hplaced

theorem from_of_placing? (hplacing : placing? deeds id = some (d, earlier)) :
    interpreterFrom deeds id = interpreterFrom (d :: earlier) id ∧
      rootFrom deeds id = rootFrom (d :: earlier) id := by
  induction deeds with
  | nil => cases hplacing
  | cons other rest ih =>
      by_cases hother : other.placed? = some id
      · rw [placing?_self hother] at hplacing
        cases hplacing
        exact ⟨rfl, rfl⟩
      · rw [placing?_of_ne hother] at hplacing
        rw [interpreterFrom_of_ne hother, rootFrom_of_ne hother]
        exact ih hplacing

theorem from_eq_none (hplacing : placing? deeds id = none) :
    interpreterFrom deeds id = none ∧ rootFrom deeds id = none := by
  induction deeds with
  | nil => exact ⟨rfl, rfl⟩
  | cons other rest ih =>
      by_cases hother : other.placed? = some id
      · rw [placing?_self hother] at hplacing
        cases hplacing
      · rw [placing?_of_ne hother] at hplacing
        rw [interpreterFrom_of_ne hother, rootFrom_of_ne hother]
        exact ih hplacing

theorem mem_of_placing? (hplacing : placing? deeds id = some (d, earlier)) :
    d ∈ deeds ∧ d.placed? = some id := by
  induction deeds with
  | nil => cases hplacing
  | cons other rest ih =>
      by_cases hother : other.placed? = some id
      · rw [placing?_self hother] at hplacing
        cases hplacing
        exact ⟨List.mem_cons_self, hother⟩
      · rw [placing?_of_ne hother] at hplacing
        obtain ⟨hmem, hplaced⟩ := ih hplacing
        exact ⟨List.mem_cons_of_mem _ hmem, hplaced⟩

/-- A session that is in the slot has its interpreter and its root from where the slot has them. So
had every session whose interpreter has been handed on. -/
structure Traced (deeds : List Deed) (session : Option Nat) : Prop where
  interpreter : ∀ {id}, session = some id → interpreterFrom deeds id = lastSwitch deeds
  root : ∀ {id}, session = some id → rootFrom deeds id = lastRooting deeds
  moved : ∀ {id n old new earlier}, placing? deeds id = some (.moved n old new, earlier) →
    interpreterFrom earlier old = lastSwitch earlier

namespace Traced

variable {session : Option Nat} {n old : Nat}

theorem empty (h : Traced deeds session) : Traced deeds none where
  interpreter := nofun
  root := nofun
  moved := h.moved

theorem skip (h : Traced deeds session) (hplaced : d.placed? = none)
    (hswitch : lastSwitch (d :: deeds) = lastSwitch deeds)
    (hroot : lastRooting (d :: deeds) = lastRooting deeds) : Traced (d :: deeds) session where
  interpreter {id} hid := by
    rw [interpreterFrom_of_ne (by simp [hplaced]), hswitch]
    exact h.interpreter hid
  root {id} hid := by
    rw [rootFrom_of_ne (by simp [hplaced]), hroot]
    exact h.root hid
  moved {id n old new earlier} hplacing := by
    rw [placing?_of_ne (by simp [hplaced])] at hplacing
    exact h.moved hplacing

theorem rooted (h : Traced deeds none) : Traced (.rooted n :: deeds) none where
  interpreter := nofun
  root := nofun
  moved hplacing := h.moved hplacing

theorem place (h : Traced deeds session) (hplaced : d.placed? = some id)
    (hinterpreter : interpreterFrom (d :: deeds) id = lastSwitch (d :: deeds))
    (hroot : rootFrom (d :: deeds) id = lastRooting (d :: deeds))
    (hmoved : ∀ {n old new}, d = .moved n old new → interpreterFrom deeds old = lastSwitch deeds) :
    Traced (d :: deeds) (some id) where
  interpreter hid := by
    cases hid
    exact hinterpreter
  root hid := by
    cases hid
    exact hroot
  moved {other n old new earlier} hplacing := by
    by_cases hother : d.placed? = some other
    · rw [placing?_self hother] at hplacing
      cases hplacing
      exact hmoved rfl
    · rw [placing?_of_ne hother] at hplacing
      exact h.moved hplacing

theorem switched (h : Traced deeds session) : Traced (.switched n id :: deeds) (some id) :=
  h.place rfl (if_pos rfl) (if_pos rfl) nofun

theorem created (h : Traced deeds session) : Traced (.created n id :: deeds) (some id) :=
  h.place rfl (if_pos rfl) (if_pos rfl) nofun

theorem handedOn (h : Traced deeds (some old)) : Traced (.moved n old id :: deeds) (some id) :=
  h.place rfl ((if_pos rfl).trans (h.interpreter rfl)) (if_pos rfl) fun heq => by
    cases heq
    exact h.interpreter rfl

end Traced

end Deed

namespace Router

variable {r r' : Router} {e : Event} {history : List Moment} {ds : List Deed}
  {session : Option Nat}

theorem traced_happens (h : Deed.Traced (deeds history) r.slot.session)
    (hsuccession : Succession r) (hhappens : Happens r e r') :
    Deed.Traced (deeds (⟨r, e, r'⟩ :: history)) r'.slot.session := by
  have heffect := hsuccession.effect hhappens
  unfold deeds
  rw [List.filterMap_cons]
  generalize Moment.deed? ⟨r, e, r'⟩ = deed at heffect
  cases heffect with
  | same hsame => exact hsame.slot ▸ h
  | failed hslot => exact (congrArg Slot.session hslot).trans (Succession.session_failedChange ..) ▸ h
  | retired _ _ _ hslot => exact hslot ▸ h
  | taken _ hslot => exact hslot ▸ h.empty
  | given _ hsame => exact hsame.slot ▸ h.skip rfl rfl rfl
  | refused _ hsame => exact hsame.slot ▸ h.skip rfl rfl rfl
  | rooted hnone hslot =>
      rw [hnone] at h
      rw [hslot, hnone]
      exact h.rooted
  | created _ _ hplaces => exact hplaces.slot ▸ h.created
  | switched hplaces => exact hplaces.slot ▸ h.switched
  | moved old hold _ hplaces =>
      rw [hold] at h
      exact hplaces.slot ▸ h.handedOn

theorem Run.traced {settings : Settings} {resolver : Resolver} {lifecycle : Lifecycle}
    (hrun : (Router.ofSettings settings resolver lifecycle).Run history r) :
    Deed.Traced (deeds history) r.slot.session :=
  hrun.invariant (P := fun history r => Deed.Traced (deeds history) r.slot.session)
    ⟨nofun, nofun, nofun⟩ fun hrun h hhappens => traced_happens h hrun.succession hhappens

def Asked (r : Router) (n : Nat) (call : Call) : Prop :=
  ∃ v, r.received? n = some v ∧ v.request.Makes call

theorem Asked.happens {n : Nat} {call : Call} (h : Asked r n call) (hnumbered : Numbered r)
    (hhappens : Happens r e r') : Asked r' n call := by
  obtain ⟨v, hv, hmakes⟩ := h
  obtain ⟨t, ht, _⟩ := received?_happens hnumbered hhappens hv
  exact ⟨_, ht, hmakes⟩

/-- Who probes an interpreter for the first session probes the one that the slot asks for. -/
def Probing (r : Router) : Prop :=
  ∀ ⦃n call path found⦄, r.task? n = some (.probing call path found) → r.slot.selection.Admits path

theorem Advance.selection {rest : Router} {n : Nat} {t t' : Task}
    (hadvance : Advance r e n t rest t') : rest.slot.selection = r.slot.selection ∨
      ∃ p kind path found, t = .changing p kind path found := by
  cases hadvance with
  | unchosen => exact .inl (by rw [Slot.failedChange_eq]; rfl)
  | unusable | switched | switchedFirst => exact .inr ⟨_, _, _, _, rfl⟩
  | given _ _ hgiven => exact .inl (by rw [hgiven.rest_eq])
  | givenLate _ _ hgiven => exact .inl (by rw [hgiven.rest_eq]; rfl)
  | created _ _ _ hgiven => exact .inl (by rw [hgiven.rest_eq]; rfl)
  | createdLate hgiven => exact .inl (by rw [hgiven.rest_eq]; rfl)
  | _ => exact .inl rfl

theorem Probing.happens (h : Probing r) (hlocks : Locks r) (hhappens : Happens r e r') :
    Probing r' := by
  intro m call path found hm
  cases hhappens with
  | arrived request tracked =>
      obtain ⟨hnew, _⟩ | ⟨_, hbefore⟩ := task?_arrived r request tracked hm
      · cases hnew
      · exact h hbefore
  | advanced he ht hadvance =>
      rename_i n t t' rest
      rw [hadvance.task? ht] at hm
      rw [put_slot]
      split at hm
      · have hstage : t' = .probing call path found := Option.some.inj hm
        have hholds : t'.holdsEnvironment := hstage ▸ rfl
        cases hadvance with
        | probing _ _ hstart =>
            cases hstage
            exact Resolver.admits_of_choose (Resolver.choose_of_unprobed hstart)
        | dispatched => simp [holdsEnvironment_firstStage] at hholds
        | given _ _ hgiven => simp [hgiven.holdsEnvironment] at hholds
        | givenLate _ _ hgiven => simp [hgiven.holdsEnvironment] at hholds
        | created _ _ _ hgiven => simp [hgiven.holdsEnvironment] at hholds
        | createdLate hgiven => simp [hgiven.holdsEnvironment] at hholds
        | _ => cases hstage
      · rename_i hne
        obtain hsame | ⟨p, kind, path, found, rfl⟩ := hadvance.selection
        · rw [hsame]
          exact h hm
        · exact (hne (hlocks.unique ht rfl hm rfl)).elim
  | _ => exact h hm

/-- The slot and the sessions have their roots and interpreters from requests that asked for them. -/
structure Grounded (ds : List Deed) (r : Router) : Prop where
  root : ∀ {b}, Deed.lastRooting ds = some b → Asked r b (.workspaceSet ⟨r.slot.root⟩)
  selection : ∀ {b}, Deed.lastSwitch ds = some b →
    ∃ p, Asked r b (.environmentSet p) ∧ r.slot.selection = p.selection
  sessionRoot : ∀ {id f b}, r.face? id = some f → Deed.rootFrom ds id = some b →
    Asked r b (.workspaceSet ⟨f.settings.root⟩)
  interpreter : ∀ {id f b}, r.face? id = some f → Deed.interpreterFrom ds id = some b →
    ∃ p, Asked r b (.environmentSet p) ∧ p.selection.Admits f.interpreter.path

namespace Grounded

variable {d : Deed} (h : Grounded ds r)
  (hasked : ∀ {n call}, Asked r n call → Asked r' n call)

include h hasked

theorem keep (hroot : r'.slot.root = r.slot.root) (hselection : r'.slot.selection = r.slot.selection)
    (hfaces : ∀ {id f}, r'.face? id = some f → ∃ f₀, r.face? id = some f₀ ∧
      f.settings = f₀.settings ∧ f.interpreter = f₀.interpreter) : Grounded ds r' where
  root hb := hroot ▸ hasked (h.root hb)
  selection hb := by
    obtain ⟨p, hp, hsame⟩ := h.selection hb
    exact ⟨p, hasked hp, hselection.trans hsame⟩
  sessionRoot hf hb := by
    obtain ⟨f₀, hf₀, hsettings, _⟩ := hfaces hf
    rw [hsettings]
    exact hasked (h.sessionRoot hf₀ hb)
  interpreter hf hb := by
    obtain ⟨f₀, hf₀, _, hinterpreter⟩ := hfaces hf
    obtain ⟨p, hp, hadmits⟩ := h.interpreter hf₀ hb
    exact ⟨p, hasked hp, hinterpreter ▸ hadmits⟩

theorem rooted {n : Nat} {root : Path} (hslot : r'.slot = { r.slot with root })
    (hface : ∀ id, r'.face? id = r.face? id) (hn : Asked r' n (.workspaceSet ⟨root⟩)) :
    Grounded (.rooted n :: ds) r' where
  root hb := by
    cases hb
    rw [hslot]
    exact hn
  selection hb := by
    obtain ⟨p, hp, hsame⟩ := h.selection hb
    rw [hslot]
    exact ⟨p, hasked hp, hsame⟩
  sessionRoot hf hb := hasked (h.sessionRoot ((hface _).symm.trans hf) hb)
  interpreter hf hb := by
    obtain ⟨p, hp, hadmits⟩ := h.interpreter ((hface _).symm.trans hf) hb
    exact ⟨p, hasked hp, hadmits⟩

theorem place {interpreter : Interpreter} {base : Slot}
    (hplaces : Places r r' interpreter base) (hplaced : d.placed? = some r.nextSession)
    (hroot : ∀ {b}, Deed.lastRooting (d :: ds) = some b → Asked r' b (.workspaceSet ⟨base.root⟩))
    (hselection : ∀ {b}, Deed.lastSwitch (d :: ds) = some b →
      ∃ p, Asked r' b (.environmentSet p) ∧ base.selection = p.selection)
    (hnewRoot : Deed.rootFrom (d :: ds) r.nextSession = Deed.lastRooting (d :: ds))
    (hnewInterpreter : ∀ {b}, Deed.interpreterFrom (d :: ds) r.nextSession = some b →
      ∃ p, Asked r' b (.environmentSet p) ∧ p.selection.Admits interpreter.path) :
    Grounded (d :: ds) r' where
  root hb := by
    rw [hplaces.slot]
    exact hroot hb
  selection hb := by
    rw [hplaces.slot]
    exact hselection hb
  sessionRoot {id f b} hf hb := by
    rw [hplaces.face?] at hf
    split at hf
    · rename_i hid
      cases hf
      rw [hid, hnewRoot] at hb
      exact hroot hb
    · rename_i hid
      rw [Deed.rootFrom_of_ne (by simpa [hplaced, eq_comm] using hid)] at hb
      exact hasked (h.sessionRoot hf hb)
  interpreter {id f b} hf hb := by
    rw [hplaces.face?] at hf
    split at hf
    · rename_i hid
      cases hf
      rw [hid] at hb
      exact hnewInterpreter hb
    · rename_i hid
      rw [Deed.interpreterFrom_of_ne (by simpa [hplaced, eq_comm] using hid)] at hb
      obtain ⟨p, hp, hadmits⟩ := h.interpreter hf hb
      exact ⟨p, hasked hp, hadmits⟩

omit h hasked

theorem skip (h : Grounded ds r) {d : Deed} (hplaced : d.placed? = none)
    (hswitch : Deed.lastSwitch (d :: ds) = Deed.lastSwitch ds)
    (hroot : Deed.lastRooting (d :: ds) = Deed.lastRooting ds) : Grounded (d :: ds) r where
  root hb := h.root (hroot ▸ hb)
  selection hb := h.selection (hswitch ▸ hb)
  sessionRoot hf hb := by
    rw [Deed.rootFrom_of_ne (by simp [hplaced])] at hb
    exact h.sessionRoot hf hb
  interpreter hf hb := by
    rw [Deed.interpreterFrom_of_ne (by simp [hplaced])] at hb
    exact h.interpreter hf hb

theorem asked_of_moving (hfitting : Fitting r) {n : Nat} {root : Path}
    (ht : r.task? n = some (.moving root)) : Asked r n (.workspaceSet ⟨root⟩) := by
  obtain ⟨v, hv, htask⟩ := exists_received ht
  have hsuits := hfitting hv
  rw [htask] at hsuits
  exact ⟨v, hv, hsuits⟩

theorem asked_of_changing (hfitting : Fitting r) {n : Nat} {p : EnvironmentParams}
    {kind : Option Kind} {path : Path} {found : Kind}
    (ht : r.task? n = some (.changing p kind path found)) :
    Asked r n (.environmentSet p) ∧ p.selection.Admits path := by
  obtain ⟨v, hv, htask⟩ := exists_received ht
  have hsuits := hfitting hv
  rw [htask] at hsuits
  exact ⟨⟨v, hv, hsuits.1⟩, hsuits.2⟩

theorem admits_of_madeFrom (hprobing : Probing r) {n : Nat} {interpreter : Interpreter}
    (hfrom : MadeFrom r n interpreter) : r.slot.selection.Admits interpreter.path := by
  obtain ⟨call, ht⟩ | ⟨view, hchoose⟩ := hfrom
  · exact hprobing ht
  · exact Resolver.admits_of_choose hchoose

theorem happens (h : Grounded (deeds history) r) (hnumbered : Numbered r)
    (hsuccession : Succession r) (hfitting : Fitting r) (hprobing : Probing r)
    (hhappens : Happens r e r') : Grounded (deeds (⟨r, e, r'⟩ :: history)) r' := by
  have hasked {n : Nat} {call : Call} (hbefore : Asked r n call) : Asked r' n call :=
    hbefore.happens hnumbered hhappens
  have hselected {b : Nat} (hbefore : Deed.lastSwitch (deeds history) = some b) :
      ∃ p, Asked r' b (.environmentSet p) ∧ r.slot.selection = p.selection := by
    obtain ⟨p, hp, hsame⟩ := h.selection hbefore
    exact ⟨p, hasked hp, hsame⟩
  have heffect := hsuccession.effect hhappens
  unfold deeds at h hselected ⊢
  rw [List.filterMap_cons]
  generalize Moment.deed? ⟨r, e, r'⟩ = deed at heffect
  cases heffect with
  | same hsame =>
      exact h.keep hasked (by rw [hsame.slot]) (by rw [hsame.slot])
        fun hf => ⟨_, (hsame.face? _).symm.trans hf, rfl, rfl⟩
  | failed hslot hface =>
      exact h.keep hasked (by rw [hslot, Slot.failedChange_eq]) (by rw [hslot, Slot.failedChange_eq])
        fun hf => ⟨_, (hface _).symm.trans hf, rfl, rfl⟩
  | retired id reason hid hslot hface =>
      refine h.keep hasked (by rw [hslot]) (by rw [hslot]) fun {other f} hf => ?_
      rw [hface] at hf
      split at hf
      · rename_i heq
        obtain ⟨f₀, hf₀, rfl⟩ := Option.map_eq_some_iff.mp hf
        exact ⟨f₀, heq ▸ hf₀, rfl, rfl⟩
      · exact ⟨f, hf, rfl, rfl⟩
  | taken _ hslot hface =>
      exact h.keep hasked (by rw [hslot]) (by rw [hslot])
        fun hf => ⟨_, (hface _).symm.trans hf, rfl, rfl⟩
  | given _ hsame =>
      exact (h.keep hasked (by rw [hsame.slot]) (by rw [hsame.slot])
        fun hf => ⟨_, (hsame.face? _).symm.trans hf, rfl, rfl⟩).skip rfl rfl rfl
  | refused _ hsame =>
      exact (h.keep hasked (by rw [hsame.slot]) (by rw [hsame.slot])
        fun hf => ⟨_, (hsame.face? _).symm.trans hf, rfl, rfl⟩).skip rfl rfl rfl
  | rooted _ hslot hface _ ht =>
      exact h.rooted hasked hslot hface (hasked (asked_of_moving hfitting ht))
  | created hnone hlast hplaces hfrom =>
      refine h.place hasked hplaces rfl (fun hb => hasked (h.root hb)) hselected (if_pos rfl) ?_
      intro b hb
      obtain ⟨p, hp, hsame⟩ := hselected (Deed.from_created.1.symm.trans hb)
      exact ⟨p, hp, hsame ▸ admits_of_madeFrom hprobing hfrom⟩
  | switched hplaces ht =>
      obtain ⟨hp, hadmits⟩ := asked_of_changing hfitting ht
      refine h.place hasked hplaces rfl (fun hb => hasked (h.root hb)) ?_ (if_pos rfl) ?_
      · intro b hb
        cases hb
        exact ⟨_, hasked hp, rfl⟩
      · intro b hb
        cases Deed.from_switched.1.symm.trans hb
        exact ⟨_, hasked hp, hadmits⟩
  | moved old hold hface hplaces ht =>
      refine h.place hasked hplaces rfl ?_ hselected (if_pos rfl) ?_
      · intro b hb
        cases hb
        exact hasked (asked_of_moving hfitting ht)
      · intro b hb
        obtain ⟨p, hp, hadmits⟩ := h.interpreter hface (Deed.from_moved.1.symm.trans hb)
        exact ⟨p, hasked hp, hadmits⟩

end Grounded

theorem Run.probing {settings : Settings} {resolver : Resolver} {lifecycle : Lifecycle}
    (hrun : (Router.ofSettings settings resolver lifecycle).Run history r) : Probing r :=
  hrun.invariant (P := fun _ r => Probing r) (fun _ _ _ _ ht => by cases ht) fun hrun h hhappens =>
    h.happens hrun.locks hhappens

theorem Run.grounded {settings : Settings} {resolver : Resolver} {lifecycle : Lifecycle}
    (hrun : (Router.ofSettings settings resolver lifecycle).Run history r) :
    Grounded (deeds history) r :=
  hrun.invariant (P := fun history r => Grounded (deeds history) r) ⟨nofun, nofun, nofun, nofun⟩
    fun hrun h hhappens =>
      h.happens hrun.numbered hrun.succession hrun.fitting hrun.probing hhappens

theorem Run.given_session {settings : Settings} {resolver : Resolver} {lifecycle : Lifecycle}
    (hrun : (Router.ofSettings settings resolver lifecycle).Run history r) {a id : Nat}
    (hgave : Gave history a id) : ∃ s, r.sessions.get? id = some s ∧
      (∀ b, Deed.interpreterFrom (deeds history) id = some b →
        ∃ p, Asked r b (.environmentSet p) ∧ p.selection.Admits s.interpreter.path) ∧
      ∀ b, Deed.rootFrom (deeds history) id = some b →
        Asked r b (.workspaceSet ⟨s.settings.root⟩) := by
  have hknown : (r.face? id).isSome := (hrun.succession.known id).mpr (hrun.ledger.gave hgave)
  obtain ⟨f, hf⟩ := Option.isSome_iff_exists.mp hknown
  obtain ⟨s, hs, rfl⟩ := Option.map_eq_some_iff.mp hf
  exact ⟨s, hs, fun b hb => hrun.grounded.interpreter hf hb,
    fun b hb => hrun.grounded.sessionRoot hf hb⟩

theorem Ledger.request_lt (h : Ledger history r) {a id : Nat} {d : Deed} (hgave : Gave history a id)
    (hmem : d ∈ deeds history) (hplaced : d.placed? = some id) (hchange : d.isChange) :
    d.request < a := by
  cases d with
  | switched n new =>
      cases hplaced
      exact h.order hgave (.inl hmem)
  | moved n old new =>
      cases hplaced
      exact h.order hgave (.inr ⟨old, hmem⟩)
  | rooted | created | given | refused => cases hchange

/-- A session that a deed has put in the slot has the interpreter or the root of change `b` if that
is what the deed brought, or what it left as the slot had it. -/
theorem from_iff (htraced : Deed.Traced ds session) {d : Deed} {earlier : List Deed} {id b : Nat}
    (hplacing : Deed.placing? ds id = some (d, earlier)) :
    (Deed.interpreterFrom ds id = some b ∨ Deed.rootFrom ds id = some b) ↔
      (d.isChange ∧ d.request = b) ∨ (d.isSwitch = false ∧ Deed.lastSwitch earlier = some b) ∨
        (d.isMove = false ∧ Deed.lastRooting earlier = some b) := by
  obtain ⟨_, hplaced⟩ := Deed.mem_of_placing? hplacing
  obtain ⟨hinterpreter, hroot⟩ := Deed.from_of_placing? hplacing
  rw [hinterpreter, hroot]
  cases d with
  | switched n new =>
      cases hplaced
      rw [Deed.from_switched.1, Deed.from_switched.2]
      simp [Deed.isChange, Deed.isSwitch, Deed.isMove, Deed.request]
  | moved n old new =>
      cases hplaced
      rw [Deed.from_moved.1, Deed.from_moved.2, htraced.moved hplacing]
      simp [Deed.isChange, Deed.isSwitch, Deed.isMove, Deed.request, or_comm]
  | created n new =>
      cases hplaced
      rw [Deed.from_created.1, Deed.from_created.2]
      simp [Deed.isChange, Deed.isSwitch, Deed.isMove]
  | rooted | given | refused => cases hplaced

/-- The session that a request was given has its interpreter and its root from changes that asked for
them. One of these came later than the request exactly if an earlier change, or a request that made
the first session, has put that session in the slot: a change of the root when the slot had the later
interpreter, a change of the interpreter when it had the later root, and who makes the first session
when it had either. -/
theorem served_by_later_change_iff (settings : Settings) (resolver : Resolver)
    (lifecycle : Lifecycle) {history : List Moment} {r : Router}
    (hrun : (Router.ofSettings settings resolver lifecycle).Run history r) {a id : Nat}
    (hgave : Gave history a id) :
    (∃ s, r.sessions.get? id = some s ∧
      (∀ b, Deed.interpreterFrom (deeds history) id = some b →
        ∃ p, Asked r b (.environmentSet p) ∧ p.selection.Admits s.interpreter.path) ∧
      ∀ b, Deed.rootFrom (deeds history) id = some b →
        Asked r b (.workspaceSet ⟨s.settings.root⟩)) ∧
    ((∃ b, a < b ∧ (Deed.interpreterFrom (deeds history) id = some b ∨
      Deed.rootFrom (deeds history) id = some b)) ↔
    ∃ d earlier b, Deed.placing? (deeds history) id = some (d, earlier) ∧
      (d.isChange → d.request < a) ∧ a < b ∧
      (d.isSwitch = false ∧ Deed.lastSwitch earlier = some b ∨
        d.isMove = false ∧ Deed.lastRooting earlier = some b)) := by
  refine ⟨hrun.given_session hgave, ?_, ?_⟩
  · rintro ⟨b, hlater, hfrom⟩
    cases hplacing : Deed.placing? (deeds history) id with
    | none =>
        obtain ⟨hinterpreter, hroot⟩ := Deed.from_eq_none hplacing
        rw [hinterpreter, hroot] at hfrom
        simp at hfrom
    | some found =>
        obtain ⟨d, earlier⟩ := found
        obtain ⟨hmem, hplaced⟩ := Deed.mem_of_placing? hplacing
        have horder := hrun.ledger.request_lt hgave hmem hplaced
        refine ⟨d, earlier, b, rfl, horder, hlater, ?_⟩
        obtain ⟨hchange, hown⟩ | hslot := (from_iff hrun.traced hplacing).mp hfrom
        · -- What the change itself brought cannot be later: the change came before the request.
          have hbefore := horder hchange
          omega
        · exact hslot
  · rintro ⟨d, earlier, b, hplacing, _, hlater, hslot⟩
    exact ⟨b, hlater, (from_iff hrun.traced hplacing).mpr (.inr hslot)⟩

theorem served_by_later_change_handed_on :
    ∃ history r s, Trial.start.Run history r ∧ Gave history 3 3 ∧
      r.sessions.get? 3 = some s ∧ s.interpreter.path = ⟨"/new"⟩ ∧
      Deed.interpreterFrom (deeds history) 3 = some 4 ∧
      ∃ d earlier b, Deed.placing? (deeds history) 3 = some (d, earlier) ∧
        (d.isChange → d.request < 3) ∧ 3 < b ∧
        (d.isSwitch = false ∧ Deed.lastSwitch earlier = some b ∨
          d.isMove = false ∧ Deed.lastRooting earlier = some b) := by
  have hrun := run_play Trial.start Trial.handedOn
  have hgave : Gave (Trial.start.play Trial.handedOn).1 3 3 := .inl (by decide)
  have hfrom : Deed.interpreterFrom (deeds (Trial.start.play Trial.handedOn).1) 3 = some 4 := rfl
  obtain ⟨⟨s, hs, hinterpreter, _⟩, hiff⟩ := served_by_later_change_iff _ _ _ hrun hgave
  have hpath : s.interpreter.path = ⟨"/new"⟩ := by
    obtain ⟨p, ⟨v, hv, hmakes⟩, hadmits⟩ := hinterpreter 4 hfrom
    cases hv
    cases hmakes
    exact hadmits _ rfl
  exact ⟨_, _, s, hrun, hgave, hs, hpath, hfrom, hiff.mp ⟨4, by decide, .inl hfrom⟩⟩

end Router

end CodeAssist
