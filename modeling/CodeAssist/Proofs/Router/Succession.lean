import CodeAssist.Proofs.Router.Deed

namespace CodeAssist

/-! One session after another: at most one is there to serve requests, and each that was replaced or
taken away gets retired. -/

namespace Router

/-- Sessions are numbered from 1 in the order in which they are made, each under its number. The
one in the slot is the last, is not retired and has the root of the slot, and no failure is kept
beside it. Those that are neither in the slot nor retired are about to be retired. -/
structure Succession (r : Router) : Prop where
  one_le : 0 < r.nextSession
  filed : ∀ {id f}, r.face? id = some f → f.id = id
  known : ∀ id, (r.face? id).isSome ↔ 0 < id ∧ id < r.nextSession
  current : ∀ {id}, r.slot.session = some id → id + 1 = r.nextSession ∧
    r.slot.lastError = none ∧
    ∃ f, r.face? id = some f ∧ f.retired = none ∧ f.settings.root = r.slot.root
  vacant : ∀ {n call path found}, r.task? n = some (.probing call path found) →
    r.slot.session = none ∧ r.slot.lastError = none
  replaced : ∀ {n old new}, r.task? n = some (.replacing old new) → old + 1 < r.nextSession
  taken : ∀ {id}, r.drain = .retiring id → id < r.nextSession ∧ r.slot.session ≠ some id
  others : ∀ {id f}, r.face? id = some f → f.retired = none → r.slot.session = some id ∨
    (∃ n new, r.task? n = some (.replacing id new)) ∨ r.drain = .retiring id

section effects

variable {r r' rest : Router} {n : Nat} {t' : Task}

theorem Same.put (hslot : rest.slot = r.slot) (hsessions : rest.sessions = r.sessions)
    (hnext : rest.nextSession = r.nextSession) : Same r (rest.put n t') where
  slot := (put_slot ..).trans hslot
  face? id := by rw [Router.face?, put_sessions, hsessions]; rfl
  nextSession := (put_nextSession ..).trans hnext

theorem Same.unlock (r : Router) (n : Nat) (t : Task) : Same r (r.unlock.put n t) :=
  .put rfl rfl rfl

theorem Given.same {call : Call} {id : Nat} (hfiled : r.sessions.Filed)
    (hgiven : Given r call id rest t') : Same r rest := by
  cases hgiven with
  | asked hq hs => exact ⟨rfl, Sessions.face?_put_of_face_eq hfiled hs (Session.face_start ..), rfl⟩
  | told => exact ⟨rfl, fun _ => rfl, rfl⟩

theorem face?_install (r : Router) (interpreter : Interpreter) (id : Nat) :
    (r.install interpreter).face? id =
      if id = r.nextSession then some (r.newFace interpreter r.slot.root) else r.face? id :=
  Sessions.face?_put ..

theorem Places.switchTo (r : Router) (resolver : Resolver) (n : Nat) (p : EnvironmentParams)
    (kind : Option Kind) (interpreter : Interpreter) :
    Places r ({ r with resolver }.switchTo n p kind interpreter) interpreter
      { r.slot with selection := p.selection, kind, lastError := none, since := n } where
  slot := rfl
  face? := face?_install { r with resolver } interpreter
  nextSession := rfl

theorem Places.movedTo (r : Router) (n : Nat) (root : Path) (interpreter : Interpreter) :
    Places r (r.movedTo n root interpreter) interpreter { r.slot with root, since := n } where
  slot := rfl
  face? := face?_install { r with slot := { r.slot with root } } interpreter
  nextSession := rfl

theorem Places.install (r : Router) (resolver : Resolver) (interpreter : Interpreter) :
    Places r ({ r with resolver }.install interpreter) interpreter r.slot where
  slot := rfl
  face? := face?_install { r with resolver } interpreter
  nextSession := rfl

theorem Places.trans {interpreter : Interpreter} {base : Slot} (hplaces : Places r rest interpreter base)
    (hsame : Same rest r') : Places r r' interpreter base where
  slot := hsame.slot.trans hplaces.slot
  face? id := (hsame.face? id).trans (hplaces.face? id)
  nextSession := hsame.nextSession.trans hplaces.nextSession

theorem Places.put {interpreter : Interpreter} {base : Slot} {middle : Router}
    (hplaces : Places r middle interpreter base) (hslot : rest.slot = middle.slot)
    (hsessions : rest.sessions = middle.sessions)
    (hnext : rest.nextSession = middle.nextSession) :
    Places r (rest.put n t') interpreter base :=
  hplaces.trans (.put hslot hsessions hnext)

theorem Same.trans (hfirst : Same r rest) (hsecond : Same rest r') : Same r r' where
  slot := hsecond.slot.trans hfirst.slot
  face? id := (hsecond.face? id).trans (hfirst.face? id)
  nextSession := hsecond.nextSession.trans hfirst.nextSession

end effects

namespace Succession

variable {r r' : Router} {e : Event}

theorem ofSettings (settings : Settings) (resolver : Resolver) (lifecycle : Lifecycle) :
    Succession (Router.ofSettings settings resolver lifecycle) where
  one_le := Nat.one_pos
  filed hf := by cases hf
  known id := by
    constructor
    · intro hf
      cases hf
    · intro hid
      have : id < 1 := hid.2
      omega
  current hid := by cases hid
  vacant ht := by cases ht
  replaced ht := by cases ht
  taken hdrain := by cases hdrain
  others hf := by cases hf

theorem sessions_filed (h : Succession r) : r.sessions.Filed :=
  Sessions.filed_of_face? fun hf => h.filed hf

theorem lt_of_get? (h : Succession r) {id : Nat} {s : Session}
    (hs : r.sessions.get? id = some s) : id < r.nextSession := by
  have hknown : (r.face? id).isSome := by
    rw [Router.face?, Sessions.face?, hs]
    rfl
  exact ((h.known id).mp hknown).2

theorem not_current_of_replacing (h : Succession r) {n old new : Nat}
    (ht : r.task? n = some (.replacing old new)) : r.slot.session ≠ some old := by
  intro hcurrent
  have hlast := (h.current hcurrent).1
  have hearlier := h.replaced ht
  omega

theorem usable_eq_none {slot : Slot} {n : Nat} (husable : slot.usable n = .ok none) :
    slot.session = none ∧ slot.lastError = none := by
  unfold Slot.usable at husable
  split at husable
  · split at husable <;> cases husable
  · cases husable
  · rename_i hsession hlast
    exact ⟨hsession, hlast⟩

theorem reading?_none {slot : Slot} (hsession : slot.session = none) (n : Nat) :
    slot.reading? n = none := by
  unfold Slot.reading? Slot.usable
  rw [hsession]
  cases slot.lastError <;> rfl

theorem current_session (h : Succession r) {id : Nat} (hid : r.slot.session = some id) :
    ∃ s, r.sessions.get? id = some s ∧ s.id = id := by
  obtain ⟨_, _, f, hf, _⟩ := h.current hid
  obtain ⟨s, hs, _⟩ := Option.map_eq_some_iff.mp hf
  exact ⟨s, hs, h.sessions_filed hs⟩

theorem placed?_eq_none (hsession : r'.slot.session = r.slot.session) :
    Moment.placed? ⟨r, e, r'⟩ = none := by
  unfold Moment.placed?
  rw [if_pos hsession]

theorem session_failedChange (slot : Slot) (cause : EnvironmentFailure) :
    (slot.failedChange cause).session = slot.session := by
  rw [slot.failedChange_eq]

theorem placed?_of_places (h : Succession r) {interpreter : Interpreter} {base : Slot}
    (hplaces : Places r r' interpreter base) :
    Moment.placed? ⟨r, e, r'⟩ = some r.nextSession := by
  have hnew : r'.slot.session = some r.nextSession := by rw [hplaces.slot]
  have hne : r'.slot.session ≠ r.slot.session := by
    intro heq
    have hlast := (h.current (heq.symm.trans hnew)).1
    omega
  unfold Moment.placed?
  rw [if_neg hne]
  exact hnew

theorem effect_reading (hsame : Same r r') (n : Nat) : Effect r (r.slot.reading? n) r' := by
  unfold Slot.reading?
  split
  · rename_i id husable
    exact .given husable hsame
  · rename_i husable
    exact .refused husable hsame
  · exact .same hsame

theorem install_filed (h : Succession r) (resolver : Resolver) (interpreter : Interpreter) :
    ({ r with resolver }.install interpreter).sessions.Filed := by
  refine Sessions.filed_of_face? fun {id f} hf => ?_
  have hface := ((Places.install r resolver interpreter).face? id).symm.trans hf
  split at hface
  · rename_i hid
    cases hface
    exact hid.symm
  · exact h.filed hface

theorem places_given (h : Succession r) {resolver : Resolver} {interpreter : Interpreter}
    {call : Call} {rest : Router} {t' : Task}
    (hgiven : Given ({ r with resolver }.install interpreter) call r.nextSession rest t')
    (n : Nat) : Places r (rest.unlock.put n t') interpreter r.slot := by
  have hgave := hgiven.same (h.install_filed resolver interpreter)
  exact (Places.install r resolver interpreter).trans (hgave.trans (.unlock ..))

theorem effect_switched (h : Succession r) {n : Nat} {p : EnvironmentParams}
    {kind : Option Kind} {interpreter : Interpreter}
    (hplaces : Places r r' interpreter { r.slot with
      selection := p.selection, kind, lastError := none, since := n })
    (ht : r.task? n = some (.changing p kind interpreter.path interpreter.kind)) :
    Effect r ((Moment.placed? ⟨r, e, r'⟩).map (.switched n)) r' := by
  rw [h.placed?_of_places hplaces]
  exact .switched hplaces ht

theorem effect_moved (h : Succession r) {n : Nat} {root : Path} {current : Session}
    (hcurrent : r.slot.session.bind r.sessions.get? = some current)
    (hplaces : Places r r' current.interpreter { r.slot with root, since := n })
    (ht : r.task? n = some (.moving root)) :
    Effect r (Moment.deedAt? ⟨r, e, r'⟩ n (.moving root)) r' := by
  obtain ⟨id, hid, hs⟩ := Option.bind_eq_some_iff.mp hcurrent
  have hfiled : current.id = id := h.sessions_filed hs
  subst hfiled
  have hface : r.face? current.id = some current.face := by
    rw [Router.face?, Sessions.face?, hs]
    rfl
  simp only [Moment.deedAt?, h.placed?_of_places hplaces, hid]
  exact .moved current.face hid hface hplaces ht

theorem effect_rooted (h : Succession r) {n : Nat} {root : Path}
    (hvacant : r.slot.session.bind r.sessions.get? = none)
    (hslot : r'.slot = { r.slot with root }) (hface : ∀ id, r'.face? id = r.face? id)
    (hnext : r'.nextSession = r.nextSession) (ht : r.task? n = some (.moving root)) :
    Effect r (Moment.deedAt? ⟨r, e, r'⟩ n (.moving root)) r' := by
  have hsession : r.slot.session = none := by
    cases hid : r.slot.session with
    | none => rfl
    | some id =>
        obtain ⟨s, hs, _⟩ := h.current_session hid
        rw [hid, Option.bind_some, hs] at hvacant
        cases hvacant
  simp only [Moment.deedAt?, hsession]
  exact .rooted hsession hslot hface hnext ht

theorem effect_retired (h : Succession r) {id : Nat} {reason : Reason}
    (hid : r.slot.session ≠ some id) (hslot : r'.slot = r.slot)
    (hsessions : r'.sessions = r.sessions.retire id reason)
    (hnext : r'.nextSession = r.nextSession) : Effect r none r' := by
  refine .retired id reason hid hslot (fun other => ?_) hnext
  rw [Router.face?, hsessions]
  exact Sessions.face?_retire h.sessions_filed id reason other

theorem effect_advance (h : Succession r) {n : Nat} {t t' : Task} {rest : Router}
    (ht : r.task? n = some t) (hadvance : Advance r e n t rest t') :
    Effect r (Moment.deedAt? ⟨r, e, rest.put n t'⟩ n t) (rest.put n t') := by
  have hsame (h1 : rest.slot = r.slot) (h2 : rest.sessions = r.sessions)
      (h3 : rest.nextSession = r.nextSession) : Same r (rest.put n t') := .put h1 h2 h3
  have hnone (hsession : rest.slot.session = r.slot.session) :
      Moment.placed? ⟨r, e, rest.put n t'⟩ = none :=
    placed?_eq_none ((congrArg Slot.session (put_slot ..)).trans hsession)
  cases hadvance with
  | dispatched | locked | creating | shutDown | notFolder | moving | retiredBefore | drained
  | collected => exact .same (hsame rfl rfl rfl)
  | unchosen | unusable =>
      rw [Moment.deedAt?, hnone (session_failedChange ..)]
      exact .failed (put_slot ..) (fun id => by rw [Router.face?, put_sessions]; rfl)
        (put_nextSession ..)
  | changing =>
      rw [Moment.deedAt?, hnone rfl]
      exact .same (hsame rfl rfl rfl)
  | switched => exact h.effect_switched ((Places.switchTo ..).put rfl rfl rfl) ht
  | switchedFirst => exact h.effect_switched ((Places.switchTo ..).put rfl rfl rfl) ht
  | rooted hfree hvacant =>
      exact h.effect_rooted hvacant (put_slot ..)
        (fun id => by rw [Router.face?, put_sessions]; rfl) (put_nextSession ..) ht
  | moved hfree hcurrent =>
      exact h.effect_moved hcurrent ((Places.movedTo ..).put rfl rfl rfl) ht
  | retires =>
      exact h.effect_retired (h.not_current_of_replacing ht) (put_slot ..) (put_sessions ..)
        (put_nextSession ..)
  | refused | absent => exact effect_reading (hsame rfl rfl rfl) n
  | given _ _ hgiven =>
      exact effect_reading ((hgiven.same h.sessions_filed).trans (.put rfl rfl rfl)) n
  | refusedLate | unresolved | probing =>
      rw [Moment.deedAt?, hnone rfl]
      exact effect_reading (hsame rfl rfl rfl) n
  | givenLate _ _ hgiven =>
      have hgave := hgiven.same h.sessions_filed
      rw [Moment.deedAt?, hnone (congrArg Slot.session hgave.slot)]
      exact effect_reading (hgave.trans (.unlock ..)) n
  | created _ husable hstart hgiven =>
      have hplaces := h.places_given hgiven n
      rw [Moment.deedAt?, h.placed?_of_places hplaces]
      exact .created (usable_eq_none husable).1 (usable_eq_none husable).2 hplaces
        (.inr ⟨_, Resolver.choose_of_found hstart⟩)
  | unprobed =>
      rw [Moment.deedAt?, hnone rfl, reading?_none (h.vacant ht).1]
      exact .same (hsame rfl rfl rfl)
  | createdLate hgiven =>
      have hplaces := h.places_given hgiven n
      rw [Moment.deedAt?, h.placed?_of_places hplaces]
      exact .created (h.vacant ht).1 (h.vacant ht).2 hplaces (.inl ⟨_, ht⟩)

theorem effect (h : Succession r) (hhappens : Happens r e r') :
    Effect r (Moment.deed? ⟨r, e, r'⟩) r' := by
  have hdeed (he : e.request? = none) : Moment.deed? ⟨r, e, r'⟩ = none := by
    simp [Moment.deed?, he]
  cases hhappens with
  | advanced he ht hadvance =>
      rw [Moment.deed?_eq he ht]
      exact h.effect_advance ht hadvance
  | arrived => exact hdeed rfl ▸ .same ⟨rfl, fun _ => rfl, rfl⟩
  | worked hstep =>
      exact hdeed rfl ▸ .same ⟨rfl, Sessions.face?_step? h.sessions_filed hstep, rfl⟩
  | lifecycle => exact hdeed rfl ▸ .same ⟨rfl, fun _ => rfl, rfl⟩
  | drainWaits he => exact hdeed he ▸ .same ⟨rfl, fun _ => rfl, rfl⟩
  | drainCloses => exact hdeed rfl ▸ .same ⟨rfl, fun _ => rfl, rfl⟩
  | drainTakes _ _ hsession => exact hdeed rfl ▸ .taken hsession rfl (fun _ => rfl) rfl
  | drainRetiredBefore => exact hdeed rfl ▸ .same ⟨rfl, fun _ => rfl, rfl⟩
  | drainRetires hdrain =>
      exact hdeed rfl ▸ h.effect_retired (h.taken hdrain).2 rfl rfl rfl

theorem effect_faces {deed : Option Deed} (heffect : Effect r deed r') :
    (r'.nextSession = r.nextSession ∧ ∀ id, r'.face? id = r.face? id ∨
      r.slot.session ≠ some id ∧ ∃ reason, r'.face? id = (r.face? id).map (·.retire reason)) ∨
    ∃ interpreter base, Places r r' interpreter base := by
  cases heffect with
  | same hsame => exact .inl ⟨hsame.nextSession, fun id => .inl (hsame.face? id)⟩
  | failed _ hface hnext => exact .inl ⟨hnext, fun id => .inl (hface id)⟩
  | retired id reason hid _ hface hnext =>
      refine .inl ⟨hnext, fun other => ?_⟩
      by_cases heq : other = id
      · subst heq
        exact .inr ⟨hid, reason, (hface other).trans (if_pos rfl)⟩
      · exact .inl ((hface other).trans (if_neg heq))
  | taken _ _ hface hnext => exact .inl ⟨hnext, fun id => .inl (hface id)⟩
  | given _ hsame => exact .inl ⟨hsame.nextSession, fun id => .inl (hsame.face? id)⟩
  | refused _ hsame => exact .inl ⟨hsame.nextSession, fun id => .inl (hsame.face? id)⟩
  | rooted _ _ hface hnext => exact .inl ⟨hnext, fun id => .inl (hface id)⟩
  | created _ _ hplaces => exact .inr ⟨_, _, hplaces⟩
  | switched hplaces => exact .inr ⟨_, _, hplaces⟩
  | moved _ _ _ hplaces => exact .inr ⟨_, _, hplaces⟩

theorem nextSession_le {deed : Option Deed} (heffect : Effect r deed r') :
    r.nextSession ≤ r'.nextSession := by
  obtain ⟨hnext, _⟩ | ⟨_, _, hplaces⟩ := effect_faces heffect
  · exact Nat.le_of_eq hnext.symm
  · exact hplaces.nextSession ▸ Nat.le_succ _

theorem face?_of_effect {deed : Option Deed} (heffect : Effect r deed r') {id : Nat}
    {f : Session.Face} (hf : r'.face? id = some f) (hopen : f.retired = none) :
    r.face? id = some f ∨ r'.slot.session = some id := by
  obtain ⟨_, hfaces⟩ | ⟨_, _, hplaces⟩ := effect_faces heffect
  · obtain hsame | ⟨_, reason, hretire⟩ := hfaces id
    · exact .inl (hsame.symm.trans hf)
    · obtain ⟨f₀, _, heq⟩ := Option.map_eq_some_iff.mp (hretire.symm.trans hf)
      subst heq
      simp [Session.Face.retire] at hopen
  · rw [hplaces.face?] at hf
    split at hf
    · rename_i hid
      exact .inr (by rw [hplaces.slot, hid])
    · exact .inl hf

theorem effect_filed (h : Succession r) {deed : Option Deed} (heffect : Effect r deed r')
    {id : Nat} {f : Session.Face} (hf : r'.face? id = some f) : f.id = id := by
  obtain ⟨_, hfaces⟩ | ⟨_, _, hplaces⟩ := effect_faces heffect
  · obtain hsame | ⟨_, reason, hretire⟩ := hfaces id
    · exact h.filed (hsame.symm.trans hf)
    · obtain ⟨f₀, hf₀, heq⟩ := Option.map_eq_some_iff.mp (hretire.symm.trans hf)
      subst heq
      have hid : f₀.id = id := h.filed hf₀
      exact hid
  · rw [hplaces.face?] at hf
    split at hf
    · rename_i hid
      cases hf
      exact hid.symm
    · exact h.filed hf

theorem effect_known (h : Succession r) {deed : Option Deed} (heffect : Effect r deed r')
    (id : Nat) : (r'.face? id).isSome ↔ 0 < id ∧ id < r'.nextSession := by
  have hknown := h.known id
  obtain ⟨hnext, hfaces⟩ | ⟨_, _, hplaces⟩ := effect_faces heffect
  · rw [hnext, ← hknown]
    obtain hsame | ⟨_, reason, hretire⟩ := hfaces id
    · rw [hsame]
    · rw [hretire, Option.isSome_map]
  · have hpos := h.one_le
    rw [hplaces.face?, hplaces.nextSession]
    split
    · rename_i hid
      simp only [Option.isSome_some, true_iff]
      omega
    · rw [hknown]
      omega

theorem effect_current (h : Succession r) {deed : Option Deed} (heffect : Effect r deed r')
    {id : Nat} (hid : r'.slot.session = some id) : id + 1 = r'.nextSession ∧
      r'.slot.lastError = none ∧
      ∃ f, r'.face? id = some f ∧ f.retired = none ∧ f.settings.root = r'.slot.root := by
  have hkept (hslot : r'.slot = r.slot) (hface : r'.face? id = r.face? id)
      (hnext : r'.nextSession = r.nextSession) : id + 1 = r'.nextSession ∧
      r'.slot.lastError = none ∧
      ∃ f, r'.face? id = some f ∧ f.retired = none ∧ f.settings.root = r'.slot.root := by
    rw [hslot, hface, hnext]
    exact h.current (hslot ▸ hid)
  have hplaced {interpreter : Interpreter} {base : Slot}
      (hplaces : Places r r' interpreter base) (hlast : base.lastError = none) : id + 1 = r'.nextSession ∧
      r'.slot.lastError = none ∧
      ∃ f, r'.face? id = some f ∧ f.retired = none ∧ f.settings.root = r'.slot.root := by
    have heq : r.nextSession = id := by
      rw [hplaces.slot] at hid
      exact Option.some.inj hid
    rw [hplaces.nextSession, hplaces.slot, hplaces.face?, if_pos heq.symm, heq]
    exact ⟨rfl, hlast, _, rfl, rfl, rfl⟩
  cases heffect with
  | same hsame => exact hkept hsame.slot (hsame.face? id) hsame.nextSession
  | failed hslot hface hnext =>
      refine hkept ?_ (hface id) hnext
      have hsome : r.slot.session.isSome := by
        rw [hslot, session_failedChange] at hid
        rw [hid]
        rfl
      rw [hslot, Slot.failedChange, if_pos hsome]
  | retired other _ hother hslot hface hnext =>
      refine hkept hslot ((hface id).trans (if_neg ?_)) hnext
      intro heq
      rw [hslot, heq] at hid
      exact hother hid
  | taken _ hslot =>
      rw [hslot] at hid
      cases hid
  | given _ hsame => exact hkept hsame.slot (hsame.face? id) hsame.nextSession
  | refused _ hsame => exact hkept hsame.slot (hsame.face? id) hsame.nextSession
  | rooted hnone hslot =>
      rw [hslot] at hid
      cases hnone.symm.trans hid
  | created _ hlast hplaces => exact hplaced hplaces hlast
  | switched hplaces => exact hplaced hplaces rfl
  | moved _ hold _ hplaces => exact hplaced hplaces (h.current hold).2.1

/-- While request `m` holds the slot, no step of another changes it. -/
theorem slot_of_held (hlocks : Locks r) {m n : Nat} {t t' : Task} {rest : Router}
    (hheld : r.slotHolder = some m) (hne : m ≠ n) (ht : r.task? n = some t)
    (hadvance : Advance r e n t rest t') : rest.slot = r.slot := by
  have hbusy (hfree : r.slotHolder = none) : False := by
    rw [hheld] at hfree
    cases hfree
  have hother (hholds : t.holdsSlot) : False :=
    hne (Option.some.inj (hheld.symm.trans (hlocks.slot ht hholds)))
  cases hadvance with
  | unchosen hfree => exact (hbusy hfree).elim
  | rooted hfree => exact (hbusy hfree).elim
  | moved hfree => exact (hbusy hfree).elim
  | created hfree => exact (hbusy hfree).elim
  | unusable | switched | switchedFirst | createdLate => exact (hother rfl).elim
  | given _ _ hgiven => rw [hgiven.rest_eq]
  | givenLate _ _ hgiven => rw [hgiven.rest_eq]; rfl
  | _ => rfl

theorem advance_probing {n : Nat} {t t' : Task} {rest : Router} {call : Call} {path : Path}
    {found : Kind} (hadvance : Advance r e n t rest t') (ht' : t' = .probing call path found) :
    r.slot.usable n = .ok none ∧ rest.slot = r.slot := by
  cases hadvance with
  | dispatched =>
      have hfirst := congrArg Task.holdsEnvironment ht'
      rw [holdsEnvironment_firstStage] at hfirst
      cases hfirst
  | given _ _ hgiven => cases hgiven <;> cases ht'
  | givenLate _ _ hgiven => cases hgiven <;> cases ht'
  | created _ _ _ hgiven => cases hgiven <;> cases ht'
  | createdLate hgiven => cases hgiven <;> cases ht'
  | probing _ husable => exact ⟨husable, rfl⟩
  | _ => cases ht'

theorem advance_replacing (h : Succession r) {n : Nat} {t t' : Task} {rest : Router}
    {old new : Nat} (hadvance : Advance r e n t rest t') (ht' : t' = .replacing old new) :
    r.slot.session = some old ∧ rest.nextSession = r.nextSession + 1 := by
  cases hadvance with
  | dispatched =>
      have hfirst := congrArg Task.holdsEnvironment ht'
      rw [holdsEnvironment_firstStage] at hfirst
      cases hfirst
  | given _ _ hgiven => cases hgiven <;> cases ht'
  | givenLate _ _ hgiven => cases hgiven <;> cases ht'
  | created _ _ _ hgiven => cases hgiven <;> cases ht'
  | createdLate hgiven => cases hgiven <;> cases ht'
  | switched hold =>
      cases ht'
      exact ⟨hold, rfl⟩
  | moved _ hcurrent =>
      obtain ⟨id, hid, hs⟩ := Option.bind_eq_some_iff.mp hcurrent
      cases ht'
      exact ⟨hid.trans (congrArg some (h.sessions_filed hs).symm), rfl⟩
  | _ => cases ht'

theorem advance_replaced (h : Succession r) {n : Nat} {t t' : Task} {rest : Router} {id : Nat}
    (ht : r.task? n = some t) (hadvance : Advance r e n t rest t')
    (hid : r.slot.session = some id) (hgone : rest.slot.session ≠ some id) :
    ∃ new, t' = .replacing id new := by
  cases hadvance with
  | given _ _ hgiven => exact (hgone (hgiven.rest_eq ▸ hid)).elim
  | givenLate _ _ hgiven => exact (hgone (hgiven.rest_eq ▸ hid)).elim
  | unchosen => exact (hgone ((session_failedChange ..).trans hid)).elim
  | unusable => exact (hgone ((session_failedChange ..).trans hid)).elim
  | switched hold =>
      cases Option.some.inj (hold.symm.trans hid)
      exact ⟨_, rfl⟩
  | switchedFirst hnone => cases hnone.symm.trans hid
  | moved _ hcurrent =>
      obtain ⟨old, hold, hs⟩ := Option.bind_eq_some_iff.mp hcurrent
      have heq : old = id := Option.some.inj (hold.symm.trans hid)
      exact ⟨_, by rw [h.sessions_filed hs, heq]⟩
  | created _ husable => cases (usable_eq_none husable).1.symm.trans hid
  | createdLate => cases (h.vacant ht).1.symm.trans hid
  | _ => exact (hgone hid).elim

theorem isRetired_eq (r : Router) (id : Nat) :
    r.isRetired id = (r.face? id).all (·.retired.isSome) := by
  unfold isRetired Router.face? Sessions.face?
  cases r.sessions.get? id <;> rfl

theorem advance_retires (h : Succession r) {n : Nat} {t t' : Task} {rest : Router} {id new : Nat}
    (ht : t = .replacing id new) (hadvance : Advance r e n t rest t') {f : Session.Face}
    (hf : rest.face? id = some f) : f.retired ≠ none := by
  cases hadvance with
  | retiredBefore hretired =>
      cases ht
      have hface : r.face? id = some f := hf
      rw [isRetired_eq, hface] at hretired
      intro hopen
      simp [hopen] at hretired
  | retires =>
      cases ht
      have hface := (Sessions.face?_retire h.sessions_filed id .replaced id).symm.trans hf
      rw [if_pos rfl] at hface
      obtain ⟨f₀, _, heq⟩ := Option.map_eq_some_iff.mp hface
      subst heq
      simp [Session.Face.retire]
  | _ => cases ht

theorem session_of_effect {deed : Option Deed} (heffect : Effect r deed r') {id : Nat}
    (hid : r'.slot.session = some id) : r.slot.session = some id ∨ id = r.nextSession := by
  have hplaced {interpreter : Interpreter} {base : Slot}
      (hplaces : Places r r' interpreter base) : id = r.nextSession := by
    rw [hplaces.slot] at hid
    exact (Option.some.inj hid).symm
  cases heffect with
  | same hsame => exact .inl (hsame.slot ▸ hid)
  | failed hslot => exact .inl ((session_failedChange ..).symm.trans (hslot ▸ hid))
  | retired _ _ _ hslot => exact .inl (hslot ▸ hid)
  | taken _ hslot =>
      rw [hslot] at hid
      cases hid
  | given _ hsame => exact .inl (hsame.slot ▸ hid)
  | refused _ hsame => exact .inl (hsame.slot ▸ hid)
  | rooted _ hslot =>
      rw [hslot] at hid
      exact .inl hid
  | created _ _ hplaces => exact .inr (hplaced hplaces)
  | switched hplaces => exact .inr (hplaced hplaces)
  | moved _ _ _ hplaces => exact .inr (hplaced hplaces)

theorem advance_drain {n : Nat} {t t' : Task} {rest : Router}
    (hadvance : Advance r e n t rest t') : rest.drain = r.drain := by
  cases hadvance with
  | given _ _ hgiven => rw [hgiven.rest_eq]
  | givenLate _ _ hgiven => rw [hgiven.rest_eq]; rfl
  | created _ _ _ hgiven => rw [hgiven.rest_eq]; rfl
  | createdLate hgiven => rw [hgiven.rest_eq]; rfl
  | _ => rfl

/-- A session is left neither in the slot nor to be retired only when it has been retired. -/
theorem others_advance (h : Succession r) {n : Nat} {t t' : Task} {rest : Router}
    (ht : r.task? n = some t) (hadvance : Advance r e n t rest t') {id : Nat} {f : Session.Face}
    (hbefore : r.face? id = some f) (hf : (rest.put n t').face? id = some f)
    (hopen : f.retired = none) : (rest.put n t').slot.session = some id ∨
      (∃ m new, (rest.put n t').task? m = some (.replacing id new)) ∨
      (rest.put n t').drain = .retiring id := by
  have hface : rest.face? id = some f := by
    rw [← hf, Router.face?, Router.face?, put_sessions]
  rw [put_slot, put_drain, advance_drain hadvance]
  obtain hcurrent | ⟨m, new, hreplacing⟩ | hretiring := h.others hbefore hopen
  · by_cases hgone : rest.slot.session = some id
    · exact .inl hgone
    · obtain ⟨new, ht'⟩ := h.advance_replaced ht hadvance hcurrent hgone
      exact .inr (.inl ⟨n, new, by rw [hadvance.task? ht, if_pos rfl, ht']⟩)
  · by_cases hm : m = n
    · subst hm
      have hstage : t = .replacing id new := Option.some.inj (ht.symm.trans hreplacing)
      exact (h.advance_retires hstage hadvance hface hopen).elim
    · exact .inr (.inl ⟨m, new, by rw [hadvance.task? ht, if_neg hm, hreplacing]⟩)
  · exact .inr (.inr hretiring)

theorem vacant_happens (h : Succession r) (hlocks : Locks r) (hhappens : Happens r e r') {m : Nat}
    {call : Call} {path : Path} {found : Kind} (hm : r'.task? m = some (.probing call path found)) :
    r'.slot.session = none ∧ r'.slot.lastError = none := by
  cases hhappens with
  | arrived request tracked =>
      obtain ⟨hnew, _⟩ | ⟨_, hold⟩ := task?_arrived r request tracked hm
      · cases hnew
      · exact h.vacant hold
  | advanced he ht hadvance =>
      rw [hadvance.task? ht] at hm
      rw [put_slot]
      split at hm
      · obtain ⟨husable, hslot⟩ := advance_probing hadvance (Option.some.inj hm)
        rw [hslot]
        exact usable_eq_none husable
      · rename_i hne
        rw [slot_of_held hlocks (hlocks.slot hm rfl) hne ht hadvance]
        exact h.vacant hm
  | drainTakes _ hfree =>
      have hheld := hlocks.slot hm rfl
      cases hfree.symm.trans hheld
  | _ => exact h.vacant hm

theorem replaced_happens (h : Succession r) (hhappens : Happens r e r') {m old new : Nat}
    (hm : r'.task? m = some (.replacing old new)) : old + 1 < r'.nextSession := by
  have hle := nextSession_le (h.effect hhappens)
  cases hhappens with
  | arrived request tracked =>
      obtain ⟨hnew, _⟩ | ⟨_, hold⟩ := task?_arrived r request tracked hm
      · cases hnew
      · exact h.replaced hold
  | advanced he ht hadvance =>
      rw [hadvance.task? ht] at hm
      split at hm
      · obtain ⟨hold, hnext⟩ := h.advance_replacing hadvance (Option.some.inj hm)
        have hlast := (h.current hold).1
        rw [put_nextSession, hnext]
        omega
      · exact Nat.lt_of_lt_of_le (h.replaced hm) hle
  | _ => exact h.replaced hm

theorem taken_happens (h : Succession r) (hhappens : Happens r e r') {id : Nat}
    (hdrain : r'.drain = .retiring id) : id < r'.nextSession ∧ r'.slot.session ≠ some id := by
  have hle := nextSession_le (h.effect hhappens)
  have hkept (hbefore : r.drain = .retiring id) :
      id < r'.nextSession ∧ r'.slot.session ≠ some id := by
    obtain ⟨hlt, hother⟩ := h.taken hbefore
    refine ⟨Nat.lt_of_lt_of_le hlt hle, fun hid => ?_⟩
    obtain hsame | hnew := session_of_effect (h.effect hhappens) hid
    · exact hother hsame
    · omega
  cases hhappens with
  | advanced _ _ hadvance =>
      rw [put_drain, advance_drain hadvance] at hdrain
      exact hkept hdrain
  | drainWaits _ _ hto => exact (hto id hdrain).elim
  | drainTakes _ _ hsession =>
      have hlast := (h.current hsession).1
      cases hdrain
      refine ⟨?_, nofun⟩
      change _ < r.nextSession
      omega
  | drainCloses | drainRetiredBefore | drainRetires => cases hdrain
  | _ => exact hkept hdrain

theorem others_happens (h : Succession r) (hnumbered : Numbered r) (hhappens : Happens r e r')
    {id : Nat} {f : Session.Face} (hf : r'.face? id = some f) (hopen : f.retired = none) :
    r'.slot.session = some id ∨ (∃ n new, r'.task? n = some (.replacing id new)) ∨
      r'.drain = .retiring id := by
  obtain hbefore | hplaced := face?_of_effect (h.effect hhappens) hf hopen
  · have hcases := h.others hbefore hopen
    cases hhappens with
    | arrived request tracked =>
        refine hcases.imp_right (.imp_left ?_)
        rintro ⟨m, new, hm⟩
        exact ⟨m, new, hnumbered.task?_kept request tracked hm⟩
    | advanced _ ht hadvance => exact h.others_advance ht hadvance hbefore hf hopen
    | worked | lifecycle => exact hcases
    | drainWaits _ hfrom =>
        exact hcases.imp_right (.imp_right fun hretiring => (hfrom id hretiring).elim)
    | drainCloses hdrain =>
        exact hcases.imp_right (.imp_right fun hretiring => by cases hdrain.symm.trans hretiring)
    | drainTakes hdrain _ hsession =>
        obtain hcurrent | hreplacing | hretiring := hcases
        · cases hsession.symm.trans hcurrent
          exact .inr (.inr rfl)
        · exact .inr (.inl hreplacing)
        · cases hdrain.symm.trans hretiring
    | drainRetiredBefore hdrain hretired =>
        refine hcases.imp_right (.imp_right fun hretiring => ?_)
        cases hdrain.symm.trans hretiring
        simp [isRetired_eq, hbefore, hopen] at hretired
    | drainRetires hdrain =>
        refine hcases.imp_right (.imp_right fun hretiring => ?_)
        cases hdrain.symm.trans hretiring
        have hface := (Sessions.face?_retire h.sessions_filed id .shutdown id).symm.trans hf
        rw [if_pos rfl, ← Router.face?, hbefore] at hface
        have hreason := congrArg Session.Face.retired (Option.some.inj hface)
        rw [hopen] at hreason
        simp [Session.Face.retire, hopen] at hreason
  · exact .inl hplaced

theorem happens (h : Succession r) (hnumbered : Numbered r) (hlocks : Locks r)
    (hhappens : Happens r e r') : Succession r' where
  one_le := Nat.lt_of_lt_of_le h.one_le (nextSession_le (h.effect hhappens))
  filed hf := h.effect_filed (h.effect hhappens) hf
  known := h.effect_known (h.effect hhappens)
  current hid := h.effect_current (h.effect hhappens) hid
  vacant hm := h.vacant_happens hlocks hhappens hm
  replaced hm := h.replaced_happens hhappens hm
  taken hdrain := h.taken_happens hhappens hdrain
  others hf hopen := h.others_happens hnumbered hhappens hf hopen

end Succession

theorem Run.succession {settings : Settings} {resolver : Resolver} {lifecycle : Lifecycle}
    {history : List Moment} {r : Router}
    (hrun : (Router.ofSettings settings resolver lifecycle).Run history r) : Succession r :=
  hrun.invariant (P := fun _ r => Succession r) (.ofSettings ..) fun hrun h hhappens =>
    h.happens hrun.numbered hrun.locks hhappens

end Router

end CodeAssist
