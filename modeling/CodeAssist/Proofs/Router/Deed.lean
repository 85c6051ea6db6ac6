import CodeAssist.Proofs.Router.Run
import CodeAssist.Proofs.Session.Advance
import Mathlib.Tactic.Tauto

namespace CodeAssist

/-! What the steps of a run did to the slot and to those who read it, and what it was made of. -/

/-- What a step did: request `n` put a session with another interpreter in the slot, or one with
another root in place of an old one; it changed the root while there was no session; it made the
first session, and was given it; it was given the session it found; it was refused because it came
before the change that put the session there. -/
inductive Deed where
  | switched (n session : Nat)
  | moved (n old session : Nat)
  | rooted (n : Nat)
  | created (n session : Nat)
  | given (n session : Nat)
  | refused (n : Nat)
deriving DecidableEq, Repr

namespace Deed

def request : Deed → Nat
  | .switched n _ | .moved n _ _ | .rooted n | .created n _ | .given n _ | .refused n => n

/-- Whether a deed puts a session in the slot in place of what was there. -/
def isChange : Deed → Bool
  | .switched _ _ | .moved _ _ _ => true
  | .rooted _ | .created _ _ | .given _ _ | .refused _ => false

end Deed

/-- What comes of reading a slot for request `n`. -/
def Slot.reading? (slot : Slot) (n : Nat) : Option Deed :=
  match slot.usable n with
  | .ok (some id) => some (.given n id)
  | .error (.environment .sessionReplaced) => some (.refused n)
  | _ => none

namespace Moment

def placed? (m : Moment) : Option Nat :=
  if m.after.slot.session = m.before.slot.session then none else m.after.slot.session

/-- What a step did if it is that of request `n` and finds it at stage `t`. -/
def deedAt? (m : Moment) (n : Nat) (t : Task) : Option Deed :=
  match t with
  | .locked (.environmentSet _) | .changing _ _ _ _ => m.placed?.map (.switched n)
  | .moving _ =>
      match m.before.slot.session, m.placed? with
      | some old, some new => some (.moved n old new)
      | _, _ => some (.rooted n)
  | .wantsSession _ => m.before.slot.reading? n
  | .creating _ | .probing _ _ _ =>
      (m.placed?.map (.created n)).or (m.before.slot.reading? n)
  | _ => none

def deed? (m : Moment) : Option Deed := do
  let n ← m.event.request?
  let t ← m.before.task? n
  m.deedAt? n t

theorem deed?_eq {m : Moment} {n : Nat} {t : Task} (hn : m.event.request? = some n)
    (ht : m.before.task? n = some t) : m.deed? = m.deedAt? n t := by
  simp [deed?, hn, ht]

theorem deed_of_reading? {slot : Slot} {n : Nat} {d : Deed} (hreading : slot.reading? n = some d) :
    d.request = n ∧ d.isChange = false := by
  unfold Slot.reading? at hreading
  split at hreading <;> cases hreading <;> exact ⟨rfl, rfl⟩

theorem request_of_deedAt? {m : Moment} {n : Nat} {t : Task} {d : Deed}
    (hdeed : m.deedAt? n t = some d) : d.request = n := by
  unfold deedAt? at hdeed
  split at hdeed
  · obtain ⟨id, _, rfl⟩ := Option.map_eq_some_iff.mp hdeed
    rfl
  · obtain ⟨id, _, rfl⟩ := Option.map_eq_some_iff.mp hdeed
    rfl
  · split at hdeed <;> cases hdeed <;> rfl
  · exact (deed_of_reading? hdeed).1
  · obtain hcreated | ⟨_, hreading⟩ := Option.or_eq_some_iff.mp hdeed
    · obtain ⟨id, _, rfl⟩ := Option.map_eq_some_iff.mp hcreated
      rfl
    · exact (deed_of_reading? hreading).1
  · obtain hcreated | ⟨_, hreading⟩ := Option.or_eq_some_iff.mp hdeed
    · obtain ⟨id, _, rfl⟩ := Option.map_eq_some_iff.mp hcreated
      rfl
    · exact (deed_of_reading? hreading).1
  · cases hdeed

theorem stage_of_isChange {m : Moment} {n : Nat} {t : Task} {d : Deed}
    (hdeed : m.deedAt? n t = some d) (hchange : d.isChange) :
    (∃ p, t = .locked (.environmentSet p)) ∨ (∃ p kind path found, t = .changing p kind path found) ∨
      ∃ root, t = .moving root := by
  unfold deedAt? at hdeed
  split at hdeed
  · exact .inl ⟨_, rfl⟩
  · exact .inr (.inl ⟨_, _, _, _, rfl⟩)
  · exact .inr (.inr ⟨_, rfl⟩)
  · rw [(deed_of_reading? hdeed).2] at hchange
    cases hchange
  · obtain hcreated | ⟨_, hreading⟩ := Option.or_eq_some_iff.mp hdeed
    · obtain ⟨id, _, rfl⟩ := Option.map_eq_some_iff.mp hcreated
      cases hchange
    · rw [(deed_of_reading? hreading).2] at hchange
      cases hchange
  · obtain hcreated | ⟨_, hreading⟩ := Option.or_eq_some_iff.mp hdeed
    · obtain ⟨id, _, rfl⟩ := Option.map_eq_some_iff.mp hcreated
      cases hchange
    · rw [(deed_of_reading? hreading).2] at hchange
      cases hchange
  · cases hdeed

def deeds (history : List Moment) : List Deed := history.filterMap deed?

/-- Request `n` was given session `id`, which it found or made. -/
def Gave (history : List Moment) (n id : Nat) : Prop :=
  .given n id ∈ deeds history ∨ .created n id ∈ deeds history

/-- Change `n` put session `id` in the slot. -/
def Placed (history : List Moment) (n id : Nat) : Prop :=
  .switched n id ∈ deeds history ∨ ∃ old, .moved n old id ∈ deeds history

variable {m : Moment} {history : List Moment} {n id : Nat}

theorem mem_deeds_cons {d : Deed} :
    d ∈ deeds (m :: history) ↔ m.deed? = some d ∨ d ∈ deeds history := by
  unfold deeds
  cases hdeed : m.deed? with
  | none => simp [hdeed]
  | some other => simp [hdeed, eq_comm]

theorem gave_cons : Gave (m :: history) n id ↔
    m.deed? = some (.given n id) ∨ m.deed? = some (.created n id) ∨ Gave history n id := by
  simp only [Gave, mem_deeds_cons]
  tauto

theorem placed_cons : Placed (m :: history) n id ↔
    m.deed? = some (.switched n id) ∨ (∃ old, m.deed? = some (.moved n old id)) ∨
      Placed history n id := by
  simp only [Placed, mem_deeds_cons, exists_or]
  tauto

theorem not_gave_nil : ¬Gave [] n id := by
  simp [Gave, deeds]

theorem not_placed_nil : ¬Placed [] n id := by
  simp [Placed, deeds]

end Moment

namespace Router

def face? (r : Router) (id : Nat) : Option Session.Face := r.sessions.face? id

def newFace (r : Router) (interpreter : Interpreter) (root : Path) : Session.Face where
  id := r.nextSession
  interpreter := interpreter
  settings := { r.toolSettings with root }
  retired := none

/-- A step that leaves the slot, and what is seen of the sessions, as they are. -/
structure Same (r r' : Router) : Prop where
  slot : r'.slot = r.slot
  face? : ∀ id, r'.face? id = r.face? id
  nextSession : r'.nextSession = r.nextSession

/-- A step that makes a session and puts it in the slot. -/
structure Places (r r' : Router) (interpreter : Interpreter) (base : Slot) : Prop where
  slot : r'.slot = { base with session := some r.nextSession }
  face? : ∀ id, r'.face? id =
    if id = r.nextSession then some (r.newFace interpreter base.root) else r.face? id
  nextSession : r'.nextSession = r.nextSession + 1

/-- The interpreter of a first session is the one that was probed for it, or that its selection has
just been found to stand for. -/
def MadeFrom (r : Router) (n : Nat) (interpreter : Interpreter) : Prop :=
  (∃ call, r.task? n = some (.probing call interpreter.path interpreter.kind)) ∨
  ∃ view, r.resolver.choose view r.slot.selection r.slot.kind r.slot.root =
    .ok (interpreter.path, interpreter.kind)

/-- The deed of a step, and what it did to the slot and the sessions. -/
inductive Effect (r : Router) : Option Deed → Router → Prop
  | same {r' : Router} (hsame : Same r r') : Effect r none r'
  | failed {r' : Router} {cause : EnvironmentFailure}
      (hslot : r'.slot = r.slot.failedChange cause)
      (hface : ∀ id, r'.face? id = r.face? id) (hnext : r'.nextSession = r.nextSession) :
      Effect r none r'
  | retired {r' : Router} (id : Nat) (reason : Reason) (hid : r.slot.session ≠ some id)
      (hslot : r'.slot = r.slot)
      (hface : ∀ other, r'.face? other =
        if other = id then (r.face? id).map (·.retire reason) else r.face? other)
      (hnext : r'.nextSession = r.nextSession) : Effect r none r'
  | taken {r' : Router} {id : Nat} (hid : r.slot.session = some id)
      (hslot : r'.slot = { r.slot with session := none })
      (hface : ∀ id, r'.face? id = r.face? id) (hnext : r'.nextSession = r.nextSession) :
      Effect r none r'
  | given {r' : Router} {n id : Nat} (husable : r.slot.usable n = .ok (some id))
      (hsame : Same r r') : Effect r (some (.given n id)) r'
  | refused {r' : Router} {n : Nat}
      (husable : r.slot.usable n = .error (.environment .sessionReplaced))
      (hsame : Same r r') : Effect r (some (.refused n)) r'
  | rooted {r' : Router} {n : Nat} {root : Path} (hnone : r.slot.session = none)
      (hslot : r'.slot = { r.slot with root })
      (hface : ∀ id, r'.face? id = r.face? id) (hnext : r'.nextSession = r.nextSession)
      (ht : r.task? n = some (.moving root)) : Effect r (some (.rooted n)) r'
  | created {r' : Router} {n : Nat} {interpreter : Interpreter} (hnone : r.slot.session = none)
      (hlast : r.slot.lastError = none) (hplaces : Places r r' interpreter r.slot)
      (hfrom : MadeFrom r n interpreter) :
      Effect r (some (.created n r.nextSession)) r'
  | switched {r' : Router} {n : Nat} {interpreter : Interpreter} {p : EnvironmentParams}
      {kind : Option Kind}
      (hplaces : Places r r' interpreter { r.slot with
        selection := p.selection, kind, lastError := none, since := n })
      (ht : r.task? n = some (.changing p kind interpreter.path interpreter.kind)) :
      Effect r (some (.switched n r.nextSession)) r'
  | moved {r' : Router} {n : Nat} {root : Path} (old : Session.Face)
      (hold : r.slot.session = some old.id) (hface : r.face? old.id = some old)
      (hplaces : Places r r' old.interpreter { r.slot with root, since := n })
      (ht : r.task? n = some (.moving root)) :
      Effect r (some (.moved n old.id r.nextSession)) r'

end Router

end CodeAssist
