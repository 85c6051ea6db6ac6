import CodeAssist.Router.Step

namespace CodeAssist

def Event.request? : Event → Option Nat
  | .dispatch n | .lock n | .act n _ | .probed n _ | .retire n | .drained n | .overdue n
  | .look n | .collect n => some n
  | .arrive _ _ | .move _ _ _ | .lifecycle _ | .drainStart | .drainQuiet | .drainOverdue
  | .drainTake | .drainRetire | .drainDrained => none

def Call.needsSession : Call → Bool
  | .capabilities | .completion _ | .hover _ | .format _ | .diagnostics _ => true
  | .ping _ | .shutdown | .environmentSet _ | .workspaceSet _ => false

theorem Slot.failedChange_eq (slot : Slot) (cause : EnvironmentFailure) :
    slot.failedChange cause = { slot with lastError := (slot.failedChange cause).lastError } := by
  unfold Slot.failedChange
  split <;> rfl

namespace Router

section put

variable (r : Router) (n : Nat) (t : Task)

@[simp] theorem put_resolver : (r.put n t).resolver = r.resolver := by
  unfold put
  split <;> rfl

@[simp] theorem put_lifecycle : (r.put n t).lifecycle = r.lifecycle := by
  unfold put
  split <;> rfl

@[simp] theorem put_slot : (r.put n t).slot = r.slot := by
  unfold put
  split <;> rfl

@[simp] theorem put_sessions : (r.put n t).sessions = r.sessions := by
  unfold put
  split <;> rfl

@[simp] theorem put_nextSession : (r.put n t).nextSession = r.nextSession := by
  unfold put
  split <;> rfl

@[simp] theorem put_nextArrival : (r.put n t).nextArrival = r.nextArrival := by
  unfold put
  split <;> rfl

@[simp] theorem put_environmentHolder :
    (r.put n t).environmentHolder = r.environmentHolder := by
  unfold put
  split <;> rfl

@[simp] theorem put_slotHolder : (r.put n t).slotHolder = r.slotHolder := by
  unfold put
  split <;> rfl

@[simp] theorem put_drain : (r.put n t).drain = r.drain := by
  unfold put
  split <;> rfl

end put

theorem received?_put_self {r : Router} {n : Nat} {v : Received} (hv : r.received? n = some v)
    (t : Task) : (r.put n t).received? n = some { v with task := t } := by
  unfold put
  rw [hv]
  exact Table.lookup_put_self n { v with task := t } r.received

theorem received?_put_of_ne {m n : Nat} (hne : m ≠ n) (r : Router) (t : Task) :
    (r.put n t).received? m = r.received? m := by
  unfold put
  split
  · exact Table.lookup_put_of_ne hne _ r.received
  · rfl

theorem task?_put_of_ne {m n : Nat} (hne : m ≠ n) (r : Router) (t : Task) :
    (r.put n t).task? m = r.task? m := by
  rw [task?, received?_put_of_ne hne, task?]

theorem task?_of_received? {r : Router} {n : Nat} {v : Received} (hv : r.received? n = some v) :
    r.task? n = some v.task := by
  rw [task?, hv]
  rfl

theorem exists_received {r : Router} {n : Nat} {t : Task} (ht : r.task? n = some t) :
    ∃ v, r.received? n = some v ∧ v.task = t := by
  simpa [task?] using ht

theorem task?_put_self {r : Router} {n : Nat} {t : Task} (ht : r.task? n = some t)
    (t' : Task) : (r.put n t').task? n = some t' := by
  obtain ⟨v, hv, _⟩ := exists_received ht
  rw [task?, received?_put_self hv]
  rfl

theorem task?_put {r : Router} {n : Nat} {t : Task} (ht : r.task? n = some t) (t' : Task)
    (m : Nat) : (r.put n t').task? m = if m = n then some t' else r.task? m := by
  split
  case isTrue heq => rw [heq, task?_put_self ht]
  case isFalse hne => exact task?_put_of_ne hne r t'

theorem put_withEnvironmentHolder (r : Router) (n : Nat) (t : Task) (holder : Option Nat) :
    { r.put n t with environmentHolder := holder } =
      { r with environmentHolder := holder }.put n t := by
  have hsame : { r with environmentHolder := holder }.received? n = r.received? n := rfl
  unfold put
  rw [hsame]
  cases r.received? n <;> rfl

theorem put_withSlotHolder (r : Router) (n : Nat) (t : Task) (holder : Option Nat) :
    { r.put n t with slotHolder := holder } = { r with slotHolder := holder }.put n t := by
  have hsame : { r with slotHolder := holder }.received? n = r.received? n := rfl
  unfold put
  rw [hsame]
  cases r.received? n <;> rfl

theorem unlock_put (r : Router) (n : Nat) (t : Task) :
    (r.put n t).unlock = r.unlock.put n t :=
  (congrArg (fun r : Router => { r with slotHolder := none })
    (put_withEnvironmentHolder r n t none)).trans (put_withSlotHolder _ n t none)

/-- The stage that a request is sent to when it is looked at. -/
def firstStage (lifecycle : Lifecycle) (request : Request) : Task :=
  if request.method ≠ "shutdown" && !lifecycle.isReady then .done (.error .shuttingDown)
  else
    match Call.ofRequest request.method request.params with
    | .error cause => .done (.error cause)
    | .ok call =>
        if call.affectsEnvironment then .wantsLock call
        else
          match call with
          | .ping params => .done (.ok (if params.isNull then .text "pong" else params))
          | call => .wantsSession call

theorem dispatch_eq (r : Router) (n : Nat) (request : Request) :
    r.dispatch n request = r.put n (firstStage r.lifecycle request) := by
  unfold dispatch firstStage finish
  split
  · rfl
  · cases Call.ofRequest request.method request.params with
    | error cause => rfl
    | ok call => cases call <;> rfl

/-- A request ends at once, or waits for the lock or for a session as its call demands. One that
needs a session ends at once only because the engine is not ready. -/
theorem firstStage_cases (lifecycle : Lifecycle) (request : Request) :
    (∃ result, firstStage lifecycle request = .done result ∧
      ∀ call, Call.ofRequest request.method request.params = .ok call → call.needsSession →
        result = .error .shuttingDown) ∨
    (∃ call, Call.ofRequest request.method request.params = .ok call ∧
      call.affectsEnvironment ∧ firstStage lifecycle request = .wantsLock call) ∨
    ∃ call, Call.ofRequest request.method request.params = .ok call ∧ call.needsSession ∧
      firstStage lifecycle request = .wantsSession call := by
  unfold firstStage
  split
  · exact .inl ⟨_, rfl, fun _ _ _ => rfl⟩
  · cases hcall : Call.ofRequest request.method request.params with
    | error cause =>
        refine .inl ⟨_, rfl, fun call hok => ?_⟩
        cases hok
    | ok call =>
        cases call with
        | ping params =>
            refine .inl ⟨_, rfl, fun call hok hneeds => ?_⟩
            cases hok
            simp [Call.needsSession] at hneeds
        | shutdown => exact .inr (.inl ⟨_, rfl, rfl, rfl⟩)
        | environmentSet p => exact .inr (.inl ⟨_, rfl, rfl, rfl⟩)
        | workspaceSet p => exact .inr (.inl ⟨_, rfl, rfl, rfl⟩)
        | capabilities => exact .inr (.inr ⟨_, rfl, rfl, rfl⟩)
        | completion p => exact .inr (.inr ⟨_, rfl, rfl, rfl⟩)
        | hover p => exact .inr (.inr ⟨_, rfl, rfl, rfl⟩)
        | format p => exact .inr (.inr ⟨_, rfl, rfl, rfl⟩)
        | diagnostics p => exact .inr (.inr ⟨_, rfl, rfl, rfl⟩)

/-- What becomes of the router, and of a call that is given session `id`: a query is taken up by
the session, and all else is answered at once. -/
inductive Given (r : Router) (call : Call) (id : Nat) : Router → Task → Prop
  | asked {q : Query} {s : Session} (hq : call.query? = some q)
      (hs : r.sessions.get? id = some s) :
      Given r call id { r with sessions := r.sessions.put (s.start q) }
        (.serving call id s.invocations.length)
  | told (hnone : call.query? = none ∨ r.sessions.get? id = none) :
      Given r call id r (.done (.ok (r.info id)))

theorem serve_given (r : Router) (n : Nat) (call : Call) (id : Nat) :
    ∃ rest t, r.serve n call id = rest.put n t ∧ Given r call id rest t := by
  unfold serve
  split
  case h_1 q s hq hs => exact ⟨_, _, rfl, .asked hq hs⟩
  case h_2 hnot =>
      refine ⟨_, _, rfl, .told ?_⟩
      cases hq : call.query? with
      | none => exact .inl rfl
      | some q =>
          cases hs : r.sessions.get? id with
          | none => exact .inr rfl
          | some s => exact (hnot q s hq hs).elim

/-- The router in which change `n` has put a session with another interpreter in the slot. -/
def switchTo (r : Router) (n : Nat) (params : EnvironmentParams) (kind : Option Kind)
    (interpreter : Interpreter) : Router :=
  { r.install interpreter with
    slot := { (r.install interpreter).slot with
      selection := params.selection, kind, lastError := none, since := n } }

/-- The router in which change `n` has put a session with another root in the slot. -/
def movedTo (r : Router) (n : Nat) (root : Path) (interpreter : Interpreter) : Router :=
  let installed := { r with slot := { r.slot with root } }.install interpreter
  { installed with slot := { installed.slot with since := n } }

theorem replace_some (r : Router) (n old new : Nat) :
    r.replace n (some old) new = { r with slotHolder := none }.put n (.replacing old new) :=
  put_withSlotHolder r n _ none

theorem replace_none (r : Router) (n new : Nat) :
    r.replace n none new = r.unlock.put n (.done (.ok (r.info new))) := unlock_put r n _

theorem change_of_some {r : Router} {old : Nat} (hold : r.slot.session = some old) (n : Nat)
    (params : EnvironmentParams) (kind : Option Kind) (interpreter : Interpreter) :
    r.change n params kind interpreter =
      { r.switchTo n params kind interpreter with slotHolder := none }.put n
        (.replacing old r.nextSession) := by
  change (r.switchTo n params kind interpreter).replace n r.slot.session r.nextSession = _
  rw [hold, replace_some]

theorem change_of_none {r : Router} (hnone : r.slot.session = none) (n : Nat)
    (params : EnvironmentParams) (kind : Option Kind) (interpreter : Interpreter) :
    r.change n params kind interpreter =
      (r.switchTo n params kind interpreter).unlock.put n
        (.done (.ok ((r.switchTo n params kind interpreter).info r.nextSession))) := by
  change (r.switchTo n params kind interpreter).replace n r.slot.session r.nextSession = _
  rw [hnone, replace_none]

end Router

end CodeAssist
