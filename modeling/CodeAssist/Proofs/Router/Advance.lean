import CodeAssist.Proofs.Router.Stage

namespace CodeAssist

/-! What one step of a router can do. Every invariant is a case analysis on the two relations here,
and nothing below unfolds the functions that make steps. -/

/-- A selection that names a path stands for no other. -/
def Selection.Admits (selection : Selection) (path : Path) : Prop :=
  ∀ named, selection = .path named → path = named

namespace Resolver

variable {resolver : Resolver} {view : FileView} {selection : Selection} {wanted : Option Kind}
  {root path : Path} {kind : Kind} {refresh : Bool} {interpreter : Interpreter}
  {cause : EnvironmentFailure}

theorem choose_of_failed
    (hstart : resolver.start view selection wanted root refresh = .failed cause) :
    resolver.choose view selection wanted root = .error cause := by
  unfold start at hstart
  split at hstart
  · rename_i hchoose
    cases hstart
    exact hchoose
  · split at hstart <;> cases hstart

theorem choose_of_found
    (hstart : resolver.start view selection wanted root refresh = .found interpreter) :
    resolver.choose view selection wanted root = .ok (interpreter.path, interpreter.kind) := by
  unfold start at hstart
  split at hstart
  · cases hstart
  · rename_i hchoose
    split at hstart
    · cases hstart
      exact hchoose
    · cases hstart

theorem choose_of_unprobed
    (hstart : resolver.start view selection wanted root refresh = .unprobed path kind) :
    resolver.choose view selection wanted root = .ok (path, kind) := by
  unfold start at hstart
  split at hstart
  · cases hstart
  · rename_i hchoose
    split at hstart
    · cases hstart
    · cases hstart
      exact hchoose

theorem admits_of_choose (hchoose : resolver.choose view selection wanted root = .ok (path, kind)) :
    selection.Admits path := by
  rintro named rfl
  simp only [choose] at hchoose
  cases hvalid : view.validate named with
  | error cause =>
      rw [hvalid] at hchoose
      cases hchoose
  | ok =>
      rw [hvalid] at hchoose
      cases hchoose
      rfl

/-- A resolution that asks its interpreter anew finds none without a probe. -/
theorem start_refresh_ne_found :
    resolver.start view selection wanted root true ≠ .found interpreter := by
  unfold start
  split <;> simp

end Resolver

namespace Router

/-- How a request gets on: `r.Advance e n t rest t'` says that event `e` takes request `n` from
stage `t` to stage `t'`, and that `rest` is what else becomes of the router. -/
inductive Advance (r : Router) : Event → Nat → Task → Router → Task → Prop
  | dispatched {n : Nat} {v : Received} (hv : r.received? n = some v) :
      Advance r (.dispatch n) n .arrived r (firstStage r.lifecycle v.request)
  | locked {n : Nat} {call : Call} (hfree : r.environmentHolder = none) :
      Advance r (.lock n) n (.wantsLock call) { r with environmentHolder := some n }
        (.locked call)
  | creating {n : Nat} {call : Call} (hfree : r.environmentHolder = none) :
      Advance r (.lock n) n (.wantsCreation call) { r with environmentHolder := some n }
        (.creating call)
  | shutDown {n : Nat} {view : FileView} :
      Advance r (.act n view) n (.locked .shutdown)
        { r with lifecycle := r.lifecycle.beginShutdown }.unlock
        (.done (.ok (.ofMembers [("state", .text r.lifecycle.beginShutdown.name)])))
  | notFolder {n : Nat} {view : FileView} {p : WorkspaceParams}
      (hroot : view.isFolder p.root = false) :
      Advance r (.act n view) n (.locked (.workspaceSet p)) r.unlock
        (.done (.error (notFolder p.root)))
  | moving {n : Nat} {view : FileView} {p : WorkspaceParams}
      (hroot : view.isFolder p.root = true) :
      Advance r (.act n view) n (.locked (.workspaceSet p)) r (.moving p.root)
  | unchosen {n : Nat} {view : FileView} {p : EnvironmentParams} {cause : EnvironmentFailure}
      (hfree : r.slotHolder = none)
      (hstart : r.resolver.start view p.selection (p.kind.or r.slot.kind) r.slot.root true =
        .failed cause) :
      Advance r (.act n view) n (.locked (.environmentSet p))
        { r with slot := r.slot.failedChange cause }.unlock
        (.done (.error (.environment cause)))
  | changing {n : Nat} {view : FileView} {p : EnvironmentParams} {path : Path} {found : Kind}
      (hfree : r.slotHolder = none)
      (hstart : r.resolver.start view p.selection (p.kind.or r.slot.kind) r.slot.root true =
        .unprobed path found) :
      Advance r (.act n view) n (.locked (.environmentSet p)) { r with slotHolder := some n }
        (.changing p (p.kind.or r.slot.kind) path found)
  | unusable {n : Nat} {p : EnvironmentParams} {kind : Option Kind} {path : Path} {found : Kind}
      {cause : EnvironmentFailure} :
      Advance r (.probed n (.error cause)) n (.changing p kind path found)
        { r with slot := r.slot.failedChange cause }.unlock
        (.done (.error (.environment cause)))
  | switched {n old : Nat} {p : EnvironmentParams} {kind : Option Kind} {path : Path}
      {found : Kind} {capabilities : List Capability} (hold : r.slot.session = some old) :
      Advance r (.probed n (.ok capabilities)) n (.changing p kind path found)
        { ({ r with resolver := r.resolver.learn path capabilities }.switchTo n p kind
            ⟨path, found, capabilities⟩) with slotHolder := none }
        (.replacing old r.nextSession)
  | switchedFirst {n : Nat} {p : EnvironmentParams} {kind : Option Kind} {path : Path}
      {found : Kind} {capabilities : List Capability} (hnone : r.slot.session = none) :
      Advance r (.probed n (.ok capabilities)) n (.changing p kind path found)
        ({ r with resolver := r.resolver.learn path capabilities }.switchTo n p kind
          ⟨path, found, capabilities⟩).unlock
        (.done (.ok (({ r with resolver := r.resolver.learn path capabilities }.switchTo n p kind
          ⟨path, found, capabilities⟩).info r.nextSession)))
  | rooted {n : Nat} {view : FileView} {root : Path} (hfree : r.slotHolder = none)
      (hnone : r.slot.session.bind r.sessions.get? = none) :
      Advance r (.act n view) n (.moving root)
        { r with slot := { r.slot with root } }.unlock
        (.done (.ok (.ofMembers [("root", .text root.text)])))
  | moved {n : Nat} {view : FileView} {root : Path} {current : Session}
      (hfree : r.slotHolder = none)
      (hcurrent : r.slot.session.bind r.sessions.get? = some current) :
      Advance r (.act n view) n (.moving root)
        { r.movedTo n root current.interpreter with slotHolder := none }
        (.replacing current.id r.nextSession)
  | retiredBefore {n old new : Nat} (hretired : r.isRetired old = true) :
      Advance r (.retire n) n (.replacing old new) r.unlock (.done (.ok (r.info new)))
  | retires {n old new : Nat} (hretired : r.isRetired old = false) :
      Advance r (.retire n) n (.replacing old new)
        { r with sessions := r.sessions.retire old .replaced } (.draining old new)
  | drained {e : Event} {n old new : Nat} (he : e = .drained n ∨ e = .overdue n) :
      Advance r e n (.draining old new) r.unlock (.done (.ok (r.info new)))
  | refused {n : Nat} {call : Call} {cause : Failure} (hfree : r.slotHolder = none)
      (husable : r.slot.usable n = .error cause) :
      Advance r (.look n) n (.wantsSession call) r (.done (.error cause))
  | absent {n : Nat} {call : Call} (hfree : r.slotHolder = none)
      (husable : r.slot.usable n = .ok none) :
      Advance r (.look n) n (.wantsSession call) r (.wantsCreation call)
  | given {n id : Nat} {call : Call} {rest : Router} {t' : Task} (hfree : r.slotHolder = none)
      (husable : r.slot.usable n = .ok (some id)) (hgiven : Given r call id rest t') :
      Advance r (.look n) n (.wantsSession call) rest t'
  | refusedLate {n : Nat} {view : FileView} {call : Call} {cause : Failure}
      (hfree : r.slotHolder = none) (husable : r.slot.usable n = .error cause) :
      Advance r (.act n view) n (.creating call) r.unlock (.done (.error cause))
  | givenLate {n id : Nat} {view : FileView} {call : Call} {rest : Router} {t' : Task}
      (hfree : r.slotHolder = none) (husable : r.slot.usable n = .ok (some id))
      (hgiven : Given r call id rest t') :
      Advance r (.act n view) n (.creating call) rest.unlock t'
  | unresolved {n : Nat} {view : FileView} {call : Call} {cause : EnvironmentFailure}
      (hfree : r.slotHolder = none) (husable : r.slot.usable n = .ok none)
      (hstart : r.resolver.start view r.slot.selection r.slot.kind r.slot.root false =
        .failed cause) :
      Advance r (.act n view) n (.creating call) r.unlock
        (.done (.error (.environment cause)))
  | probing {n : Nat} {view : FileView} {call : Call} {path : Path} {found : Kind}
      (hfree : r.slotHolder = none) (husable : r.slot.usable n = .ok none)
      (hstart : r.resolver.start view r.slot.selection r.slot.kind r.slot.root false =
        .unprobed path found) :
      Advance r (.act n view) n (.creating call) { r with slotHolder := some n }
        (.probing call path found)
  | created {n : Nat} {view : FileView} {call : Call} {interpreter : Interpreter}
      {rest : Router} {t' : Task} (hfree : r.slotHolder = none)
      (husable : r.slot.usable n = .ok none)
      (hstart : r.resolver.start view r.slot.selection r.slot.kind r.slot.root false =
        .found interpreter)
      (hgiven : Given (r.install interpreter) call r.nextSession rest t') :
      Advance r (.act n view) n (.creating call) rest.unlock t'
  | unprobed {n : Nat} {call : Call} {path : Path} {found : Kind} {cause : EnvironmentFailure} :
      Advance r (.probed n (.error cause)) n (.probing call path found) r.unlock
        (.done (.error (.environment cause)))
  | createdLate {n : Nat} {call : Call} {path : Path} {found : Kind}
      {capabilities : List Capability} {rest : Router} {t' : Task}
      (hgiven : Given
        ({ r with resolver := r.resolver.learn path capabilities }.install
          ⟨path, found, capabilities⟩) call r.nextSession rest t') :
      Advance r (.probed n (.ok capabilities)) n (.probing call path found) rest.unlock t'
  | collected {n id k : Nat} {call : Call} {s : Session} {v : Invocation}
      {result : Except Failure Answer} (hs : r.sessions.get? id = some s)
      (hv : s.invocations[k]? = some v) (hresult : v.stage.result? = some result) :
      Advance r (.collect n) n (.serving call id k) r (.done (result.map call.answer))

inductive Happens (r : Router) : Event → Router → Prop
  | arrived (request : Request) (tracked : Bool) :
      Happens r (.arrive request tracked)
        { r with
          nextArrival := r.nextArrival + 1
          received := Table.put r.nextArrival { request, tracked } r.received }
  | advanced {e : Event} {n : Nat} {t t' : Task} {rest : Router} (he : e.request? = some n)
      (ht : r.task? n = some t) (hadvance : Advance r e n t rest t') :
      Happens r e (rest.put n t')
  | worked {id k : Nat} {m : Move} {sessions : Sessions}
      (hstep : r.sessions.step? id k m = some sessions) :
      Happens r (.move id k m) { r with sessions }
  | lifecycle (next : Lifecycle) :
      Happens r (.lifecycle next) { r with lifecycle := r.lifecycle.moveTo next }
  | drainWaits {e : Event} {drain : Drain} (he : e.request? = none)
      (hfrom : ∀ id, r.drain ≠ .retiring id) (hto : ∀ id, drain ≠ .retiring id) :
      Happens r e { r with drain }
  | drainCloses (hdrain : r.drain = .waiting) :
      Happens r .drainOverdue { r with drain := .wantsSlot, sessions := r.sessions.close }
  | drainTakes {id : Nat} (hdrain : r.drain = .wantsSlot) (hfree : r.slotHolder = none)
      (hsession : r.slot.session = some id) :
      Happens r .drainTake
        { r with slot := { r.slot with session := none }, drain := .retiring id }
  | drainRetiredBefore {id : Nat} (hdrain : r.drain = .retiring id)
      (hretired : r.isRetired id = true) :
      Happens r .drainRetire { r with drain := .lastWait }
  | drainRetires {id : Nat} (hdrain : r.drain = .retiring id)
      (hretired : r.isRetired id = false) :
      Happens r .drainRetire
        { r with drain := .draining id, sessions := r.sessions.retire id .shutdown }

theorem lock_advance {r r' : Router} {n : Nat} (hstep : r.lock n = some r') :
    ∃ t rest t', r.task? n = some t ∧ Advance r (.lock n) n t rest t' ∧
      r' = rest.put n t' := by
  unfold lock at hstep
  split at hstep
  · cases hstep
  · rename_i hheld
    have hfree : r.environmentHolder = none := by simpa using hheld
    split at hstep
    · rename_i call ht
      cases hstep
      exact ⟨_, _, _, ht, .locked hfree, put_withEnvironmentHolder _ _ _ _⟩
    · rename_i call ht
      cases hstep
      exact ⟨_, _, _, ht, .creating hfree, put_withEnvironmentHolder _ _ _ _⟩
    · cases hstep

theorem startChange_advance {r : Router} {n : Nat} {p : EnvironmentParams} (view : FileView)
    (hfree : r.slotHolder = none) :
    ∃ rest t', Advance r (.act n view) n (.locked (.environmentSet p)) rest t' ∧
      r.startChange n p view = rest.put n t' := by
  unfold startChange
  cases hstart : r.resolver.start view p.selection (p.kind.or r.slot.kind) r.slot.root true with
  | failed cause =>
      refine ⟨_, _, .unchosen hfree hstart, ?_⟩
      simp only [hstart]
      exact unlock_put _ _ _
  | found interpreter => exact (Resolver.start_refresh_ne_found hstart).elim
  | unprobed path found =>
      refine ⟨_, _, .changing hfree hstart, ?_⟩
      simp only [hstart]
      exact put_withSlotHolder _ _ _ _

theorem moveTo_advance {r : Router} {n : Nat} {root : Path} (view : FileView)
    (hfree : r.slotHolder = none) :
    ∃ rest t', Advance r (.act n view) n (.moving root) rest t' ∧
      r.moveTo n root = rest.put n t' := by
  unfold moveTo
  cases hcurrent : r.slot.session.bind r.sessions.get? with
  | none => exact ⟨_, _, .rooted hfree hcurrent, unlock_put _ _ _⟩
  | some current => exact ⟨_, _, .moved hfree hcurrent, replace_some _ _ _ _⟩

theorem startCreation_advance {r : Router} {n : Nat} {call : Call} (view : FileView)
    (hfree : r.slotHolder = none) :
    ∃ rest t', Advance r (.act n view) n (.creating call) rest t' ∧
      r.startCreation n call view = rest.put n t' := by
  unfold startCreation
  cases husable : r.slot.usable n with
  | error cause => exact ⟨_, _, .refusedLate hfree husable, unlock_put _ _ _⟩
  | ok session =>
      cases session with
      | some id =>
          obtain ⟨rest, t', hserve, hgiven⟩ := serve_given r n call id
          exact ⟨_, _, .givenLate hfree husable hgiven, by simp only [hserve, unlock_put]⟩
      | none =>
          simp only
          cases hstart : r.resolver.start view r.slot.selection r.slot.kind r.slot.root false with
          | failed cause =>
              refine ⟨_, _, .unresolved hfree husable hstart, ?_⟩
              simp only
              exact unlock_put _ _ _
          | found interpreter =>
              obtain ⟨rest, t', hserve, hgiven⟩ :=
                serve_given (r.install interpreter) n call r.nextSession
              exact ⟨_, _, .created hfree husable hstart hgiven, by
                simp only [create, hserve, unlock_put]⟩
          | unprobed path found =>
              refine ⟨_, _, .probing hfree husable hstart, ?_⟩
              simp only
              exact put_withSlotHolder _ _ _ _

theorem act_advance {r r' : Router} {n : Nat} {view : FileView}
    (hstep : r.act n view = some r') :
    ∃ t rest t', r.task? n = some t ∧ Advance r (.act n view) n t rest t' ∧
      r' = rest.put n t' := by
  have hfree (hheld : ¬r.slotHolder.isSome = true) : r.slotHolder = none := by simpa using hheld
  unfold act at hstep
  split at hstep
  · rename_i ht
    cases hstep
    exact ⟨_, _, _, ht, .shutDown, unlock_put _ _ _⟩
  · rename_i p ht
    split at hstep
    · rename_i hroot
      cases hstep
      exact ⟨_, _, _, ht, .moving hroot, rfl⟩
    · rename_i hroot
      cases hstep
      exact ⟨_, _, _, ht, .notFolder (by simpa using hroot), unlock_put _ _ _⟩
  · rename_i p ht
    split at hstep
    · cases hstep
    · rename_i hheld
      cases hstep
      obtain ⟨rest, t', hadvance, heq⟩ := startChange_advance view (hfree hheld)
      exact ⟨_, rest, t', ht, hadvance, heq⟩
  · rename_i root ht
    split at hstep
    · cases hstep
    · rename_i hheld
      cases hstep
      obtain ⟨rest, t', hadvance, heq⟩ := moveTo_advance view (hfree hheld)
      exact ⟨_, rest, t', ht, hadvance, heq⟩
  · rename_i call ht
    split at hstep
    · cases hstep
    · rename_i hheld
      cases hstep
      obtain ⟨rest, t', hadvance, heq⟩ := startCreation_advance view (hfree hheld)
      exact ⟨_, rest, t', ht, hadvance, heq⟩
  · cases hstep

theorem probed_advance {r r' : Router} {n : Nat}
    {answer : Except EnvironmentFailure (List Capability)} (hstep : r.probed n answer = some r') :
    ∃ t rest t', r.task? n = some t ∧ Advance r (.probed n answer) n t rest t' ∧
      r' = rest.put n t' := by
  unfold probed at hstep
  split at hstep
  · rename_i params kind path found ht
    cases answer with
    | error cause =>
        cases hstep
        exact ⟨_, _, _, ht, .unusable, unlock_put _ _ _⟩
    | ok capabilities =>
        cases hstep
        cases hsession : r.slot.session with
        | none =>
            have hlearnt : { r with
              resolver := r.resolver.learn path capabilities }.slot.session = none := hsession
            exact ⟨_, _, _, ht, .switchedFirst hsession, change_of_none hlearnt _ _ _ _⟩
        | some old =>
            have hlearnt : { r with
              resolver := r.resolver.learn path capabilities }.slot.session = some old := hsession
            exact ⟨_, _, _, ht, .switched hsession, change_of_some hlearnt _ _ _ _⟩
  · rename_i call path found ht
    cases answer with
    | error cause =>
        cases hstep
        exact ⟨_, _, _, ht, .unprobed, unlock_put _ _ _⟩
    | ok capabilities =>
        cases hstep
        obtain ⟨rest, t', hserve, hgiven⟩ := serve_given
          ({ r with resolver := r.resolver.learn path capabilities }.install
            ⟨path, found, capabilities⟩) n call r.nextSession
        refine ⟨_, _, _, ht, .createdLate hgiven, ?_⟩
        rw [← unlock_put, ← hserve]
        rfl
  · cases hstep

theorem retireOld_advance {r r' : Router} {n : Nat} (hstep : r.retireOld n = some r') :
    ∃ t rest t', r.task? n = some t ∧ Advance r (.retire n) n t rest t' ∧
      r' = rest.put n t' := by
  unfold retireOld at hstep
  split at hstep
  · rename_i old new ht
    split at hstep
    · rename_i hretired
      cases hstep
      exact ⟨_, _, _, ht, .retiredBefore hretired, unlock_put _ _ _⟩
    · rename_i hretired
      cases hstep
      exact ⟨_, _, _, ht, .retires (by simpa using hretired), rfl⟩
  · cases hstep

theorem endChange_advance {r r' : Router} {e : Event} {n : Nat} {overdue : Bool}
    (he : e = .drained n ∨ e = .overdue n) (hstep : r.endChange n overdue = some r') :
    ∃ t rest t', r.task? n = some t ∧ Advance r e n t rest t' ∧ r' = rest.put n t' := by
  unfold endChange at hstep
  split at hstep
  · rename_i old new ht
    split at hstep
    · cases hstep
      exact ⟨_, _, _, ht, .drained he, unlock_put _ _ _⟩
    · cases hstep
  · cases hstep

theorem look_advance {r r' : Router} {n : Nat} (hstep : r.look n = some r') :
    ∃ t rest t', r.task? n = some t ∧ Advance r (.look n) n t rest t' ∧
      r' = rest.put n t' := by
  unfold look at hstep
  split at hstep
  · rename_i call ht
    split at hstep
    · cases hstep
    · rename_i hheld
      have hfree : r.slotHolder = none := by simpa using hheld
      split at hstep
      · rename_i cause husable
        cases hstep
        exact ⟨_, _, _, ht, .refused hfree husable, rfl⟩
      · rename_i id husable
        cases hstep
        obtain ⟨rest, t', hserve, hgiven⟩ := serve_given r n call id
        exact ⟨_, rest, t', ht, .given hfree husable hgiven, hserve⟩
      · rename_i husable
        cases hstep
        exact ⟨_, _, _, ht, .absent hfree husable, rfl⟩
  · cases hstep

theorem collect_advance {r r' : Router} {n : Nat} (hstep : r.collect n = some r') :
    ∃ t rest t', r.task? n = some t ∧ Advance r (.collect n) n t rest t' ∧
      r' = rest.put n t' := by
  unfold collect at hstep
  simp only [Option.bind_eq_bind, Option.bind_eq_some_iff] at hstep
  obtain ⟨t, ht, hstep⟩ := hstep
  split at hstep
  · rename_i call id k
    simp only [Option.bind_eq_some_iff] at hstep
    obtain ⟨s, hs, v, hv, result, hresult, hstep⟩ := hstep
    cases hstep
    exact ⟨_, _, _, ht, .collected hs hv hresult, rfl⟩
  · cases hstep

theorem drainStep?_happens {r r' : Router} {e : Event} (hstep : r.drainStep? e = some r') :
    Happens r e r' := by
  unfold drainStep? at hstep
  split at hstep
  · rename_i hdrain
    cases hstep
    exact .drainWaits rfl (by simp [hdrain]) (by simp)
  · rename_i hdrain
    split at hstep
    · cases hstep
      exact .drainWaits rfl (by simp [hdrain]) (by simp)
    · cases hstep
  · rename_i hdrain
    cases hstep
    exact .drainCloses hdrain
  · rename_i hdrain
    split at hstep
    · cases hstep
    · rename_i hheld
      have hfree : r.slotHolder = none := by simpa using hheld
      cases hsession : r.slot.session with
      | some id =>
          simp only [hsession] at hstep
          cases hstep
          exact .drainTakes hdrain hfree hsession
      | none =>
          have hsame : { r.slot with session := none } = r.slot := by rw [← hsession]
          simp only [hsession, hsame] at hstep
          cases hstep
          exact .drainWaits rfl (by simp [hdrain]) (by simp)
  · rename_i id hdrain
    split at hstep
    · rename_i hretired
      cases hstep
      exact .drainRetiredBefore hdrain hretired
    · rename_i hretired
      cases hstep
      exact .drainRetires hdrain (by simpa using hretired)
  · rename_i id hdrain
    split at hstep
    · cases hstep
      exact .drainWaits rfl (by simp [hdrain]) (by simp)
    · cases hstep
  · rename_i id hdrain
    cases hstep
    exact .drainWaits rfl (by simp [hdrain]) (by simp)
  · rename_i hdrain
    split at hstep
    · cases hstep
      exact .drainWaits rfl (by simp [hdrain]) (by simp)
    · cases hstep
  · rename_i hdrain
    cases hstep
    exact .drainWaits rfl (by simp [hdrain]) (by simp)
  · cases hstep

theorem step?_happens {r r' : Router} {e : Event} (hstep : r.step? e = some r') :
    Happens r e r' := by
  have hadvanced {n : Nat} (he : e.request? = some n)
      (h : ∃ t rest t', r.task? n = some t ∧ Advance r e n t rest t' ∧ r' = rest.put n t') :
      Happens r e r' := by
    obtain ⟨t, rest, t', ht, hadvance, rfl⟩ := h
    exact .advanced he ht hadvance
  cases e with
  | arrive request tracked =>
      cases hstep
      exact .arrived request tracked
  | dispatch n =>
      simp only [step?] at hstep
      split at hstep
      · rename_i request tracked hv
        cases hstep
        refine hadvanced rfl ⟨.arrived, r, _, ?_, .dispatched hv, dispatch_eq r n request⟩
        rw [task?, hv]
        rfl
      · cases hstep
  | lock n => exact hadvanced rfl (lock_advance hstep)
  | act n view => exact hadvanced rfl (act_advance hstep)
  | probed n answer => exact hadvanced rfl (probed_advance hstep)
  | retire n => exact hadvanced rfl (retireOld_advance hstep)
  | drained n => exact hadvanced rfl (endChange_advance (.inl rfl) hstep)
  | overdue n => exact hadvanced rfl (endChange_advance (.inr rfl) hstep)
  | look n => exact hadvanced rfl (look_advance hstep)
  | collect n => exact hadvanced rfl (collect_advance hstep)
  | move id k m =>
      simp only [step?, Option.map_eq_some_iff] at hstep
      obtain ⟨sessions, hsessions, rfl⟩ := hstep
      exact .worked hsessions
  | lifecycle next =>
      cases hstep
      exact .lifecycle next
  | drainStart => exact drainStep?_happens hstep
  | drainQuiet => exact drainStep?_happens hstep
  | drainOverdue => exact drainStep?_happens hstep
  | drainTake => exact drainStep?_happens hstep
  | drainRetire => exact drainStep?_happens hstep
  | drainDrained => exact drainStep?_happens hstep

end Router

end CodeAssist
