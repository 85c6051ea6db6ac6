import CodeAssist.Engine
import CodeAssist.Proofs.Frame.Partial
import CodeAssist.Proofs.Router.Erasure

namespace CodeAssist

open Text (Bytes)

/-! What an engine reads from a connection. -/

namespace Incoming

/-- The response that a stream ends with. One that ends in the middle of a frame gets none. -/
def farewell : Option TransportFailure → Option Response
  | none | some .connectionClosed => none
  | some cause => some (.failure .null .transport cause.message)

theorem next_cases (s : Bytes) :
    (∃ body rest request, Frame.read s = .body body rest ∧ Request.decode body = .ok request ∧
      next s = .frame (.request request) rest) ∨
    (∃ body rest id cause, Frame.read s = .body body rest ∧
      Request.decode body = .error (id, cause) ∧
      next s = .frame (.refused (.failure id .transport cause.message)) rest) ∨
    ∃ failure, Frame.Reads s [] failure ∧ next s = .finished (farewell failure) := by
  unfold next
  cases hread : Frame.read s with
  | body body rest =>
      cases hdecode : Request.decode body with
      | ok request => exact .inl ⟨body, rest, request, rfl, hdecode, by simp [ofBody, hdecode]⟩
      | error refusal =>
          obtain ⟨id, cause⟩ := refusal
          exact .inr (.inl ⟨body, rest, id, cause, rfl, hdecode, by simp [ofBody, hdecode]⟩)
  | finished => exact .inr (.inr ⟨none, .finished hread, rfl⟩)
  | failed cause rest =>
      refine .inr (.inr ⟨some cause, .failed hread, ?_⟩)
      cases cause <;> rfl

end Incoming

namespace Engine

def Event.link? : Engine.Event → Option Nat
  | .send k _ | .peerDone k | .read k | .write k _ | .halt k => some k
  | .connect | .close | .stop | .exit | .router _ => none

inductive Happens (e : Engine) : Engine.Event → Engine → Prop
  | connected (hlistens : e.listens = true) :
      Happens e .connect (e.put (e.links.length + 1) {})
  | sent {k : Nat} {octets : Bytes} {l : Link} (hl : e.link? k = some l)
      (hopen : l.peerDone = false) :
      Happens e (.send k octets) (e.put k { l with unread := l.unread ++ octets })
  | ended {k : Nat} {l : Link} (hl : e.link? k = some l) :
      Happens e (.peerDone k) (e.put k { l with peerDone := true })
  | requested {k : Nat} {l : Link} {body rest : Bytes} {request : Request} {router : Router}
      (hl : e.link? k = some l) (hreads : l.reads = true)
      (hwhole : l.peerDone = false → Frame.isPartial l.unread = false)
      (hread : Frame.read l.unread = .body body rest) (hdecode : Request.decode body = .ok request)
      (hstep : e.router.step? (.arrive request true) = some router) :
      Happens e (.read k) ({ e with router }.put k
        { l with unread := rest, awaited := l.awaited ++ [e.router.nextArrival] })
  | refused {k : Nat} {l : Link} {body rest : Bytes} {id : Json} {cause : TransportFailure}
      (hl : e.link? k = some l) (hreads : l.reads = true)
      (hwhole : l.peerDone = false → Frame.isPartial l.unread = false)
      (hread : Frame.read l.unread = .body body rest)
      (hdecode : Request.decode body = .error (id, cause)) :
      Happens e (.read k) (e.put k { l with
        unread := rest, written := l.written ++ [.failure id .transport cause.message] })
  | finished {k : Nat} {l : Link} {failure : Option TransportFailure}
      (hl : e.link? k = some l) (hreads : l.reads = true)
      (hwhole : l.peerDone = false → Frame.isPartial l.unread = false)
      (hends : Frame.Reads l.unread [] failure) :
      Happens e (.read k) (e.put k { l with
        reads := false, written := l.written ++ (Incoming.farewell failure).toList })
  | wrote {k n : Nat} {l : Link} {response : Response} (hl : e.link? k = some l)
      (hresponse : e.router.response? n = some response) (hn : n ∈ l.awaited) :
      Happens e (.write k n) (e.put k { l with
        awaited := l.awaited.erase n, written := l.written ++ [response] })
  | halted {k : Nat} {l : Link} (hl : e.link? k = some l) (hreads : l.reads = true)
      (hstopped : e.router.lifecycle = .stopped) :
      Happens e (.halt k) (e.put k { l with reads := false })
  | routed {event : Engine.Event} {inner : CodeAssist.Event} {router : Router} {listens : Bool}
      (hevent : event.link? = none) (hstep : e.router.step? inner = some router) :
      Happens e event { e with router, listens }
  | exits (hstopped : e.router.lifecycle = .stopped) : Happens e .exit { e with exited := true }

theorem readFrom_happens {e e' : Engine} {k : Nat} {l : Link} (hl : e.link? k = some l)
    (hreads : l.reads = true) (hread : e.readFrom k l = some e') : Happens e (.read k) e' := by
  unfold readFrom at hread
  split at hread
  · cases hread
  · rename_i hpartial
    have hwhole : l.peerDone = false → Frame.isPartial l.unread = false := by
      intro hopen
      simpa [hopen] using hpartial
    obtain ⟨body, rest, request, hbody, hdecode, hnext⟩ |
      ⟨body, rest, id, cause, hbody, hdecode, hnext⟩ | ⟨failure, hends, hnext⟩ :=
      Incoming.next_cases l.unread
    · rw [hnext] at hread
      obtain ⟨router, hstep, heq⟩ := Option.bind_eq_some_iff.mp hread
      cases heq
      exact .requested hl hreads hwhole hbody hdecode hstep
    · rw [hnext] at hread
      cases hread
      exact .refused hl hreads hwhole hbody hdecode
    · rw [hnext] at hread
      cases hread
      exact .finished hl hreads hwhole hends

theorem step?_alive {e e' : Engine} {event : Engine.Event} (hstep : e.step? event = some e') :
    e.exited = false ∧ e.stepAlive? event = some e' := by
  unfold step? at hstep
  split at hstep
  · cases hstep
  · rename_i halive
    exact ⟨by simpa using halive, hstep⟩

theorem step?_happens {e e' : Engine} {event : Engine.Event} (hstep : e.step? event = some e') :
    Happens e event e' := by
  replace hstep := (step?_alive hstep).2
  cases event with
  | connect =>
      simp only [stepAlive?] at hstep
      split at hstep
      · rename_i hlistens
        cases hstep
        exact .connected hlistens
      · cases hstep
  | send k octets =>
      obtain ⟨l, hl, hstep⟩ := Option.bind_eq_some_iff.mp hstep
      split at hstep
      · cases hstep
      · rename_i hopen
        cases hstep
        exact .sent hl (by simpa using hopen)
  | peerDone k =>
      obtain ⟨l, hl, heq⟩ := Option.bind_eq_some_iff.mp hstep
      cases heq
      exact .ended hl
  | read k =>
      obtain ⟨l, hl, hstep⟩ := Option.bind_eq_some_iff.mp hstep
      split at hstep
      · rename_i hreads
        exact readFrom_happens hl hreads hstep
      · cases hstep
  | write k n =>
      obtain ⟨l, hl, hstep⟩ := Option.bind_eq_some_iff.mp hstep
      obtain ⟨response, hresponse, hstep⟩ := Option.bind_eq_some_iff.mp hstep
      split at hstep
      · rename_i hn
        cases hstep
        exact .wrote hl hresponse hn
      · cases hstep
  | halt k =>
      obtain ⟨l, hl, hstep⟩ := Option.bind_eq_some_iff.mp hstep
      split at hstep
      · rename_i hstops
        simp only [Bool.and_eq_true, decide_eq_true_eq] at hstops
        cases hstep
        exact .halted hl hstops.1 hstops.2
      · cases hstep
  | close =>
      simp only [stepAlive?] at hstep
      split at hstep
      · obtain ⟨router, hrouter, heq⟩ := Option.bind_eq_some_iff.mp hstep
        cases heq
        exact .routed rfl hrouter
      · cases hstep
  | stop =>
      simp only [stepAlive?] at hstep
      split at hstep
      · obtain ⟨router, hrouter, heq⟩ := Option.bind_eq_some_iff.mp hstep
        cases heq
        exact .routed rfl hrouter
      · cases hstep
  | exit =>
      simp only [stepAlive?] at hstep
      split at hstep
      · rename_i hends
        simp only [Bool.and_eq_true, decide_eq_true_eq] at hends
        cases hstep
        exact .exits hends.2
      · cases hstep
  | router event =>
      obtain ⟨router, hrouter, heq⟩ := Option.bind_eq_some_iff.mp hstep
      cases heq
      exact .routed rfl hrouter

/-- One step of an engine, with the engine before and after it. -/
structure Moment where
  before : Engine
  event : Engine.Event
  after : Engine

/-- The steps of a history, the last one first, lead from `start` to an engine. -/
inductive Run (start : Engine) : List Moment → Engine → Prop
  | none : Run start [] start
  | step {history : List Moment} {e e' : Engine} {event : Engine.Event}
      (hrun : Run start history e) (hstep : e.step? event = some e') :
      Run start (⟨e, event, e'⟩ :: history) e'

/-- An engine that nobody has connected to. -/
def fresh (router : Router) : Engine := { router }

/-- The history and the engine after those of the events that can happen, the first one first. -/
def playFrom (history : List Moment) (e : Engine) : List Engine.Event → List Moment × Engine
  | [] => (history, e)
  | event :: events =>
      match e.step? event with
      | some e' => playFrom (⟨e, event, e'⟩ :: history) e' events
      | none => playFrom history e events

def play (start : Engine) (events : List Engine.Event) : List Moment × Engine :=
  playFrom [] start events

theorem run_playFrom {start e : Engine} {history : List Moment} (hrun : start.Run history e)
    (events : List Engine.Event) :
    start.Run (playFrom history e events).1 (playFrom history e events).2 := by
  induction events generalizing history e with
  | nil => exact hrun
  | cons event events ih =>
      unfold playFrom
      split
      · rename_i hstep
        exact ih (.step hrun hstep)
      · exact ih hrun

theorem run_play (start : Engine) (events : List Engine.Event) :
    start.Run (start.play events).1 (start.play events).2 := run_playFrom .none events

theorem Run.invariant {start e : Engine} {history : List Moment}
    {P : List Moment → Engine → Prop} (hrun : start.Run history e) (hstart : P [] start)
    (hkeep : ∀ {history e event e'}, start.Run history e → P history e → Happens e event e' →
      P (⟨e, event, e'⟩ :: history) e') : P history e := by
  induction hrun with
  | none => exact hstart
  | step hrun hstep ih => exact hkeep hrun ih (step?_happens hstep)

theorem Happens.router {e e' : Engine} {event : Engine.Event} (hhappens : Happens e event e') :
    e'.router = e.router ∨ ∃ inner, e.router.step? inner = some e'.router := by
  cases hhappens with
  | requested _ _ _ _ _ hstep => exact .inr ⟨_, hstep⟩
  | routed _ hstep => exact .inr ⟨_, hstep⟩
  | _ => exact .inl rfl

theorem Run.router {start e : Engine} {history : List Moment} (hrun : start.Run history e) :
    ∃ past, start.router.Run past e.router := by
  refine hrun.invariant (P := fun _ e => ∃ past, start.router.Run past e.router) ⟨[], .none⟩ ?_
  rintro history e event e' _ ⟨past, hbefore⟩ hhappens
  obtain hsame | ⟨inner, hstep⟩ := hhappens.router
  · exact ⟨past, hsame ▸ hbefore⟩
  · exact ⟨_, hbefore.step hstep⟩

@[simp] theorem link?_put_self (e : Engine) (k : Nat) (l : Link) :
    (e.put k l).link? k = some l := Table.lookup_put_self ..

theorem link?_put_of_ne {j k : Nat} (hne : j ≠ k) (e : Engine) (l : Link) :
    (e.put k l).link? j = e.link? j := Table.lookup_put_of_ne hne ..

/-- The connections there are have the numbers that have been given out. -/
structure Linked (e : Engine) : Prop where
  distinct : (e.links.map Prod.fst).Nodup
  numbered : ∀ {k l}, e.link? k = some l → k ≤ e.links.length

namespace Linked

variable {e e' : Engine} {event : Engine.Event} {k : Nat} {l : Link}

theorem link?_next (h : Linked e) : e.link? (e.links.length + 1) = none := by
  cases hl : e.link? (e.links.length + 1) with
  | none => rfl
  | some l => exact absurd (h.numbered hl) (Nat.not_succ_le_self _)

theorem put (h : Linked e) (hl : e.link? k = some l) (l' : Link) : Linked (e.put k l') := by
  have hkeys : ((e.put k l').links.map Prod.fst).Perm (e.links.map Prod.fst) := by
    have hdistinct : ((e.put k l').links.map Prod.fst).Nodup := Table.nodup_keys_put h.distinct
    refine (List.perm_ext_iff_of_nodup hdistinct h.distinct).mpr fun j => ?_
    rw [Table.mem_keys_iff, Table.mem_keys_iff]
    change ((e.put k l').link? j).isSome ↔ (e.link? j).isSome
    by_cases hj : j = k
    · rw [hj, link?_put_self, hl]
      rfl
    · rw [link?_put_of_ne hj]
  have hlength : (e.put k l').links.length = e.links.length := by
    simpa using hkeys.length_eq
  refine ⟨Table.nodup_keys_put h.distinct, fun {j m} hm => ?_⟩
  rw [hlength]
  by_cases hj : j = k
  · exact hj ▸ h.numbered hl
  · exact h.numbered ((link?_put_of_ne hj e l').symm.trans hm)

theorem connect (h : Linked e) : Linked (e.put (e.links.length + 1) {}) := by
  have hlength : (e.put (e.links.length + 1) {}).links.length = e.links.length + 1 := by
    have hnone := h.link?_next
    rw [Engine.put, Table.put, Table.without_of_lookup_eq_none hnone, List.length_cons]
  refine ⟨Table.nodup_keys_put h.distinct, fun {j m} hm => ?_⟩
  rw [hlength]
  by_cases hj : j = e.links.length + 1
  · exact Nat.le_of_eq hj
  · exact Nat.le_succ_of_le (h.numbered ((link?_put_of_ne hj e {}).symm.trans hm))

theorem routed (h : Linked e) (router : Router) (listens : Bool) :
    Linked { e with router, listens } := ⟨h.distinct, h.numbered⟩

theorem happens (h : Linked e) (hhappens : Happens e event e') : Linked e' := by
  cases hhappens with
  | connected => exact h.connect
  | sent hl => exact h.put hl _
  | ended hl => exact h.put hl _
  | @requested k l body rest request router hl => exact (h.routed router e.listens).put hl _
  | refused hl => exact h.put hl _
  | finished hl => exact h.put hl _
  | wrote hl => exact h.put hl _
  | halted hl => exact h.put hl _
  | routed => exact h.routed _ _
  | exits => exact ⟨h.distinct, h.numbered⟩

end Linked

end Engine

end CodeAssist
