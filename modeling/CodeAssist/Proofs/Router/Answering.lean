import CodeAssist.Proofs.Message.Params
import CodeAssist.Proofs.Router.Attribution

namespace CodeAssist

open Moment (Gave Placed)

/-! What a request that needs a session is answered. -/

/-- What a probe can answer about an interpreter. -/
def Probe.Answers (p : Probe) (path : Path)
    (answer : Except EnvironmentFailure (List Capability)) : Prop :=
  match p with
  | .fixed capabilities => answer = .ok capabilities
  | .run _ => ∃ result, answer = Probe.ofEnd path result

namespace Moment

/-- A probe's answer is one that the router's probe can give. -/
def Honest (m : Moment) : Prop :=
  ∀ ⦃n answer⦄, m.event = .probed n answer → ∃ path, m.before.resolver.probe.Answers path answer

/-- How a call that was given a session is answered: with what is known of the session, or with what
its tools have found. -/
inductive Told (history : List Moment) (id : Nat) (s : Session) (call : Call) : Json → Prop
  | info (hquery : call.query? = none) : Told history id s call s.info
  | answer {q : Query} {a : Answer} (hquery : call.query? = some q)
      (hanswered : Answered (Ran history id s.interpreter s.settings) q a) :
      Told history id s call (call.answer a)

/-- Request `n` was refused when it read the slot, after a change that came later than it had put a
session there. -/
def RefusedBehind (history : List Moment) (n : Nat) : Prop :=
  ∃ later m earlier change id, history = later ++ m :: earlier ∧ m.deed? = some (.refused n) ∧
    n < change ∧ Placed earlier change id

/-- The session that request `n` was given had been replaced before the request was answered. -/
def RetiredUnder (history : List Moment) (n : Nat) : Prop :=
  ∃ later m earlier id s, history = later ++ m :: earlier ∧ m.event = .collect n ∧
    Gave earlier n id ∧ m.before.sessions.get? id = some s ∧ s.retired = some .replaced

variable {m : Moment} {history : List Moment} {n id : Nat}

theorem Gave.cons (hgave : Gave history n id) : Gave (m :: history) n id :=
  gave_cons.mpr (.inr (.inr hgave))

theorem RefusedBehind.cons (hrefused : RefusedBehind history n) :
    RefusedBehind (m :: history) n := by
  obtain ⟨later, step, earlier, change, id, rfl, hrest⟩ := hrefused
  exact ⟨m :: later, step, earlier, change, id, rfl, hrest⟩

theorem RetiredUnder.cons (hretired : RetiredUnder history n) : RetiredUnder (m :: history) n := by
  obtain ⟨later, step, earlier, id, s, rfl, hrest⟩ := hretired
  exact ⟨m :: later, step, earlier, id, s, rfl, hrest⟩

theorem Told.cons {s s' : Session} {call : Call} {value : Json}
    (htold : Told history id s call value) (hcontinues : Router.Continues s s') :
    Told (m :: history) id s' call value := by
  obtain ⟨hid, hinterpreter, hsettings, _⟩ := hcontinues
  cases htold with
  | info hquery =>
      have hinfo : s'.info = s.info := by
        simp only [Session.info, hid, hinterpreter, hsettings, Interpreter.supports]
      exact hinfo ▸ .info hquery
  | answer hquery hanswered =>
      refine .answer hquery ?_
      rw [hinterpreter, hsettings]
      exact hanswered.mono Ran.cons

end Moment

theorem Call.ofRequest_ne_sessionReplaced {method : String} {params : Json} :
    Call.ofRequest method params ≠ .error (.environment .sessionReplaced) := by
  intro hcall
  obtain ⟨-, reason, hreason⟩ | ⟨-, hmethod⟩ := Call.ofRequest_error hcall
  · cases hreason
  · cases hmethod

theorem Resolver.start_ne_sessionReplaced {resolver : Resolver} {view : FileView}
    {selection : Selection} {wanted : Option Kind} {root : Path} {refresh : Bool} :
    resolver.start view selection wanted root refresh ≠ .failed .sessionReplaced := by
  have hchoose : resolver.choose view selection wanted root ≠ .error .sessionReplaced := by
    cases selection with
    | path path =>
        unfold Resolver.choose FileView.validate
        simp only
        split
        · exact nofun
        · split <;> exact nofun
    | auto =>
        unfold Resolver.choose Resolver.detect
        simp only
        split <;> exact nofun
  intro hstart
  unfold Resolver.start at hstart
  split at hstart
  · rename_i cause hcause
    cases hstart
    exact hchoose hcause
  · split at hstart <;> cases hstart

theorem Moment.Honest.ne_sessionReplaced {m : Moment} (hhonest : m.Honest) {n : Nat} :
    m.event ≠ .probed n (.error .sessionReplaced) := by
  intro hevent
  obtain ⟨path, hanswer⟩ := hhonest hevent
  unfold Probe.Answers at hanswer
  split at hanswer
  · cases hanswer
  · obtain ⟨result, hresult⟩ := hanswer
    cases result with
    | error => cases hresult
    | ok o =>
        simp only [Probe.ofEnd] at hresult
        cases ho : Probe.ofOutput o <;> rw [ho] at hresult <;> cases hresult

namespace Router

theorem not_needsSession {call : Call} (haffects : call.affectsEnvironment) :
    call.needsSession = false := by
  cases call <;> first | rfl | cases haffects

/-- What the stage of a request says of its session and its answer. -/
structure Vouched (history : List Moment) (r : Router) (n : Nat) (request : Request) (t : Task) :
    Prop where
  serving : ∀ {call id k}, t = .serving call id k → Gave history n id ∧ ∃ s v,
    r.sessions.get? id = some s ∧ s.invocations[k]? = some v ∧ call.query? = some v.query
  answered : ∀ {call value}, t = .done (.ok value) →
    Call.ofRequest request.method request.params = .ok call → call.needsSession →
    ∃ id s, Gave history n id ∧ r.sessions.get? id = some s ∧ Moment.Told history id s call value
  refused : t = .done (.error (.environment .sessionReplaced)) →
    (∀ m ∈ history, m.Honest) → Moment.RefusedBehind history n ∨ Moment.RetiredUnder history n

theorem info_eq {r : Router} {id : Nat} {s : Session} (hs : r.sessions.get? id = some s) :
    r.info id = s.info := by
  rw [info, hs]

theorem firstStage_ne_sessionReplaced (lifecycle : Lifecycle) (request : Request) :
    firstStage lifecycle request ≠ .done (.error (.environment .sessionReplaced)) := by
  unfold firstStage
  split
  · exact nofun
  · cases hcall : Call.ofRequest request.method request.params with
    | error cause =>
        intro hcause
        cases hcause
        exact Call.ofRequest_ne_sessionReplaced hcall
    | ok call => cases call <;> exact nofun

theorem reading?_some {slot : Slot} {n id : Nat} (husable : slot.usable n = .ok (some id)) :
    slot.reading? n = some (.given n id) := by
  rw [Slot.reading?, husable]

theorem deedAt?_creating {r r' : Router} {e : Event} {n : Nat} {call : Call}
    (hslot : r'.slot = r.slot) :
    Moment.deedAt? ⟨r, e, r'⟩ n (.creating call) = r.slot.reading? n := by
  rw [Moment.deedAt?, Succession.placed?_eq_none (congrArg Slot.session hslot)]
  rfl

theorem Succession.isSome_of_usable {r : Router} (h : Succession r) {n id : Nat}
    (husable : r.slot.usable n = .ok (some id)) : (r.sessions.get? id).isSome := by
  obtain ⟨s, hs, _⟩ := h.current_session (Ledger.usable_eq_some husable).1
  rw [hs]
  rfl

theorem isSome_install {r : Router} {resolver : Resolver} {interpreter : Interpreter} :
    (({ r with resolver }.install interpreter).sessions.get? r.nextSession).isSome := by
  rw [install, Sessions.get?_put, if_pos rfl]
  rfl

namespace Vouched

variable {r r' rest middle : Router} {e : Event} {history : List Moment} {n : Nat}
  {request : Request} {t t' : Task}

theorem quiet (hserving : ∀ call id k, t ≠ .serving call id k) (hdone : ∀ result, t ≠ .done result) :
    Vouched history r n request t where
  serving ht := (hserving _ _ _ ht).elim
  answered ht := (hdone _ ht).elim
  refused ht := (hdone _ ht).elim

theorem failed {cause : Failure}
    (hcause : (∀ m ∈ history, m.Honest) → cause ≠ .environment .sessionReplaced) :
    Vouched history r n request (.done (.error cause)) where
  serving := nofun
  answered := nofun
  refused ht hhonest := by
    cases ht
    exact (hcause hhonest rfl).elim

theorem changed {value : Json} (haffects : ∀ {call},
    Call.ofRequest request.method request.params = .ok call → call.affectsEnvironment) :
    Vouched history r n request (.done (.ok value)) where
  serving := nofun
  answered _ hcall hneeds := by
    rw [not_needsSession (haffects hcall)] at hneeds
    cases hneeds
  refused := nofun

theorem mono (h : Vouched history r n request t) (hsuccession : Succession r)
    (hhappens : Happens r e r') : Vouched (⟨r, e, r'⟩ :: history) r' n request t where
  serving ht := by
    obtain ⟨hgave, s, v, hs, hv, hquery⟩ := h.serving ht
    obtain ⟨s', hs', hcontinues⟩ := session_continues hsuccession hhappens hs
    obtain ⟨v', hv', hsame⟩ := hcontinues.query hv
    exact ⟨hgave.cons, s', v', hs', hv', hsame ▸ hquery⟩
  answered ht hcall hneeds := by
    obtain ⟨id, s, hgave, hs, htold⟩ := h.answered ht hcall hneeds
    obtain ⟨s', hs', hcontinues⟩ := session_continues hsuccession hhappens hs
    exact ⟨id, s', hgave.cons, hs', htold.cons hcontinues⟩
  refused ht hhonest :=
    (h.refused ht fun m hm => hhonest m (List.mem_cons_of_mem _ hm)).imp
      Moment.RefusedBehind.cons Moment.RetiredUnder.cons

theorem of_given {call : Call} {id : Nat} (hgave : Gave history n id)
    (hgiven : Given middle call id rest t')
    (hcall : ∀ {c}, Call.ofRequest request.method request.params = .ok c → call = c)
    (hfiled : middle.sessions.Filed) (hsome : (middle.sessions.get? id).isSome)
    (hsessions : r'.sessions = rest.sessions) : Vouched history r' n request t' := by
  cases hgiven with
  | asked hq hs =>
      rename_i q s
      have hid : s.id = id := hfiled hs
      have hput : r'.sessions.get? id = some (s.start q) := by
        rw [hsessions, ← hid]
        exact Table.lookup_put_self ..
      have hlast : (s.start q).invocations[s.invocations.length]? = some { query := q } := by
        simp [Session.start]
      refine ⟨fun ht => ?_, by simp, by simp⟩
      cases ht
      exact ⟨hgave, _, _, hput, hlast, hq⟩
  | told hnone =>
      obtain ⟨s, hs⟩ := Option.isSome_iff_exists.mp hsome
      have hquery : call.query? = none := hnone.resolve_right fun h => by cases h.symm.trans hs
      refine ⟨by simp, fun {c value} ht hc _ => ?_, by simp⟩
      cases ht
      cases hcall hc
      refine ⟨id, s, hgave, hsessions ▸ hs, ?_⟩
      rw [info_eq hs]
      exact .info hquery

theorem of_refused (hledger : Ledger history r) {cause : Failure}
    (husable : r.slot.usable n = .error cause) {m : Moment}
    (hdeed : m.deed? = r.slot.reading? n) :
    Vouched (m :: history) r' n request (.done (.error cause)) where
  serving := nofun
  answered := nofun
  refused ht _ := by
    cases ht
    have hreading : r.slot.reading? n = some (.refused n) := by
      unfold Slot.reading?
      rw [husable]
    have hlate : n < r.slot.since := by
      unfold Slot.usable at husable
      split at husable
      · split at husable
        · assumption
        · cases husable
      · cases husable
      · cases husable
    obtain ⟨id, hplaced⟩ := hledger.change (Nat.zero_lt_of_lt hlate)
    exact .inl ⟨[], m, history, r.slot.since, id, rfl, hdeed.trans hreading, hlate, hplaced⟩

theorem of_collected (hhonours : Honours history r) {call : Call} {id k : Nat} {s : Session}
    {v : Invocation} {result : Except Failure Answer}
    (h : Vouched history r n request (.serving call id k))
    (hcall : ∀ {c}, Call.ofRequest request.method request.params = .ok c → call = c)
    (hs : r.sessions.get? id = some s) (hv : s.invocations[k]? = some v)
    (hresult : v.stage.result? = some result) (hsessions : r'.sessions = r.sessions)
    (e : Event) (he : e = .collect n) :
    Vouched (⟨r, e, r'⟩ :: history) r' n request (.done (result.map call.answer)) := by
  obtain ⟨hgave, s', v', hs', hv', hquery⟩ := h.serving rfl
  cases Option.some.inj (hs.symm.trans hs')
  cases Option.some.inj (hv.symm.trans hv')
  have houtcome := Stage.outcome?_of_result? hresult
  refine ⟨nofun, fun {c value} ht hc _ => ?_, fun ht _ => ?_⟩
  · cases hcall hc
    cases result with
    | error cause => cases ht
    | ok a =>
        cases ht
        have hanswered := (hhonours hs).2.answers hv houtcome
        exact ⟨id, s, hgave.cons, hsessions ▸ hs, .answer hquery (hanswered.mono Moment.Ran.cons)⟩
  · cases result with
    | ok a => cases ht
    | error cause =>
        cases ht
        have hretired := (hhonours hs).2.refusals hv houtcome
        exact .inr ⟨[], _, history, id, s, rfl, he, hgave, hs, hretired⟩

theorem of_firstStage (lifecycle : Lifecycle) (request : Request) :
    Vouched history r n request (firstStage lifecycle request) := by
  obtain ⟨result, heq, hresult⟩ | ⟨call, _, _, heq⟩ | ⟨call, _, _, heq⟩ :=
    firstStage_cases lifecycle request
  · have hne := firstStage_ne_sessionReplaced lifecycle request
    rw [heq] at hne ⊢
    refine ⟨nofun, fun ht hcall hneeds => ?_, fun ht _ => (hne ht).elim⟩
    cases ht
    cases hresult _ hcall hneeds
  · exact heq ▸ .quiet (by simp) (by simp)
  · exact heq ▸ .quiet (by simp) (by simp)

theorem advance (hsuccession : Succession r) (hledger : Ledger history r)
    (hhonours : Honours history r) {v : Received} (he : e.request? = some n)
    (hv : r.received? n = some v) (htask : v.task = t) (hsuits : Suits v.request t)
    (h : Vouched history r n v.request t) (hadvance : Advance r e n t rest t') :
    Vouched (⟨r, e, rest.put n t'⟩ :: history) (rest.put n t') n v.request t' := by
  have ht : r.task? n = some t := by rw [task?, hv, ← htask]; rfl
  have hdeed := Moment.deed?_eq (m := ⟨r, e, rest.put n t'⟩) he ht
  cases hadvance with
  | locked | creating | moving | changing | switched | moved | retires | absent | probing =>
      exact .quiet (by simp) (by simp)
  | dispatched hv' =>
      cases Option.some.inj (hv.symm.trans hv')
      exact .of_firstStage ..
  | shutDown => exact .changed fun hcall => hsuits.1.unique hcall ▸ hsuits.2
  | switchedFirst => exact .changed fun hcall => hsuits.1.unique hcall ▸ rfl
  | rooted => exact .changed fun hcall => hsuits.unique hcall ▸ rfl
  | retiredBefore | drained =>
      obtain ⟨call, hmakes, haffects⟩ := hsuits
      exact .changed fun hcall => hmakes.unique hcall ▸ haffects
  | notFolder => exact .failed fun _ => by simp [notFolder]
  | unchosen _ hstart =>
      refine .failed fun _ hcause => ?_
      cases hcause
      exact Resolver.start_ne_sessionReplaced hstart
  | unusable =>
      refine .failed fun hhonest hcause => ?_
      cases hcause
      exact (hhonest _ List.mem_cons_self).ne_sessionReplaced rfl
  | refused _ husable => exact .of_refused hledger husable hdeed
  | refusedLate _ husable =>
      exact .of_refused hledger husable (hdeed.trans (deedAt?_creating (put_slot ..)))
  | unresolved _ _ hstart =>
      refine .failed fun _ hcause => ?_
      cases hcause
      exact Resolver.start_ne_sessionReplaced hstart
  | unprobed =>
      refine .failed fun hhonest hcause => ?_
      cases hcause
      exact (hhonest _ List.mem_cons_self).ne_sessionReplaced rfl
  | given _ husable hgiven =>
      have hgave := hdeed.trans (reading?_some husable)
      exact .of_given (Moment.gave_cons.mpr (.inl hgave)) hgiven hsuits.1.unique
        hsuccession.sessions_filed (hsuccession.isSome_of_usable husable) (put_sessions ..)
  | givenLate _ husable hgiven =>
      have hsame := (hgiven.same hsuccession.sessions_filed).trans (.unlock _ n t')
      rw [deedAt?_creating hsame.slot, reading?_some husable] at hdeed
      exact .of_given (Moment.gave_cons.mpr (.inl hdeed)) hgiven hsuits.1.unique
        hsuccession.sessions_filed (hsuccession.isSome_of_usable husable) (put_sessions ..)
  | created _ _ _ hgiven =>
      rw [Moment.deedAt?,
        hsuccession.placed?_of_places (hsuccession.places_given hgiven n)] at hdeed
      exact .of_given (Moment.gave_cons.mpr (.inr (.inl hdeed))) hgiven
        hsuits.1.unique (hsuccession.install_filed _ _) isSome_install
        (put_sessions ..)
  | createdLate hgiven =>
      rw [Moment.deedAt?,
        hsuccession.placed?_of_places (hsuccession.places_given hgiven n)] at hdeed
      exact .of_given (Moment.gave_cons.mpr (.inr (.inl hdeed))) hgiven
        hsuits.1.unique (hsuccession.install_filed _ _) isSome_install
        (put_sessions ..)
  | collected hs hv hresult =>
      exact .of_collected hhonours h hsuits.1.unique hs hv hresult
        (put_sessions ..) _ rfl

end Vouched

/-- The stages of all requests say what is so. -/
def Vouches (history : List Moment) (r : Router) : Prop :=
  ∀ ⦃n v⦄, r.received? n = some v → Vouched history r n v.request v.task

variable {r r' : Router} {e : Event} {history : List Moment}

theorem Vouches.happens (h : Vouches history r) (hsuccession : Succession r)
    (hledger : Ledger history r) (hhonours : Honours history r) (hfitting : Fitting r)
    (hhappens : Happens r e r') : Vouches (⟨r, e, r'⟩ :: history) r' := by
  have hkept {n : Nat} {v : Received} (hv : r.received? n = some v) :
      Vouched (⟨r, e, r'⟩ :: history) r' n v.request v.task :=
    (h hv).mono hsuccession hhappens
  intro n v hv
  cases hhappens with
  | arrived request tracked =>
      obtain hnew | hbefore := received?_arrived hv
      · rw [hnew]
        exact .quiet (by simp) (by simp)
      · exact hkept hbefore
  | advanced he ht hadvance =>
      obtain ⟨u, hu, htask⟩ := exists_received ht
      obtain ⟨rfl, rfl⟩ | ⟨_, hbefore⟩ := hadvance.received? hu hv
      · have hvouched := Vouched.advance hsuccession hledger hhonours he hu htask
          (htask ▸ hfitting hu) (htask ▸ h hu) hadvance
        exact hvouched
      · exact hkept hbefore
  | _ => exact hkept hv

theorem Run.vouches {settings : Settings} {resolver : Resolver} {lifecycle : Lifecycle}
    (hrun : (Router.ofSettings settings resolver lifecycle).Run history r) : Vouches history r :=
  hrun.invariant (P := Vouches) (fun _ _ hv => by cases hv) fun hrun h hhappens =>
    h.happens hrun.succession hrun.ledger hrun.honours hrun.fitting hhappens

/-- A session that a change put in the slot is given only to requests that came later than the
change. A request that needs a session and succeeds is answered by one that it was given: with what
is known of that session, or with what a tool has found that was run for the session, with its
interpreter and in its root. And it fails because a session was replaced only if, when it read the
slot, a change that came later had put a session there, or if its own session had been replaced. -/
theorem served_in_order (settings : Settings) (resolver : Resolver) (lifecycle : Lifecycle)
    {history : List Moment} {r : Router}
    (hrun : (Router.ofSettings settings resolver lifecycle).Run history r) :
    (∀ a b id, Gave history a id → Placed history b id → b < a) ∧
    (∀ a v call value, r.received? a = some v →
      Call.ofRequest v.request.method v.request.params = .ok call → call.needsSession →
      v.task = .done (.ok value) →
      ∃ id s, Gave history a id ∧ r.sessions.get? id = some s ∧
        Moment.Told history id s call value) ∧
    ((∀ m ∈ history, m.Honest) → ∀ a,
      r.task? a = some (.done (.error (.environment .sessionReplaced))) →
      Moment.RefusedBehind history a ∨ Moment.RetiredUnder history a) := by
  refine ⟨fun a b id => hrun.ledger.order, fun a v call value hv hcall hneeds hdone => ?_,
    fun hhonest a ha => ?_⟩
  · exact (hrun.vouches hv).answered hdone hcall hneeds
  · obtain ⟨v, hv, hdone⟩ := exists_received ha
    exact (hrun.vouches hv).refused hdone hhonest

theorem probe_happens (hhappens : Happens r e r') : r'.resolver.probe = r.resolver.probe := by
  cases hhappens with
  | advanced _ _ hadvance =>
      rw [put_resolver]
      cases hadvance with
      | given _ _ hgiven => rw [hgiven.rest_eq]
      | givenLate _ _ hgiven => rw [hgiven.rest_eq]; rfl
      | created _ _ _ hgiven => rw [hgiven.rest_eq]; rfl
      | createdLate hgiven => rw [hgiven.rest_eq]; rfl
      | _ => rfl
  | _ => rfl

theorem honest_playFrom {probe : Probe} {events : List Event} {history : List Moment} {r : Router}
    (hprobe : r.resolver.probe = probe) (hhistory : ∀ m ∈ history, m.Honest)
    (hevents : ∀ n answer, .probed n answer ∈ events → ∃ path, probe.Answers path answer) :
    ∀ m ∈ (playFrom history r events).1, m.Honest := by
  induction events generalizing history r with
  | nil => exact hhistory
  | cons e events ih =>
      have hlater (n : Nat) (answer : Except EnvironmentFailure (List Capability))
          (hmem : .probed n answer ∈ events) : ∃ path, probe.Answers path answer :=
        hevents n answer (List.mem_cons_of_mem e hmem)
      unfold playFrom
      split
      · rename_i r' hstep
        refine ih ((probe_happens (step?_happens hstep)).trans hprobe) ?_ hlater
        intro m hm
        obtain rfl | hm := List.mem_cons.mp hm
        · intro n answer hevent
          cases hevent
          obtain ⟨path, hanswer⟩ := hevents n answer List.mem_cons_self
          exact ⟨path, hprobe ▸ hanswer⟩
        · exact hhistory m hm
      · exact ih hprobe hhistory hlater

theorem honest_play {start : Router} {events : List Event}
    (hevents : ∀ n answer, .probed n answer ∈ events →
      ∃ path, start.resolver.probe.Answers path answer) :
    ∀ m ∈ (start.play events).1, m.Honest :=
  honest_playFrom rfl (fun _ hm => by cases hm) hevents

/-- After the switch a buffer is formatted, with what one run of the formatter has left. -/
def Trial.formatting : List Event :=
  Trial.overtaken ++ [.arrive ⟨.text "last", "format.run",
      .object [("path", .text "a.py"), ("buffer", .text "x")]⟩ true, .dispatch 5, .look 5] ++
    [.check, .register, .enter, .take, .begin, .finish (.ok ⟨⟨0⟩, "y\n", ""⟩), .settle].map (.move 2 0) ++
    [.collect 5]

/-- Request 2 is overtaken by change 3, whose session serves request 4, and runs the new interpreter
for request 5. -/
theorem served_in_order_around_switch :
    ∃ history r, Trial.start.Run history r ∧ (∀ m ∈ history, m.Honest) ∧
      Gave history 4 2 ∧ Placed history 3 2 ∧ 3 < 4 ∧
      (Moment.RefusedBehind history 2 ∨ Moment.RetiredUnder history 2) ∧
      (∃ id s, Gave history 5 id ∧ r.sessions.get? id = some s ∧
        Moment.Told history id s (.format ⟨⟨"a.py"⟩, "x", false⟩) (.text "y\n")) ∧
      (Moment.toolRuns history).map (fun run => (run.session, run.command.program)) =
        [(2, ⟨"/new"⟩)] := by
  have hrun := run_play Trial.start Trial.formatting
  have hhonest : ∀ m ∈ (Trial.start.play Trial.formatting).1, m.Honest :=
    honest_play fun n answer hmem => by
      have hanswer : answer = .ok Capability.all := by
        simp [Trial.formatting, Trial.overtaken, Trial.ask, Trial.switch, Trial.asks,
          Trial.changes] at hmem
        tauto
      exact ⟨⟨"/old"⟩, hanswer⟩
  have hgave : Gave (Trial.start.play Trial.formatting).1 4 2 := .inl (by decide)
  have hplaced : Placed (Trial.start.play Trial.formatting).1 3 2 := .inl (by decide)
  obtain ⟨horder, hanswered, hrefused⟩ := served_in_order _ _ _ hrun
  exact ⟨_, _, hrun, hhonest, hgave, hplaced, horder 4 3 2 hgave hplaced, hrefused hhonest 2 rfl,
    hanswered 5 _ _ _ rfl rfl rfl rfl, rfl⟩

end Router

end CodeAssist
