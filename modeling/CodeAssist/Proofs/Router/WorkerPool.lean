import CodeAssist.Proofs.Router.Progress
import CodeAssist.Proofs.Session.Run

namespace CodeAssist

/-! A worker that an invocation takes comes back, whichever way the invocation ends, and none is
taken once the pool is closed. -/

namespace Pool

/-- What an invocation has more or less after a step, the pool has less or more: it `had` so many
workers, and `has` so many. It gets one only from an open pool, begins with one, and has none left
when its tool has ended. -/
structure Exchange (pool : Pool) (had : Nat) (m : Move) (pool' : Pool) (has : Nat) : Prop where
  free : pool'.free + has = pool.free + had
  closed : pool'.closed = pool.closed
  take : m = .take → pool.closed = false ∧ has = had + 1
  other : m ≠ .take → has ≤ had
  begin : m = .begin → 0 < had
  finish : ∀ result, m = .finish result → had = has + 1

namespace Exchange

variable {pool pool' : Pool} {had has : Nat} {m : Move}

theorem none (pool : Pool) (htake : m ≠ .take) (hbegin : m ≠ .begin)
    (hfinish : ∀ result, m ≠ .finish result) : pool.Exchange 0 m pool 0 where
  free := rfl
  closed := rfl
  take h := absurd h htake
  other _ := Nat.le_refl _
  begin h := absurd h hbegin
  finish result h := absurd h (hfinish result)

theorem release (pool : Pool) (htake : m ≠ .take) : pool.Exchange 1 m pool.release 0 where
  free := rfl
  closed := rfl
  take h := absurd h htake
  other _ := Nat.zero_le _
  begin _ := Nat.one_pos
  finish _ _ := rfl

/-- The worker is given back just when one more is free. -/
theorem free_eq_iff (h : pool.Exchange had m pool' has) :
    pool'.free = pool.free + 1 ↔ had = has + 1 := by
  have hfree := h.free
  omega

end Exchange

end Pool

namespace Session

def workersOf (s : Session) (k : Nat) : Nat := s.invocations[k]?.elim 0 (·.stage.workers)

variable {s s' : Session} {pool pool' : Pool} {j k : Nat} {v : Invocation} {m : Move}

theorem workersOf_eq (hv : s.invocations[k]? = some v) : s.workersOf k = v.stage.workers := by
  rw [workersOf, hv]
  rfl

theorem workersOf_start (s : Session) (q : Query) (k : Nat) :
    (s.start q).workersOf k = s.workersOf k := by
  unfold workersOf
  cases hv : (s.start q).invocations[k]? with
  | none =>
      have hnone : s.invocations[k]? = none := by
        rw [List.getElem?_eq_none_iff] at hv ⊢
        rw [start, List.length_append] at hv
        omega
      rw [hnone]
  | some v =>
      obtain hold | ⟨rfl, rfl⟩ := getElem?_start hv
      · rw [hold]
      · rw [List.getElem?_eq_none (Nat.le_refl _)]
        rfl

theorem Advance.workersOf_other (hadvance : s.Advance pool k v m pool' s') (hne : j ≠ k) :
    s'.workersOf j = s.workersOf j := by
  obtain ⟨number, hother⟩ := hadvance.change.other hne
  unfold workersOf
  rw [hother]
  cases s.invocations[j]? with
  | none => rfl
  | some u => exact congrArg Stage.workers (u.told_stage number)

theorem Advance.exchange (hv : s.invocations[k]? = some v)
    (hadvance : s.Advance pool k v m pool' s') :
    pool.Exchange (s.workersOf k) m pool' (s'.workersOf k) := by
  have hput (caches : Caches) (w : Invocation) :
      ({ s with caches }.put k w).workersOf k = w.stage.workers :=
    workersOf_eq (getElem?_put_self (s := { s with caches }) hv w)
  rw [workersOf_eq hv]
  cases hadvance with
  | lacking hstage | admitted hstage | unregistrable hstage | entered hstage | refused hstage
  | gaveUp hstage | reported hstage =>
      rw [hput, hstage]
      exact .none pool nofun nofun nofun
  | turnedAway hstage | settled hstage =>
      rw [hput, hstage]
      dsimp only
      rw [Query.workers_settled]
      exact .none pool nofun nofun nofun
  | registered hstage =>
      rw [workersOf_eq (getElem?_register_self hv _), hstage]
      exact .none pool nofun nofun nofun
  | unregistered hstage =>
      rw [← invocations_unregister s v] at hv
      rw [workersOf_eq (getElem?_put_self hv _), hstage]
      exact .none pool nofun nofun nofun
  | trivial hstage | recalled hstage | answered hstage | failed hstage =>
      rw [hput, hstage]
      exact .release pool nofun
  | took hstage hopen hfree =>
      rw [hput, hstage]
      have hleft := Nat.sub_add_cancel (Nat.pos_of_ne_zero hfree)
      exact ⟨hleft, rfl, fun _ => ⟨hopen, rfl⟩, fun h => absurd rfl h, nofun, nofun⟩
  | began hstage =>
      rw [hput, hstage]
      exact ⟨rfl, rfl, nofun, fun _ => Nat.le_refl _, fun _ => Nat.one_pos, nofun⟩

end Session

namespace Sessions

def workersOf (g : Sessions) (id k : Nat) : Nat := (g.get? id).elim 0 (·.workersOf k)

variable {g g' : Sessions} {s : Session} {id k : Nat} {m : Move}

theorem workersOf_eq (hs : g.get? id = some s) : g.workersOf id k = s.workersOf k := by
  rw [workersOf, hs]
  rfl

theorem workersOf_eq_zero (hnone : g.get? id = none) : g.workersOf id k = 0 := by
  rw [workersOf, hnone]
  rfl

theorem workersOf_le_one (g : Sessions) (id k : Nat) : g.workersOf id k ≤ 1 := by
  cases hs : g.get? id with
  | none =>
      rw [workersOf_eq_zero hs]
      exact Nat.zero_le 1
  | some s =>
      rw [workersOf_eq hs]
      cases hv : s.invocations[k]? with
      | none =>
          rw [Session.workersOf, hv]
          exact Nat.zero_le 1
      | some v =>
          rw [Session.workersOf_eq hv]
          exact Bool.toNat_le v.stage.holdsWorker

theorem hasWorker_iff : g.HasWorker id k ↔ 0 < g.workersOf id k := by
  constructor
  · rintro ⟨s, v, hs, hv, hholds⟩
    rw [workersOf_eq hs, Session.workersOf_eq hv, Stage.workers, hholds]
    exact Nat.one_pos
  · intro hpos
    cases hs : g.get? id with
    | none =>
        rw [workersOf_eq_zero hs] at hpos
        cases hpos
    | some s =>
        rw [workersOf_eq hs] at hpos
        cases hv : s.invocations[k]? with
        | none =>
            rw [Session.workersOf, hv] at hpos
            cases hpos
        | some v =>
            rw [Session.workersOf_eq hv] at hpos
            refine ⟨s, v, hs, hv, ?_⟩
            cases hholds : v.stage.holdsWorker with
            | false =>
                rw [Stage.workers, hholds] at hpos
                cases hpos
            | true => rfl

theorem step?_exchange (hfiled : g.Filed) (hstep : g.step? id k m = some g') :
    g.pool.Exchange (g.workersOf id k) m g'.pool (g'.workersOf id k) := by
  unfold step? at hstep
  simp only [Option.bind_eq_bind, Option.bind_eq_some_iff] at hstep
  obtain ⟨s, hs, ⟨pool, s'⟩, hsession, heq⟩ := hstep
  cases heq
  obtain ⟨v, hv, hadvance⟩ := Session.step?_advance hsession
  have hid : s'.id = id := (congrArg Session.Face.id hadvance.face).trans (hfiled hs)
  have hs' : ({ g with pool }.put s').get? id = some s' := by rw [get?_put, if_pos hid.symm]
  rw [workersOf_eq hs, workersOf_eq hs']
  exact hadvance.exchange hv

end Sessions

namespace Moment

/-- Whether invocation `k` of session `id` takes a worker. -/
def takes (m : Moment) (id k : Nat) : Bool :=
  match m.event with
  | .move i j .take => i == id && j == k
  | _ => false

/-- Whether a step of invocation `k` of session `id` leaves the pool with one more free worker. -/
def returns (m : Moment) (id k : Nat) : Bool :=
  match m.event with
  | .move i j _ =>
      i == id && j == k && m.after.sessions.pool.free == m.before.sessions.pool.free + 1
  | _ => false

end Moment

namespace Router

variable {r r' : Router} {e : Event} {id k : Nat}

/-- Unless an invocation makes a step itself, it keeps the worker that it has, and gets none. -/
theorem Becomes.workersOf {s : Session} (hsuccession : Succession r)
    (hbecomes : Becomes r e id s) (hidle : ∀ m, e ≠ .move id k m) :
    s.workersOf k = r.sessions.workersOf id k := by
  induction hbecomes with
  | stays hs => exact (Sessions.workersOf_eq hs).symm
  | new hid =>
      have hnone : r.sessions.get? id = none := by
        cases hs : r.sessions.get? id with
        | none => rfl
        | some other => exact absurd (hsuccession.lt_of_get? hs) (hid ▸ Nat.lt_irrefl _)
      rw [Sessions.workersOf_eq_zero hnone]
      rfl
  | starts _ q ih => exact (Session.workersOf_start ..).trans ih
  | retires hs reason => exact (Sessions.workersOf_eq hs).symm
  | @works _ _ j _ m _ _ he hs _ hadvance =>
      have hne : k ≠ j := by
        rintro rfl
        exact hidle m he
      rw [Sessions.workersOf_eq hs]
      exact hadvance.workersOf_other hne

theorem step?_exchange_or_keeps (hsuccession : Succession r) (hstep : r.step? e = some r')
    (id k : Nat) :
    (∃ m, e = .move id k m ∧ r.sessions.pool.Exchange (r.sessions.workersOf id k) m
      r'.sessions.pool (r'.sessions.workersOf id k)) ∨
    (∀ m, e ≠ .move id k m) ∧ r'.sessions.workersOf id k = r.sessions.workersOf id k := by
  by_cases hown : ∃ m, e = .move id k m
  · obtain ⟨m, rfl⟩ := hown
    obtain ⟨sessions, hmove, rfl⟩ := Option.map_eq_some_iff.mp hstep
    exact .inl ⟨m, rfl, Sessions.step?_exchange hsuccession.sessions_filed hmove⟩
  · have hidle (m : Move) : e ≠ .move id k m := fun he => hown ⟨m, he⟩
    refine .inr ⟨hidle, ?_⟩
    have hhappens := step?_happens hstep
    cases hs' : r'.sessions.get? id with
    | some s' =>
        rw [Sessions.workersOf_eq hs']
        exact (becomes_happens hsuccession hhappens hs').workersOf hsuccession hidle
    | none =>
        cases hs : r.sessions.get? id with
        | none => rw [Sessions.workersOf_eq_zero hs', Sessions.workersOf_eq_zero hs]
        | some s =>
            obtain ⟨s', hstill, -⟩ := session_continues hsuccession hhappens hs
            cases hs'.symm.trans hstill

/-- What an invocation has after a step and has given back with it, is what it had before and has
taken. -/
theorem workersOf_add_returns (hsuccession : Succession r) (hstep : r.step? e = some r')
    (id k : Nat) :
    r'.sessions.workersOf id k + (if Moment.returns ⟨r, e, r'⟩ id k then 1 else 0) =
      r.sessions.workersOf id k + if Moment.takes ⟨r, e, r'⟩ id k then 1 else 0 := by
  obtain ⟨m, rfl, hexchange⟩ | ⟨hidle, hsame⟩ := step?_exchange_or_keeps hsuccession hstep id k
  · have hone := r.sessions.workersOf_le_one id k
    have hreturns : Moment.returns ⟨r, .move id k m, r'⟩ id k =
        decide (r.sessions.workersOf id k = r'.sessions.workersOf id k + 1) := by
      rw [Bool.eq_iff_iff]
      simp [Moment.returns, hexchange.free_eq_iff]
    by_cases htake : m = .take
    · have htakes : Moment.takes ⟨r, .move id k m, r'⟩ id k = true := by
        simp [Moment.takes, htake]
      obtain ⟨-, hmore⟩ := hexchange.take htake
      simp only [hreturns, htakes, decide_eq_true_eq, if_true]
      rw [if_neg (by omega), hmore]
    · have htakes : Moment.takes ⟨r, .move id k m, r'⟩ id k = false := by
        cases m with
        | take => exact absurd rfl htake
        | _ => rfl
      have hless := hexchange.other htake
      simp only [hreturns, htakes, decide_eq_true_eq]
      split <;> simp only [Bool.false_eq_true, if_false] <;> omega
  · have htakes : Moment.takes ⟨r, e, r'⟩ id k = false := by
      unfold Moment.takes
      split
      · rename_i i j he
        refine Bool.eq_false_iff.mpr fun hown => hidle .take ?_
        simp only [Bool.and_eq_true, beq_iff_eq] at hown
        rw [← hown.1, ← hown.2]
        exact he
      · rfl
    have hreturns : Moment.returns ⟨r, e, r'⟩ id k = false := by
      unfold Moment.returns
      split
      · rename_i i j m he
        refine Bool.eq_false_iff.mpr fun hown => hidle m ?_
        simp only [Bool.and_eq_true, beq_iff_eq] at hown
        rw [← hown.1.1, ← hown.1.2]
        exact he
      · rfl
    rw [htakes, hreturns, hsame]

theorem closed_happens (hsuccession : Succession r) (hdistinct : r.sessions.Distinct)
    (hhappens : Happens r e r') (hclosed : r.sessions.pool.closed = true) :
    r'.sessions.pool.closed = true := by
  cases hhappens with
  | advanced _ _ hadvance =>
      rw [put_sessions, (hadvance.load hsuccession hdistinct Stage.workers).2]
      exact hclosed
  | worked hstep =>
      exact (Sessions.step?_exchange hsuccession.sessions_filed hstep).closed.trans hclosed
  | drainCloses => rfl
  | drainRetires =>
      rw [(Sessions.load_retire Stage.workers hdistinct hsuccession.sessions_filed _ .shutdown).2]
      exact hclosed
  | _ => exact hclosed

section run

variable {settings : Settings} {resolver : Resolver} {lifecycle : Lifecycle}
  {history later : List Moment}

theorem Run.takes_eq (hrun : (Router.ofSettings settings resolver lifecycle).Run history r)
    (id k : Nat) :
    history.countP (·.takes id k) =
      history.countP (·.returns id k) + r.sessions.workersOf id k := by
  induction hrun with
  | none => rfl
  | step hrun hstep ih =>
      have hone := workersOf_add_returns hrun.succession hstep id k
      rw [List.countP_cons, List.countP_cons]
      omega

theorem Run.exchange (hrun : (Router.ofSettings settings resolver lifecycle).Run history r)
    {m : Moment} (hm : m ∈ history) {step : Move} (he : m.event = .move id k step) :
    m.before.sessions.pool.Exchange (m.before.sessions.workersOf id k) step
      m.after.sessions.pool (m.after.sessions.workersOf id k) := by
  obtain ⟨_, hbefore, hstep, -⟩ := hrun.moment hm
  obtain ⟨_, heq, hexchange⟩ | ⟨hidle, -⟩ :=
    step?_exchange_or_keeps hbefore.succession hstep id k
  · cases he.symm.trans heq
    exact hexchange
  · exact absurd he (hidle _)

/-- After the pool is closed no invocation gets a worker, and only those that have one begin. -/
theorem Run.after_close (hrun : (Router.ofSettings settings resolver lifecycle).Run history r)
    (hclosed : r.sessions.pool.closed = true) (hlater : r.Run later r') :
    r'.sessions.pool.closed = true ∧
      (∀ id k, r'.sessions.workersOf id k ≤ r.sessions.workersOf id k) ∧
      ∀ m ∈ later, ∀ id k, m.event ≠ .move id k .take ∧
        (m.event = .move id k .begin → r.sessions.HasWorker id k) := by
  induction hlater with
  | none => exact ⟨hclosed, fun _ _ => Nat.le_refl _, fun _ hm => by cases hm⟩
  | @step later r₁ r₂ e hlater hstep ih =>
      obtain ⟨hstill, hless, hsteps⟩ := ih
      have hbefore := hrun.append hlater
      have hstep_or := step?_exchange_or_keeps hbefore.succession hstep
      refine ⟨closed_happens hbefore.succession hbefore.distinct (step?_happens hstep) hstill,
        fun id k => ?_, fun m hm id k => ?_⟩
      · obtain ⟨m, -, hexchange⟩ | ⟨-, hsame⟩ := hstep_or id k
        · refine Nat.le_trans (hexchange.other fun htake => ?_) (hless id k)
          cases hstill.symm.trans (hexchange.take htake).1
        · exact hsame ▸ hless id k
      · obtain rfl | hm := List.mem_cons.mp hm
        · obtain ⟨m, rfl, hexchange⟩ | ⟨hidle, -⟩ := hstep_or id k
          · refine ⟨fun htake => ?_, fun hbegin => ?_⟩
            · cases htake
              cases hstill.symm.trans (hexchange.take rfl).1
            · cases hbegin
              exact Sessions.hasWorker_iff.mpr
                (Nat.lt_of_lt_of_le (hexchange.begin rfl) (hless id k))
          · exact ⟨hidle _, fun hbegin => absurd hbegin (hidle _)⟩
        · exact hsteps m hm id k

/-- Whatever is requested, replaced, superseded, stopped or shut down, the invocations of all sessions
have no more workers than there are. A worker is taken from an open pool, in which there is one less
then; one that an invocation has taken it has, or has given back, and has given back once its tool
has ended or it has a result. While no invocation has a worker all are free. After the pool is closed
none is taken, and no invocation begins but those that have one. -/
theorem workers_come_back (settings : Settings) (resolver : Resolver) (lifecycle : Lifecycle)
    {history : List Moment} {r : Router}
    (hrun : (Router.ofSettings settings resolver lifecycle).Run history r) :
    r.sessions.working ≤ max settings.maxWorkers 1 ∧
      (∀ m ∈ history, ∀ id k, m.event = .move id k .take →
        m.before.sessions.pool.closed = false ∧
          m.before.sessions.pool.free = m.after.sessions.pool.free + 1) ∧
      (∀ id k, (r.sessions.HasWorker id k →
          history.countP (·.takes id k) = history.countP (·.returns id k) + 1) ∧
        (¬r.sessions.HasWorker id k →
          history.countP (·.takes id k) = history.countP (·.returns id k))) ∧
      (∀ m ∈ history, ∀ id k result, m.event = .move id k (.finish result) →
        m.returns id k = true) ∧
      (∀ id s k v, r.sessions.get? id = some s → s.invocations[k]? = some v →
        v.stage.result?.isSome → ¬r.sessions.HasWorker id k) ∧
      ((∀ id k, ¬r.sessions.HasWorker id k) →
        r.sessions.pool.free = max settings.maxWorkers 1) ∧
      (r.sessions.pool.closed = true → ∀ later r', r.Run later r' → ∀ m ∈ later, ∀ id k,
        m.event ≠ .move id k .take ∧
          (m.event = .move id k .begin → r.sessions.HasWorker id k)) := by
  have hstaffed : r.sessions.pool.free + r.sessions.working = max settings.maxWorkers 1 :=
    hrun.staffed
  refine ⟨by omega, ?_, ?_, ?_, ?_, ?_, ?_⟩
  · intro m hm id k htake
    have hexchange := hrun.exchange hm htake
    obtain ⟨hopen, hone⟩ := hexchange.take rfl
    have hfree := hexchange.free
    exact ⟨hopen, by omega⟩
  · intro id k
    have htakes := hrun.takes_eq id k
    have hone := r.sessions.workersOf_le_one id k
    rw [Sessions.hasWorker_iff]
    exact ⟨fun _ => by omega, fun _ => by omega⟩
  · intro m hm id k result hfinish
    have hexchange := hrun.exchange hm hfinish
    have hfree := hexchange.free_eq_iff.mpr (hexchange.finish result rfl)
    simp [Moment.returns, hfinish, hfree]
  · intro id s k v hs hv hresult hholds
    obtain ⟨s', v', hs', hv', hholds⟩ := hholds
    cases hs.symm.trans hs'
    cases hv.symm.trans hv'
    obtain ⟨result, hresult⟩ := Option.isSome_iff_exists.mp hresult
    rw [Stage.eq_done_of_result? hresult] at hholds
    cases hholds
  · intro hnone
    have hidle : r.sessions.working = 0 := by
      refine Nat.eq_zero_of_not_pos fun hpos => ?_
      obtain ⟨id, k, hholds⟩ := Sessions.exists_hasWorker hrun.distinct hpos
      exact hnone id k hholds
    omega
  · intro hclosed later r' hlater m hm id k
    exact (hrun.after_close hclosed hlater).2.2 m hm id k

end run

namespace Trial

def reformat : Event :=
  .arrive ⟨.null, "format.run", .object [("path", .text "a.py"), ("buffer", .text "x")]⟩ true

def moves (id k : Nat) (steps : List Move) : List Event := steps.map (.move id k)

/-- A run of session 1 has the only worker when its session is replaced, and one of session 2 waits
for it. The first is stopped and the other gets the worker; then a shutdown closes the pool. -/
def contested : List Event :=
  [reformat] ++ asks 1 ++ moves 1 0 [.check, .register, .enter, .take, .begin] ++
    [switch, reformat] ++ changes 2 ++ asks 3 ++ moves 2 0 [.check, .register, .enter, .take] ++
    moves 1 0 [.finish (.error .cancelled)] ++ moves 2 0 [.take, .begin] ++
    [.drainStart, .drainOverdue]

end Trial

theorem workers_come_back_contested :
    ∃ history r, Trial.start.Run history r ∧ r.sessions.working ≤ 1 ∧
      history.countP (·.takes 1 0) = 1 ∧ history.countP (·.returns 1 0) = 1 ∧
      history.countP (·.takes 2 0) = history.countP (·.returns 2 0) + 1 ∧
      ∀ later r', r.Run later r' → ∀ m ∈ later, ∀ id k, m.event ≠ .move id k .take := by
  have hrun := run_play Trial.start Trial.contested
  have hclosed : (Trial.start.play Trial.contested).2.sessions.pool.closed = true := by decide
  have hworking : (Trial.start.play Trial.contested).2.sessions.workersOf 2 0 = 1 := by decide
  have hstopped : (Trial.start.play Trial.contested).2.sessions.workersOf 1 0 = 0 := by decide
  have htook : (Trial.start.play Trial.contested).1.countP (·.takes 1 0) = 1 := by decide
  obtain ⟨hbound, -, hledger, -, -, -, hshut⟩ := workers_come_back _ _ _ hrun
  refine ⟨_, _, hrun, hbound, htook, ?_, (hledger 2 0).1 ?_, fun later r' hlater m hm id k =>
    (hshut hclosed later r' hlater m hm id k).1⟩
  · rw [← (hledger 1 0).2, htook]
    rw [Sessions.hasWorker_iff, hstopped]
    exact Nat.lt_irrefl 0
  · rw [Sessions.hasWorker_iff, hworking]
    exact Nat.one_pos

end Router

end CodeAssist
