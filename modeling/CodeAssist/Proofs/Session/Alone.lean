import CodeAssist.Proofs.Session.Retirement
import CodeAssist.Proofs.Session.Supersession

namespace CodeAssist

/-! What a query comes to on a session of its own, where nothing was kept for it. -/

/-- What a tool is asked: by which script, about which file, and in what document, the path's text
left out. -/
structure ToolRequest where
  script : String
  file : List Path.Component
  document : Json

namespace Query

def respelled (path : Path) : Query → Query
  | .completion _ buffer offset => .completion path buffer offset
  | .hover _ buffer offset => .hover path buffer offset
  | .format _ buffer => .format path buffer
  | .diagnostics _ buffer => .diagnostics path buffer

def asked (q : Query) (root : Path) : ToolRequest where
  script := q.script
  file := q.path.components
  document := (q.respelled ⟨""⟩).document root

/-- What a query comes to if nothing was kept for it and nothing stops it. -/
def outcome (q : Query) (interpreter : Interpreter) (root : Path)
    (tool : ToolRequest → ProcessEnd) : Except Failure Answer :=
  match q.lacks interpreter with
  | some missing => .error (.capabilityUnavailable missing)
  | none =>
      if q.needsTool then (q.ofEnd (tool (q.asked root))).mapError .tool else .ok q.nothing

variable {p q : Query} {o : ProcessOutput} {a : Answer}

theorem Alike.buffer (halike : p.Alike q)
    (hdigests : Digest.ofText p.buffer = Digest.ofText q.buffer → p.buffer = q.buffer) :
    p.buffer = q.buffer := by
  cases halike with
  | same => rfl
  | completion _ hdigest | diagnostics _ hdigest => exact hdigests hdigest

theorem Alike.asked (halike : p.Alike q) (hbuffer : p.buffer = q.buffer) (root : Path) :
    p.asked root = q.asked root := by
  cases halike with
  | same => rfl
  | completion hfile | diagnostics hfile =>
      cases hbuffer
      simp only [Query.asked, Query.path, hfile]
      rfl

theorem Alike.needsTool (halike : p.Alike q) (hbuffer : p.buffer = q.buffer) :
    p.needsTool = q.needsTool := by
  cases halike with
  | same => rfl
  | completion | diagnostics =>
      cases hbuffer
      rfl

theorem ofOutput_completion {path : Path} {buffer : String} {offset : Nat}
    (hread : (Query.completion path buffer offset).ofOutput o = .ok a) :
    ∃ items, a = .completion items := by
  unfold ofOutput at hread
  split at hread
  · simp only [printed, bind, Except.bind] at hread
    split at hread
    · cases hread
    · cases hread
      exact ⟨_, rfl⟩
  · cases hread

/-- What a tool has answered, it has answered to every query that asks it the same. -/
theorem Alike.ofOutput (halike : p.Alike q) (hbuffer : p.buffer = q.buffer)
    (hread : p.ofOutput o = .ok a) : q.ofOutput o = .ok (a.under q.path) := by
  cases halike with
  | same => rw [under_of_ofOutput hread, hread]
  | completion =>
      cases hbuffer
      obtain ⟨items, rfl⟩ := ofOutput_completion hread
      exact hread
  | @diagnostics _ path' buffer =>
      cases hbuffer
      unfold Query.ofOutput at hread ⊢
      split at hread
      · rename_i hsuccess
        rw [if_pos hsuccess]
        simp only [printed, bind, Except.bind] at hread ⊢
        split at hread
        · cases hread
        · rename_i hparsed
          cases hread
          have hsame : (Query.diagnostics path' buffer).parsed (.list Problem.shape) o = _ :=
            hparsed
          rw [hsame]
          rfl
      · cases hread

end Query

theorem Caches.lookup_empty (q : Query) : ({} : Caches).lookup q = (none, {}) := by
  cases q <;> rfl

namespace Session

theorem canEnd_of_ne {result : ProcessEnd} (hgoes : result ≠ .error .cancelled) (s : Session)
    (v : Invocation) : s.canEnd v result = true := by
  unfold canEnd
  split
  · exact absurd rfl hgoes
  · rfl

theorem settle_of_open {s : Session} (hopen : s.retired = none) (c : Capability)
    (result : Except Failure Answer) : s.settle c result = result := by
  unfold settle
  split
  · rename_i hretired
    cases hopen.symm.trans hretired
  · rfl

theorem report_of_kind {failure : Failure} (hkind : failure.kind ≠ .cancelled) (s : Session)
    (path : Path) : s.report path (.error failure) = .error failure := by
  unfold report
  split
  · rename_i heq
    cases heq
    exact absurd rfl hkind
  · rfl

section alone

variable (tool : ToolRequest → ProcessEnd) (q : Query)

/-- What happens to a session that has one query, which nothing stops. -/
def unhindered (root : Path) : List Event :=
  .start q :: [.check, .register, .enter, .take, .begin, .finish (tool (q.asked root)), .settle,
    .unregister, .report].map (.move { free := 1 } 0)

/-- What a query comes to on a session of its own. -/
def alone (fresh : Session) : Option (Except Failure Answer) :=
  (fresh.play (unhindered tool q fresh.settings.root)).2.invocations[0]?.bind (·.stage.result?)

theorem alone_eq (htool : ∀ request, tool request ≠ .error .cancelled) (id : Nat)
    (interpreter : Interpreter) (settings : ToolSettings) :
    alone tool q { id, interpreter, settings } =
      some (q.outcome interpreter settings.root tool) := by
  unfold alone Query.outcome
  cases hlacks : q.lacks interpreter with
  | some missing =>
      simp [unhindered, play, playFrom, next?, step?, start, put, hlacks, Stage.result?]
  | none =>
      cases hneeds : q.needsTool with
      | false =>
          cases hfile : q.supersedes? <;>
            simp [unhindered, play, playFrom, next?, step?, start, put, register, unregister,
              begin, settle_of_open, report, Query.settled, Stage.result?, Table.put,
              Table.without, hlacks, hneeds, hfile]
      | true =>
          have hcan := canEnd_of_ne (htool (q.asked settings.root))
          cases hend : q.ofEnd (tool (q.asked settings.root)) with
          | ok answer =>
              cases hfile : q.supersedes? <;>
                simp [unhindered, play, playFrom, next?, step?, start, put, register, unregister,
                  begin, finish, settle_of_open, report, Query.settled, Stage.result?, Table.put,
                  Table.without, Caches.lookup_empty, Except.mapError, hlacks, hneeds, hfile,
                  hcan, hend]
          | error cause =>
              have hkind := Query.ofEnd_kind hend (htool _)
              cases hfile : q.supersedes? <;>
                simp [unhindered, play, playFrom, next?, step?, start, put, register, unregister,
                  begin, finish, settle_of_open, report_of_kind hkind, Query.settled,
                  Stage.result?, Table.put, Table.without, Caches.lookup_empty, Except.mapError,
                  hlacks, hneeds, hfile, hcan, hend]

end alone

/-- What it says of a query that an invocation has got to a stage. -/
def Reaches (q : Query) (interpreter : Interpreter) : Stage → Prop
  | .arrived => True
  | .admitted | .registered | .waiting | .working | .leaving _ | .closing _ | .reporting _ =>
      q.lacks interpreter = none
  | .running _ => q.lacks interpreter = none ∧ q.needsTool = true
  | .done result => q.lacks interpreter = none ∨ ∃ missing,
      q.lacks interpreter = some missing ∧ result = .error (.capabilityUnavailable missing)

section run

variable {start s s' : Session} {history : List Moment} {m : Moment} {k : Nat} {v v' : Invocation}

theorem reaches_settled {q : Query} {interpreter : Interpreter} (hlacks : q.lacks interpreter = none)
    (result : Except Failure Answer) : Reaches q interpreter (q.settled result) := by
  unfold Query.settled
  split
  · exact hlacks
  · exact .inl hlacks

theorem Advance.reaches {pool pool' : Pool} {step : Move} (hv : s.invocations[k]? = some v)
    (hadvance : s.Advance pool k v step pool' s') (hreaches : Reaches v.query s.interpreter v.stage)
    (hv' : s'.invocations[k]? = some v') : Reaches v'.query s.interpreter v'.stage := by
  cases hadvance with
  | lacking hstage hlacks =>
      obtain rfl := eq_of_getElem?_put hv hv'
      exact .inr ⟨_, hlacks, rfl⟩
  | admitted hstage hlacks =>
      obtain rfl := eq_of_getElem?_put hv hv'
      exact hlacks
  | registered hstage =>
      cases Option.some.inj ((getElem?_register_self hv _).symm.trans hv')
      rw [hstage] at hreaches
      exact hreaches
  | unregistrable hstage | entered hstage | took hstage | refused hstage | gaveUp hstage =>
      obtain rfl := eq_of_getElem?_put hv hv'
      rw [hstage] at hreaches
      exact hreaches
  | turnedAway hstage | settled hstage =>
      obtain rfl := eq_of_getElem?_put hv hv'
      rw [hstage] at hreaches
      exact reaches_settled hreaches _
  | trivial hstage | recalled hstage =>
      obtain rfl := eq_of_getElem?_put (s := { s with caches := _ }) hv hv'
      rw [hstage] at hreaches
      exact hreaches
  | began hstage hneeds =>
      obtain rfl := eq_of_getElem?_put (s := { s with caches := _ }) hv hv'
      rw [hstage] at hreaches
      exact ⟨hreaches, hneeds⟩
  | answered hstage | failed hstage =>
      obtain rfl := eq_of_getElem?_put (s := { s with caches := _ }) hv hv'
      rw [hstage] at hreaches
      exact hreaches.1
  | unregistered hstage =>
      rw [← invocations_unregister s v] at hv
      obtain rfl := eq_of_getElem?_put hv hv'
      rw [hstage] at hreaches
      exact hreaches
  | reported hstage =>
      obtain rfl := eq_of_getElem?_put hv hv'
      rw [hstage] at hreaches
      exact .inl hreaches

theorem Run.reaches (hrun : start.Run history s) (hnew : start.invocations = [])
    (hv : s.invocations[k]? = some v) : Reaches v.query start.interpreter v.stage := by
  refine hrun.each (P := fun _ _ _ v => Reaches v.query start.interpreter v.stage) hnew ?_ ?_ ?_ hv
  · intro history s q _
    trivial
  · intro history s s' pool pool' k step u v hrun hu h hadvance hv
    rw [← hrun.interpreter] at h ⊢
    exact hadvance.reaches hu h hv
  · intro history s s' e k u number _ h _ _
    rw [Invocation.told_query, Invocation.told_stage]
    exact h

/-- The tools of a session come to the same whenever they are asked the same, unless they are
stopped. -/
structure Steady (tool : ToolRequest → ProcessEnd) (root : Path) (history : List Moment)
    (s : Session) : Prop where
  goes : ∀ request, tool request ≠ .error .cancelled
  runs : ∀ {m pool k result v}, m ∈ history → m.event = .move pool k (.finish result) →
    s.invocations[k]? = some v → result ≠ .error .cancelled → result = tool (v.query.asked root)

/-- An invocation was stopped, and fails for what stopped it: there are no more workers, its session
has been retired, or it has been superseded. -/
inductive Stopped (history : List Moment) (s : Session) (k : Nat) (v : Invocation) : Failure → Prop
  | refused {m : Moment} {pool : Pool} (hm : m ∈ history) (hevent : m.event = .move pool k .refuse)
      (hclosed : pool.closed = true) : Stopped history s k v .shuttingDown
  | retired {reason : Reason} (hretired : s.retired = some reason) :
      Stopped history s k v (reason.failure v.query.capability)
  | superseded {failure : Failure} (hkind : v.query.supersedes?.isSome)
      (hsuperseded : v.superseded = true)
      (hfailure : failure = .superseded v.query.path ∨
        failure = .tool (.cancelled v.query.capability)) : Stopped history s k v failure

theorem Stopped.kind {failure : Failure} (hstopped : Stopped history s k v failure) :
    failure.kind = .cancelled ∨ failure.kind = .shuttingDown ∨
      failure = .environment .sessionReplaced := by
  cases hstopped with
  | refused => exact .inr (.inl rfl)
  | @retired reason =>
      cases reason with
      | replaced => exact .inr (.inr rfl)
      | shutdown => exact .inl rfl
  | superseded _ _ hfailure =>
      obtain rfl | rfl := hfailure
      · exact .inl rfl
      · exact .inl rfl

variable {tool : ToolRequest → ProcessEnd} {id : Nat} {interpreter : Interpreter}
  {settings : ToolSettings}

/-- A tool is run only for queries that have their capability and need it. -/
theorem Run.reaches_running {pool : Pool} {result : ProcessEnd}
    (hrun : start.Run history s) (hnew : start.invocations = []) (hm : m ∈ history)
    (hevent : m.event = .move pool k (.finish result)) (hv : s.invocations[k]? = some v) :
    v.query.lacks start.interpreter = .none ∧ v.query.needsTool = true := by
  obtain ⟨u, pool', hu, hadvance⟩ := hrun.advance hm hevent
  obtain ⟨earlier, hbefore⟩ := hrun.before hm
  have hreaches := hbefore.reaches hnew hu
  rw [hrun.query_eq hm hu hv] at hreaches
  generalize m.after = s' at hadvance
  cases hadvance with
  | answered hstage | failed hstage =>
      rw [hstage] at hreaches
      exact hreaches

theorem Run.outcome_of_ok {a : Answer} (hrun : Run { id, interpreter, settings } history s)
    (hdigests : ∀ u ∈ s.invocations, Digest.ofText u.query.buffer = Digest.ofText v.query.buffer →
      u.query.buffer = v.query.buffer)
    (hsteady : Steady tool settings.root history s) (hv : s.invocations[k]? = some v)
    (ha : v.stage.result? = some (.ok a)) :
    v.query.outcome interpreter settings.root tool = .ok a := by
  have hlacks : v.query.lacks interpreter = .none := by
    have hreaches := hrun.reaches rfl hv
    rw [Stage.eq_done_of_result? ha] at hreaches
    obtain hlacks | ⟨_, _, hfailed⟩ := hreaches
    · exact hlacks
    · cases hfailed
  have hanswered := hrun.sound.answers hv (Stage.outcome?_of_result? ha)
  unfold Query.outcome
  simp only [hlacks]
  generalize hq : v.query = q at hanswered hdigests
  cases hanswered with
  | nothing hneeds => rw [hneeds]; rfl
  | @found p o a halike hran hread =>
      obtain ⟨m, hm, pool, j, u, hevent, hu, rfl⟩ := hran
      obtain ⟨u', hu', hquery⟩ := hrun.kept hm hu
      have hbuffer := halike.buffer fun hdigest => by
        rw [← hquery] at hdigest ⊢
        exact hdigests u' (List.mem_of_getElem? hu') hdigest
      have htool := hsteady.runs hm hevent hu' nofun
      obtain ⟨-, hneeds⟩ := hrun.reaches_running rfl hm hevent hu'
      rw [hquery] at htool hneeds
      rw [← halike.needsTool hbuffer, hneeds, ← halike.asked hbuffer, ← htool]
      simp only [if_true, Query.ofEnd, halike.ofOutput hbuffer hread]
      rfl

theorem Run.outcome_or_stopped {result : Except Failure Answer}
    (hrun : Run { id, interpreter, settings } history s)
    (hdigests : ∀ u ∈ s.invocations, Digest.ofText u.query.buffer = Digest.ofText v.query.buffer →
      u.query.buffer = v.query.buffer)
    (hsteady : Steady tool settings.root history s) (hv : s.invocations[k]? = some v)
    (hresult : v.stage.result? = some result) :
    v.query.outcome interpreter settings.root tool = result ∨
      ∃ failure, result = .error failure ∧ Stopped history s k v failure := by
  cases result with
  | ok a => exact .inl (hrun.outcome_of_ok hdigests hsteady hv hresult)
  | error failure =>
      obtain hfails | ⟨-, hleaving⟩ := hrun.explained hv _ (Stage.outcome?_of_result? hresult)
      · cases hfails with
        | lacking hlacks =>
            rw [hrun.interpreter] at hlacks
            refine .inl ?_
            unfold Query.outcome
            simp only [hlacks]
        | @failed m pool result cause hm hevent hgoes hend =>
            have htool := hsteady.runs hm hevent hv hgoes
            obtain ⟨hlacks, hneeds⟩ := hrun.reaches_running rfl hm hevent hv
            refine .inl ?_
            unfold Query.outcome
            simp only [hlacks, hneeds, ← htool, hend, if_true]
            rfl
        | refused hm hevent hclosed => exact .inr ⟨_, rfl, .refused hm hevent hclosed⟩
        | retired hretired => exact .inr ⟨_, rfl, .retired hretired⟩
        | superseded hkind hsuperseded hfailure =>
            exact .inr ⟨_, rfl, .superseded hkind hsuperseded hfailure⟩
      · rw [hleaving] at hresult
        cases hresult

end run

end Session

end CodeAssist
