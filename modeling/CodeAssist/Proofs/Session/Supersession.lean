import CodeAssist.Proofs.Session.Registry

namespace CodeAssist

/-! Of the runs for one file, the one that was registered last goes on. -/

/-- Whether an invocation about a file has been stopped, and has not been answered but for that. -/
def Stage.Stopped (path : Path) : Stage → Prop
  | .leaving result | .closing result | .reporting result =>
      ∃ c, result = .error (.tool (.cancelled c))
  | .done result => result = .error (.superseded path)
  | .arrived | .admitted | .registered | .waiting | .working | .running _ => False

theorem Stage.Stopped.result {path : Path} {stage : Stage} {result : Except Failure Answer}
    (hstopped : stage.Stopped path) (hresult : stage.result? = some result) :
    result = .error (.superseded path) := by
  rw [Stage.eq_done_of_result? hresult] at hstopped
  exact hstopped

theorem Query.eq_diagnostics {q : Query} {file : List Path.Component}
    (hfile : q.supersedes? = some file) :
    ∃ path buffer, q = .diagnostics path buffer ∧ path.components = file := by
  cases q with
  | diagnostics path buffer => exact ⟨path, buffer, rfl, Option.some.inj hfile⟩
  | completion | hover | format => cases hfile

namespace Session

section supersession

variable {start s s' : Session} {history : List Moment} {m : Moment} {e : Event} {j k n : Nat}
  {u v : Invocation} {file other : List Path.Component} {pool : Pool}

theorem Advance.stopped {pool' : Pool} {step : Move} (hadvance : s.Advance pool k v step pool' s')
    (hv : s.invocations[k]? = some v) (hkind : v.query.supersedes?.isSome)
    (hgoes : s.retired = none) (hstopped : v.stage.Stopped v.query.path) :
    ∃ v', s'.invocations[k]? = some v' ∧ v'.query = v.query ∧ v'.stage.Stopped v.query.path := by
  cases hadvance with
  | settled hstage =>
      rw [hstage] at hstopped
      obtain ⟨c, rfl⟩ := hstopped
      refine ⟨_, getElem?_put_self hv _, rfl, ?_⟩
      simp only [settle, hgoes, Query.settled, if_pos hkind]
      exact ⟨c, rfl⟩
  | unregistered hstage =>
      rw [hstage] at hstopped
      rw [← invocations_unregister s v] at hv
      exact ⟨_, getElem?_put_self hv _, rfl, hstopped⟩
  | reported hstage =>
      rw [hstage] at hstopped
      obtain ⟨c, rfl⟩ := hstopped
      refine ⟨_, getElem?_put_self hv _, rfl, ?_⟩
      simp [report, hgoes, Stage.Stopped]
  | lacking hstage | admitted hstage | registered hstage | unregistrable hstage
  | turnedAway hstage | entered hstage | took hstage | refused hstage | gaveUp hstage
  | trivial hstage | recalled hstage | began hstage | answered hstage | failed hstage =>
      rw [hstage] at hstopped
      cases hstopped

/-- A run that was stopped stays so, and is answered accordingly, while its session goes on. -/
theorem Run.stopped {c : Capability} (hrun : start.Run history s) (hgoes : s.retired = .none)
    (hm : m ∈ history) (hu : m.after.invocations[k]? = some u)
    (hstage : u.stage = .leaving (.error (.tool (.cancelled c))))
    (hkind : u.query.supersedes?.isSome) :
    ∃ v, s.invocations[k]? = some v ∧ v.query = u.query ∧ v.stage.Stopped u.query.path := by
  refine hrun.invariant (P := fun history s => s.retired = .none → m ∈ history →
    ∃ v, s.invocations[k]? = some v ∧ v.query = u.query ∧ v.stage.Stopped u.query.path)
    (fun _ hm => by cases hm) ?_ hgoes hm
  intro history s e s' _ h hhappens hgoes hm
  obtain rfl | hm := List.mem_cons.mp hm
  · exact ⟨u, hu, rfl, by rw [hstage]; exact ⟨c, rfl⟩⟩
  · have hbefore : s.retired = .none := by
      cases hretired : s.retired with
      | none => rfl
      | some reason => cases hgoes.symm.trans (hhappens.face.2 reason hretired)
    obtain ⟨v, hv, hquery, hstopped⟩ := h hbefore hm
    obtain ⟨pool, step, pool', -, hadvance⟩ | ⟨-, number, htold⟩ := hhappens.steps_or_told hv
    · rw [← hquery] at hkind hstopped ⊢
      exact hadvance.stopped hv hkind hbefore hstopped
    · exact ⟨_, htold, (v.told_query number).trans hquery, by rwa [Invocation.told_stage]⟩

theorem Advance.lookup_of_ne {pool' : Pool} {step : Move}
    (hadvance : s.Advance pool j u step pool' s') (hother : u.query.supersedes? = some other)
    (hfile : v.query.supersedes? = some file) (hne : file ≠ other) :
    (s'.caches.lookup v.query).1 = (s.caches.lookup v.query).1 := by
  obtain ⟨path', text, hu, rfl⟩ := Query.eq_diagnostics hother
  obtain ⟨path, buffer, hv, rfl⟩ := Query.eq_diagnostics hfile
  rw [hv]
  cases hadvance with
  | registered => rw [caches_register]
  | unregistered =>
      exact congrArg (fun caches => (caches.lookup (.diagnostics path buffer)).1)
        (caches_unregister s u)
  | recalled | began =>
      rw [hu]
      exact Caches.lookup_lookup_of_ne (by simpa [Query.place?] using hne)
  | answered =>
      rw [hu]
      exact Caches.lookup_store_of_ne (by simpa [Query.place?] using hne) _
  | _ => rfl

theorem Registry.change_of_ne {step : Move} (h : Registry history s)
    (hv : s.invocations[k]? = some v) (hfile : v.query.supersedes? = some file)
    (hu : s.invocations[j]? = some u) (hother : u.query.supersedes? = some other)
    (hne : file ≠ other) (hchange : s.Change j u step s') :
    s'.invocations[k]? = some v ∧ s'.pending.lookup file = s.pending.lookup file := by
  have hkj : k ≠ j := by
    rintro rfl
    cases Option.some.inj (hu.symm.trans hv)
    exact hne (Option.some.inj (hfile.symm.trans hother))
  cases hchange with
  | registers hstage hown =>
      cases hother.symm.trans hown
      refine ⟨?_, (lookup_register s j u other file).trans (if_neg (Ne.symm hne))⟩
      rw [getElem?_register_of_ne hkj, hv, Option.map_some, Invocation.told, if_neg]
      rintro htold
      have hsame := (h.of_last hv ((h.told_iff hv).mp htold).1).1
      exact hne (Option.some.inj (hfile.symm.trans hsame))
  | finishes =>
      refine ⟨?_, (lookup_unregister (s := s) hother file).trans (if_neg fun hor => hne hor.1)⟩
      rw [getElem?_put_of_ne hkj, invocations_unregister, hv]
  | goesOn => exact ⟨(getElem?_put_of_ne hkj _ _).trans hv, rfl⟩

theorem Registry.untouched {step : Move} (h : Registry history s)
    (hv : s.invocations[k]? = some v) (hfile : v.query.supersedes? = some file)
    (hu : s.invocations[j]? = some u) (hother : u.query.supersedes? = some other)
    (hne : file ≠ other) (hnext : s.next? (.move pool j step) = some s') :
    s'.invocations[k]? = some v ∧ s'.pending.lookup file = s.pending.lookup file ∧
      (s'.caches.lookup v.query).1 = (s.caches.lookup v.query).1 := by
  cases next?_happens hnext with
  | moved hw hadvance =>
      cases Option.some.inj (hu.symm.trans hw)
      obtain ⟨hsame, hpending⟩ := h.change_of_ne hv hfile hu hother hne hadvance.change
      exact ⟨hsame, hpending, hadvance.lookup_of_ne hother hfile hne⟩

/-- An answer with what a run of the tool has found in one buffer, of the file that a path names. -/
inductive FoundIn (history : List Moment) (path : Path) (buffer : String) : Answer → Prop
  | nothing (hempty : buffer = "") : FoundIn history path buffer (.diagnostics path [])
  | found {path' : Path} {o : ProcessOutput} {found : List Diagnostic}
      (hfile : path'.components = path.components)
      (hran : Ran history (.diagnostics path' buffer) o)
      (hread : (Query.diagnostics path' buffer).ofOutput o = .ok (.diagnostics path' found)) :
      FoundIn history path buffer (.diagnostics path found)

theorem ofOutput_diagnostics {path : Path} {buffer : String} {o : ProcessOutput} {a : Answer}
    (hread : (Query.diagnostics path buffer).ofOutput o = .ok a) :
    ∃ found, a = .diagnostics path found := by
  unfold Query.ofOutput at hread
  split at hread
  · simp only [Query.printed, bind, Except.bind] at hread
    split at hread
    · cases hread
    · cases hread
      exact ⟨_, rfl⟩
  · cases hread

theorem Run.ran_query {q : Query} {o : ProcessOutput} (hrun : Run start history s)
    (hran : Ran history q o) : ∃ v ∈ s.invocations, v.query = q := by
  obtain ⟨m, hm, pool, k, v, -, hv, rfl⟩ := hran
  obtain ⟨v', hv', hquery⟩ := hrun.kept hm hv
  exact ⟨v', List.mem_of_getElem? hv', hquery⟩

/-- If the buffers that a session has been asked about have digests of their own, diagnostics are
found in the buffer that they were asked for. -/
theorem Run.foundIn {path : Path} {buffer : String} {a : Answer} (hrun : Run start history s)
    (hdigests : ∀ u ∈ s.invocations, Digest.ofText u.query.buffer = Digest.ofText buffer →
      u.query.buffer = buffer)
    (hanswered : Answered (Ran history) (.diagnostics path buffer) a) :
    FoundIn history path buffer a := by
  generalize hq : Query.diagnostics path buffer = q at hanswered
  cases hanswered with
  | nothing hneeds =>
      subst hq
      exact .nothing (by simpa [Query.needsTool] using hneeds)
  | @found tool o a halike hran hread =>
      obtain ⟨u, hu, hquery⟩ := hrun.ran_query hran
      cases halike with
      | same =>
          subst hq
          obtain ⟨found, rfl⟩ := ofOutput_diagnostics hread
          exact .found rfl hran hread
      | completion => cases hq
      | diagnostics hfile hdigest =>
          cases hq
          have hbuffer := hdigests u hu
          rw [hquery] at hbuffer
          cases hbuffer hdigest
          obtain ⟨found, rfl⟩ := ofOutput_diagnostics hread
          exact .found hfile hran hread

theorem exists_step_of_stopped {path : Path} (hv : s.invocations[k]? = some v)
    (hstopped : v.stage.Stopped path) (hopen : v.stage.result? = none) (pool : Pool) :
    ∃ step, (s.step? pool k step).isSome := by
  refine exists_step hv hopen fun hwaits => ?_
  rw [hwaits] at hstopped
  cases hstopped

variable {id : Nat} {interpreter : Interpreter} {settings : ToolSettings}

/-- A run for a file is told to stop exactly if another one for the file is registered before its
own registration has ended, so that of those whose registration has not ended only the last is not
told to stop. The table has an entry for a file exactly while that one is registered, and the end of
another's registration leaves it. Steps of runs for other files leave a run, its entry and what is
kept for it alone. A run whose tool was stopped is answered that it was superseded, unless its
session has been retired, and what a run is answered was found in its own buffer, if the buffers of
the session have digests of their own. -/
theorem last_run_goes_on (hrun : Run { id, interpreter, settings } history s) :
    (∀ {k v file}, s.invocations[k]? = some v → v.query.supersedes? = some file →
      (v.superseded = true ↔ Overtaken history k file) ∧
      (v.stage.inRegistry = true → (v.superseded = false ↔ last? history file = some k)) ∧
      (last? history file ≠ some k → ∀ {pool s'},
        s.next? (.move pool k .unregister) = some s' → s'.pending = s.pending) ∧
      (∀ {j u other pool step s'}, s.invocations[j]? = some u →
        u.query.supersedes? = some other → file ≠ other →
        s.next? (.move pool j step) = some s' →
        s'.invocations[k]? = some v ∧ s'.pending.lookup file = s.pending.lookup file ∧
          (s'.caches.lookup v.query).1 = (s.caches.lookup v.query).1) ∧
      (∀ {m u c}, m ∈ history → m.after.invocations[k]? = some u →
        u.stage = .leaving (.error (.tool (.cancelled c))) → s.retired = none →
        (∀ {result}, v.stage.result? = some result →
          result = .error (.superseded v.query.path)) ∧
        history.countP (·.moves k) ≤ 9 ∧
        (v.stage.result? = none → ∀ pool, ∃ step, (s.step? pool k step).isSome)) ∧
      ∀ {path buffer a}, v.query = .diagnostics path buffer → v.stage.result? = some (.ok a) →
        (∀ u ∈ s.invocations, Digest.ofText u.query.buffer = Digest.ofText buffer →
          u.query.buffer = buffer) → FoundIn history path buffer a) ∧
    (∀ {file}, (s.pending.lookup file).isSome ↔ ∃ k v, last? history file = some k ∧
      s.invocations[k]? = some v ∧ v.stage.inRegistry = true) ∧
    ((∀ v ∈ s.invocations, v.stage.result?.isSome) → s.pending = []) := by
  have h := hrun.registry
  refine ⟨fun {k v file} hv hfile => ⟨(h.recorded hv).overtaken hfile, fun hin => ?_,
    fun hstale {pool s'} hnext => h.pending_of_stale hv hfile hstale hnext,
    fun {j u other pool step s'} hu hother hne hnext => h.untouched hv hfile hu hother hne hnext,
    fun {m u c} hm hu hstage hgoes => ?_, fun {path buffer a} hquery ha hdigests => ?_⟩,
    h.pending_isSome, fun hdone => h.pending_eq_nil fun v hv => ?_⟩
  · exact ⟨(h.recorded hv).current hfile hin, fun hlast => (h.of_last hv hlast).2⟩
  · obtain ⟨v', hv', hquery⟩ := hrun.kept_after hm hu
    cases Option.some.inj (hv.symm.trans hv')
    obtain ⟨w, hw, -, hstopped⟩ := hrun.stopped hgoes hm hu hstage (by rw [← hquery, hfile]; rfl)
    cases Option.some.inj (hv.symm.trans hw)
    refine ⟨fun {result} hresult => ?_, ?_, exists_step_of_stopped hv hstopped⟩
    · rw [hquery]
      exact hstopped.result hresult
    · have hcount := hrun.countP_moves rfl hv
      omega
  · refine hrun.foundIn hdigests ?_
    rw [← hquery]
    exact hrun.sound.answers hv (Stage.outcome?_of_result? ha)
  · obtain ⟨result, hresult⟩ := Option.isSome_iff_exists.mp (hdone v hv)
    rw [Stage.eq_done_of_result? hresult]
    rfl

end supersession

namespace Trial

def nothingFound : ProcessOutput := ⟨.exited 0, "[]", ""⟩

theorem ofEnd_nothingFound :
    (Query.diagnostics path "x").ofEnd (.ok nothingFound) = .ok (.diagnostics path []) := by
  decide +kernel

theorem ofEnd_cancelled :
    (Query.diagnostics path "x").ofEnd (.error .cancelled) = .error (.cancelled .diagnostics) := rfl

/-- A run is superseded by another one, both are answered, and a third one is registered. -/
def overtaken : List Event :=
  [lint "x"] ++ moves 0 opening ++ [lint "x"] ++ moves 1 opening ++
    moves 0 (.finish (.error .cancelled) :: ending) ++
    moves 1 (.finish (.ok nothingFound) :: ending) ++ [lint "x"] ++ moves 2 [.check, .register]

def overtakenEnds : List Invocation :=
  [⟨.diagnostics path "x", some 1, true, .done (.error (.superseded path))⟩,
    ⟨.diagnostics path "x", some 2, false, .done (.ok (.diagnostics path []))⟩,
    ⟨.diagnostics path "x", some 3, false, .registered⟩]

theorem run_overtaken :
    ∃ history s, start.Run history s ∧ s.retired = none ∧ s.invocations = overtakenEnds ∧
      ∃ m ∈ history, ∃ u, m.after.invocations[0]? = some u ∧
        u.stage = .leaving (.error (.tool (.cancelled .diagnostics))) := by
  refine ⟨_, _, run_play start overtaken, ?_, ?_, ?_⟩ <;>
    simp [ofEnd_nothingFound, ofEnd_cancelled, overtaken, overtakenEnds, lint, moves, opening,
      ending, start, play, playFrom, next?, step?, Session.start, put, register, supersede,
      unregister, begin, finish, canEnd, cancels, settle, report, Query.lacks, Query.supersedes?,
      Query.capability, Query.path, Query.needsTool, Query.settled, Interpreter.supports,
      Capability.all, Caches.lookup, FileCache.get, FileCache.entry?, Table.put, Table.without]

end Trial

theorem last_run_goes_on_overtaken :
    ∃ history s, Trial.start.Run history s ∧ Overtaken history 0 Trial.path.components ∧
      last? history Trial.path.components = some 2 ∧
      (s.pending.lookup Trial.path.components).isSome ∧
      (∃ v, s.invocations[0]? = some v ∧
        v.stage.result? = some (.error (.superseded Trial.path))) ∧
      FoundIn history Trial.path "x" (.diagnostics Trial.path []) := by
  obtain ⟨history, s, hrun, hgoes, hinvocations, m, hm, u, hu, hstage⟩ := Trial.run_overtaken
  have hnth (k : Nat) : s.invocations[k]? = Trial.overtakenEnds[k]? := by rw [hinvocations]
  obtain ⟨hall, hpending, -⟩ := last_run_goes_on hrun
  obtain ⟨hovertaken, -, -, -, hanswer, -⟩ := hall (hnth 0) rfl
  obtain ⟨-, -, -, -, -, hfound⟩ := hall (hnth 1) rfl
  obtain ⟨-, hlast, -⟩ := hall (hnth 2) rfl
  have hcurrent := (hlast rfl).mp rfl
  have hresult := (hanswer hm hu hstage hgoes).1 rfl
  refine ⟨history, s, hrun, hovertaken.mp rfl, hcurrent, hpending.mpr ⟨2, _, hcurrent, hnth 2, rfl⟩,
    ⟨_, hnth 0, congrArg some hresult⟩, hfound rfl rfl fun u hu _ => ?_⟩
  rw [hinvocations] at hu
  simp only [Trial.overtakenEnds, List.mem_cons, List.not_mem_nil, or_false] at hu
  obtain rfl | rfl | rfl := hu <;> rfl

end Session

end CodeAssist
