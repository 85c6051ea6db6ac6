import CodeAssist.Proofs.FileCache.Holds
import CodeAssist.Proofs.Session.Advance

namespace CodeAssist

/-! Where the answers of a session come from: from runs of its own tools, also those that it has
kept. -/

/-- Queries for which one answer is kept: they are about the same file, as tables see it, about
buffers of one digest, and about the same place. -/
inductive Query.Alike : Query → Query → Prop
  | same (q : Query) : Alike q q
  | completion {path path' : Path} {buffer buffer' : String} {offset : Nat}
      (hfile : path.components = path'.components)
      (hdigest : Digest.ofText buffer = Digest.ofText buffer') :
      Alike (.completion path buffer offset) (.completion path' buffer' offset)
  | diagnostics {path path' : Path} {buffer buffer' : String}
      (hfile : path.components = path'.components)
      (hdigest : Digest.ofText buffer = Digest.ofText buffer') :
      Alike (.diagnostics path buffer) (.diagnostics path' buffer')

/-- Where the answer to a query is kept: by what was asked for, and the file as tables see it. -/
def Query.place? : Query → Option (Capability × List Path.Component)
  | .completion path _ _ => some (.completion, path.components)
  | .diagnostics path _ => some (.diagnostics, path.components)
  | .hover _ _ _ | .format _ _ => none

theorem Query.Alike.place? {p q : Query} (halike : p.Alike q) : p.place? = q.place? := by
  cases halike with
  | same => rfl
  | completion hfile | diagnostics hfile => rw [Query.place?, Query.place?, hfile]

def Answer.under (path : Path) : Answer → Answer
  | .diagnostics _ found => .diagnostics path found
  | a => a

/-- How a session answers a query, if `ran` are the runs of its tools and their outputs. -/
inductive Answered (ran : Query → ProcessOutput → Prop) (q : Query) : Answer → Prop
  | nothing (hneeds : q.needsTool = false) : Answered ran q q.nothing
  | found {tool : Query} {o : ProcessOutput} {a : Answer} (halike : tool.Alike q)
      (hran : ran tool o) (hread : tool.ofOutput o = .ok a) : Answered ran q (a.under q.path)

theorem Answered.mono {ran ran' : Query → ProcessOutput → Prop} {q : Query} {a : Answer}
    (hanswered : Answered ran q a) (hmore : ∀ {tool o}, ran tool o → ran' tool o) :
    Answered ran' q a := by
  cases hanswered with
  | nothing hneeds => exact .nothing hneeds
  | found halike hran hread => exact .found halike (hmore hran) hread

theorem Query.under_of_ofOutput {q : Query} {o : ProcessOutput} {a : Answer}
    (hread : q.ofOutput o = .ok a) : a.under q.path = a := by
  unfold ofOutput at hread
  split at hread
  · cases q with
    | format =>
        cases hread
        rfl
    | completion | hover | diagnostics =>
        simp only [printed, bind, Except.bind] at hread
        split at hread
        · cases hread
        · cases hread
          rfl
  · cases hread

theorem Answered.ofRun {ran : Query → ProcessOutput → Prop} {q : Query} {o : ProcessOutput}
    {a : Answer} (hran : ran q o) (hread : q.ofOutput o = .ok a) : Answered ran q a := by
  have hfound := Answered.found (.same q) hran hread
  rw [Query.under_of_ofOutput hread] at hfound
  exact hfound

namespace Caches

/-- Every answer that is kept comes from a run of a tool. -/
structure Sound (caches : Caches) (ran : Query → ProcessOutput → Prop) : Prop where
  completions : ∀ {file digest offset items}, caches.completions.Holds file digest offset items →
    ∃ path buffer o, path.components = file ∧ Digest.ofText buffer = digest ∧
      ran (.completion path buffer offset) o ∧
      (Query.completion path buffer offset).ofOutput o = .ok (.completion items)
  diagnostics : ∀ {file digest found}, caches.diagnostics.Holds file digest () found →
    ∃ path buffer o, path.components = file ∧ Digest.ofText buffer = digest ∧
      ran (.diagnostics path buffer) o ∧
      (Query.diagnostics path buffer).ofOutput o = .ok (.diagnostics path found)

variable {caches : Caches} {ran ran' : Query → ProcessOutput → Prop} {q : Query} {a : Answer}

theorem Sound.mono (hsound : caches.Sound ran) (hmore : ∀ {tool o}, ran tool o → ran' tool o) :
    caches.Sound ran' where
  completions hholds := by
    obtain ⟨path, buffer, o, hfile, hdigest, hran, hread⟩ := hsound.completions hholds
    exact ⟨path, buffer, o, hfile, hdigest, hmore hran, hread⟩
  diagnostics hholds := by
    obtain ⟨path, buffer, o, hfile, hdigest, hran, hread⟩ := hsound.diagnostics hholds
    exact ⟨path, buffer, o, hfile, hdigest, hmore hran, hread⟩

theorem Sound.empty : Sound {} ran where
  completions hholds := by
    obtain ⟨_, hentry, _⟩ := hholds
    cases hentry
  diagnostics hholds := by
    obtain ⟨_, hentry, _⟩ := hholds
    cases hentry

theorem Sound.lookup (hsound : caches.Sound ran) (hlookup : (caches.lookup q).1 = some a) :
    Answered ran q a := by
  cases q with
  | completion path buffer offset =>
      obtain ⟨items, hitems, rfl⟩ := Option.map_eq_some_iff.mp hlookup
      obtain ⟨path', buffer', o, hfile, hdigest, hran, hread⟩ :=
        hsound.completions (FileCache.get_eq_some_iff.mp hitems)
      have hfound : Answered ran (.completion path buffer offset) (.completion items) :=
        .found (.completion hfile hdigest) hran hread
      exact hfound
  | diagnostics path buffer =>
      obtain ⟨found, hfound, rfl⟩ := Option.map_eq_some_iff.mp hlookup
      obtain ⟨path', buffer', o, hfile, hdigest, hran, hread⟩ :=
        hsound.diagnostics (FileCache.get_eq_some_iff.mp hfound)
      have hanswered : Answered ran (.diagnostics path buffer) (.diagnostics path found) :=
        .found (.diagnostics hfile hdigest) hran hread
      exact hanswered
  | hover | format => cases hlookup

theorem Sound.afterLookup (hsound : caches.Sound ran) (q : Query) :
    (caches.lookup q).2.Sound ran := by
  cases q with
  | completion =>
      exact ⟨fun hholds => hsound.completions (FileCache.holds_get_iff.mp hholds).1, hsound.diagnostics⟩
  | diagnostics =>
      exact ⟨hsound.completions, fun hholds =>
        hsound.diagnostics (FileCache.holds_get_iff.mp hholds).1⟩
  | hover | format => exact hsound

theorem lookup_lookup_of_ne {p : Query} (hne : q.place? ≠ p.place?) :
    ((caches.lookup p).2.lookup q).1 = (caches.lookup q).1 := by
  cases p with
  | completion other =>
      cases q with
      | completion path =>
          have hfile := mt (congrArg fun file => some (Capability.completion, file)) hne
          exact congrArg (Option.map _) (FileCache.get_congr (FileCache.lookup_get_of_ne hfile))
      | diagnostics | hover | format => rfl
  | diagnostics other =>
      cases q with
      | diagnostics path =>
          have hfile := mt (congrArg fun file => some (Capability.diagnostics, file)) hne
          exact congrArg (Option.map _) (FileCache.get_congr (FileCache.lookup_get_of_ne hfile))
      | completion | hover | format => rfl
  | hover | format => rfl

theorem lookup_store_of_ne {p : Query} (hne : q.place? ≠ p.place?) (a : Answer) :
    ((caches.store p a).lookup q).1 = (caches.lookup q).1 := by
  unfold store
  split
  · cases q with
    | completion path =>
        have hfile := mt (congrArg fun file => some (Capability.completion, file)) hne
        exact congrArg (Option.map _) (FileCache.get_congr (FileCache.lookup_insert_of_ne hfile))
    | diagnostics | hover | format => rfl
  · cases q with
    | diagnostics path =>
        have hfile := mt (congrArg fun file => some (Capability.diagnostics, file)) hne
        exact congrArg (Option.map _) (FileCache.get_congr (FileCache.lookup_insert_of_ne hfile))
    | completion | hover | format => rfl
  · rfl

/-- What a tool answers may be kept. -/
theorem Sound.store (hsound : caches.Sound ran) {o : ProcessOutput} (hran : ran q o)
    (hread : q.ofOutput o = .ok a) : (caches.store q a).Sound ran := by
  unfold Caches.store
  split
  · rename_i path buffer offset items
    refine ⟨fun hholds => ?_, hsound.diagnostics⟩
    obtain ⟨rfl, rfl, rfl, rfl⟩ | ⟨hbefore, -⟩ := FileCache.holds_insert_iff.mp hholds
    · exact ⟨path, buffer, o, rfl, rfl, hran, hread⟩
    · exact hsound.completions hbefore
  · rename_i path buffer path' found
    refine ⟨hsound.completions, fun hholds => ?_⟩
    obtain ⟨rfl, rfl, _, rfl⟩ | ⟨hbefore, -⟩ := FileCache.holds_insert_iff.mp hholds
    · cases Query.under_of_ofOutput hread
      exact ⟨path, buffer, o, rfl, rfl, hran, hread⟩
    · exact hsound.diagnostics hbefore
  · exact hsound

end Caches

/-- What an invocation has come to, once it has come to something. -/
def Stage.outcome? : Stage → Option (Except Failure Answer)
  | .leaving result | .closing result | .reporting result | .done result => some result
  | .arrived | .admitted | .registered | .waiting | .working | .running _ => none

theorem Stage.outcome?_of_result? {stage : Stage} {result : Except Failure Answer}
    (hresult : stage.result? = some result) : stage.outcome? = some result := by
  cases stage with
  | done => exact hresult
  | _ => cases hresult

@[simp] theorem Query.outcome?_settled (q : Query) (result : Except Failure Answer) :
    (q.settled result).outcome? = some result := by
  unfold settled
  split <;> rfl

namespace Session

/-- Every answer of a session comes from a run of a tool, and invocations fail as those of a
replaced session only if it is one. -/
structure Sound (s : Session) (ran : Query → ProcessOutput → Prop) : Prop where
  caches : s.caches.Sound ran
  answers : ∀ {k : Nat} {v : Invocation} {a : Answer}, s.invocations[k]? = some v →
    v.stage.outcome? = some (.ok a) → Answered ran v.query a
  refusals : ∀ {k : Nat} {v : Invocation}, s.invocations[k]? = some v →
    v.stage.outcome? = some (.error (.environment .sessionReplaced)) → s.retired = some .replaced

variable {s s' : Session} {ran ran' : Query → ProcessOutput → Prop} {k : Nat} {v : Invocation}

theorem Sound.mono (hsound : s.Sound ran) (hmore : ∀ {tool o}, ran tool o → ran' tool o) :
    s.Sound ran' where
  caches := hsound.caches.mono hmore
  answers hv ha := (hsound.answers hv ha).mono hmore
  refusals := hsound.refusals

theorem Sound.new {id : Nat} {interpreter : Interpreter} {settings : ToolSettings} :
    Sound { id, interpreter, settings } ran where
  caches := .empty
  answers hv := by cases hv
  refusals hv := by cases hv

theorem Sound.put (hsound : s.Sound ran)
    (hanswer : ∀ {a}, v.stage.outcome? = some (.ok a) → Answered ran v.query a)
    (hrefusal : v.stage.outcome? = some (.error (.environment .sessionReplaced)) →
      s.retired = some .replaced) : (s.put k v).Sound ran where
  caches := hsound.caches
  answers {j w a} hw ha := by
    rw [Session.put, List.getElem?_set] at hw
    split at hw
    · split at hw
      · cases hw
        exact hanswer ha
      · cases hw
    · exact hsound.answers hw ha
  refusals {j w} hw hfailed := by
    rw [Session.put, List.getElem?_set] at hw
    split at hw
    · split at hw
      · cases hw
        exact hrefusal hfailed
      · cases hw
    · exact hsound.refusals hw hfailed

theorem Sound.putOpen (hsound : s.Sound ran) (hopen : v.stage.outcome? = none) :
    (s.put k v).Sound ran :=
  hsound.put (fun ha => by cases hopen.symm.trans ha) (fun hfailed => by cases hopen.symm.trans hfailed)

theorem Sound.start (hsound : s.Sound ran) (q : Query) : (s.start q).Sound ran where
  caches := hsound.caches
  answers {j w a} hw ha := by
    rw [Session.start, List.getElem?_append] at hw
    split at hw
    · exact hsound.answers hw ha
    · rw [List.getElem?_singleton] at hw
      split at hw <;> cases hw
      cases ha
  refusals {j w} hw hfailed := by
    rw [Session.start, List.getElem?_append] at hw
    split at hw
    · exact hsound.refusals hw hfailed
    · rw [List.getElem?_singleton] at hw
      split at hw <;> cases hw
      cases hfailed

theorem Sound.retire (hsound : s.Sound ran) (reason : Reason) : (s.retire reason).Sound ran where
  caches := hsound.caches
  answers := hsound.answers
  refusals hw hfailed := by
    rw [Session.retire, hsound.refusals hw hfailed]
    rfl

theorem Sound.register (hsound : s.Sound ran) (file : List Path.Component) :
    (s.register k v file).Sound ran := by
  have hsupersede (number : Nat) : (s.supersede number).Sound ran := by
    have hmap {j : Nat} {w : Invocation} (hw : (s.supersede number).invocations[j]? = some w) :
        ∃ u, s.invocations[j]? = some u ∧ u.query = w.query ∧ u.stage = w.stage := by
      rw [supersede, List.getElem?_map] at hw
      obtain ⟨u, hu, rfl⟩ := Option.map_eq_some_iff.mp hw
      refine ⟨u, hu, ?_⟩
      split <;> exact ⟨rfl, rfl⟩
    refine ⟨hsound.caches, fun {j w a} hw ha => ?_, fun {j w} hw hfailed => ?_⟩
    · obtain ⟨u, hu, hquery, hstage⟩ := hmap hw
      rw [← hquery]
      exact hsound.answers hu (hstage ▸ ha)
    · obtain ⟨u, hu, _, hstage⟩ := hmap hw
      exact hsound.refusals hu (hstage ▸ hfailed)
  unfold Session.register
  simp only
  split
  · rename_i previous _
    have hstopped := hsupersede previous
    exact Sound.putOpen ⟨hstopped.caches, hstopped.answers, hstopped.refusals⟩ rfl
  · exact Sound.putOpen ⟨hsound.caches, hsound.answers, hsound.refusals⟩ rfl

theorem Sound.unregister (hsound : s.Sound ran) (v : Invocation) : (s.unregister v).Sound ran := by
  unfold Session.unregister
  split
  · exact hsound
  · split
    · exact ⟨hsound.caches, hsound.answers, hsound.refusals⟩
    · exact hsound

theorem failure_eq_sessionReplaced {reason : Reason} {c : Capability}
    (hfailure : reason.failure c = .environment .sessionReplaced) : reason = .replaced := by
  cases reason with
  | replaced => rfl
  | shutdown => cases hfailure

theorem settle_eq_ok {c : Capability} {result : Except Failure Answer} {a : Answer}
    (hsettle : s.settle c result = .ok a) : result = .ok a := by
  unfold settle at hsettle
  split at hsettle
  · cases hsettle
  · exact hsettle

theorem settle_eq_sessionReplaced {c : Capability} {result : Except Failure Answer}
    (hsettle : s.settle c result = .error (.environment .sessionReplaced)) :
    s.retired = some .replaced ∨ result = .error (.environment .sessionReplaced) := by
  unfold settle at hsettle
  split at hsettle
  · rename_i reason hretired
    cases failure_eq_sessionReplaced (Except.error.inj hsettle)
    exact .inl hretired
  · exact .inr hsettle

theorem report_eq_ok {path : Path} {result : Except Failure Answer} {a : Answer}
    (hreport : s.report path result = .ok a) : result = .ok a := by
  unfold report at hreport
  split at hreport
  · split at hreport <;> cases hreport
  · exact hreport

theorem report_eq_sessionReplaced {path : Path} {result : Except Failure Answer}
    (hreport : s.report path result = .error (.environment .sessionReplaced)) :
    result = .error (.environment .sessionReplaced) := by
  unfold report at hreport
  split at hreport
  · split at hreport <;> cases hreport
  · exact hreport

/-- A step keeps a session sound if the run of a tool that ends with it counts. -/
theorem Sound.advance {pool pool' : Pool} {m : Move} (hsound : s.Sound ran)
    (hv : s.invocations[k]? = some v) (hadvance : s.Advance pool k v m pool' s')
    (hran : ∀ {o}, m = .finish (.ok o) → ran v.query o) : s'.Sound ran := by
  have houtcome {result : Except Failure Answer} {a : Answer}
      (hstage : v.stage.outcome? = some result) (ha : result = .ok a) : Answered ran v.query a :=
    hsound.answers hv (ha ▸ hstage)
  have hrefused {result : Except Failure Answer} (hstage : v.stage.outcome? = some result)
      (hfailed : result = .error (.environment .sessionReplaced)) : s.retired = some .replaced :=
    hsound.refusals hv (hfailed ▸ hstage)
  cases hadvance with
  | lacking | refused | gaveUp | failed => exact hsound.put nofun nofun
  | admitted | unregistrable | entered | took => exact hsound.putOpen rfl
  | registered => exact hsound.register _
  | turnedAway hstage hretired =>
      refine hsound.put (fun ha => ?_) (fun hfailed => ?_)
      · simp at ha
      · simp only [Query.outcome?_settled, Option.some.injEq, Except.error.injEq] at hfailed
        rw [hretired, failure_eq_sessionReplaced hfailed]
  | trivial _ hneeds =>
      refine hsound.put (fun ha => ?_) nofun
      cases ha
      exact .nothing hneeds
  | recalled _ _ hcache =>
      have hcaches : Sound { s with caches := (s.caches.lookup v.query).2 } ran :=
        ⟨hsound.caches.afterLookup v.query, hsound.answers, hsound.refusals⟩
      refine hcaches.put (fun ha => ?_) nofun
      cases ha
      exact hsound.caches.lookup hcache
  | began =>
      have hcaches : Sound { s with caches := (s.caches.lookup v.query).2 } ran :=
        ⟨hsound.caches.afterLookup v.query, hsound.answers, hsound.refusals⟩
      exact hcaches.putOpen rfl
  | answered _ hend =>
      rename_i result answer _
      cases result with
      | error failure => cases hend
      | ok o =>
          have hcaches : Sound { s with caches := s.caches.store v.query answer } ran :=
            ⟨hsound.caches.store (hran rfl) hend, hsound.answers, hsound.refusals⟩
          refine hcaches.put (fun ha => ?_) nofun
          cases ha
          exact .ofRun (hran rfl) hend
  | settled hstage =>
      have hleft := congrArg Stage.outcome? hstage
      refine hsound.put (fun ha => ?_) (fun hfailed => ?_)
      · simp only [Query.outcome?_settled, Option.some.injEq] at ha
        exact houtcome hleft (settle_eq_ok ha)
      · simp only [Query.outcome?_settled, Option.some.injEq] at hfailed
        obtain hretired | hresult := settle_eq_sessionReplaced hfailed
        · exact hretired
        · exact hrefused hleft hresult
  | unregistered hstage =>
      have hleft := congrArg Stage.outcome? hstage
      refine (hsound.unregister v).put (fun ha => ?_) (fun hfailed => ?_)
      · exact houtcome hleft (Option.some.inj ha)
      · have hretired := hrefused hleft (Option.some.inj hfailed)
        exact (congrArg Face.retired (face_unregister s v)).trans hretired
  | reported hstage =>
      have hleft := congrArg Stage.outcome? hstage
      refine hsound.put (fun ha => ?_) (fun hfailed => ?_)
      · exact houtcome hleft (report_eq_ok (Option.some.inj ha))
      · exact hrefused hleft (report_eq_sessionReplaced (Option.some.inj hfailed))

end Session

end CodeAssist
