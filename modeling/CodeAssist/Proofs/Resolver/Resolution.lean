import CodeAssist.Host.Probing

namespace CodeAssist

/-! Resolving a selection as a whole, in terms of how each run of a probe would end. -/

def Probe.answer (p : Probe) (run : Path → ProcessEnd) (interpreter : Path) :
    Except EnvironmentFailure (List Capability) :=
  match p with
  | .fixed capabilities => .ok capabilities
  | .run _ => Probe.ofEnd interpreter (run interpreter)

/-- An interpreter or a failure, what the resolver knows afterwards, and the interpreters that were
probed for it. -/
structure Resolution where
  result : Except EnvironmentFailure Interpreter
  resolver : Resolver
  probed : List Path

namespace Resolver

/-- Resolves a selection, given what a probe of each interpreter would answer. -/
def resolveBy (r : Resolver) (view : FileView)
    (answer : Path → Except EnvironmentFailure (List Capability)) (selection : Selection)
    (wanted : Option Kind) (root : Path) (refresh : Bool) : Resolution :=
  match r.start view selection wanted root refresh with
  | .failed cause => ⟨.error cause, r, []⟩
  | .found interpreter => ⟨.ok interpreter, r, []⟩
  | .unprobed path kind =>
      let (result, resolver) := r.finish path kind (answer path)
      ⟨result, resolver, [path]⟩

def resolve (r : Resolver) (view : FileView) (run : Path → ProcessEnd) (selection : Selection)
    (wanted : Option Kind) (root : Path) (refresh : Bool) : Resolution :=
  r.resolveBy view (r.probe.answer run) selection wanted root refresh

section

variable {r : Resolver} {view : FileView} {selection : Selection} {wanted : Option Kind}
  {root path : Path} {kind : Kind} {refresh : Bool} {capabilities : List Capability}
  {cause : EnvironmentFailure}
  (answer : Path → Except EnvironmentFailure (List Capability))

theorem resolveBy_of_failed (hchoose : r.choose view selection wanted root = .error cause) :
    r.resolveBy view answer selection wanted root refresh = ⟨.error cause, r, []⟩ := by
  unfold resolveBy start
  rw [hchoose]

theorem resolveBy_of_known (hchoose : r.choose view selection wanted root = .ok (path, kind))
    (hknown : r.known? path = some capabilities) :
    r.resolveBy view answer selection wanted root false =
      ⟨.ok ⟨path, kind, capabilities⟩, r, []⟩ := by
  unfold resolveBy start
  simp only [hchoose, hknown, Bool.false_eq_true, if_false]

theorem resolveBy_of_unknown (hchoose : r.choose view selection wanted root = .ok (path, kind))
    (hasks : refresh = true ∨ r.known? path = none) :
    r.resolveBy view answer selection wanted root refresh =
      ⟨(answer path).map (Interpreter.mk path kind), (r.finish path kind (answer path)).2,
        [path]⟩ := by
  have hnone : (if refresh = true then none else r.known? path) = none := by
    obtain rfl | hnone := hasks
    · rfl
    · split
      · rfl
      · exact hnone
  unfold resolveBy start
  simp only [hchoose, hnone]
  cases answer path <;> rfl

end

end Resolver

theorem Probe.answer_eq_error {p : Probe} {run : Path → ProcessEnd} {interpreter : Path}
    {cause : EnvironmentFailure} (h : p.answer run interpreter = .error cause) :
    ∃ reason, cause = .probeFailed interpreter reason := by
  cases p with
  | fixed => cases h
  | run =>
      rw [answer] at h
      cases hrun : run interpreter with
      | error failure =>
          rw [hrun] at h
          cases h
          exact ⟨_, rfl⟩
      | ok o =>
          rw [hrun, ofEnd] at h
          cases hread : ofOutput o with
          | ok => rw [hread] at h; cases h
          | error => rw [hread] at h; cases h; exact ⟨_, rfl⟩

/-- On a host, the runs end as the host makes them end, and each is there afterwards. -/
theorem Host.resolve_eq (h : Host) (r : Resolver) (selection : Selection) (wanted : Option Kind)
    (root : Path) (refresh : Bool) :
    let run path := match r.probe with
      | .run budget => (h.run (Probe.command path budget) false).1
      | .fixed _ => .error .cancelled
    let resolution := r.resolve h.view run selection wanted root refresh
    h.resolve r selection wanted root refresh = (resolution.result, resolution.resolver,
      resolution.probed.foldl (fun h path => (h.probe r.probe path).2) h) := by
  intro run resolution
  have hanswer (path : Path) : (h.probe r.probe path).1 = r.probe.answer run path := by
    unfold Host.probe Probe.answer
    cases hprobe : r.probe with
    | fixed => rfl
    | run budget => simp only [run, hprobe]
  unfold resolution Host.resolve Resolver.resolve Resolver.resolveBy
  cases r.start h.view selection wanted root refresh with
  | failed | found => rfl
  | unprobed path kind =>
      simp only [← hanswer]
      rfl

end CodeAssist
