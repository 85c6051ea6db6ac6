import CodeAssist.Proofs.Path
import CodeAssist.Proofs.Resolver.Resolution

namespace CodeAssist.Resolver

/-! What a resolver knows of an interpreter is what the last probe of it that succeeded has found. -/

/-- One resolution that is asked for, what is seen of the file system then, and what a probe of each
interpreter would find. -/
structure Inquiry where
  view : FileView
  answer : Path → Except EnvironmentFailure (List Capability)
  selection : Selection
  wanted : Option Kind
  root : Path
  refresh : Bool

structure Probed where
  path : Path
  answer : Except EnvironmentFailure (List Capability)
deriving Repr

/-- A probe of a file has succeeded, whatever way the file's path was written. -/
def Probed.Finds (p : Probed) (file : List Path.Component) (capabilities : List Capability) : Prop :=
  p.path.components = file ∧ p.answer = .ok capabilities

namespace Inquiry

def resolution (q : Inquiry) (r : Resolver) : Resolution :=
  r.resolveBy q.view q.answer q.selection q.wanted q.root q.refresh

/-- The probes that an inquiry has run. -/
def probes (q : Inquiry) (r : Resolver) : List Probed :=
  (q.resolution r).probed.map fun path => ⟨path, q.answer path⟩

def chosen (q : Inquiry) (r : Resolver) : Except EnvironmentFailure (Path × Kind) :=
  r.choose q.view q.selection q.wanted q.root

section

variable {q : Inquiry} {r : Resolver} {path : Path} {kind : Kind}

theorem resolution_of_unchosen {cause : EnvironmentFailure} (hchosen : q.chosen r = .error cause) :
    q.resolution r = ⟨.error cause, r, []⟩ :=
  resolveBy_of_failed q.answer hchosen

theorem resolution_of_known {capabilities : List Capability}
    (hchosen : q.chosen r = .ok (path, kind)) (hrefresh : q.refresh = false)
    (hknown : r.known? path = some capabilities) :
    q.resolution r = ⟨.ok ⟨path, kind, capabilities⟩, r, []⟩ := by
  rw [resolution, hrefresh]
  exact resolveBy_of_known q.answer hchosen hknown

theorem resolution_of_unknown (hchosen : q.chosen r = .ok (path, kind))
    (hasks : q.refresh = true ∨ r.known? path = none) :
    q.resolution r = ⟨(q.answer path).map (Interpreter.mk path kind),
      (r.finish path kind (q.answer path)).2, [path]⟩ :=
  resolveBy_of_unknown q.answer hchosen hasks

end

/-- What can come of an inquiry: it selects no interpreter, one that is known, or one whose probe
succeeds or fails. -/
inductive Outcome (q : Inquiry) (r : Resolver) : Resolution → Prop
  | unchosen {cause : EnvironmentFailure} : Outcome q r ⟨.error cause, r, []⟩
  | remembered {path : Path} {kind : Kind} {capabilities : List Capability}
      (hchosen : q.chosen r = .ok (path, kind)) (hknown : r.known? path = some capabilities) :
      Outcome q r ⟨.ok ⟨path, kind, capabilities⟩, r, []⟩
  | learned {path : Path} {kind : Kind} {capabilities : List Capability}
      (hchosen : q.chosen r = .ok (path, kind)) (hanswer : q.answer path = .ok capabilities) :
      Outcome q r ⟨.ok ⟨path, kind, capabilities⟩, r.learn path capabilities, [path]⟩
  | fruitless {path : Path} {cause : EnvironmentFailure} (hanswer : q.answer path = .error cause) :
      Outcome q r ⟨.error cause, r, [path]⟩

theorem outcome (q : Inquiry) (r : Resolver) : q.Outcome r (q.resolution r) := by
  cases hchosen : q.chosen r with
  | error cause =>
      rw [resolution_of_unchosen hchosen]
      exact .unchosen
  | ok selected =>
      obtain ⟨path, kind⟩ := selected
      by_cases hasks : q.refresh = true ∨ r.known? path = none
      · rw [resolution_of_unknown hchosen hasks]
        cases hanswer : q.answer path with
        | ok capabilities => exact .learned hchosen hanswer
        | error cause => exact .fruitless hanswer
      · rw [not_or, Bool.not_eq_true, ← ne_eq, Option.ne_none_iff_exists'] at hasks
        obtain ⟨hrefresh, capabilities, hknown⟩ := hasks
        rw [resolution_of_known hchosen hrefresh hknown]
        exact .remembered hchosen hknown

end Inquiry

def after (r : Resolver) : List Inquiry → Resolver
  | [] => r
  | q :: history => (q.resolution (r.after history)).resolver

/-- The probes that were run in a history, the last one first. -/
def probes (r : Resolver) : List Inquiry → List Probed
  | [] => []
  | q :: history => q.probes (r.after history) ++ r.probes history

/-- The last probe of a file that succeeded has found these capabilities. -/
def LastFound (probes : List Probed) (file : List Path.Component)
    (capabilities : List Capability) : Prop :=
  ∃ later last earlier, probes = later ++ last :: earlier ∧ last.Finds file capabilities ∧
    ∀ p ∈ later, ∀ found, ¬p.Finds file found

variable {r : Resolver} {q : Inquiry} {history : List Inquiry} {probes : List Probed} {p : Probed}
  {file : List Path.Component} {capabilities : List Capability}

theorem not_lastFound_nil : ¬LastFound [] file capabilities := by
  rintro ⟨later, last, earlier, hnil, -⟩
  simp at hnil

theorem lastFound_cons_iff : LastFound (p :: probes) file capabilities ↔
    p.Finds file capabilities ∨
      (∀ found, ¬p.Finds file found) ∧ LastFound probes file capabilities := by
  constructor
  · rintro ⟨later, last, earlier, hprobes, hfinds, hlater⟩
    cases later with
    | nil =>
        obtain ⟨rfl, rfl⟩ := List.cons.inj hprobes
        exact .inl hfinds
    | cons first later =>
        obtain ⟨rfl, rfl⟩ := List.cons.inj hprobes
        obtain ⟨hfirst, hrest⟩ := List.forall_mem_cons.mp hlater
        exact .inr ⟨hfirst, later, last, earlier, rfl, hfinds, hrest⟩
  · rintro (hfinds | ⟨hfails, later, last, earlier, rfl, hfinds, hlater⟩)
    · exact ⟨[], p, probes, rfl, hfinds, nofun⟩
    · exact ⟨p :: later, last, earlier, rfl, hfinds, List.forall_mem_cons.mpr ⟨hfails, hlater⟩⟩

theorem exists_lastFound {found : List Capability} (hmem : p ∈ probes) (hfinds : p.Finds file found) :
    ∃ capabilities, LastFound probes file capabilities := by
  induction probes with
  | nil => cases hmem
  | cons first probes ih =>
      by_cases hfirst : ∃ capabilities, first.Finds file capabilities
      · obtain ⟨capabilities, hfirst⟩ := hfirst
        exact ⟨capabilities, lastFound_cons_iff.mpr (.inl hfirst)⟩
      · have hfails (capabilities : List Capability) : ¬first.Finds file capabilities :=
          fun hfinds => hfirst ⟨capabilities, hfinds⟩
        obtain rfl | hmem := List.mem_cons.mp hmem
        · exact absurd hfinds (hfails found)
        · obtain ⟨capabilities, hlast⟩ := ih hmem
          exact ⟨capabilities, lastFound_cons_iff.mpr (.inr ⟨hfails, hlast⟩)⟩

theorem lookup_learn_iff {path : Path} {found : List Capability} :
    (r.learn path found).known.lookup file = some capabilities ↔
      path.components = file ∧ found = capabilities ∨
        path.components ≠ file ∧ r.known.lookup file = some capabilities := by
  by_cases hfile : path.components = file
  · simp [learn, hfile]
  · simp [learn, Table.lookup_put_of_ne (Ne.symm hfile), hfile]

namespace Inquiry

theorem search_resolution (q : Inquiry) (r : Resolver) :
    (q.resolution r).resolver.search = r.search := by
  have houtcome := q.outcome r
  generalize q.resolution r = resolution at houtcome ⊢
  cases houtcome <;> rfl

/-- An inquiry keeps to it that what is known is what was found last. -/
theorem lookup_resolution_iff
    (hbefore : r.known.lookup file = some capabilities ↔ LastFound probes file capabilities) :
    (q.resolution r).resolver.known.lookup file = some capabilities ↔
      LastFound (q.probes r ++ probes) file capabilities := by
  have houtcome := q.outcome r
  unfold Inquiry.probes
  generalize q.resolution r = resolution at houtcome ⊢
  cases houtcome with
  | unchosen | remembered => exact hbefore
  | @learned path kind found _ hanswer =>
      have hfinds (capabilities : List Capability) : Probed.Finds ⟨path, q.answer path⟩ file
          capabilities ↔ path.components = file ∧ found = capabilities := by
        rw [Probed.Finds, hanswer, Except.ok.injEq]
      have hfails : (∀ capabilities, ¬Probed.Finds ⟨path, q.answer path⟩ file capabilities) ↔
          path.components ≠ file :=
        ⟨fun hnone hfile => hnone found ((hfinds found).mpr ⟨hfile, rfl⟩),
          fun hne capabilities h => hne h.1⟩
      rw [List.map_singleton, List.singleton_append, lookup_learn_iff, lastFound_cons_iff, hfails,
        hfinds, hbefore]
  | fruitless hanswer =>
      rw [List.map_singleton, List.singleton_append, lastFound_cons_iff, hbefore]
      simp [Probed.Finds, hanswer]

end Inquiry

theorem after_search (r : Resolver) (history : List Inquiry) :
    (r.after history).search = r.search := by
  induction history with
  | nil => rfl
  | cons q history ih => exact (q.search_resolution _).trans ih

theorem chosen_after (q : Inquiry) (r : Resolver) (history : List Inquiry) :
    q.chosen (r.after history) = q.chosen r := by
  unfold Inquiry.chosen choose detect
  rw [after_search]

theorem lookup_after_iff (hnew : r.known = []) (history : List Inquiry) :
    (r.after history).known.lookup file = some capabilities ↔
      LastFound (r.probes history) file capabilities := by
  induction history with
  | nil =>
      rw [after, hnew]
      exact ⟨nofun, fun hlast => absurd hlast not_lastFound_nil⟩
  | cons q history ih => exact q.lookup_resolution_iff ih

theorem lookup_after_eq_none_iff (hnew : r.known = []) :
    (r.after history).known.lookup file = none ↔
      ∀ p ∈ r.probes history, ∀ found, ¬p.Finds file found := by
  constructor
  · intro hnone p hp found hfinds
    obtain ⟨capabilities, hlast⟩ := exists_lastFound hp hfinds
    cases hnone.symm.trans ((lookup_after_iff hnew history).mpr hlast)
  · intro hfails
    refine Option.eq_none_iff_forall_ne_some.mpr fun capabilities hknown => ?_
    obtain ⟨later, last, earlier, hprobes, hfinds, -⟩ := (lookup_after_iff hnew history).mp hknown
    exact hfails last (by simp [hprobes]) capabilities hfinds

/-- For a resolver that starts out knowing nothing, and whatever is asked of it in the course of time:
an inquiry that selects an interpreter runs its probe if and only if it asks it anew or no probe of
that interpreter has succeeded before, and runs no other. It succeeds as the probe does, or without
one. What it answers has been found by the last probe of the interpreter that succeeded, its own
included; and if it fails, all that is known stays as it was. -/
theorem answers_last_found (hnew : r.known = []) (history : List Inquiry) (q : Inquiry) :
    let before := r.after history
    let resolution := q.resolution before
    (∀ path kind, q.chosen r = .ok (path, kind) →
      let asks := q.refresh = true ∨
        ∀ p ∈ r.probes history, ∀ found, ¬p.Finds path.components found
      (asks → resolution.probed = [path] ∧
        resolution.result = (q.answer path).map (Interpreter.mk path kind)) ∧
      (¬asks → resolution.probed = [] ∧
        ∃ capabilities, resolution.result = .ok ⟨path, kind, capabilities⟩)) ∧
    (∀ cause, q.chosen r = .error cause →
      resolution.probed = [] ∧ resolution.result = .error cause) ∧
    (∀ i, resolution.result = .ok i → q.chosen r = .ok (i.path, i.kind) ∧
      LastFound (r.probes (q :: history)) i.path.components i.capabilities) ∧
    ∀ cause, resolution.result = .error cause → resolution.resolver = before := by
  intro before resolution
  have hlookup {file capabilities} : resolution.resolver.known.lookup file = some capabilities ↔
      LastFound (r.probes (q :: history)) file capabilities :=
    lookup_after_iff hnew (q :: history)
  rw [← chosen_after q r history]
  simp only [← lookup_after_eq_none_iff hnew]
  refine ⟨fun path kind hchosen => ⟨fun hasks => ?_, fun hnot => ?_⟩, fun cause hchosen => ?_,
    fun i hresult => ?_, fun cause hresult => ?_⟩
  · unfold resolution
    rw [Inquiry.resolution_of_unknown hchosen hasks]
    exact ⟨rfl, rfl⟩
  · rw [not_or, Bool.not_eq_true, ← ne_eq, Option.ne_none_iff_exists'] at hnot
    obtain ⟨hrefresh, capabilities, hknown⟩ := hnot
    unfold resolution
    rw [Inquiry.resolution_of_known hchosen hrefresh hknown]
    exact ⟨rfl, capabilities, rfl⟩
  · unfold resolution
    rw [Inquiry.resolution_of_unchosen hchosen]
    exact ⟨rfl, rfl⟩
  · have houtcome : q.Outcome before resolution := q.outcome before
    clear_value resolution
    cases houtcome with
    | unchosen | fruitless => cases hresult
    | remembered hchosen hknown =>
        cases hresult
        exact ⟨hchosen, hlookup.mp hknown⟩
    | learned hchosen =>
        cases hresult
        exact ⟨hchosen, hlookup.mp (Table.lookup_put_self ..)⟩
  · have houtcome : q.Outcome before resolution := q.outcome before
    clear_value resolution
    cases houtcome with
    | unchosen | fruitless => rfl
    | remembered | learned => cases hresult

namespace Trial

/-- An inquiry for one path, at which there is an interpreter. -/
def ask (path : String) (refresh : Bool)
    (answer : Except EnvironmentFailure (List Capability)) : Inquiry where
  view := ⟨fun _ => some ⟨true, false, true⟩, fun _ => none⟩
  answer _ := answer
  selection := .path ⟨path⟩
  wanted := none
  root := ⟨"/"⟩
  refresh := refresh

/-- A probe that succeeds, one that is asked for anew under another spelling of the path and finds
something else, and one that fails, the last one first. -/
def asked : List Inquiry :=
  [ask "py" true (.error (.probeFailed ⟨"py"⟩ "no")), ask "py//" true (.ok [.format]),
    ask "py" false (.ok [.completion])]

def start : Resolver := { search := {}, probe := .fixed [] }

theorem components_spelled : (Path.mk "py//").components = [.entry "py"] ∧
    (Path.mk "py/").components = [.entry "py"] := by
  constructor <;>
    exact Path.components_of_pieces (by rw [Path.pieces_eq]; decide) (by simp [Path.isAbsolute])
      (by decide) (by decide)

theorem probes_asked : start.probes asked =
    [⟨⟨"py"⟩, .error (.probeFailed ⟨"py"⟩ "no")⟩, ⟨⟨"py//"⟩, .ok [.format]⟩,
      ⟨⟨"py"⟩, .ok [.completion]⟩] := by
  simp [asked, Resolver.probes, Inquiry.probes, Inquiry.resolution, resolveBy, Resolver.after, ask,
    start, Resolver.start, choose, FileView.validate, known?, finish, bind, Except.bind]

end Trial

/-- What the second probe has found stays known although the third fails, and is known under every
spelling of the path. -/
theorem answers_last_found_asked_anew :
    let q := Trial.ask "py/" false (.ok [.hover])
    let resolution := q.resolution (Trial.start.after Trial.asked)
    resolution.probed = [] ∧ ∃ kind, resolution.result = .ok ⟨⟨"py/"⟩, kind, [.format]⟩ := by
  intro q resolution
  obtain ⟨hslashes, hslash⟩ := Trial.components_spelled
  obtain ⟨hselects, -, hanswers, -⟩ := answers_last_found (r := Trial.start) rfl Trial.asked q
  have hchosen : q.chosen Trial.start = .ok (⟨"py/"⟩, q.view.classify ⟨"py/"⟩) := rfl
  obtain ⟨-, hquiet⟩ := hselects _ _ hchosen
  rw [Trial.probes_asked, hslash] at hquiet
  obtain ⟨hprobed, capabilities, hresult⟩ := hquiet (by
    rintro (hnow | hnone)
    · cases hnow
    · exact hnone ⟨⟨"py//"⟩, .ok [.format]⟩ (by simp) [.format] ⟨hslashes, rfl⟩)
  obtain ⟨-, hlast⟩ := hanswers _ hresult
  have hprobes : Trial.start.probes (q :: Trial.asked) = Trial.start.probes Trial.asked := by
    rw [Resolver.probes, Inquiry.probes, hprobed]
    rfl
  rw [hprobes, Trial.probes_asked, hslash, lastFound_cons_iff, lastFound_cons_iff] at hlast
  have hformat : [.format] = capabilities := by
    obtain ⟨-, hfailed⟩ | ⟨-, ⟨-, hfound⟩ | ⟨hfails, -⟩⟩ := hlast
    · cases hfailed
    · exact Except.ok.inj hfound
    · exact absurd ⟨hslashes, rfl⟩ (hfails [.format])
  rw [hformat]
  exact ⟨hprobed, _, hresult⟩

end CodeAssist.Resolver
