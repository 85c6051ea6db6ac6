import CodeAssist.Proofs.Resolver.Resolution
import Mathlib.Data.List.Sort
import Mathlib.Data.String.Basic

namespace CodeAssist

/-! How an interpreter is detected. -/

theorem Text.occursIn_iff {part whole : List Char} :
    occursIn part whole = true ↔ part <:+: whole := by
  induction whole with
  | nil => simp [occursIn]
  | cons c rest ih =>
      rw [occursIn, Bool.or_eq_true, List.isPrefixOf_iff_prefix, ih, List.infix_cons_iff]

theorem Path.startsWith_iff {p q : Path} :
    p.startsWith q = true ↔ q.components <+: p.components := List.isPrefixOf_iff_prefix

/-- The path leads to a regular file that may be executed. -/
def FileView.Usable (view : FileView) (path : Path) : Prop :=
  ∃ stat, view.stat? path = some stat ∧ stat.isFile = true ∧ stat.executable = true

theorem FileView.usable_iff {view : FileView} {path : Path} :
    view.Usable path ↔ (view.validate path).isOk = true := by
  unfold Usable validate
  cases view.stat? path with
  | none => simp [Except.isOk, Except.toBool]
  | some stat =>
      cases hfile : stat.isFile <;> cases hexecutable : stat.executable <;>
        simp [hfile, hexecutable, Except.isOk, Except.toBool]

/-- The earlier kinds are detected first. -/
def Kind.rank : Kind → Nat
  | .conda => 0
  | .venv => 1
  | .system => 2

namespace SearchPaths

variable {s : SearchPaths} {view : FileView} {root : Path} {wanted : Option Kind}

/-- A folder right in the home folder is named like a conda distribution: one of their names is in
its name, in any ASCII case. -/
def IsInstall (view : FileView) (home : Path) (name : String) : Prop :=
  (∃ part ∈ ["conda", "miniforge", "mambaforge"],
    part.toList <:+: (Text.lowerAscii name).toList) ∧ view.isFolder (home.join name)

theorem namesConda_iff {name : String} : namesConda name = true ↔
    ∃ part ∈ ["conda", "miniforge", "mambaforge"],
      part.toList <:+: (Text.lowerAscii name).toList := by
  rw [namesConda, List.any_eq_true]
  simp only [Text.occursIn_iff]
  rfl

/-- The conda installs, in order of name. -/
inductive Installs (s : SearchPaths) (view : FileView) : List Path → Prop
  | homeless (hhome : s.home = none) : Installs s view []
  | unreadable {home : Path} (hhome : s.home = some home) (hnames : view.names? home = none) :
      Installs s view []
  | found {home : Path} {names installs : List String} {keeps : String → Bool}
      (hhome : s.home = some home) (hnames : view.names? home = some names)
      (hkeeps : ∀ name, keeps name ↔ IsInstall view home name)
      (hinstalls : installs.Perm (names.filter keeps))
      (hsorted : installs.Pairwise (· ≤ ·)) : Installs s view (installs.map home.join)

theorem pairwise_mergeSort_names (names : List String) :
    (names.mergeSort (· ≤ ·)).Pairwise (· ≤ ·) := by
  have hsorted : (names.mergeSort (· ≤ ·)).Pairwise fun a b => decide (a ≤ b) = true :=
    List.pairwise_mergeSort
      (fun a b c hab hbc => by
        simp only [decide_eq_true_eq] at hab hbc ⊢
        exact String.le_trans hab hbc)
      (fun a b => by simpa using String.le_total a b) names
  exact hsorted.imp of_decide_eq_true

theorem installs_condaInstalls (s : SearchPaths) (view : FileView) :
    s.Installs view (s.condaInstalls view) := by
  unfold condaInstalls
  cases hhome : s.home with
  | none => exact .homeless hhome
  | some home =>
      cases hnames : view.names? home with
      | none =>
          simp only [hnames, Option.getD_none, List.filter_nil, List.mergeSort_nil, List.map_nil]
          exact .unreadable hhome hnames
      | some names =>
          simp only [hnames, Option.getD_some]
          refine .found hhome hnames (fun name => ?_) (List.mergeSort_perm ..) ?_
          · rw [Bool.and_eq_true, namesConda_iff, IsInstall]
          · exact pairwise_mergeSort_names _

theorem filter_tagged (paths : List Path) (tag kind : Kind) :
    (paths.map (·, tag)).filter (fun c => decide (c.2 = kind)) =
      if kind = tag then paths.map (·, tag) else [] := by
  by_cases htag : kind = tag
  · simp [htag, List.filter_eq_self]
  · simp [htag, eq_comm (a := tag)]

/-- Looking for one kind is looking for all and leaving out the others. -/
theorem candidates_some (s : SearchPaths) (view : FileView) (kind : Kind) (root : Path) :
    s.candidates view (some kind) root =
      (s.candidates view none root).filter (fun c => decide (c.2 = kind)) := by
  simp only [candidates, admits, Option.all_none, Option.all_some, if_true, List.filter_append,
    filter_tagged, beq_iff_eq]

theorem candidates_pairwise (s : SearchPaths) (view : FileView) (root : Path) :
    (s.candidates view none root).Pairwise fun c d => c.2.rank ≤ d.2.rank := by
  have htagged (paths : List Path) (tag : Kind) :
      (paths.map (·, tag)).Pairwise fun c d => c.2.rank ≤ d.2.rank :=
    List.pairwise_map.mpr (List.pairwise_of_forall fun _ _ => Nat.le_refl _)
  simp only [candidates, admits, Option.all_none, if_true]
  refine List.pairwise_append.mpr ⟨List.pairwise_append.mpr ⟨htagged .., htagged .., ?_⟩,
    htagged .., ?_⟩
  · simp [Kind.rank]
  · intro c _ d hd
    obtain ⟨_, -, rfl⟩ := List.mem_map.mp hd
    cases c.2 <;> simp [Kind.rank]

theorem candidates_conda (s : SearchPaths) (view : FileView) (root : Path) :
    ∃ active : Option Path,
      (∀ environment, active = some environment ↔ s.condaEnvironment = some environment ∧
        ∃ install ∈ s.condaInstalls view, install.components <+: environment.components) ∧
      (s.candidates view none root).filter (fun c => decide (c.2 = .conda)) =
        (active.toList ++ s.condaInstalls view).map fun environment =>
          (interpreterIn environment, .conda) := by
  refine ⟨s.condaEnvironment.filter fun environment =>
    (s.condaInstalls view).any (environment.startsWith ·), fun environment => ?_, ?_⟩
  · simp only [Option.filter_eq_some_iff, List.any_eq_true, Path.startsWith_iff]
  · rw [← candidates_some, candidates]
    simp [admits, condaCandidates, Option.toList_filter, Function.comp_def]

end SearchPaths

namespace Resolver

variable {r : Resolver} {view : FileView} {run : Path → ProcessEnd} {wanted : Option Kind}
  {root path : Path} {kind : Kind} {refresh : Bool}

theorem find?_first {before after : List (Path × Kind)}
    (hbefore : ∀ c ∈ before, ¬view.Usable c.1) (husable : view.Usable path) :
    (before ++ (path, kind) :: after).find? (fun (path, _) => (view.validate path).isOk) =
      some (path, kind) := by
  refine List.find?_eq_some_iff_append.mpr
    ⟨FileView.usable_iff.mp husable, before, after, rfl, fun c hc => ?_⟩
  rw [Bool.not_eq_true', ← Bool.not_eq_true, ← FileView.usable_iff]
  exact hbefore c hc

theorem find?_none {candidates : List (Path × Kind)} (hnone : ∀ c ∈ candidates, ¬view.Usable c.1) :
    candidates.find? (fun (path, _) => (view.validate path).isOk) = none :=
  List.find?_eq_none.mpr fun c hc => mt FileView.usable_iff.mpr (hnone c hc)

theorem detect_of_first {before after : List (Path × Kind)}
    (hcandidates : r.search.candidates view wanted root = before ++ (path, kind) :: after)
    (hbefore : ∀ c ∈ before, ¬view.Usable c.1) (husable : view.Usable path) :
    r.detect view wanted root = .ok (path, kind) := by
  unfold detect
  simp only [hcandidates, find?_first hbefore husable]

theorem detect_of_none (hnone : ∀ c ∈ r.search.candidates view wanted root, ¬view.Usable c.1) :
    ∃ searched, r.detect view wanted root = .error (.noCandidate searched) := by
  unfold detect
  simp only [find?_none hnone]
  exact ⟨_, rfl⟩

/-- Either a first candidate is usable, or none is. -/
theorem first_or_none (view : FileView) (candidates : List (Path × Kind)) :
    (∃ before path kind after, candidates = before ++ (path, kind) :: after ∧
      (∀ c ∈ before, ¬view.Usable c.1) ∧ view.Usable path) ∨
    ∀ c ∈ candidates, ¬view.Usable c.1 := by
  induction candidates with
  | nil => exact .inr nofun
  | cons c candidates ih =>
      by_cases hc : view.Usable c.1
      · exact .inl ⟨[], c.1, c.2, candidates, rfl, nofun, hc⟩
      · obtain ⟨before, path, kind, after, rfl, hbefore, husable⟩ | hnone := ih
        · exact .inl ⟨c :: before, path, kind, after, rfl,
            List.forall_mem_cons.mpr ⟨hc, hbefore⟩, husable⟩
        · exact .inr (List.forall_mem_cons.mpr ⟨hc, hnone⟩)

/-- Once an interpreter has been chosen, a resolution does not fail for want of a candidate. -/
theorem resolve_ne_noCandidate {selection : Selection} {searched : String}
    (hchoose : r.choose view selection wanted root = .ok (path, kind)) :
    (r.resolve view run selection wanted root refresh).result ≠ .error (.noCandidate searched) := by
  intro hfailed
  cases hknown : if refresh = true then none else r.known? path with
  | none =>
      have hasks : refresh = true ∨ r.known? path = none := by
        cases refresh with
        | true => exact .inl rfl
        | false => exact .inr hknown
      rw [resolve, resolveBy_of_unknown _ hchoose hasks] at hfailed
      cases hanswer : r.probe.answer run path with
      | ok => rw [hanswer] at hfailed; cases hfailed
      | error cause =>
          obtain ⟨reason, rfl⟩ := Probe.answer_eq_error hanswer
          rw [hanswer] at hfailed
          cases hfailed
  | some capabilities =>
      cases refresh with
      | true => cases hknown
      | false =>
          rw [resolve, resolveBy_of_known _ hchoose hknown] at hfailed
          cases hfailed

/-- Candidates are in the order of their kinds, and those of one kind are all others left out. The
conda ones are the active environment's, if that lies in an install, and those of the installs.
Detection takes the first usable one and answers as its probe does, and fails for want of a candidate
if and only if none is usable. -/
theorem detects_first_usable (r : Resolver) (view : FileView) (root : Path)
    (run : Path → ProcessEnd) :
    (∀ kind, r.search.candidates view (some kind) root =
      (r.search.candidates view none root).filter (fun c => decide (c.2 = kind))) ∧
    ((r.search.candidates view none root).Pairwise fun c d => c.2.rank ≤ d.2.rank) ∧
    (∃ (installs : List Path) (active : Option Path), r.search.Installs view installs ∧
      (∀ environment, active = some environment ↔ r.search.condaEnvironment = some environment ∧
        ∃ install ∈ installs, install.components <+: environment.components) ∧
      (r.search.candidates view none root).filter (fun c => decide (c.2 = .conda)) =
        (active.toList ++ installs).map fun environment =>
          (SearchPaths.interpreterIn environment, .conda)) ∧
    ∀ wanted refresh,
      let resolution := r.resolve view run .auto wanted root refresh
      ((∃ searched, resolution.result = .error (.noCandidate searched)) ↔
        ∀ c ∈ r.search.candidates view wanted root, ¬view.Usable c.1) ∧
      ∀ before path kind after,
        r.search.candidates view wanted root = before ++ (path, kind) :: after →
        (∀ c ∈ before, ¬view.Usable c.1) → view.Usable path →
        (refresh = true ∨ r.known? path = none → resolution.probed = [path] ∧
          resolution.result = (r.probe.answer run path).map (Interpreter.mk path kind)) ∧
        ∀ capabilities, refresh = false → r.known? path = some capabilities →
          resolution.probed = [] ∧ resolution.result = .ok ⟨path, kind, capabilities⟩ := by
  obtain ⟨active, hactive, hconda⟩ := r.search.candidates_conda view root
  refine ⟨fun kind => r.search.candidates_some view kind root,
    r.search.candidates_pairwise view root,
    ⟨_, active, r.search.installs_condaInstalls view, hactive, hconda⟩, fun wanted refresh => ?_⟩
  intro resolution
  have hchoose : r.choose view .auto wanted root = r.detect view wanted root := rfl
  refine ⟨⟨fun ⟨searched, hfailed⟩ => ?_, fun hnone => ?_⟩,
    fun before path kind after hcandidates hbefore husable => ⟨fun hasks => ?_, ?_⟩⟩
  · obtain ⟨before, path, kind, after, hcandidates, hbefore, husable⟩ | hnone :=
      first_or_none view (r.search.candidates view wanted root)
    · have hfound := hchoose.trans (detect_of_first hcandidates hbefore husable)
      exact absurd hfailed (resolve_ne_noCandidate hfound)
    · exact hnone
  · obtain ⟨searched, hdetect⟩ := detect_of_none hnone
    refine ⟨searched, ?_⟩
    unfold resolution
    rw [resolve, resolveBy_of_failed _ (hchoose.trans hdetect)]
  · have hfound := hchoose.trans (detect_of_first hcandidates hbefore husable)
    unfold resolution
    rw [resolve, resolveBy_of_unknown _ hfound hasks]
    exact ⟨rfl, rfl⟩
  · rintro capabilities rfl hknown
    have hfound := hchoose.trans (detect_of_first hcandidates hbefore husable)
    unfold resolution
    rw [resolve, resolveBy_of_known _ hfound hknown]
    exact ⟨rfl, rfl⟩

/-- The interpreter of the first install cannot be run, and that of the second cannot be probed. -/
theorem detects_first_usable_unprobed :
    let view : FileView := {
      stat? := fun path =>
        if path = ⟨"/home/anaconda3"⟩ ∨ path = ⟨"/home/miniforge3"⟩ then some ⟨false, true, true⟩
        else if path = ⟨"/home/anaconda3/bin/python"⟩ then some ⟨true, false, false⟩
        else if path = ⟨"/home/miniforge3/bin/python"⟩ ∨ path = ⟨"/w/venv/bin/python"⟩ then
          some ⟨true, false, true⟩
        else none
      names? := fun path =>
        if path = ⟨"/home"⟩ then some ["notes", "miniforge3", "anaconda3"] else none }
    let r : Resolver := { search := { home := some ⟨"/home"⟩ }, probe := .run ⟨1⟩ }
    let resolution := r.resolve view (fun _ => .error (.notStarted "no")) .auto none ⟨"/w"⟩ false
    resolution.probed = [⟨"/home/miniforge3/bin/python"⟩] ∧
      resolution.result = .error (.probeFailed ⟨"/home/miniforge3/bin/python"⟩
        "failed to start: no") := by
  intro view r resolution
  obtain ⟨-, -, -, hresolve⟩ :=
    r.detects_first_usable view ⟨"/w"⟩ (fun _ => .error (.notStarted "no"))
  obtain ⟨-, hfirst⟩ := hresolve none false
  have hcandidates : r.search.candidates view none ⟨"/w"⟩ =
      [(⟨"/home/anaconda3/bin/python"⟩, .conda)] ++
        (⟨"/home/miniforge3/bin/python"⟩, .conda) ::
          [(⟨"/w/.venv/bin/python"⟩, .venv), (⟨"/w/venv/bin/python"⟩, .venv),
            (⟨"/w/env/bin/python"⟩, .venv)] := by
    have hnames : ["notes", "miniforge3", "anaconda3"].filter (fun name =>
        SearchPaths.namesConda name && view.isFolder ((Path.mk "/home").join name)) =
          ["miniforge3", "anaconda3"] := by
      decide +kernel
    have hsorted : ["miniforge3", "anaconda3"].mergeSort (fun a b => decide (a ≤ b)) =
        ["anaconda3", "miniforge3"] := by
      simp [List.mergeSort]
    have hinstalls : r.search.condaInstalls view =
        ["anaconda3", "miniforge3"].map (Path.mk "/home").join := by
      rw [← hsorted, ← hnames]
      rfl
    unfold SearchPaths.candidates SearchPaths.condaCandidates
    rw [hinstalls]
    decide +kernel
  have hbefore : ¬view.Usable ⟨"/home/anaconda3/bin/python"⟩ := by
    rw [FileView.usable_iff]
    decide +kernel
  have husable : view.Usable ⟨"/home/miniforge3/bin/python"⟩ := by
    rw [FileView.usable_iff]
    decide +kernel
  obtain ⟨hprobed, hresult⟩ := (hfirst _ _ _ _ hcandidates
    (List.forall_mem_singleton.mpr hbefore) husable).1 (.inr rfl)
  exact ⟨hprobed, hresult⟩

end Resolver

end CodeAssist
