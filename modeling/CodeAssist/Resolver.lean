import CodeAssist.Failure
import CodeAssist.Host.FileTree
import CodeAssist.Interpreter
import CodeAssist.Json.Scan
import CodeAssist.Process
import CodeAssist.Table
import CodeAssist.Tool.Script

namespace CodeAssist

open Json (Shape Fields)

/-- Where interpreters are looked for: conda installs in the home folder, the conda environment that
is active, and the folders of the search path. -/
structure SearchPaths where
  home : Option Path := none
  path : Option String := none
  condaEnvironment : Option Path := none
deriving DecidableEq, Repr, Inhabited

namespace SearchPaths

def condaNames : List String := ["conda", "miniforge", "mambaforge"]

def namesConda (name : String) : Bool :=
  let lower := (Text.lowerAscii name).toList
  condaNames.any fun part => Text.occursIn part.toList lower

def condaInstalls (s : SearchPaths) (view : FileView) : List Path :=
  match s.home with
  | none => []
  | some home =>
      let names := ((view.names? home).getD []).filter fun name =>
        namesConda name && view.isFolder (home.join name)
      (names.mergeSort (· ≤ ·)).map home.join

def interpreterIn (environment : Path) : Path := (environment.join "bin").join "python"

/-- The active environment, if it belongs to an install, and then the base of every install. -/
def condaCandidates (s : SearchPaths) (view : FileView) : List Path :=
  let installs := s.condaInstalls view
  let active := s.condaEnvironment.toList.filter fun environment =>
    installs.any (environment.startsWith ·)
  (active ++ installs).map interpreterIn

def venvFolders : List String := [".venv", "venv", "env"]

def venvCandidates (root : Path) : List Path :=
  venvFolders.map fun folder => interpreterIn (root.join folder)

def systemNames : List String := ["python3", "python"]

def systemCandidates (s : SearchPaths) : List Path :=
  match s.path with
  | none => []
  | some path => (path.splitOn ":").flatMap fun folder => systemNames.map (Path.mk folder).join

def admits (wanted : Option Kind) (kind : Kind) : Bool := wanted.all (· == kind)

/-- Every interpreter that may be there, best first. -/
def candidates (s : SearchPaths) (view : FileView) (wanted : Option Kind) (root : Path) :
    List (Path × Kind) :=
  (if admits wanted .conda then (s.condaCandidates view).map (·, .conda) else []) ++
    (if admits wanted .venv then (venvCandidates root).map (·, .venv) else []) ++
    (if admits wanted .system then s.systemCandidates.map (·, .system) else [])

end SearchPaths

def FileView.validate (view : FileView) (path : Path) : Except EnvironmentFailure Unit :=
  match view.stat? path with
  | none => .error (.notFound path)
  | some stat =>
      if stat.isFile && stat.executable then .ok () else .error (.notExecutable path)

def FileView.mark? (view : FileView) (folder : Path) : Option Kind :=
  if view.isFile (folder.join "pyvenv.cfg") then some .venv
  else if view.isFolder (folder.join "conda-meta") then some .conda
  else none

/-- The kind of an interpreter, told from the folder it lies in and the one above. -/
def FileView.classify (view : FileView) (executable : Path) : Kind :=
  match executable.parent? with
  | none => .system
  | some folder =>
      let near := view.mark? folder
      let above := folder.parent?.bind view.mark?
      (near.or above).getD .system

/-- How the packages of an interpreter are found out: by running it, for at most so long, or from an
answer given beforehand. -/
inductive Probe where
  | run (budget : Duration)
  | fixed (capabilities : List Capability)
deriving DecidableEq, Repr

namespace Probe

abbrev shape : Shape :=
  .record "ProbeReport" (.defaulted "version" (.list (.unsigned .u32))
    (.required "modules" (.table .flag) .nil))

def command (interpreter : Path) (budget : Duration) : Command where
  program := interpreter
  args := ["-c", Script.program Script.probe] ++ Capability.packages
  budget := budget

def ofOutput (o : ProcessOutput) : Except String (List Capability) :=
  if o.status.success then
    match shape.parse (Text.encode (Text.trimmed o.stdout)) with
    | .ok (_, modules, ()) => .ok (Capability.ofReport modules)
    | .error e => .error ("unreadable probe output: " ++ e.message)
  else .error ("exited with " ++ o.status.display ++ ": " ++ o.shortStderr)

def ofEnd (interpreter : Path) (result : ProcessEnd) :
    Except EnvironmentFailure (List Capability) :=
  match result with
  | .ok o => (ofOutput o).mapError (.probeFailed interpreter)
  | .error failure => .error (.probeFailed interpreter failure.message)

end Probe

/-- Turns selections into interpreters. It keeps what probes have found, by the components of the
interpreter's path. -/
structure Resolver where
  search : SearchPaths
  probe : Probe
  known : List (List Path.Component × List Capability) := []
deriving DecidableEq, Repr

namespace Resolver

def detect (r : Resolver) (view : FileView) (wanted : Option Kind) (root : Path) :
    Except EnvironmentFailure (Path × Kind) :=
  let candidates := r.search.candidates view wanted root
  match candidates.find? fun (path, _) => (view.validate path).isOk with
  | some found => .ok found
  | none =>
      let count := String.ofList (Text.decimal candidates.length) ++ " candidates"
      .error (.noCandidate (match wanted with
        | some kind => count ++ " of kind " ++ kind.name
        | none => count))

def choose (r : Resolver) (view : FileView) (selection : Selection) (wanted : Option Kind)
    (root : Path) : Except EnvironmentFailure (Path × Kind) :=
  match selection with
  | .path path => do
      view.validate path
      .ok (path, view.classify path)
  | .auto => r.detect view wanted root

def known? (r : Resolver) (path : Path) : Option (List Capability) :=
  r.known.lookup path.components

def learn (r : Resolver) (path : Path) (capabilities : List Capability) : Resolver :=
  { r with known := Table.put path.components capabilities r.known }

inductive Progress where
  | failed (cause : EnvironmentFailure)
  | found (interpreter : Interpreter)
  | unprobed (path : Path) (kind : Kind)
deriving DecidableEq, Repr

/-- Chooses the interpreter and looks up what is known of it. A `refresh` asks it anew. -/
def start (r : Resolver) (view : FileView) (selection : Selection) (wanted : Option Kind)
    (root : Path) (refresh : Bool) : Progress :=
  match r.choose view selection wanted root with
  | .error cause => .failed cause
  | .ok (path, kind) =>
      match if refresh then none else r.known? path with
      | some capabilities => .found ⟨path, kind, capabilities⟩
      | none => .unprobed path kind

/-- Takes in the answer of a probe. One that failed is not kept. -/
def finish (r : Resolver) (path : Path) (kind : Kind)
    (answer : Except EnvironmentFailure (List Capability)) :
    Except EnvironmentFailure Interpreter × Resolver :=
  match answer with
  | .ok capabilities => (.ok ⟨path, kind, capabilities⟩, r.learn path capabilities)
  | .error cause => (.error cause, r)

end Resolver

end CodeAssist
