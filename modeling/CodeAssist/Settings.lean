import CodeAssist.Duration
import CodeAssist.Host.FileTree
import CodeAssist.Interpreter
import CodeAssist.Json.Scan

namespace CodeAssist

open Json (Shape Fields Mismatch ReadError)

structure Settings where
  interpreter : Selection
  kind : Option Kind
  root : Path
  host : String
  port : Nat
  toolTimeoutMs : Nat
  drainTimeoutMs : Nat
  probeTimeoutMs : Nat
  maxWorkers : Nat
  lineLength : Option Nat
deriving DecidableEq, Repr, Inhabited

namespace Settings

def defaultFile : String := "pytools-engine.json"

/-- The settings of an engine that is told nothing. How many tools run at once depends on the
machine. -/
def standard (workers : Nat) : Settings where
  interpreter := .auto
  kind := none
  root := ⟨"."⟩
  host := "127.0.0.1"
  port := 9005
  toolTimeoutMs := 10000
  drainTimeoutMs := 5000
  probeTimeoutMs := 5000
  maxWorkers := workers
  lineLength := none

/-! Every member of a settings file may be left out. -/

abbrev shape : Shape :=
  .record "EngineConfig" (.defaulted "interpreter" .string
    (.defaulted "kind" (.optional (.choice Kind.names))
    (.defaulted "root" .path
    (.defaulted "host" .string
    (.defaulted "port" (.unsigned .u16)
    (.defaulted "tool_timeout_ms" (.unsigned .u64)
    (.defaulted "drain_timeout_ms" (.unsigned .u64)
    (.defaulted "probe_timeout_ms" (.unsigned .u64)
    (.defaulted "max_workers" (.unsigned .usize)
    (.defaulted "line_length" (.optional (.unsigned .u32)) .nil))))))))))

def overlay (base : Settings) (given : shape.Value) : Settings :=
  let (interpreter, kind, root, host, port, tool, drain, probe, workers, lineLength, ()) := given
  { interpreter := (interpreter.map Selection.ofText).getD base.interpreter
    kind := (kind.map (·.map Kind.ofChoice)).getD base.kind
    root := (root.map Path.mk).getD base.root
    host := host.getD base.host
    port := port.getD base.port
    toolTimeoutMs := tool.getD base.toolTimeoutMs
    drainTimeoutMs := drain.getD base.drainTimeoutMs
    probeTimeoutMs := probe.getD base.probeTimeoutMs
    maxWorkers := workers.getD base.maxWorkers
    lineLength := lineLength.getD base.lineLength }

def parse (base : Settings) (text : String) : Except ReadError Settings := do
  let given ← shape.parse (Text.encode text)
  .ok (base.overlay given)

def ofJson (base : Settings) (j : Json) : Except Mismatch Settings := do
  let given ← shape.decode j
  .ok (base.overlay given)

/-- The members of a settings file. Those that hold nothing are not written. -/
def toJson (s : Settings) : Json :=
  .object ([("interpreter", .text s.interpreter.text)] ++
    s.kind.toList.map (fun k => ("kind", .text k.name)) ++
    [("root", .text s.root.text), ("host", .text s.host), ("port", .ofNat s.port),
      ("tool_timeout_ms", .ofNat s.toolTimeoutMs), ("drain_timeout_ms", .ofNat s.drainTimeoutMs),
      ("probe_timeout_ms", .ofNat s.probeTimeoutMs), ("max_workers", .ofNat s.maxWorkers)] ++
    s.lineLength.toList.map (fun n => ("line_length", .ofNat n)))

def address (s : Settings) : String := s.host ++ ":" ++ String.ofList (Text.decimal s.port)

def toolTimeout (s : Settings) : Duration := .ofMillis s.toolTimeoutMs

def drainTimeout (s : Settings) : Duration := .ofMillis s.drainTimeoutMs

def probeTimeout (s : Settings) : Duration := .ofMillis s.probeTimeoutMs

end Settings

inductive SettingsError where
  | unreadable (path : Path) (cause : SystemError)
  | malformed (path : Path) (cause : ReadError)
  | noWorkers
  | noToolTime
  | noProbeTime
  | noLineLength
  | alreadyExists (path : Path)
  | notWritten (cause : SystemError)
  | notRenamed (cause : SystemError)
deriving Repr

namespace SettingsError

def chain : SettingsError → List String
  | .unreadable path cause => ["failed to read " ++ path.text, cause.message]
  | .malformed path cause =>
      ["failed to parse " ++ path.text ++ " - invalid JSON", cause.message]
  | .noWorkers => ["max_workers must be at least 1"]
  | .noToolTime => ["tool_timeout_ms must be positive"]
  | .noProbeTime => ["probe_timeout_ms must be positive"]
  | .noLineLength => ["line_length must be positive"]
  | .alreadyExists path =>
      [path.text ++ " already exists\n\nTo regenerate it, remove the file first, then run:\n  " ++
        "pytools-engine config init"]
  | .notWritten cause => ["failed to write temporary config file", cause.message]
  | .notRenamed cause => ["failed to rename temporary config file", cause.message]

def message (e : SettingsError) : String := String.intercalate ": " e.chain

end SettingsError

namespace Settings

def validate (s : Settings) : Except SettingsError Unit :=
  if s.maxWorkers = 0 then .error .noWorkers
  else if s.toolTimeoutMs = 0 then .error .noToolTime
  else if s.probeTimeoutMs = 0 then .error .noProbeTime
  else if s.lineLength = some 0 then .error .noLineLength
  else .ok ()

def ofFile (base : Settings) (tree : FileTree) (here : Location) (path : Path) :
    Except SettingsError Settings :=
  match tree.readText here path.text with
  | .error cause => .error (.unreadable path cause)
  | .ok text =>
      match base.parse text with
      | .error cause => .error (.malformed path cause)
      | .ok settings => .ok settings

def temporaryFile (path : Path) : Path := path.withExtension "tmp"

/-- Writes the settings to a path that nothing exists at yet: first under a temporary name, which is
then changed. Whether or not that fails, the tree is what the attempt has left. -/
def writeNew (s : Settings) (tree : FileTree) (here : Location) (path : Path) :
    Except SettingsError Unit × FileTree :=
  if tree.has here path.text then (.error (.alreadyExists path), tree)
  else
    let temporary := temporaryFile path
    match tree.write here temporary.text (Text.encode s.toJson.pretty) with
    | .error cause => (.error (.notWritten cause), tree)
    | .ok written =>
        match written.rename here temporary.text path.text with
        | .error cause => (.error (.notRenamed cause), written)
        | .ok renamed => (.ok (), renamed)

end Settings

end CodeAssist
