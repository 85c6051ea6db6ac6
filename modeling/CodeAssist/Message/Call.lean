import CodeAssist.Failure
import CodeAssist.Interpreter
import CodeAssist.Json.Scan

namespace CodeAssist

open Json (Shape Fields Mismatch)

/-- A buffer, the file it belongs to, and a place in it counted in characters. -/
structure PositionParams where
  path : Path
  buffer : String
  offset : Nat
deriving DecidableEq, Repr

structure BufferParams where
  path : Path
  buffer : String
deriving DecidableEq, Repr

/-- `edits` asks for the changed lines beside the formatted text. -/
structure FormatParams where
  path : Path
  buffer : String
  edits : Bool
deriving DecidableEq, Repr

structure EnvironmentParams where
  interpreter : Option Path
  auto : Bool
  kind : Option Kind
deriving DecidableEq, Repr

structure WorkspaceParams where
  root : Path
deriving DecidableEq, Repr

namespace PositionParams

abbrev shape : Shape :=
  .record "PositionParams" (.required "path" .path (.required "buffer" .string
    (.required "offset" (.unsigned .usize) .nil)))

def ofJson (j : Json) : Except Mismatch PositionParams := do
  let (path, buffer, offset, ()) ← shape.decode j
  .ok { path := ⟨path⟩, buffer, offset }

end PositionParams

namespace BufferParams

abbrev shape : Shape :=
  .record "BufferParams" (.required "path" .path (.required "buffer" .string .nil))

def ofJson (j : Json) : Except Mismatch BufferParams := do
  let (path, buffer, ()) ← shape.decode j
  .ok { path := ⟨path⟩, buffer }

end BufferParams

namespace FormatParams

abbrev shape : Shape :=
  .record "FormatParams" (.required "path" .path (.required "buffer" .string
    (.defaulted "edits" .flag .nil)))

def ofJson (j : Json) : Except Mismatch FormatParams := do
  let (path, buffer, edits, ()) ← shape.decode j
  .ok { path := ⟨path⟩, buffer, edits := edits.getD false }

end FormatParams

namespace EnvironmentParams

abbrev shape : Shape :=
  .record "EnvironmentParams" (.defaulted "interpreterPath" (.optional .path)
    (.defaulted "auto" .flag (.defaulted "kind" (.optional (.choice Kind.names)) .nil)))

def ofJson (j : Json) : Except Mismatch EnvironmentParams := do
  let (interpreter, auto, kind, ()) ← shape.decode j
  .ok {
    interpreter := interpreter.join.map Path.mk
    auto := auto.getD false
    kind := kind.join.map Kind.ofChoice }

def selection (p : EnvironmentParams) : Selection :=
  match p.interpreter with
  | some path => .path path
  | none => .auto

end EnvironmentParams

namespace WorkspaceParams

abbrev shape : Shape := .record "WorkspaceParams" (.required "root" .path .nil)

def ofJson (j : Json) : Except Mismatch WorkspaceParams := do
  let (root, ()) ← shape.decode j
  .ok { root := ⟨root⟩ }

end WorkspaceParams

inductive Call where
  | ping (params : Json)
  | shutdown
  | environmentSet (params : EnvironmentParams)
  | workspaceSet (params : WorkspaceParams)
  | capabilities
  | completion (params : PositionParams)
  | hover (params : PositionParams)
  | format (params : FormatParams)
  | diagnostics (params : BufferParams)
deriving DecidableEq, Repr

namespace Call

def method : Call → String
  | .ping _ => "ping"
  | .shutdown => "shutdown"
  | .environmentSet _ => "environment.set"
  | .workspaceSet _ => "workspace.set"
  | .capabilities => "capabilities"
  | .completion _ => "completion.get"
  | .hover _ => "hover.get"
  | .format _ => "format.run"
  | .diagnostics _ => "diagnostics.run"

def readParams (method : String) (read : Json → Except Mismatch α) (params : Json) :
    Except Failure α :=
  match read params with
  | .ok value => .ok value
  | .error cause => .error (.invalidParams (method ++ ": " ++ cause.message))

/-- Exactly one of a path and detection must be asked for. -/
def environmentCall (p : EnvironmentParams) : Except Failure Call :=
  if p.interpreter.isSome == p.auto then
    .error (.invalidParams "environment.set needs exactly one of interpreterPath or auto")
  else .ok (.environmentSet p)

def ofRequest (method : String) (params : Json) : Except Failure Call :=
  match method with
  | "ping" => .ok (.ping params)
  | "shutdown" => .ok .shutdown
  | "environment.set" => do
      let p ← readParams method EnvironmentParams.ofJson params
      environmentCall p
  | "workspace.set" => return .workspaceSet (← readParams method WorkspaceParams.ofJson params)
  | "capabilities" => .ok .capabilities
  | "completion.get" => return .completion (← readParams method PositionParams.ofJson params)
  | "hover.get" => return .hover (← readParams method PositionParams.ofJson params)
  | "format.run" => return .format (← readParams method FormatParams.ofJson params)
  | "diagnostics.run" => return .diagnostics (← readParams method BufferParams.ofJson params)
  | other => .error (.unsupportedMethod other)

def affectsEnvironment : Call → Bool
  | .shutdown => true
  | .environmentSet _ => true
  | .workspaceSet _ => true
  | _ => false

end Call

end CodeAssist
