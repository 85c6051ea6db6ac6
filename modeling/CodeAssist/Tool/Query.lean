import CodeAssist.FileCache
import CodeAssist.Interpreter
import CodeAssist.Position
import CodeAssist.Process
import CodeAssist.Tool.Completion
import CodeAssist.Tool.Diagnostic
import CodeAssist.Tool.Script

namespace CodeAssist

/-- A question about a buffer that is taken for the file at `path`. Offsets count characters. -/
inductive Query where
  | completion (path : Path) (buffer : String) (offset : Nat)
  | hover (path : Path) (buffer : String) (offset : Nat)
  | format (path : Path) (buffer : String)
  | diagnostics (path : Path) (buffer : String)
deriving DecidableEq, Repr

inductive Answer where
  | completion (items : List CompletionItem)
  | hover (info : Option HoverInfo)
  | format (text : String)
  | diagnostics (path : Path) (found : List Diagnostic)
deriving DecidableEq, Repr

def Answer.toJson : Answer → Json
  | .completion items => .list (items.map CompletionItem.toJson)
  | .hover (some info) => info.toJson
  | .hover none => .null
  | .format text => .text text
  | .diagnostics path found =>
      .ofMembers [("path", .text path.text), ("diagnostics", .list (found.map Diagnostic.toJson))]

/-- What the tools of one session share: the project they work in, the time each run may take, and
how long formatted lines may get. -/
structure ToolSettings where
  root : Path
  budget : Duration
  lineLength : Option Nat
deriving DecidableEq, Repr

namespace Query

def capability : Query → Capability
  | .completion _ _ _ => .completion
  | .hover _ _ _ => .hover
  | .format _ _ => .format
  | .diagnostics _ _ => .diagnostics

def path : Query → Path
  | .completion path _ _ => path
  | .hover path _ _ => path
  | .format path _ => path
  | .diagnostics path _ => path

def buffer : Query → String
  | .completion _ buffer _ => buffer
  | .hover _ buffer _ => buffer
  | .format _ buffer => buffer
  | .diagnostics _ buffer => buffer

def position? : Query → Option Position
  | .completion _ buffer offset => Position.at? buffer offset
  | .hover _ buffer offset => Position.at? buffer offset
  | .format _ _ => none
  | .diagnostics _ _ => none

def nothing : Query → Answer
  | .completion _ _ _ => .completion []
  | .hover _ _ _ => .hover none
  | .format _ _ => .format ""
  | .diagnostics path _ => .diagnostics path []

/-- Whether the tool has to be asked: not about an empty buffer, nor about a place outside it. -/
def needsTool : Query → Bool
  | .completion _ buffer offset => buffer ≠ "" && (Position.at? buffer offset).isSome
  | .hover _ buffer offset => buffer ≠ "" && (Position.at? buffer offset).isSome
  | .format _ buffer => buffer ≠ ""
  | .diagnostics _ buffer => buffer ≠ ""

def document (q : Query) (root : Path) : Json :=
  .object ([("source", .text q.buffer), ("path", .text q.path.text), ("root", .text root.text)] ++
    match q.position? with
    | some p => [("line", .ofNat p.line), ("column", .ofNat p.column)]
    | none => [])

def script : Query → String
  | .completion _ _ _ => Script.complete
  | .hover _ _ _ => Script.hover
  | .format _ _ => Script.format
  | .diagnostics _ _ => Script.lint

/-- The arguments of the formatter. Stub files have a style of their own. -/
def formatArgs (path : Path) (lineLength : Option Nat) : List String :=
  ["--quiet"] ++
    (match lineLength with
      | some n => ["--line-length", String.ofList (Text.decimal n)]
      | none => []) ++
    (if path.extension? = some "pyi" then ["--pyi"] else []) ++ ["-"]

def args (q : Query) (settings : ToolSettings) : List String :=
  match q with
  | .format path _ => formatArgs path settings.lineLength
  | .completion _ _ _ | .hover _ _ _ | .diagnostics _ _ => []

def stdin (q : Query) (settings : ToolSettings) : Text.Bytes :=
  match q with
  | .format _ buffer => Text.encode buffer
  | .completion _ _ _ | .hover _ _ _ | .diagnostics _ _ => (q.document settings.root).encode

def command (q : Query) (interpreter : Interpreter) (settings : ToolSettings) : Command where
  program := interpreter.path
  args := ["-c", Script.program q.script] ++ q.args settings
  folder := some settings.root
  stdin := q.stdin settings
  budget := settings.budget

/-- The exit code with which the formatter refuses a buffer. -/
def refusedCode : Nat := 123

def exited (q : Query) (o : ProcessOutput) : ToolFailure :=
  .exited q.capability o.status.display o.shortStderr

def parsed (q : Query) (shape : Json.Shape) (o : ProcessOutput) :
    Except ToolFailure shape.Value :=
  match shape.parse (Text.encode (Text.trimmed o.stdout)) with
  | .ok value => .ok value
  | .error e => .error (.malformedOutput q.capability e.message)

def printed (q : Query) (o : ProcessOutput) : Except ToolFailure Answer :=
  match q with
  | .completion _ _ _ => do
      let items ← q.parsed (.list CompletionItem.shape) o
      .ok (.completion (items.map CompletionItem.ofValue))
  | .hover _ _ _ => do
      let info ← q.parsed (.optional HoverInfo.shape) o
      .ok (.hover (info.map HoverInfo.ofValue))
  | .format _ _ => .ok (.format o.stdout)
  | .diagnostics path _ => do
      let problems ← q.parsed (.list Problem.shape) o
      .ok (.diagnostics path (Diagnostic.ofProblems (problems.map Problem.ofValue)))

def refused (q : Query) (o : ProcessOutput) : Option ToolFailure :=
  match q with
  | .format _ _ =>
      if o.status.code? = some refusedCode then some (.cannotFormat (Text.trimmed o.stderr))
      else none
  | .completion _ _ _ | .hover _ _ _ | .diagnostics _ _ => none

def ofOutput (q : Query) (o : ProcessOutput) : Except ToolFailure Answer :=
  if o.status.success then q.printed o
  else .error ((q.refused o).getD (q.exited o))

def ofEnd (q : Query) : ProcessEnd → Except ToolFailure Answer
  | .ok o => q.ofOutput o
  | .error failure => .error (failure.ofTool q.capability)

end Query

/-- Completions by file and offset, and the diagnostics of each file. -/
structure Caches where
  completions : FileCache Nat (List CompletionItem) := {}
  diagnostics : FileCache Unit (List Diagnostic) := {}

namespace Caches

def lookup (caches : Caches) : Query → Option Answer × Caches
  | .completion path buffer offset =>
      let (items, completions) := caches.completions.get path (.ofText buffer) offset
      (items.map .completion, { caches with completions })
  | .diagnostics path buffer =>
      let (found, diagnostics) := caches.diagnostics.get path (.ofText buffer) ()
      (found.map (.diagnostics path), { caches with diagnostics })
  | .hover _ _ _ | .format _ _ => (none, caches)

def store (caches : Caches) (q : Query) (a : Answer) : Caches :=
  match q, a with
  | .completion path buffer offset, .completion items =>
      { caches with
        completions := caches.completions.insert path (.ofText buffer) offset items }
  | .diagnostics path buffer, .diagnostics _ found =>
      { caches with diagnostics := caches.diagnostics.insert path (.ofText buffer) () found }
  | _, _ => caches

end Caches

end CodeAssist
