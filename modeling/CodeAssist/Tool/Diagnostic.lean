import CodeAssist.Json.Scan

namespace CodeAssist

open Json (Shape Fields)

inductive Severity where
  | error
  | warning
  | notice
deriving DecidableEq, Repr, Inhabited

namespace Severity

def all : List Severity := [error, warning, notice]

def name : Severity → String
  | error => "error"
  | warning => "warning"
  | notice => "notice"

def names : List String := all.map name

def ofChoice (choice : Fin names.length) : Severity := all.get (choice.cast (by simp [names]))

end Severity

/-- A problem as the tool prints it. Its line and column may be zero. -/
structure Problem where
  line : Nat
  column : Nat
  severity : Severity
  message : String
  code : Option String
deriving DecidableEq, Repr

namespace Problem

abbrev shape : Shape :=
  .record "RawDiagnostic" (.required "line" (.unsigned .usize)
    (.required "column" (.unsigned .usize) (.required "severity" (.choice Severity.names)
    (.required "message" .string (.defaulted "code" (.optional .string) .nil)))))

def ofValue (value : shape.Value) : Problem :=
  let (line, column, severity, message, code, ()) := value
  { line, column, severity := .ofChoice severity, message, code := code.join }

end Problem

/-- A problem in a buffer. Lines and columns count from 1. -/
structure Diagnostic where
  line : Nat
  column : Nat
  severity : Severity
  message : String
  source : String
  code : Option String
deriving DecidableEq, Repr

namespace Diagnostic

def tool : String := "pyflakes"

def ofProblem (p : Problem) : Diagnostic where
  line := max p.line 1
  column := max p.column 1
  severity := p.severity
  message := p.message
  source := tool
  code := p.code

def notAfter (a b : Diagnostic) : Bool :=
  a.line < b.line || (a.line == b.line && a.column ≤ b.column)

/-- What is reported of the problems a tool has printed: all of them in order of place, and those
at one place as they were printed. -/
def ofProblems (problems : List Problem) : List Diagnostic :=
  (problems.map ofProblem).mergeSort notAfter

def toJson (d : Diagnostic) : Json :=
  .ofMembers ([("line", .ofNat d.line), ("column", .ofNat d.column),
    ("severity", .text d.severity.name), ("message", .text d.message),
    ("source", .text d.source)] ++ d.code.toList.map (fun c => ("code", .text c)))

end Diagnostic

end CodeAssist
