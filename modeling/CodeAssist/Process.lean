import CodeAssist.Failure
import CodeAssist.Text.Lines
import CodeAssist.Text.Utf8

namespace CodeAssist

/-- How a process ended, as the system encodes it in 32 bits: the low seven name a signal, and are
zero for an exit, whose code stands in the next octet. -/
structure ExitStatus where
  raw : Nat
deriving DecidableEq, Repr, Inhabited

namespace ExitStatus

def exited (code : Nat) : ExitStatus := ⟨code % 256 * 256⟩

def signalled (signal : Nat) : ExitStatus := ⟨signal % 128⟩

def code? (s : ExitStatus) : Option Nat :=
  if s.raw % 128 == 0 then some (s.raw / 256 % 256) else none

def success (s : ExitStatus) : Bool := s.code? == some 0

def signalNames : List String :=
  ["HUP", "INT", "QUIT", "ILL", "TRAP", "ABRT", "BUS", "FPE", "KILL", "USR1", "SEGV", "USR2",
    "PIPE", "ALRM", "TERM", "STKFLT", "CHLD", "CONT", "STOP", "TSTP", "TTIN", "TTOU", "URG",
    "XCPU", "XFSZ", "VTALRM", "PROF", "WINCH", "IO", "PWR", "SYS"]

def signalText (n : Nat) : String :=
  let name := match n with
    | 0 => none
    | k + 1 => signalNames[k]?
  String.ofList (Text.decimal n) ++ match name with
    | some name => " (SIG" ++ name ++ ")"
    | none => ""

def hexText (n : Nat) : String := "0x" ++ String.ofList (Nat.toDigits 16 n)

/-- The encoding as a number, which is negative if the highest bit is set. -/
def signedText (n : Nat) : String :=
  if 2 * n < Text.bound32 then String.ofList (Text.decimal n)
  else "-" ++ String.ofList (Text.decimal (Text.bound32 - n))

def display (s : ExitStatus) : String :=
  match s.code? with
  | some code => "exit status: " ++ String.ofList (Text.decimal code)
  | none =>
      if s.raw % 128 != 127 then
        "signal: " ++ signalText (s.raw % 128) ++
          if s.raw / 128 % 2 == 1 then " (core dumped)" else ""
      else if s.raw % 256 == 127 then
        "stopped (not terminated) by signal: " ++ signalText (s.raw / 256 % 256)
      else if s.raw == 0xFFFF then "continued (WIFCONTINUED)"
      else "unrecognised wait status: " ++ signedText s.raw ++ " " ++ hexText s.raw

end ExitStatus

structure ProcessOutput where
  status : ExitStatus
  stdout : String
  stderr : String
deriving DecidableEq, Repr

namespace ProcessOutput

def maxQuoted : Nat := 512

/-- One line for an error message: the last of `stderr`, cut if it is long. -/
def lastError (stderr : String) : String :=
  let last := Text.lastLine (Text.trim stderr.toList)
  if last.length > maxQuoted then String.ofList (last.take maxQuoted ++ ['.', '.', '.'])
  else String.ofList last

def shortStderr (o : ProcessOutput) : String := lastError o.stderr

end ProcessOutput

inductive ProcessFailure where
  | notStarted (reason : String)
  | unreadable (reason : String)
  | timedOut (budget : Duration)
  | cancelled
deriving DecidableEq, Repr

namespace ProcessFailure

def message : ProcessFailure → String
  | .notStarted reason => "failed to start: " ++ reason
  | .unreadable reason => "failed to read output: " ++ reason
  | .timedOut budget => "timed out after " ++ budget.display
  | .cancelled => "cancelled"

def ofTool (c : Capability) : ProcessFailure → ToolFailure
  | .notStarted reason => .notStarted c reason
  | .unreadable reason => .malformedOutput c ("failed to read tool output: " ++ reason)
  | .timedOut budget => .timedOut c budget
  | .cancelled => .cancelled c

end ProcessFailure

/-- A process to be started: its program and arguments, its directory if not that of the engine,
what it is fed, and the time it may take. -/
structure Command where
  program : Path
  args : List String
  folder : Option Path := none
  stdin : Text.Bytes := []
  budget : Duration
deriving DecidableEq, Repr

abbrev ProcessEnd := Except ProcessFailure ProcessOutput

end CodeAssist
