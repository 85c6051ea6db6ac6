import CodeAssist.Process

namespace CodeAssist

/-! Stand-in interpreters: programs whose every run is laid down beforehand. -/

inductive Job where
  | probe
  | black
  | complete
  | hover
  | lint
  | raw
deriving DecidableEq, Repr, Inhabited

namespace Job

def all : List Job := [probe, black, complete, hover, lint, raw]

def name : Job → String
  | probe => "probe"
  | black => "black"
  | complete => "complete"
  | hover => "hover"
  | lint => "lint"
  | raw => "raw"

/-- The phrase by which a program is known to do a job. -/
def phrases : List (Job × String) :=
  [(probe, "find_spec"), (black, "run_module(\"black\""), (complete, "script.complete("),
    (hover, "script.help("), (lint, "from pyflakes")]

def ofProgram (program : String) : Job :=
  match phrases.find? fun (_, phrase) => Text.occursIn phrase.toList program.toList with
  | some (job, _) => job
  | none => raw

def ofArgs : List String → Job × List String
  | "-c" :: program :: args =>
      match ofProgram program with
      | raw => (raw, "-c" :: program :: args)
      | job => (job, args)
  | args => (raw, args)

end Job

structure Behaviour where
  out : Text.Bytes := []
  err : Text.Bytes := []
  status : ExitStatus := .exited 0
  hangs : Bool := false
  echoes : Bool := false
  reads : Bool := true
deriving DecidableEq, Repr, Inhabited

/-- A stand-in: its runs per job, of which the last repeats, and how often each job was done. -/
structure StandIn where
  scripts : List (Job × List Behaviour)
  showsProgram : Bool := false
  runs : List (Job × Nat) := []
deriving DecidableEq, Repr, Inhabited

namespace StandIn

def timesRun (t : StandIn) (job : Job) : Nat := (t.runs.lookup job).getD 0

def behaviour (t : StandIn) (job : Job) : Behaviour :=
  let script := (t.scripts.lookup job).getD []
  (script[t.timesRun job]?.or script.getLast?).getD {}

def ran (t : StandIn) (job : Job) : StandIn :=
  { t with runs := (job, t.timesRun job + 1) :: t.runs }

end StandIn

structure RunRecord where
  job : Job
  args : List String
  folder : String
  stdin : Text.Bytes
  program : Option String
deriving DecidableEq, Repr

end CodeAssist
