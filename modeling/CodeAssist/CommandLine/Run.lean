import CodeAssist.Client
import CodeAssist.CommandLine.Arguments
import CodeAssist.Session.Basic
import CodeAssist.Text.Lowercase

namespace CodeAssist.CommandLine

/-- What a command works with: the files, the folder it is run in, the network, and how many tools
the machine runs at once. -/
structure Shell where
  tree : FileTree
  here : Location
  network : Network
  workers : Nat

/-- How a command ends: with an exit code and what it has printed; or it serves, and goes on until
it is told to stop. -/
inductive Outcome where
  | exits (code : Nat) (stdout stderr : String)
  | serves (settings : Settings)
deriving DecidableEq, Repr

def indented (first later : String) (message : String) : String :=
  first ++ message.replace "\n" ("\n" ++ later)

def numbered (n : Nat) (message : String) : String :=
  let digits := Text.decimal n
  indented (String.ofList (List.replicate (5 - digits.length) ' ' ++ digits) ++ ": ") "       "
    message

def causes : List String → String
  | [] => ""
  | [cause] => "\n\nCaused by:\n" ++ indented "    " "    " cause
  | several =>
      "\n\nCaused by:" ++
        String.join (several.zipIdx.map fun (cause, n) => "\n" ++ numbered n cause)

def report : List String → String
  | [] => ""
  | outermost :: rest => "Error: " ++ outermost ++ causes rest ++ "\n"

def fails (chain : List String) : Outcome := .exits 1 "" (report chain)

def prints (code : Nat) (line : String) : Outcome := .exits code (line ++ "\n") ""

def name : String := "pytools-engine"

def version : String := "0.1.0"

def usage : String :=
  "Usage: " ++ name ++ " [OPTIONS] <serve|ping|shutdown|request|config>"

def logLevels : List String := ["trace", "debug", "info", "warn", "error"]

def checkLogLevel (given : Option String) : Except (List String) Unit :=
  let level := Text.lower (given.getD "info")
  if logLevels.contains level then .ok () else .error ["invalid log level: " ++ level]

def makeLogFolder (shell : Shell) (folder : Option String) : Except (List String) Shell :=
  match folder with
  | none => .ok shell
  | some path =>
      match shell.tree.makePath shell.here ⟨path⟩ with
      | .ok tree => .ok { shell with tree }
      | .error cause => .error ["failed to create log directory " ++ path, cause.message]

def natOf (s : String) : Nat := (Text.readBelow? Text.bound64 s.toList).getD 0

def override (s : Settings) (option? : String → Option String) : Settings :=
  { s with
    host := (option? "host").getD s.host
    port := ((option? "port").map natOf).getD s.port
    interpreter := ((option? "interpreter").map Selection.ofText).getD s.interpreter
    kind := ((option? "kind").bind fun k => (Kind.read k).toOption).or s.kind
    root := ((option? "root").map Path.mk).getD s.root
    toolTimeoutMs := ((option? "tool-timeout-ms").map natOf).getD s.toolTimeoutMs
    maxWorkers := ((option? "max-workers").map natOf).getD s.maxWorkers
    lineLength := ((option? "line-length").map natOf).or s.lineLength }

/-- The settings of a command: the defaults, then the settings file, then the command line. -/
def loadSettings (shell : Shell) (option? : String → Option String) :
    Except SettingsError Settings := do
  let base := Settings.standard shell.workers
  let settings ← match option? "config" with
    | some path => base.ofFile shell.tree shell.here ⟨path⟩
    | none => .ok base
  let settings := override settings option?
  settings.validate
  .ok settings

def transportChain (cause : TransportFailure) : List String :=
  [(Failure.transport cause).message, cause.message] ++
    match cause with
    | .system reason => [reason]
    | _ => []

def request (shell : Shell) (address method : String) (params : Json) : Outcome :=
  match shell.network.call address method params with
  | .error cause =>
      fails ["no engine answering at " ++ address, (Failure.system cause.message).message,
        cause.message]
  | .ok (.error cause) => fails ((method ++ " request failed") :: transportChain cause)
  | .ok (.ok response) =>
      prints (if response.result?.isSome then 0 else 1) response.toJson.pretty

def readParams (given : Option String) : Except (List String) Json :=
  match given with
  | none => .ok .null
  | some text =>
      match Json.parse (Text.encode text) with
      | .ok params => .ok params
      | .error e => .error ["--params is not valid JSON", e.message]

def ping (shell : Shell) (address : String) : Outcome :=
  if shell.network.answers address then prints 0 ("engine running at " ++ address)
  else prints 1 ("no engine at " ++ address)

/-- Serves, unless an engine answers at the address already. With more workers than there can be it
breaks off. -/
def serve (shell : Shell) (settings : Settings) : Outcome :=
  if shell.network.answers settings.address then .exits 0 "" ""
  else match shell.tree.locate shell.here settings.root.text with
    | .error cause =>
        fails ["failed to canonicalize project root: " ++ settings.root.text, cause.message]
    | .ok root =>
        match shell.network.listen settings.address with
        | .error cause =>
            fails ["failed to bind " ++ settings.address, (Failure.system cause.message).message,
              cause.message]
        | .ok () =>
            if settings.maxWorkers > Pool.limit then .exits 101 "" ""
            else .serves { settings with root := ⟨FileTree.pathOf root⟩ }

def initialise (shell : Shell) (path : Path) : Outcome × Shell :=
  match (Settings.standard shell.workers).writeNew shell.tree shell.here path with
  | (.ok (), tree) =>
      (prints 0 ("✓ Wrote default settings to " ++ path.text), { shell with tree })
  | (.error e, tree) => (fails e.chain, { shell with tree })

def runConfigured (shell : Shell) (names words : List String) (option? : String → Option String) :
    Outcome :=
  match loadSettings shell option? with
  | .error e => fails e.chain
  | .ok settings =>
      match names, words with
      | ["serve"], _ => serve shell settings
      | ["shutdown"], _ => request shell settings.address "shutdown" .null
      | ["request"], [method] =>
          match readParams (option? "params") with
          | .ok params => request shell settings.address method params
          | .error chain => fails chain
      | _, _ => ping shell settings.address

def runCommand (shell : Shell) (names words : List String) (option? : String → Option String) :
    Outcome × Shell :=
  match checkLogLevel (option? "log-level") with
  | .error chain => (fails chain, shell)
  | .ok () =>
      match makeLogFolder shell (option? "log-file") with
      | .error chain => (fails chain, shell)
      | .ok shell =>
          if names = ["config", "init"] then
            initialise shell ⟨(option? "path").getD Settings.defaultFile⟩
          else (runConfigured shell names words option?, shell)

/-- Runs a command line. The exit code of one that cannot be understood is 2. -/
def run (shell : Shell) (args : List String) : Outcome × Shell :=
  match parse args with
  | .version => (prints 0 (name ++ " " ++ version), shell)
  | .help => (prints 0 usage, shell)
  | .misuse => (.exits 2 "" (usage ++ "\n"), shell)
  | .command names given words => runCommand shell names words fun option => given.lookup option

end CodeAssist.CommandLine
