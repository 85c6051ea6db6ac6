import CodeAssist.Host.FileTree

namespace CodeAssist

/-- A machine that programs are started on: its files, the folder the engine runs in, and the runs
of stand-ins so far, latest first. -/
structure Host where
  tree : FileTree
  here : Location
  runs : List RunRecord := []
deriving Repr

/-- What starting a program leads to. One that ends by itself leaves its output. -/
inductive Launch where
  | refused (cause : SystemError)
  | ends (output : ProcessOutput)
  | hangs
deriving DecidableEq, Repr

def Launch.result (launch : Launch) (budget : Duration) : ProcessEnd :=
  match launch with
  | .refused cause => .error (.notStarted cause.message)
  | .ends output => if budget.nanos = 0 then .error (.timedOut budget) else .ok output
  | .hangs => .error (.timedOut budget)

namespace Host

def view (h : Host) : FileView := h.tree.view h.here

def folderOf (h : Host) (folder : Option Path) : Except SystemError Location :=
  match folder with
  | none => .ok h.here
  | some path =>
      match h.tree.lookup h.here path.text with
      | .error cause => .error cause
      | .ok (loc, .folder _) => .ok loc
      | .ok _ => .error .notFolder

/-- The file to run. A bare name is looked for elsewhere, and nothing is found there. -/
def executable (h : Host) (folder : Location) (program : Path) :
    Except SystemError (Location × File) :=
  if !program.text.contains '/' then
    .error (if program.text.utf8ByteSize > 255 then .nameTooLong else .notFound)
  else match h.tree.lookup folder program.text with
    | .error cause => .error cause
    | .ok (loc, .file file) =>
        if file.mode &&& 0o111 = 0 then .error .permissionDenied else .ok (loc, file)
    | .ok _ => .error .permissionDenied

def argumentSize (s : String) : Nat := s.utf8ByteSize + 1

def maxArgument : Nat := 131072

/-- The most octets of all arguments, with eight more for each. -/
def maxArguments : Nat := 2097152

def fits (c : Command) : Bool :=
  let sizes := (c.program.text :: c.args).map argumentSize
  sizes.all (· ≤ maxArgument) && sizes.foldr (· + 8 + ·) 0 ≤ maxArguments

def output (b : Behaviour) (stdin : Text.Bytes) : ProcessOutput where
  status := b.status
  stdout := Text.decodeLossy (if b.echoes then stdin else b.out)
  stderr := Text.decodeLossy b.err

def runStandIn (h : Host) (loc : Location) (file : File) (tool : StandIn) (folder : Location)
    (c : Command) : Launch × Host :=
  let (job, args) := Job.ofArgs c.args
  let b := tool.behaviour job
  let stdin := if b.reads then c.stdin else []
  let record : RunRecord :=
    { job, args, folder := FileTree.pathOf folder, stdin
      program := match tool.showsProgram, c.args with
        | true, "-c" :: program :: _ => some program
        | _, _ => none }
  (if b.hangs then .hangs else .ends (output b stdin),
    { h with
      tree := h.tree.put loc (.file { file with program := .standIn (tool.ran job) })
      runs := record :: h.runs })

def launch (h : Host) (c : Command) : Launch × Host :=
  if (c.program.text :: c.args ++ c.folder.toList.map (·.text)).any (·.contains '\x00') then
    (.refused .nulInCommand, h)
  else match h.folderOf c.folder with
    | .error cause => (.refused cause, h)
    | .ok folder =>
        match h.executable folder c.program with
        | .error cause => (.refused cause, h)
        | .ok (loc, file) =>
            if !fits c then (.refused .argumentsTooLong, h)
            else match file.program with
              | .text => (.refused .notProgram, h)
              | .broken => (.refused .notFound, h)
              | .standIn tool => h.runStandIn loc file tool folder c

def run (h : Host) (c : Command) (cancelled : Bool) : ProcessEnd × Host :=
  match h.launch c with
  | (.refused cause, h) => (.error (.notStarted cause.message), h)
  | (launch, h) => (if cancelled then .error .cancelled else launch.result c.budget, h)

end Host

end CodeAssist
