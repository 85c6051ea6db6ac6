import CodeAssist.CommandLine.Run

/-! The command line. A command works on a copy of the files it names, and what it changes there is
then written. No engine can be reached from here, and none is kept running. -/

namespace CodeAssist.Main

open CommandLine

def exists? (path : String) : IO Bool :=
  try
    discard <| IO.FS.realPath path
    return true
  catch _ => return false

def entry? (path : String) : IO (Option Entry) := do
  if ← exists? (path ++ "/.") then return some (.folder 0o755)
  if !(← exists? path) then return none
  try
    let content ← IO.FS.readBinFile path
    return some (.file { content := content.toList })
  catch _ => return some (.file {})

def copyWay (tree : FileTree) (loc : Location) : IO FileTree :=
  (List.range' 1 loc.length).foldlM (fun tree n => do
    match ← entry? (FileTree.pathOf (loc.take n)) with
    | some entry => return tree.put (loc.take n) entry
    | none => return tree) tree

def placeOf (here : Location) (path : String) : Location :=
  (FileTree.steps path).foldl (fun loc step =>
    if step == "." then loc
    else if step == ".." then loc.dropLast
    else loc ++ [step]) (if path.startsWith "/" then [] else here)

def pathsOf (args : List String) : List String :=
  match parse args with
  | .command _ given _ =>
      let paths := (given.filter fun (name, _) =>
        ["config", "root", "path", "log-file"].contains name).map (·.2)
      let targets := Settings.defaultFile :: paths
      targets ++ targets.map fun p => (Settings.temporaryFile ⟨p⟩).text
  | .version | .help | .misuse => []

def copyPaths (shell : Shell) (paths : List String) : IO Shell := do
  let tree ← paths.foldlM (fun tree path => copyWay tree (placeOf shell.here path)) shell.tree
  return { shell with tree }

def rootOf (shell : Shell) (args : List String) : List String :=
  match parse args with
  | .command _ given _ =>
      match loadSettings shell fun option => given.lookup option with
      | .ok settings => [settings.root.text]
      | .error _ => []
  | .version | .help | .misuse => []

/-- Writes what differs, and removes the files that are gone. -/
def writeBack (before after : FileTree) : IO Unit := do
  for (loc, entry) in before.entries do
    match entry, after.entry? loc with
    | .file _, none => IO.FS.removeFile (FileTree.pathOf loc)
    | _, _ => pure ()
  for (loc, entry) in after.entries do
    if before.entry? loc != some entry then
      match entry with
      | .folder _ => IO.FS.createDirAll (FileTree.pathOf loc)
      | .file file => IO.FS.writeBinFile (FileTree.pathOf loc) ⟨file.content.toArray⟩
      | .link _ => pure ()

def run (args : List String) : IO UInt32 := do
  let here := FileTree.steps (← IO.currentDir).toString
  let tree ← copyWay {} here
  let shell ← copyPaths { tree, here, network := .unreachable, workers := 4 } (pathsOf args)
  let shell ← copyPaths shell (rootOf shell args)
  let (outcome, after) := CommandLine.run shell args
  writeBack shell.tree after.tree
  match outcome with
  | .exits code stdout stderr =>
      IO.print stdout
      IO.eprint stderr
      return UInt32.ofNat code
  | .serves settings =>
      IO.eprint (report ["failed to serve at " ++ settings.address])
      return 1

end CodeAssist.Main

def main (args : List String) : IO UInt32 := CodeAssist.Main.run args
