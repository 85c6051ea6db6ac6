import CodeAssist.Host.StandIn
import CodeAssist.Host.SystemError

namespace CodeAssist

inductive Program where
  | text
  | broken
  | standIn (tool : StandIn)
deriving DecidableEq, Repr

structure File where
  content : Text.Bytes := []
  mode : Nat := 0o644
  program : Program := .text
deriving DecidableEq, Repr

inductive Entry where
  | folder (mode : Nat)
  | file (file : File)
  | link (target : String)
deriving DecidableEq, Repr

/-- A place in a file tree: the names from the root down. -/
abbrev Location := List String

/-- Files, folders and links. The root is always there. -/
structure FileTree where
  entries : List (Location × Entry) := []
deriving Repr

namespace FileTree

def entry? (t : FileTree) (loc : Location) : Option Entry :=
  if loc.isEmpty then some (.folder 0o755) else t.entries.lookup loc

def put (t : FileTree) (loc : Location) (e : Entry) : FileTree :=
  ⟨(loc, e) :: t.entries.filter (·.1 ≠ loc)⟩

def remove (t : FileTree) (loc : Location) : FileTree :=
  ⟨t.entries.filter fun (other, _) => !loc.isPrefixOf other⟩

def isFolderAt (t : FileTree) (loc : Location) : Bool :=
  match t.entry? loc with
  | some (.folder _) => true
  | _ => false

/-- Where a path leads: to an entry, or to a free name in a folder. -/
inductive Place where
  | taken (loc : Location) (entry : Entry)
  | free (loc : Location)
deriving DecidableEq, Repr

def maxLinks : Nat := 40

/-- The steps of a path. A slash at the end asks for a folder, as `.` does. -/
def steps (path : String) : List String :=
  let pieces := (path.splitOn "/").filter (· ≠ "")
  if path.endsWith "/" then pieces ++ ["."] else pieces

/-- Follows the steps from a folder. A link at the very end is followed only if `last` says so. -/
def walk (t : FileTree) (last : Bool) (links : Nat) (loc : Location) (todo : List String) :
    Except SystemError Place :=
  match todo with
  | [] =>
      match t.entry? loc with
      | some entry => .ok (.taken loc entry)
      | none => .error .notFound
  | step :: rest =>
      if !t.isFolderAt loc then .error .notFolder
      else if step == "." then walk t last links loc rest
      else if step == ".." then walk t last links loc.dropLast rest
      else if step.utf8ByteSize > 255 then .error .nameTooLong
      else
        let next := loc ++ [step]
        match t.entry? next with
        | none => if rest.isEmpty then .ok (.free next) else .error .notFound
        | some (.link target) =>
            if rest.isEmpty && !last then .ok (.taken next (.link target))
            else match links with
              | 0 => .error .tooManyLinks
              | links + 1 =>
                  if target == "" then .error .notFound
                  else
                    let start := if target.startsWith "/" then [] else loc
                    walk t last links start (steps target ++ rest)
        | some _ => walk t last links next rest
termination_by (links, todo.length)

/-- The place that a path names, seen from the folder `here`, however long the path is. -/
def trace (t : FileTree) (here : Location) (path : String) (last : Bool) :
    Except SystemError Place :=
  if path.contains '\x00' then .error .nulInPath
  else if path == "" then .error .notFound
  else walk t last maxLinks (if path.startsWith "/" then [] else here) (steps path)

def maxPath : Nat := 4095

def find (t : FileTree) (here : Location) (path : String) (last : Bool) :
    Except SystemError Place :=
  if !path.contains '\x00' && path.utf8ByteSize > maxPath then .error .nameTooLong
  else t.trace here path last

def lookup (t : FileTree) (here : Location) (path : String) :
    Except SystemError (Location × Entry) := do
  match ← t.find here path true with
  | .taken loc entry => .ok (loc, entry)
  | .free _ => .error .notFound

def locate (t : FileTree) (here : Location) (path : String) : Except SystemError Location := do
  match ← t.trace here path true with
  | .taken loc _ => .ok loc
  | .free _ => .error .notFound

def has (t : FileTree) (here : Location) (path : String) : Bool :=
  (t.lookup here path).isOk

def pathOf (loc : Location) : String := "/" ++ String.intercalate "/" loc

def readText (t : FileTree) (here : Location) (path : String) : Except SystemError String := do
  match ← t.lookup here path with
  | (_, .file file) =>
      match Text.decode? file.content with
      | some s => .ok s
      | none => .error .notUtf8
  | _ => .error .isFolder

/-- Makes a file of the given content, or fills an existing one anew. The tree belongs to whoever
writes and has room for all of it: no permission is missing, and no write ends halfway. -/
def write (t : FileTree) (here : Location) (path : String) (content : Text.Bytes) :
    Except SystemError FileTree := do
  match ← t.find here path true with
  | .taken loc (.file file) => .ok (t.put loc (.file { file with content, program := .text }))
  | .taken _ _ => .error .isFolder
  | .free loc => .ok (t.put loc (.file { content }))

def dropSlashes (path : String) : String :=
  let bare := String.ofList (Text.dropEndWhile (· == '/') path.toList)
  if bare == "" then path else bare

/-- The place that a new name has in its folder. Slashes at its end count for its length only. -/
def findNew (t : FileTree) (here : Location) (path : String) : Except SystemError Place :=
  if !path.contains '\x00' && path.utf8ByteSize > maxPath then .error .nameTooLong
  else t.trace here (dropSlashes path) false

/-- Gives a file another name, over what has that name unless it is a folder. A new name with a
slash at its end can only be that of a folder. All names lie on one disk, in folders of whoever
renames. -/
def rename (t : FileTree) (here : Location) (old new : String) : Except SystemError FileTree := do
  match ← t.find here old false with
  | .free _ => .error .notFound
  | .taken source entry =>
      match ← t.findNew here new with
      | .taken target (.folder _) =>
          if new.endsWith "/" && target != source then .error .notFolder else .error .isFolder
      | .taken target _ =>
          if new.endsWith "/" then .error .notFolder
          else if target == source then .ok t
          else .ok ((t.remove source).put target entry)
      | .free target =>
          if new.endsWith "/" then .error .notFolder
          else .ok ((t.remove source).put target entry)

def makeFolders (t : FileTree) : Location → FileTree
  | loc => (List.range' 1 loc.length).foldl (fun t n =>
      let part := loc.take n
      if (t.entry? part).isSome then t else t.put part (.folder 0o755)) t

/-- Makes a folder in one that exists. Nothing may have its name, not even a link. -/
def makeFolder (t : FileTree) (here : Location) (path : String) : Except SystemError FileTree := do
  match ← t.findNew here path with
  | .taken _ _ => .error .exists
  | .free loc => .ok (t.put loc (.folder 0o755))

def ensureFolder (t : FileTree) (here : Location) (path : String) :
    Except SystemError FileTree :=
  match t.makeFolder here path with
  | .error .exists =>
      match t.lookup here path with
      | .ok (_, .folder _) => .ok t
      | _ => .error .exists
  | result => result

/-- Makes the first of the folders in the last of them that is missing, and so on down. -/
def ensureFolders (t : FileTree) (here : Location) : List Path → Except SystemError FileTree
  | [] => .ok t
  | path :: above =>
      match t.ensureFolder here path.text with
      | .error .notFound => do (← t.ensureFolders here above).ensureFolder here path.text
      | result => result

def makePath (t : FileTree) (here : Location) (path : Path) : Except SystemError FileTree :=
  t.ensureFolders here path.lineage

def namesIn (t : FileTree) (loc : Location) : List String :=
  t.entries.filterMap fun (other, _) =>
    match other.getLast? with
    | some name => if other.dropLast == loc then some name else none
    | none => none

/-- Every file below a folder, also through links, with its place there. A link that leads nowhere
counts as an empty file, and one back to a folder on the way is not followed. -/
def filesBelow (t : FileTree) (loc : Location) : List (Location × File) :=
  go maxLinks [loc] loc
where
  go : Nat → List Location → Location → List (Location × File)
    | 0, _, _ => []
    | links + 1, way, loc =>
        t.entries.flatMap fun (other, entry) =>
          let name := other.drop loc.length
          if !loc.isPrefixOf other then []
          else match entry with
            | .folder _ => []
            | .file file => [(name, file)]
            | .link _ =>
                match t.walk true maxLinks [] other with
                | .ok (.taken target (.folder _)) =>
                    if way.contains target then []
                    else (go links (target :: way) target).map fun (below, file) =>
                      (name ++ below, file)
                | .ok (.taken _ (.file file)) => [(name, file)]
                | _ => [(name, {})]

end FileTree

structure FileStat where
  isFile : Bool
  isFolder : Bool
  executable : Bool
deriving DecidableEq, Repr

/-- A file system as the engine sees it at one moment, through links. -/
structure FileView where
  stat? : Path → Option FileStat
  names? : Path → Option (List String)

namespace FileView

def isFile (v : FileView) (p : Path) : Bool := (v.stat? p).any (·.isFile)

def isFolder (v : FileView) (p : Path) : Bool := (v.stat? p).any (·.isFolder)

end FileView

def Entry.stat : Entry → FileStat
  | .folder mode => ⟨false, true, mode &&& 0o111 != 0⟩
  | .file f => ⟨true, false, f.mode &&& 0o111 != 0⟩
  | .link _ => ⟨false, false, false⟩

def FileTree.view (t : FileTree) (here : Location) : FileView where
  stat? p := match t.lookup here p.text with
    | .ok (_, entry) => some entry.stat
    | .error _ => none
  names? p := match t.lookup here p.text with
    | .ok (loc, .folder _) => some (t.namesIn loc)
    | _ => none

end CodeAssist
