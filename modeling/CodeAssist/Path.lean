import CodeAssist.Text.Blank

namespace CodeAssist

/-- A path keeps the text it was written with. -/
structure Path where
  text : String
deriving DecidableEq, Repr, Inhabited

namespace Path

inductive Component where
  | root
  | here
  | up
  | entry (name : String)
deriving DecidableEq, Repr

/-! Two paths name the same file for every table of the engine when their components agree:
repeated and trailing slashes do not count, nor does `.` other than in front. -/

def pieces (p : Path) : List String :=
  (p.text.splitOn "/").filter (· ≠ "")

def isAbsolute (p : Path) : Bool := p.text.startsWith "/"

def component (piece : String) : Option Component :=
  if piece == "." then none
  else if piece == ".." then some .up
  else some (.entry piece)

def components (p : Path) : List Component :=
  if p.isAbsolute then .root :: p.pieces.filterMap component
  else match p.pieces with
    | "." :: rest => .here :: rest.filterMap component
    | pieces => pieces.filterMap component

def same (p q : Path) : Bool := p.components == q.components

/-- Whether `p` lies at or under `q`, by components. -/
def startsWith (p q : Path) : Bool := q.components.isPrefixOf p.components

/-- `p` followed by `next`; an absolute `next` takes the place of `p`. -/
def join (p : Path) (next : String) : Path :=
  if next.startsWith "/" || p.text == "" then ⟨next⟩
  else if p.text.endsWith "/" then ⟨p.text ++ next⟩
  else ⟨p.text ++ "/" ++ next⟩

def Component.text : Component → String
  | .root => ""
  | .here => "."
  | .up => ".."
  | .entry name => name

def ofComponents : List Component → Path
  | [.root] => ⟨"/"⟩
  | cs => ⟨String.intercalate "/" (cs.map Component.text)⟩

/-- The path without its last component. The root and the empty path have no parent. -/
def parent? (p : Path) : Option Path :=
  match p.components.getLast? with
  | none => none
  | some .root => none
  | some _ => some (ofComponents p.components.dropLast)

/-- The path and those above it, without the root or the folder that the path starts from. -/
def lineage (p : Path) : List Path :=
  let parts := p.components
  let lengths := (List.range' 1 parts.length).filter fun n => parts.take n != [.root]
  match lengths.reverse with
  | [] => []
  | _ :: shorter => p :: shorter.map fun n => ofComponents (parts.take n)

def fileName? (p : Path) : Option String :=
  match p.components.getLast? with
  | some (.entry name) => some name
  | _ => none

/-- Cuts a file name at its last dot, unless that dot comes first. -/
def splitName (name : List Char) : List Char × Option (List Char) :=
  let after := (name.reverse.takeWhile (· ≠ '.')).reverse
  let before := name.take (name.length - after.length - 1)
  if after.length == name.length || before.isEmpty then (name, none)
  else (before, some after)

def extension? (p : Path) : Option String :=
  p.fileName?.bind fun name => (splitName name.toList).2.map String.ofList

def dropTail : List Char → List Char
  | '/' :: rest => dropTail rest
  | '.' :: '/' :: rest => dropTail rest
  | text => text

/-- The path with the extension of its file name replaced. A path that ends in no file name stays
as it is. -/
def withExtension (p : Path) (extension : String) : Path :=
  match p.fileName? with
  | none => p
  | some name =>
      let front := (dropTail p.text.toList.reverse).reverse
      let folder := front.take (front.length - name.length)
      ⟨String.ofList (folder ++ (splitName name.toList).1 ++ '.' :: extension.toList)⟩

end Path

end CodeAssist
