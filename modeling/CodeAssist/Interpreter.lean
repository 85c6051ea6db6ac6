import CodeAssist.Capability
import CodeAssist.Path

namespace CodeAssist

inductive Kind where
  | system
  | conda
  | venv
deriving DecidableEq, Repr, Inhabited

namespace Kind

def all : List Kind := [system, conda, venv]

def name : Kind → String
  | system => "system"
  | conda => "conda"
  | venv => "venv"

def names : List String := all.map name

def ofChoice (choice : Fin names.length) : Kind := all.get (choice.cast (by simp [names]))

def read (s : String) : Except String Kind :=
  match all.find? (·.name == Text.lowerAscii s) with
  | some kind => .ok kind
  | none => .error ("unknown environment kind: " ++ Text.lowerAscii s)

end Kind

inductive Selection where
  | auto
  | path (path : Path)
deriving DecidableEq, Repr, Inhabited

namespace Selection

/-- The empty text and `auto`, in any ASCII case, ask for detection. -/
def ofText (s : String) : Selection :=
  if s == "" || Text.sameIgnoringCase s "auto" then .auto else .path ⟨s⟩

def text : Selection → String
  | .auto => "auto"
  | .path p => p.text

def same : Selection → Selection → Bool
  | .auto, .auto => true
  | .path p, .path q => p.same q
  | _, _ => false

end Selection

structure Interpreter where
  path : Path
  kind : Kind
  capabilities : List Capability
deriving DecidableEq, Repr, Inhabited

def Interpreter.supports (i : Interpreter) (c : Capability) : Bool := i.capabilities.contains c

end CodeAssist
