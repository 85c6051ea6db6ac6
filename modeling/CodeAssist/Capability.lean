namespace CodeAssist

inductive Capability where
  | completion
  | hover
  | format
  | diagnostics
deriving DecidableEq, Repr, Inhabited

namespace Capability

/-- Every capability, in the order in which answers list them. -/
def all : List Capability := [completion, hover, format, diagnostics]

def name : Capability → String
  | completion => "completion"
  | hover => "hover"
  | format => "format"
  | diagnostics => "diagnostics"

def package : Capability → String
  | completion => "jedi"
  | hover => "jedi"
  | format => "black"
  | diagnostics => "pyflakes"

def ofName? (s : String) : Option Capability := all.find? (·.name == s)

def packages : List String :=
  ((all.map package).eraseDups).mergeSort (· ≤ ·)

/-- The capabilities whose package an interpreter reports as importable. Of several reports on one
package the last counts. -/
def ofReport (report : List (String × Bool)) : List Capability :=
  all.filter fun c => (report.reverse.lookup c.package).getD false

end Capability

end CodeAssist
