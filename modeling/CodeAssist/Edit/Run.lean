namespace CodeAssist.Edit

inductive Tag where
  | equal
  | delete
  | insert
deriving DecidableEq, Repr

/-- `length` lines that are equal, deleted from the old text or inserted from the new one, and where
they stand in either text. -/
structure Run where
  tag : Tag
  old : Nat
  new : Nat
  length : Nat
deriving DecidableEq, Repr

namespace Run

def oldLength (r : Run) : Nat := if r.tag == .insert then 0 else r.length

def newLength (r : Run) : Nat := if r.tag == .delete then 0 else r.length

def oldEnd (r : Run) : Nat := r.old + r.oldLength

def newEnd (r : Run) : Nat := r.new + r.newLength

def moveUp (r : Run) (n : Nat) : Run := { r with old := r.old - n, new := r.new - n }

def moveDown (r : Run) (n : Nat) : Run := { r with old := r.old + n, new := r.new + n }

def grow (r : Run) (n : Nat) : Run := { r with length := r.length + n }

def shrink (r : Run) (n : Nat) : Run := { r with length := r.length - n }

end Run

structure Texts where
  old : Array String
  new : Array String

namespace Texts

def sameLine (t : Texts) (i j : Nat) : Bool :=
  match t.old[i]?, t.new[j]? with
  | some a, some b => a == b
  | _, _ => false

def commonFrom (t : Texts) (i j limit : Nat) : Nat :=
  go 0 limit
where
  go (count : Nat) : Nat → Nat
    | 0 => count
    | left + 1 => if t.sameLine (i + count) (j + count) then go (count + 1) left else count

def commonBefore (t : Texts) (i j limit : Nat) : Nat :=
  go 0 limit
where
  go (count : Nat) : Nat → Nat
    | 0 => count
    | left + 1 =>
        if t.sameLine (i - count - 1) (j - count - 1) then go (count + 1) left else count

end Texts

end CodeAssist.Edit
