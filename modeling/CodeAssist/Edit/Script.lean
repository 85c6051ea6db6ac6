import CodeAssist.Edit.Snake

namespace CodeAssist.Edit

def runIf (tag : Tag) (old new length : Nat) : List Run :=
  if length > 0 then [⟨tag, old, new, length⟩] else []

/-- Runs for the lines of a box: what agrees at both ends is equal, and the rest is cut at its
middle. Each cut makes the boxes smaller, so `fuel` need not pass the number of lines. -/
def conquer (t : Texts) : Nat → Box → List Run
  | 0, b =>
      runIf .delete b.oldFrom b.newFrom b.height ++ runIf .insert b.oldTo b.newFrom b.width
  | fuel + 1, b =>
      let front := t.commonFrom b.oldFrom b.newFrom (min b.height b.width)
      let inner : Box := { b with oldFrom := b.oldFrom + front, newFrom := b.newFrom + front }
      let back := t.commonBefore inner.oldTo inner.newTo (min inner.height inner.width)
      let core : Box := { inner with oldTo := inner.oldTo - back, newTo := inner.newTo - back }
      let between :=
        if core.height == 0 && core.width == 0 then []
        else if core.width == 0 then [⟨.delete, core.oldFrom, core.newFrom, core.height⟩]
        else if core.height == 0 then [⟨.insert, core.oldFrom, core.newFrom, core.width⟩]
        else match middle? t core with
          | some (old, new) =>
              conquer t fuel { core with oldTo := old, newTo := new } ++
                conquer t fuel { core with oldFrom := old, newFrom := new }
          | none =>
              [⟨.delete, core.oldFrom, core.newFrom, core.height⟩,
                ⟨.insert, core.oldFrom, core.newFrom, core.width⟩]
      runIf .equal b.oldFrom b.newFrom front ++ between ++ runIf .equal core.oldTo core.newTo back

/-! Compaction moves each change up and then down past its neighbours as far as it goes, so that
changes meet and merge. -/

/-- A run among its neighbours; those before it stand nearest first. -/
structure Focus where
  before : List Run
  this : Run
  after : List Run

def putEqualAfter (after : List Run) (old new n : Nat) : List Run :=
  match after with
  | next :: rest =>
      if next.tag == .equal then (next.moveUp n).grow n :: rest
      else ⟨.equal, old, new, n⟩ :: after
  | [] => [⟨.equal, old, new, n⟩]

def putEqualBefore (before : List Run) (old new n : Nat) : List Run :=
  match before with
  | prev :: rest =>
      if prev.tag == .equal then prev.grow n :: rest else ⟨.equal, old, new, n⟩ :: before
  | [] => [⟨.equal, old, new, n⟩]

def stepUp (t : Texts) (f : Focus) : Option Focus :=
  match f.before with
  | [] => none
  | prev :: rest =>
      if prev.tag == .equal then
        let n := t.commonBefore prev.oldEnd f.this.newEnd (min prev.oldLength f.this.newLength)
        if n > 0 then
          let after := putEqualAfter f.after (prev.oldEnd - n) (f.this.newEnd - n) n
          let prev := prev.shrink n
          some ⟨if prev.length == 0 then rest else prev :: rest, f.this.moveUp n, after⟩
        else if prev.length == 0 then some { f with before := rest }
        else none
      else if prev.tag == f.this.tag then some ⟨rest, prev.grow f.this.length, f.after⟩
      else some ⟨rest, f.this, prev :: f.after⟩

def stepDown (t : Texts) (f : Focus) : Option Focus :=
  match f.after with
  | [] => none
  | next :: rest =>
      if next.tag == .equal then
        let n := t.commonFrom next.old f.this.new (min next.oldLength f.this.newLength)
        if n > 0 then
          let before := putEqualBefore f.before next.old f.this.new n
          let next := (next.moveDown n).shrink n
          some ⟨before, f.this.moveDown n, if next.length == 0 then rest else next :: rest⟩
        else if next.length == 0 then some { f with after := rest }
        else none
      else if next.tag == f.this.tag then some ⟨f.before, f.this.grow next.length, rest⟩
      else some ⟨next :: f.before, f.this, rest⟩

def repeatStep (step : Focus → Option Focus) : Nat → Focus → Focus
  | 0, f => f
  | fuel + 1, f =>
      match step f with
      | some f => repeatStep step fuel f
      | none => f

def settle (t : Texts) (tag : Tag) (fuel : Nat) : Nat → List Run → List Run → List Run
  | 0, before, after => before.reverse ++ after
  | _, before, [] => before.reverse
  | left + 1, before, this :: after =>
      if this.tag == tag then
        let f := repeatStep (stepUp t) fuel ⟨before, this, after⟩
        let f := repeatStep (stepDown t) fuel f
        settle t tag fuel left (f.this :: f.before) f.after
      else settle t tag fuel left (this :: before) after

def compact (t : Texts) (runs : List Run) : List Run :=
  let size := runs.length + t.old.size + t.new.size + 2
  let deletes := settle t .delete size (size * size) [] runs
  settle t .insert size (size * size) [] deletes

/-! Between equal lines there is one change: the deleted lines are replaced by the inserted ones. -/

structure Block where
  changed : Bool
  old : Nat
  oldLength : Nat
  new : Nat
  newLength : Nat
deriving DecidableEq, Repr

structure Gathered where
  done : List Block := []
  equal : Option Run := none
  delete : Option Run := none
  insert : Option Run := none

namespace Gathered

def flushEqual (g : Gathered) : Gathered :=
  match g.equal with
  | some r => { g with equal := none, done := ⟨false, r.old, r.length, r.new, r.length⟩ :: g.done }
  | none => g

def flushChange (g : Gathered) : Gathered :=
  let block? : Option Block := match g.delete, g.insert with
    | some d, some i => some ⟨true, d.old, d.length, i.new, i.length⟩
    | some d, none => some ⟨true, d.old, d.length, d.new, 0⟩
    | none, some i => some ⟨true, i.old, 0, i.new, i.length⟩
    | none, none => none
  { g with delete := none, insert := none, done := block?.toList ++ g.done }

def join (met : Option Run) (r : Run) : Option Run :=
  match met with
  | some first => some (first.grow r.length)
  | none => some r

def add (g : Gathered) (r : Run) : Gathered :=
  match r.tag with
  | .equal => let g := g.flushChange; { g with equal := join g.equal r }
  | .delete => let g := g.flushEqual; { g with delete := join g.delete r }
  | .insert => let g := g.flushEqual; { g with insert := join g.insert r }

def finish (g : Gathered) : List Block := g.flushEqual.flushChange.done.reverse

end Gathered

def blocks (runs : List Run) : List Block := (runs.foldl Gathered.add {}).finish

def script (t : Texts) : List Block :=
  let whole : Box := ⟨0, t.old.size, 0, t.new.size⟩
  blocks (compact t (conquer t (t.old.size + t.new.size + 1) whole))

end CodeAssist.Edit
