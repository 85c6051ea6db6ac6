import CodeAssist.Edit.Script
import CodeAssist.Json.Basic
import CodeAssist.Text.Lines

namespace CodeAssist

/-- Replaces the lines `startLine ..< endLine`, counted from 1, by `replacement`, which brings its
own line ends. An empty range is an insertion before `startLine`. -/
structure LineEdit where
  startLine : Nat
  endLine : Nat
  replacement : String
deriving DecidableEq, Repr

namespace LineEdit

def concat (lines : List String) : String := String.join lines

def linesOf (s : String) : List String := (Text.splitAtBreaks s.toList).map String.ofList

/-- Appends the edit of one block; one that touches the last edit joins it. -/
def addBlock (newLines : Array String) (edits : List LineEdit) (b : Edit.Block) :
    List LineEdit :=
  if !b.changed then edits
  else
    let replacement := concat (newLines.extract b.new (b.new + b.newLength)).toList
    let edit : LineEdit := ⟨b.old + 1, b.old + b.oldLength + 1, replacement⟩
    match edits with
    | last :: rest =>
        if last.endLine == edit.startLine then
          { last with endLine := edit.endLine, replacement := last.replacement ++ replacement }
            :: rest
        else edit :: edits
    | [] => [edit]

def ofBlocks (newLines : Array String) (blocks : List Edit.Block) : List LineEdit :=
  (blocks.foldl (addBlock newLines) []).reverse

def between (old new : String) : List LineEdit :=
  let texts : Edit.Texts := ⟨(linesOf old).toArray, (linesOf new).toArray⟩
  ofBlocks texts.new (Edit.script texts)

def toJson (e : LineEdit) : Json :=
  .ofMembers [("startLine", .ofNat e.startLine), ("endLine", .ofNat e.endLine),
    ("replacement", .text e.replacement)]

end LineEdit

structure Formatted where
  text : String
  edits : List LineEdit
deriving DecidableEq, Repr

def Formatted.of (old text : String) : Formatted := ⟨text, LineEdit.between old text⟩

def Formatted.toJson (f : Formatted) : Json :=
  .ofMembers [("text", .text f.text), ("edits", .list (f.edits.map LineEdit.toJson))]

end CodeAssist
