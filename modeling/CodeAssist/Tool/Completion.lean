import CodeAssist.Json.Scan
import CodeAssist.Path

namespace CodeAssist

open Json (Shape Fields)

structure CompletionItem where
  label : String
  kind : String
  signature : Option String
deriving DecidableEq, Repr

namespace CompletionItem

abbrev shape : Shape :=
  .record "CompletionItem" (.required "label" .string (.required "kind" .string
    (.defaulted "signature" (.optional .string) .nil)))

def ofValue (value : shape.Value) : CompletionItem :=
  let (label, kind, signature, ()) := value
  { label, kind, signature := signature.join }

/-- A signature that is not known is not written. -/
def toJson (i : CompletionItem) : Json :=
  .ofMembers ([("label", .text i.label), ("kind", .text i.kind)] ++
    i.signature.toList.map (fun s => ("signature", .text s)))

end CompletionItem

/-- Where a name is defined. What is built in has no file. -/
structure Site where
  path : Option Path
  line : Nat
  column : Nat
deriving DecidableEq, Repr

namespace Site

abbrev shape : Shape :=
  .record "Location" (.required "path" (.optional .path) (.required "line" (.unsigned .usize)
    (.required "column" (.unsigned .usize) .nil)))

def ofValue (value : shape.Value) : Site :=
  let (path, line, column, ()) := value
  { path := path.map Path.mk, line, column }

def toJson (s : Site) : Json :=
  .ofMembers [("path", match s.path with | some p => .text p.text | none => .null),
    ("line", .ofNat s.line), ("column", .ofNat s.column)]

end Site

structure HoverInfo where
  name : String
  kind : String
  signature : Option String
  docstring : String
  definition : Option Site
deriving DecidableEq, Repr

namespace HoverInfo

abbrev shape : Shape :=
  .record "HoverInfo" (.required "name" .string (.required "kind" .string
    (.defaulted "signature" (.optional .string) (.defaulted "docstring" .string
    (.defaulted "definition" (.optional Site.shape) .nil)))))

def ofValue (value : shape.Value) : HoverInfo :=
  let (name, kind, signature, docstring, definition, ()) := value
  { name, kind, signature := signature.join, docstring := docstring.getD ""
    definition := definition.join.map Site.ofValue }

def toJson (h : HoverInfo) : Json :=
  .ofMembers ([("name", .text h.name), ("kind", .text h.kind)] ++
    h.signature.toList.map (fun s => ("signature", .text s)) ++
    [("docstring", .text h.docstring),
      ("definition", match h.definition with | some s => s.toJson | none => .null)])

end HoverInfo

end CodeAssist
