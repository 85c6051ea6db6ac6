import CodeAssist.Json.Printer
import CodeAssist.Text.Quoted

namespace CodeAssist.Json

inductive Found where
  | null
  | boolean (value : Bool)
  | number (value : Number)
  | text (value : String)
  | list
  | object
deriving DecidableEq, Repr

def found : Json → Found
  | .null => .null
  | .boolean b => .boolean b
  | .number n => .number n
  | .text s => .text s
  | .list _ => .list
  | .object _ => .object

inductive Mismatch where
  | wrongType (found : Found) (expected : String)
  | wrongValue (found : Found) (expected : String)
  | unknownChoice (given : String) (known : List String)
  | missing (field : String)
  | repeated (field : String)
  | wrongLength (length : Nat) (expected : String)
  | noneOf (union : String)
deriving DecidableEq, Repr

def ticked (s : String) : String := "`" ++ s ++ "`"

def Found.describe : Found → String
  | .null => "null"
  | .boolean b => "boolean " ++ ticked (if b then "true" else "false")
  | .number (.integer n) => "integer " ++ ticked (String.ofList (Number.integer n).render)
  | .number (.double bits) => "floating point " ++ ticked (String.ofList (Double.render bits))
  | .text s => "string " ++ Text.quoted s
  | .list => "sequence"
  | .object => "map"

def alternatives : List String → String
  | [] => "there are no variants"
  | [a] => "expected " ++ ticked a
  | [a, b] => "expected " ++ ticked a ++ " or " ++ ticked b
  | names => "expected one of " ++ String.intercalate ", " (names.map ticked)

def Mismatch.message : Mismatch → String
  | .wrongType found expected => "invalid type: " ++ found.describe ++ ", expected " ++ expected
  | .wrongValue found expected => "invalid value: " ++ found.describe ++ ", expected " ++ expected
  | .unknownChoice given known => "unknown variant " ++ ticked given ++ ", " ++ alternatives known
  | .missing field => "missing field " ++ ticked field
  | .repeated field => "duplicate field " ++ ticked field
  | .wrongLength length expected =>
      "invalid length " ++ String.ofList (Text.decimal length) ++ ", expected " ++ expected
  | .noneOf union => "no variant of enum " ++ union ++ " found in flattened data"

end CodeAssist.Json
