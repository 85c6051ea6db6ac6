import CodeAssist.Json.Basic
import CodeAssist.Json.Shortest
import CodeAssist.Text.Utf8

namespace CodeAssist

def Number.render : Number → List Char
  | .integer (.ofNat n) => Text.decimal n
  | .integer (.negSucc n) => '-' :: Text.decimal (n + 1)
  | .double bits => Double.render bits

namespace Json

/-! Documents as text. Members are written in the order they stand in. -/

def escape (c : Char) : List Char :=
  if c == '"' then ['\\', '"']
  else if c == '\\' then ['\\', '\\']
  else if c == '\x08' then ['\\', 'b']
  else if c == '\x0c' then ['\\', 'f']
  else if c == '\n' then ['\\', 'n']
  else if c == '\r' then ['\\', 'r']
  else if c == '\t' then ['\\', 't']
  else if c.toNat < 0x20 then
    ['\\', 'u', '0', '0', (Nat.digitChar (c.toNat / 16)), (Nat.digitChar (c.toNat % 16))]
  else [c]

def renderText (s : String) : List Char :=
  '"' :: s.toList.flatMap escape ++ ['"']

mutual

def render : Json → List Char
  | .null => ['n', 'u', 'l', 'l']
  | .boolean true => ['t', 'r', 'u', 'e']
  | .boolean false => ['f', 'a', 'l', 's', 'e']
  | .number n => n.render
  | .text s => renderText s
  | .list [] => ['[', ']']
  | .list (item :: rest) => '[' :: (render item ++ renderItems rest ++ [']'])
  | .object [] => ['\x7b', '\x7d']
  | .object ((name, value) :: rest) =>
      '\x7b' :: (renderText name ++ ':' :: render value ++ renderMembers rest ++ ['\x7d'])

def renderItems : List Json → List Char
  | [] => []
  | item :: rest => ',' :: (render item ++ renderItems rest)

def renderMembers : List (String × Json) → List Char
  | [] => []
  | (name, value) :: rest =>
      ',' :: (renderText name ++ ':' :: render value ++ renderMembers rest)

end

def compact (j : Json) : String := String.ofList j.render

def encode (j : Json) : Text.Bytes := Text.encode j.compact

/-! The indented form puts each item and member on a line of its own, two blanks deeper than its
brackets. -/

def newline (depth : Nat) : List Char := '\n' :: List.replicate (2 * depth) ' '

mutual

def renderPretty (depth : Nat) : Json → List Char
  | .null => ['n', 'u', 'l', 'l']
  | .boolean true => ['t', 'r', 'u', 'e']
  | .boolean false => ['f', 'a', 'l', 's', 'e']
  | .number n => n.render
  | .text s => renderText s
  | .list [] => ['[', ']']
  | .list (item :: rest) =>
      '[' :: (newline (depth + 1) ++ renderPretty (depth + 1) item ++
        prettyItems (depth + 1) rest ++ newline depth ++ [']'])
  | .object [] => ['\x7b', '\x7d']
  | .object ((name, value) :: rest) =>
      '\x7b' :: (newline (depth + 1) ++ renderText name ++ [':', ' '] ++
        renderPretty (depth + 1) value ++ prettyMembers (depth + 1) rest ++ newline depth ++
        ['\x7d'])

def prettyItems (depth : Nat) : List Json → List Char
  | [] => []
  | item :: rest =>
      ',' :: (newline depth ++ renderPretty depth item ++ prettyItems depth rest)

def prettyMembers (depth : Nat) : List (String × Json) → List Char
  | [] => []
  | (name, value) :: rest =>
      ',' :: (newline depth ++ renderText name ++ [':', ' '] ++ renderPretty depth value ++
        prettyMembers depth rest)

end

def pretty (j : Json) : String := String.ofList (j.renderPretty 0)

end Json

end CodeAssist
