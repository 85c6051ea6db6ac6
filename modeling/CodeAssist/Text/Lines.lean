import CodeAssist.Text.Blank

namespace CodeAssist.Text

/-! Two ways to cut a text into lines. -/

/-- Lines that end at LF only, each with its terminator. -/
def splitAtLf (s : List Char) : List (List Char) :=
  go [] [] s
where
  go (done : List (List Char)) (line : List Char) : List Char → List (List Char)
    | [] => (if line.isEmpty then done else line.reverse :: done).reverse
    | '\n' :: rest => go (('\n' :: line).reverse :: done) [] rest
    | c :: rest => go done (c :: line) rest

/-- Lines that end at LF, CR LF or a lone CR, each with its terminator. -/
def splitAtBreaks (s : List Char) : List (List Char) :=
  go [] [] s
where
  go (done : List (List Char)) (line : List Char) : List Char → List (List Char)
    | [] => (if line.isEmpty then done else line.reverse :: done).reverse
    | '\r' :: '\n' :: rest => go (('\n' :: '\r' :: line).reverse :: done) [] rest
    | c :: rest =>
        if c == '\r' || c == '\n' then go ((c :: line).reverse :: done) [] rest
        else go done (c :: line) rest

def withoutLf (line : List Char) : List Char :=
  match line.reverse with
  | '\n' :: '\r' :: rest => rest.reverse
  | '\n' :: rest => rest.reverse
  | _ => line

def lines (s : List Char) : List (List Char) :=
  (splitAtLf s).map withoutLf

def lastLine (s : List Char) : List Char :=
  (lines s).getLast?.getD []

end CodeAssist.Text
