import CodeAssist.Failure
import CodeAssist.Text.Blank
import CodeAssist.Text.Utf8

namespace CodeAssist.Frame

/-! A frame is a block of header lines, an empty line, and as many octets of body as the header
`Content-Length` says. Other headers are ignored, and so are empty lines between frames. -/

open Text

def maxBody : Nat := 16 * 1024 * 1024

def maxLine : Nat := 1024

def lf : UInt8 := 10

/-- A line with its terminator, or what there is of it at the end of the stream; and the rest. -/
def splitLine (s : Bytes) : Bytes × Bytes :=
  match s.dropWhile (· != lf) with
  | [] => (s.takeWhile (· != lf), [])
  | b :: rest => (s.takeWhile (· != lf) ++ [b], rest)

theorem splitLine_append (s : Bytes) : (splitLine s).1 ++ (splitLine s).2 = s := by
  have whole := List.takeWhile_append_dropWhile (p := (· != lf)) (l := s)
  unfold splitLine
  split <;> simp_all

theorem splitLine_rest_lt (b : UInt8) (rest : Bytes) :
    (splitLine (b :: rest)).2.length < (b :: rest).length := by
  have whole := congrArg List.length (splitLine_append (b :: rest))
  have first : 0 < (splitLine (b :: rest)).1.length := by
    unfold splitLine
    split
    · next ends =>
        have both := List.takeWhile_append_dropWhile (p := (· != lf)) (l := b :: rest)
        rw [ends, List.append_nil] at both
        simp [both]
    · simp
  rw [List.length_append] at whole
  omega

inductive Header where
  | blank
  | length (n : Nat)
  | other
deriving DecidableEq, Repr

def isBreak (c : Char) : Bool := c == '\r' || c == '\n'

def readLength (value : List Char) : Except TransportFailure Header :=
  match readBelow? bound64 (trim value) with
  | some n => .ok (.length n)
  | none => .error (.invalidHeader ("bad Content-Length: " ++ String.ofList (trim value)))

def readHeader (line : Bytes) : Except TransportFailure Header :=
  if line.length > maxLine then
    .error (.invalidHeader
      ("header line longer than " ++ String.ofList (decimal maxLine) ++ " bytes"))
  else match decode? line with
    | none => .error (.invalidHeader "header is not valid UTF-8")
    | some text =>
        let header := dropEndWhile isBreak text.toList
        if header.isEmpty then .ok .blank
        else
          let name := header.takeWhile (· ≠ ':')
          match header.dropWhile (· ≠ ':') with
          | [] => .error (.invalidHeader (String.ofList header))
          | _ :: value =>
              if sameIgnoringCase (String.ofList (trim name)) "content-length" then
                readLength value
              else .ok .other

inductive Next where
  | body (body rest : Bytes)
  | finished
  | failed (cause : TransportFailure) (rest : Bytes)
deriving DecidableEq, Repr

/-- What is left behind a line that is no header. Of a line that is too long no more is read than
shows that. -/
def behindLine (s : Bytes) : Bytes := s.drop (min (splitLine s).1.length (maxLine + 1))

def takeBody (length : Option Nat) (s : Bytes) : Next :=
  match length with
  | none => .failed (.invalidHeader "missing Content-Length") s
  | some n =>
      if n > maxBody then .failed (.frameTooLarge n) s
      else
        let body := s.take n
        if body.length < n then .failed .connectionClosed [] else .body body (s.drop n)

def readHeaders (length : Option Nat) : Bytes → Next
  | [] => .failed .connectionClosed []
  | b :: tail =>
      match readHeader (splitLine (b :: tail)).1 with
      | .error cause => .failed cause (behindLine (b :: tail))
      | .ok .blank => takeBody length (splitLine (b :: tail)).2
      | .ok (.length n) => readHeaders (some n) (splitLine (b :: tail)).2
      | .ok .other => readHeaders length (splitLine (b :: tail)).2
termination_by s => s.length
decreasing_by
  all_goals exact splitLine_rest_lt ..

def read : Bytes → Next
  | [] => .finished
  | b :: tail =>
      match readHeader (splitLine (b :: tail)).1 with
      | .error cause => .failed cause (behindLine (b :: tail))
      | .ok .blank => read (splitLine (b :: tail)).2
      | .ok (.length n) => readHeaders (some n) (splitLine (b :: tail)).2
      | .ok .other => readHeaders none (splitLine (b :: tail)).2
termination_by s => s.length
decreasing_by
  exact splitLine_rest_lt ..

theorem takeBody_rest_le {length : Option Nat} {s body rest : Bytes}
    (found : takeBody length s = .body body rest) : rest.length ≤ s.length := by
  unfold takeBody at found
  split at found
  · contradiction
  · split at found
    · contradiction
    · simp only at found
      split at found
      · contradiction
      · injection found with _ rest_eq
        subst rest_eq
        simp

theorem readHeaders_rest_lt {length : Option Nat} {s body rest : Bytes}
    (found : readHeaders length s = .body body rest) : rest.length < s.length := by
  fun_induction readHeaders length s with
  | case1 => contradiction
  | case2 => contradiction
  | case3 length b tail _ =>
      exact Nat.lt_of_le_of_lt (takeBody_rest_le found) (splitLine_rest_lt b tail)
  | case4 length b tail _ _ ih => exact Nat.lt_trans (ih found) (splitLine_rest_lt b tail)
  | case5 length b tail _ ih => exact Nat.lt_trans (ih found) (splitLine_rest_lt b tail)

/-- A frame takes something off the stream, so reading all of them comes to an end. -/
theorem read_rest_lt {s body rest : Bytes} (found : read s = .body body rest) :
    rest.length < s.length := by
  fun_induction read s with
  | case1 => contradiction
  | case2 => contradiction
  | case3 b tail _ ih => exact Nat.lt_trans (ih found) (splitLine_rest_lt b tail)
  | case4 b tail _ _ =>
      exact Nat.lt_trans (readHeaders_rest_lt found) (splitLine_rest_lt b tail)
  | case5 b tail _ =>
      exact Nat.lt_trans (readHeaders_rest_lt found) (splitLine_rest_lt b tail)

/-! A stream that goes on: what comes next may depend on octets that are still to come. -/

def isPartialLine (line : Bytes) : Bool := line.getLast? ≠ some lf && line.length ≤ maxLine

def isPartialBody (length : Option Nat) (s : Bytes) : Bool :=
  length.any fun n => n ≤ maxBody && s.length < n

/-- Whether a frame, with what its headers so far say of its length, is not complete. -/
def isPartialFrame (inFrame : Bool) (length : Option Nat) : Bytes → Bool
  | [] => true
  | b :: tail =>
      if isPartialLine (splitLine (b :: tail)).1 then true
      else match readHeader (splitLine (b :: tail)).1 with
        | .error _ => false
        | .ok .blank =>
            if inFrame then isPartialBody length (splitLine (b :: tail)).2
            else isPartialFrame false none (splitLine (b :: tail)).2
        | .ok (.length n) => isPartialFrame true (some n) (splitLine (b :: tail)).2
        | .ok .other => isPartialFrame true length (splitLine (b :: tail)).2
termination_by s => s.length
decreasing_by
  all_goals exact splitLine_rest_lt ..

/-- Whether a frame can only be read when more octets have come, or the stream has ended. -/
def isPartial (s : Bytes) : Bool := isPartialFrame false none s

def encode (body : Bytes) : Bytes :=
  Text.encode ("Content-Length: " ++ String.ofList (decimal body.length) ++ "\r\n\r\n") ++ body

end CodeAssist.Frame
