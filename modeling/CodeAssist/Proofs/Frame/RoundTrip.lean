import CodeAssist.Proofs.Frame.Grammar

namespace CodeAssist.Frame

open Text

/-! Frames that are written and read again. -/

inductive Break where
  | crlf
  | lf
deriving DecidableEq, Repr

def Break.octets : Break → Bytes
  | .crlf => [13, 10]
  | .lf => [10]

def breaks (empty : List Break) : Bytes := empty.flatMap Break.octets

/-- A stream of frames, with empty lines in front of each and behind all. -/
def stream (frames : List (List Break × Bytes)) (behind : List Break) : Bytes :=
  frames.flatMap (fun (before, body) => breaks before ++ encode body) ++ breaks behind

theorem Break.isLine (empty : Break) (rest : Bytes) : IsLine empty.octets rest := by
  cases empty with
  | crlf =>
      have hstart : (10 : UInt8) ∉ [13] := by decide
      exact .ended hstart
  | lf => exact .ended List.not_mem_nil

theorem Break.isBlank (empty : Break) : Says empty.octets .blank := by
  cases empty with
  | crlf => exact .blank (by decide) (by simp [octets])
  | lf => exact .blank (by decide) (by simp [octets])

theorem read_breaks (empty : List Break) (s : Bytes) : read (breaks empty ++ s) = read s := by
  induction empty with
  | nil => rfl
  | cons first empty ih =>
      rw [breaks, List.flatMap_cons, List.append_assoc, read_line (first.isLine _),
        readHeader_eq_ok_iff.mpr first.isBlank]
      exact ih

def headingName : List Char := "Content-Length".toList

def headingValue (n : Nat) : List Char := ' ' :: (decimal n ++ ['\r', '\n'])

def headerLine (n : Nat) : Bytes :=
  Text.encode (String.ofList (headingName ++ ':' :: headingValue n))

theorem encode_eq_lines (body : Bytes) :
    encode body = headerLine body.length ++ (Break.crlf.octets ++ body) := by
  have htext : "Content-Length: " ++ String.ofList (decimal body.length) ++ "\r\n\r\n" =
      String.ofList (headingName ++ ':' :: headingValue body.length) ++ String.ofList ['\r', '\n'] := by
    have hname : "Content-Length: ".toList = headingName ++ [':', ' '] := by decide
    have hend : "\r\n\r\n".toList = ['\r', '\n', '\r', '\n'] := by decide
    apply String.toList_injective
    simp only [String.toList_append, String.toList_ofList, hname, hend, headingValue]
    simp
  have hbreak : Text.encode (String.ofList ['\r', '\n']) = Break.crlf.octets :=
    encode_breaks (by simp [isBreak])
  unfold encode headerLine
  rw [htext, encode_append, hbreak, List.append_assoc]

theorem isDigit_decimal {n : Nat} {c : Char} (hc : c ∈ decimal n) : c.isDigit :=
  Nat.isDigit_of_mem_toDigits (by decide) (by decide) hc

theorem trim_headingValue (n : Nat) : trim (headingValue n) = decimal n := by
  have hbreak : ∀ c ∈ ['\r', '\n'], isBlank c := List.all_eq_true.mp rfl
  rw [headingValue, trim_cons rfl, trim_append _ hbreak,
    trim_eq_self fun c hc => isBlank_of_isDigit (isDigit_decimal hc)]

theorem mem_heading {n : Nat} {c : Char}
    (hc : c ∈ headingName ++ ':' :: ' ' :: decimal n ++ ['\r']) : isAscii c ∧ c.toUInt8 ≠ lf := by
  have hfixed : (headingName ++ [':', ' ', '\r']).all fun c => isAscii c && c.toUInt8 != lf := by
    decide
  have hcases : c ∈ headingName ++ [':', ' ', '\r'] ∨ c ∈ decimal n := by
    simp only [List.mem_append, List.mem_cons] at hc ⊢
    tauto
  obtain hmem | hdigit := hcases
  · simpa using List.all_eq_true.mp hfixed c hmem
  · have hrange := toNat_of_isDigit (isDigit_decimal hdigit)
    refine ⟨decide_eq_true (by omega), fun heq => ?_⟩
    have hnat : c.toNat % 256 = 10 := congrArg UInt8.toNat heq
    omega

theorem headerLine_eq (n : Nat) :
    headerLine n = (headingName ++ ':' :: ' ' :: decimal n ++ ['\r']).map Char.toUInt8 ++ [lf] := by
  have hlast : headingName ++ ':' :: headingValue n =
      (headingName ++ ':' :: ' ' :: decimal n ++ ['\r']) ++ ['\n'] := by
    simp [headingValue]
  have hascii : ∀ c ∈ headingName ++ ':' :: headingValue n, isAscii c := by
    rw [hlast]
    intro c hc
    obtain hmem | hmem := List.mem_append.mp hc
    · exact (mem_heading hmem).1
    · cases List.mem_singleton.mp hmem
      rfl
  rw [headerLine, encode_ascii hascii, hlast, List.map_append]
  rfl

theorem isLine_headerLine (n : Nat) (rest : Bytes) : IsLine (headerLine n) rest := by
  rw [headerLine_eq]
  refine .ended fun hmem => ?_
  obtain ⟨c, hc, hlf⟩ := List.mem_map.mp hmem
  exact (mem_heading hc).2 hlf

theorem length_headerLine {n : Nat} (hn : n < UInt64.size) : (headerLine n).length ≤ 1024 := by
  have hdigits : (decimal n).length ≤ 20 :=
    (Nat.length_toDigits_le_iff (by decide) (by decide)).mpr (Nat.lt_trans hn (by decide))
  have hname : headingName.length = 14 := by decide
  rw [headerLine_eq, List.length_append, List.length_map]
  simp only [List.length_append, List.length_cons, List.length_nil, hname]
  omega

theorem headerLine_means_length {n : Nat} (hn : n < UInt64.size) :
    Says (headerLine n) (.length n) := by
  refine .length ⟨length_headerLine hn, rfl, by decide⟩ (by decide) ?_ hn
  rw [trim_headingValue]
  exact isNumeral_decimal n

theorem read_headerLine {n : Nat} (hn : n < UInt64.size) (rest : Bytes) :
    read (headerLine n ++ rest) = readHeaders (some n) rest := by
  rw [read_line (isLine_headerLine n rest), readHeader_eq_ok_iff.mpr (headerLine_means_length hn)]

theorem readHeaders_break (empty : Break) (length : Option Nat) (s : Bytes) :
    readHeaders length (empty.octets ++ s) = takeBody length s := by
  rw [readHeaders_line (empty.isLine s), readHeader_eq_ok_iff.mpr empty.isBlank]

/-- As long as its length is a number of 64 bits, the header of a frame is understood. -/
theorem read_encode_eq {body : Bytes} (hbody : body.length < UInt64.size) (rest : Bytes) :
    read (encode body ++ rest) = takeBody (some body.length) (body ++ rest) := by
  rw [encode_eq_lines, List.append_assoc, List.append_assoc, read_headerLine hbody,
    readHeaders_break]

theorem lt_size_of_le {n : Nat} (hn : n ≤ 16 * 1024 * 1024) : n < UInt64.size :=
  Nat.lt_of_le_of_lt hn (by decide)

theorem read_encode {body : Bytes} (hbody : body.length ≤ 16 * 1024 * 1024) (rest : Bytes) :
    read (encode body ++ rest) = .body body rest := by
  rw [read_encode_eq (lt_size_of_le hbody)]
  exact takeBody_eq_body_iff.mpr ⟨rfl, rfl, hbody⟩

/-- Frames that were written one after the other, with empty lines anywhere in front of, between and
behind them, are read as they were, and then the stream ends. Reading a frame takes the empty lines
in front of it and the frame itself, whatever octets are behind it. -/
theorem reads_stream (frames : List (List Break × Bytes)) (behind : List Break)
    (hsize : ∀ frame ∈ frames, frame.2.length ≤ 16 * 1024 * 1024) :
    Reads (stream frames behind) (frames.map Prod.snd) none ∧
    ∀ frame ∈ frames, ∀ rest,
      read (breaks frame.1 ++ encode frame.2 ++ rest) = .body frame.2 rest := by
  have hread (frame : List Break × Bytes) (hframe : frame ∈ frames) (rest : Bytes) :
      read (breaks frame.1 ++ encode frame.2 ++ rest) = .body frame.2 rest := by
    rw [List.append_assoc, read_breaks]
    exact read_encode (hsize frame hframe) rest
  refine ⟨?_, hread⟩
  clear hsize
  induction frames with
  | nil =>
      refine .finished ?_
      have hend := read_breaks behind []
      rw [List.append_nil, read] at hend
      exact hend
  | cons frame frames ih =>
      obtain ⟨hfirst, hlater⟩ := List.forall_mem_cons.mp hread
      refine .body ?_ (ih hlater)
      rw [stream, List.flatMap_cons, List.append_assoc]
      exact hfirst _

/-- A body that looks like a header, and an empty one behind it. -/
theorem reads_stream_lookalike :
    let header := "Content-Length: 2\r\n\r\n".toList.map Char.toUInt8
    let frames := [([.crlf, .lf], header), ([.lf], [])]
    (∀ frame ∈ frames, frame.2.length ≤ 16 * 1024 * 1024) ∧
      Reads (stream frames [.lf]) [header, []] none := by
  intro header frames
  have hsize : ∀ frame ∈ frames, frame.2.length ≤ 16 * 1024 * 1024 := by decide
  exact ⟨hsize, (reads_stream frames [.lf] hsize).1⟩

end CodeAssist.Frame
