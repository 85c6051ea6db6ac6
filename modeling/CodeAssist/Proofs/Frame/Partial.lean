import CodeAssist.Proofs.Frame.Grammar

namespace CodeAssist.Frame

open Text

/-! A stream that goes on. What is read from a stream whose next frame is not partial does not
depend on the octets that are still to come. -/

/-- What comes next on a stream when more octets have come. -/
inductive Next.Kept (more : Bytes) : Next → Next → Prop
  | body {body rest : Bytes} : Kept more (.body body rest) (.body body (rest ++ more))
  | failed {cause : TransportFailure} {rest rest' : Bytes} :
      Kept more (.failed cause rest) (.failed cause rest')

variable {line s rest more : Bytes} {length : Option Nat}

theorem IsLine.extend (h : IsLine line rest) (hends : line.getLast? = some lf) (more : Bytes) :
    IsLine line (rest ++ more) := by
  cases h with
  | ended hstart => exact .ended hstart
  | last hne hline => exact absurd (List.mem_of_getLast? hends) hline

/-- A line at the end of a stream becomes a line that is at least as long. -/
theorem IsLine.lengthen (h : IsLine line rest) (more : Bytes) :
    ∃ line' rest', IsLine line' rest' ∧ line ++ rest ++ more = line' ++ rest' ∧
      line.length ≤ line'.length := by
  cases h with
  | ended hstart => exact ⟨_, _, .ended hstart, List.append_assoc .., Nat.le_refl _⟩
  | last hne hline =>
      obtain ⟨b, tail, hcons⟩ := List.exists_cons_of_ne_nil (List.append_ne_nil_of_left_ne_nil hne more)
      have hwhole : (line ++ more).takeWhile (· != lf) = line ++ more.takeWhile (· != lf) := by
        refine List.takeWhile_append_of_pos fun c hc => ?_
        have hne : c ≠ lf := fun heq => hline (heq ▸ hc)
        simpa using hne
      refine ⟨(splitLine (line ++ more)).1, (splitLine (line ++ more)).2, ?_, ?_, ?_⟩
      · rw [hcons]
        exact isLine_splitLine b tail
      · rw [splitLine_append, List.append_nil]
      · unfold splitLine
        split <;> simp [hwhole]

theorem readHeader_of_long (hlong : maxLine < line.length) :
    readHeader line = .error (.invalidHeader
      ("header line longer than " ++ String.ofList (decimal maxLine) ++ " bytes")) := by
  rw [readHeader, if_pos hlong]

/-- A line that is not partial stays as it is, or is too long and stays so. -/
theorem line_cases (h : IsLine line rest) (hwhole : isPartialLine line = false) (more : Bytes) :
    IsLine line (rest ++ more) ∨
    ∃ line' rest' cause, IsLine line' rest' ∧ line ++ rest ++ more = line' ++ rest' ∧
      readHeader line = .error cause ∧ readHeader line' = .error cause := by
  by_cases hends : line.getLast? = some lf
  · exact .inl (h.extend hends more)
  · obtain ⟨line', rest', hline', heq, hle⟩ := h.lengthen more
    have hlong : maxLine < line.length := by simpa [isPartialLine, hends] using hwhole
    exact .inr ⟨line', rest', _, hline', heq, readHeader_of_long hlong,
      readHeader_of_long (Nat.lt_of_lt_of_le hlong hle)⟩

theorem takeBody_kept (hwhole : isPartialBody length s = false) (more : Bytes) :
    (takeBody length s).Kept more (takeBody length (s ++ more)) := by
  cases length with
  | none => exact .failed
  | some n =>
      unfold takeBody
      simp only
      split
      · exact .failed
      · rename_i hsmall
        have hn : n ≤ s.length := by
          simpa [isPartialBody, Nat.le_of_not_lt hsmall] using hwhole
        have hmore : n ≤ (s ++ more).length := by
          rw [List.length_append]
          omega
        rw [List.length_take, List.length_take, Nat.min_eq_left hn, Nat.min_eq_left hmore,
          List.take_append_of_le_length hn, List.drop_append_of_le_length hn]
        simp only [Nat.lt_irrefl, if_false]
        exact .body

/-- Whether a frame is not complete of which a line has been read. -/
def isPartialBehind (inFrame : Bool) (length : Option Nat) (rest : Bytes) :
    Except TransportFailure Header → Bool
  | .error _ => false
  | .ok .blank => if inFrame then isPartialBody length rest else isPartialFrame false none rest
  | .ok (.length n) => isPartialFrame true (some n) rest
  | .ok .other => isPartialFrame true length rest

/-- The first line of a stream whose next frame is not partial stays as it is, or is too long and
stays so. -/
theorem exists_whole_line {inFrame : Bool} (hwhole : isPartialFrame inFrame length s = false)
    (more : Bytes) :
    ∃ line rest, IsLine line rest ∧ s = line ++ rest ∧ rest.length < s.length ∧
      (IsLine line (rest ++ more) ∧
        isPartialBehind inFrame length rest (readHeader line) = false ∨
      ∃ line' rest' cause, IsLine line' rest' ∧ s ++ more = line' ++ rest' ∧
        readHeader line = .error cause ∧ readHeader line' = .error cause) := by
  cases s with
  | nil => rw [isPartialFrame] at hwhole; cases hwhole
  | cons b tail =>
      have hline := isLine_splitLine b tail
      have heq := (splitLine_append (b :: tail)).symm
      have hpartial : isPartialLine (splitLine (b :: tail)).1 = false ∧
          isPartialBehind inFrame length (splitLine (b :: tail)).2
            (readHeader (splitLine (b :: tail)).1) = false := by
        rw [isPartialFrame] at hwhole
        split at hwhole
        · cases hwhole
        · rename_i hnot
          exact ⟨by simpa using hnot, hwhole⟩
      refine ⟨_, _, hline, heq, splitLine_rest_lt b tail, ?_⟩
      obtain hsame | ⟨line', rest', cause, hline', hlonger, herrors⟩ :=
        line_cases hline hpartial.1 more
      · exact .inl ⟨hsame, hpartial.2⟩
      · exact .inr ⟨line', rest', cause, hline', heq ▸ hlonger, herrors⟩

theorem readHeaders_kept (hwhole : isPartialFrame true length s = false) (more : Bytes) :
    (readHeaders length s).Kept more (readHeaders length (s ++ more)) := by
  induction hsize : s.length using Nat.strong_induction_on generalizing s length with
  | _ size ih =>
      obtain ⟨line, rest, hline, heq, hlt, ⟨hsame, hbehind⟩ |
        ⟨line', rest', cause, hline', hlonger, herror, herror'⟩⟩ := exists_whole_line hwhole more
      · rw [heq, List.append_assoc, readHeaders_line hline, readHeaders_line hsame]
        rw [hsize] at hlt
        cases hheader : readHeader line with
        | error cause => exact .failed
        | ok header =>
            rw [hheader] at hbehind
            cases header with
            | blank => exact takeBody_kept hbehind more
            | length n => exact ih _ hlt hbehind rfl
            | other => exact ih _ hlt hbehind rfl
      · rw [hlonger, heq, readHeaders_line hline, readHeaders_line hline', herror, herror']
        exact .failed

/-- What is read from a stream whose next frame is not partial is read when more octets have come. -/
theorem read_kept (hwhole : isPartial s = false) (more : Bytes) :
    (read s).Kept more (read (s ++ more)) := by
  unfold isPartial at hwhole
  induction hsize : s.length using Nat.strong_induction_on generalizing s with
  | _ size ih =>
      obtain ⟨line, rest, hline, heq, hlt, ⟨hsame, hbehind⟩ |
        ⟨line', rest', cause, hline', hlonger, herror, herror'⟩⟩ := exists_whole_line hwhole more
      · rw [heq, List.append_assoc, read_line hline, read_line hsame]
        rw [hsize] at hlt
        cases hheader : readHeader line with
        | error cause => exact .failed
        | ok header =>
            rw [hheader] at hbehind
            cases header with
            | blank => exact ih _ hlt hbehind rfl
            | length n => exact readHeaders_kept hbehind more
            | other => exact readHeaders_kept hbehind more
      · rw [hlonger, heq, read_line hline, read_line hline', herror, herror']
        exact .failed

/-- The bodies of the first frames of a stream, and the rest of it. -/
inductive Takes : Bytes → List Bytes → Bytes → Prop
  | none (s : Bytes) : Takes s [] s
  | next {s body rest last : Bytes} {bodies : List Bytes} (hread : read s = .body body rest)
      (hlater : Takes rest bodies last) : Takes s (body :: bodies) last

theorem Takes.append {bodies : List Bytes} {body : Bytes} (h : Takes s bodies rest)
    {last : Bytes} (hread : read rest = .body body last) : Takes s (bodies ++ [body]) last := by
  induction h with
  | none s => exact .next hread (.none last)
  | next hfirst hlater ih => exact .next hfirst (ih hread)

theorem Takes.reads {bodies : List Bytes} {failure : Option TransportFailure}
    (h : Takes s bodies rest) (hends : Reads rest [] failure) : Reads s bodies failure := by
  induction h with
  | none s => exact hends
  | next hfirst hlater ih => exact .body hfirst (ih hends)

theorem Reads.kept {failure : Option TransportFailure} (h : Reads s [] failure)
    (hwhole : isPartial s = false) (more : Bytes) : Reads (s ++ more) [] failure := by
  have hkept := read_kept hwhole more
  cases h with
  | finished hread =>
      rw [hread] at hkept
      cases hkept
  | failed hread =>
      rw [hread] at hkept
      generalize hlonger : read (s ++ more) = next at hkept
      cases hkept with
      | failed => exact .failed hlonger

theorem read_body_kept {body : Bytes} (hread : read s = .body body rest)
    (hwhole : isPartial s = false) (more : Bytes) : read (s ++ more) = .body body (rest ++ more) := by
  have hkept := read_kept hwhole more
  rw [hread] at hkept
  generalize read (s ++ more) = next at hkept ⊢
  cases hkept with
  | body => rfl

end CodeAssist.Frame
