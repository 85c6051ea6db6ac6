import CodeAssist.Proofs.Frame.Line

namespace CodeAssist.Frame

open Text

/-! Which octets are read as a frame. -/

/-- A frame at the front of a stream, line by line: blank lines, header lines of which the last that
gives a length gives that of the body, a blank line, and the body. -/
structure Layout (s body rest : Bytes) (blanks earlier : List Bytes) (header : Bytes)
    (later : List Bytes) (close : Bytes) : Prop where
  lines : Lines (blanks ++ (earlier ++ header :: later) ++ [close]) s (body ++ rest)
  blanks : ∀ line ∈ blanks, Says line .blank
  earlier : ∀ line ∈ earlier, Says line .other ∨ ∃ n, Says line (.length n)
  header : Says header (.length body.length)
  later : ∀ line ∈ later, Says line .other
  close : Says close .blank
  size : body.length ≤ 16 * 1024 * 1024

def IsFrame (s body rest : Bytes) : Prop :=
  ∃ blanks earlier header later close, Layout s body rest blanks earlier header later close

/-- What is known of the length in front of some header lines, and behind them. -/
inductive Block : Option Nat → List Bytes → Option Nat → Prop
  | none (length : Option Nat) : Block length [] length
  | length {line : Bytes} {n : Nat} {before behind : Option Nat} {lines : List Bytes}
      (hline : Says line (.length n)) (hlater : Block (some n) lines behind) :
      Block before (line :: lines) behind
  | other {line : Bytes} {before behind : Option Nat} {lines : List Bytes}
      (hline : Says line .other) (hlater : Block before lines behind) :
      Block before (line :: lines) behind

variable {line s body rest : Bytes} {length : Option Nat}

namespace Lines

theorem cons_iff {lines : List Bytes} : Lines (line :: lines) s rest ↔
    ∃ behind, s = line ++ behind ∧ IsLine line behind ∧ Lines lines behind rest := by
  constructor
  · intro h
    cases h with
    | next hline hlater => exact ⟨_, rfl, hline, hlater⟩
  · rintro ⟨behind, rfl, hline, hlater⟩
    exact .next hline hlater

theorem nil_iff : Lines [] s rest ↔ s = rest := by
  constructor
  · rintro ⟨⟩
    rfl
  · rintro rfl
    exact .none s

theorem split {b : UInt8} {tail : Bytes} {lines : List Bytes}
    (hlater : Lines lines (splitLine (b :: tail)).2 rest) :
    Lines ((splitLine (b :: tail)).1 :: lines) (b :: tail) rest :=
  cons_iff.mpr ⟨_, (splitLine_append _).symm, isLine_splitLine b tail, hlater⟩

end Lines

theorem exists_cons_of_isLine (h : IsLine line rest) : ∃ b tail, line ++ rest = b :: tail := by
  cases line with
  | nil => exact absurd rfl h.ne_nil
  | cons b tail => exact ⟨b, tail ++ rest, rfl⟩

theorem readHeaders_line (h : IsLine line rest) (length : Option Nat) :
    readHeaders length (line ++ rest) = match readHeader line with
      | .error cause => .failed cause (behindLine (line ++ rest))
      | .ok .blank => takeBody length rest
      | .ok (.length n) => readHeaders (some n) rest
      | .ok .other => readHeaders length rest := by
  obtain ⟨b, tail, heq⟩ := exists_cons_of_isLine h
  have hsplit := splitLine_of_isLine h
  have hread := readHeaders.eq_2 length b tail
  rw [← heq, hsplit] at hread
  exact hread

theorem read_line (h : IsLine line rest) :
    read (line ++ rest) = match readHeader line with
      | .error cause => .failed cause (behindLine (line ++ rest))
      | .ok .blank => read rest
      | .ok (.length n) => readHeaders (some n) rest
      | .ok .other => readHeaders none rest := by
  obtain ⟨b, tail, heq⟩ := exists_cons_of_isLine h
  have hsplit := splitLine_of_isLine h
  have hread := read.eq_2 b tail
  rw [← heq, hsplit] at hread
  exact hread

theorem takeBody_eq_body_iff : takeBody length s = .body body rest ↔
    length = some body.length ∧ s = body ++ rest ∧ body.length ≤ 16 * 1024 * 1024 := by
  constructor
  · intro htake
    unfold takeBody at htake
    split at htake
    case h_1 => cases htake
    case h_2 n =>
        split at htake
        case isTrue => cases htake
        case isFalse hsmall =>
            simp only at htake
            split at htake
            case isTrue => cases htake
            case isFalse hwhole =>
                cases htake
                have hlength : (s.take n).length = n := by
                  rw [List.length_take] at hwhole ⊢
                  omega
                rw [hlength]
                exact ⟨rfl, (List.take_append_drop n s).symm, Nat.le_of_not_lt hsmall⟩
  · rintro ⟨rfl, rfl, hsize⟩
    have hsmall : ¬body.length > maxBody := Nat.not_lt.mpr hsize
    simp [takeBody, hsmall]

theorem block_of_readHeaders (hread : readHeaders length s = .body body rest) :
    ∃ headers close, Lines (headers ++ [close]) s (body ++ rest) ∧
      Block length headers (some body.length) ∧ Says close .blank ∧
      body.length ≤ 16 * 1024 * 1024 := by
  fun_induction readHeaders length s with
  | case1 | case2 => cases hread
  | case3 length b tail hblank =>
      obtain ⟨rfl, hbehind, hsize⟩ := takeBody_eq_body_iff.mp hread
      exact ⟨[], _, .split (Lines.nil_iff.mpr hbehind), .none _, readHeader_eq_ok_iff.mp hblank,
        hsize⟩
  | case4 length b tail n hlength ih =>
      obtain ⟨headers, close, hlines, hblock, hclose, hsize⟩ := ih hread
      exact ⟨_ :: headers, close, hlines.split, .length (readHeader_eq_ok_iff.mp hlength) hblock,
        hclose, hsize⟩
  | case5 length b tail hother ih =>
      obtain ⟨headers, close, hlines, hblock, hclose, hsize⟩ := ih hread
      exact ⟨_ :: headers, close, hlines.split, .other (readHeader_eq_ok_iff.mp hother) hblock,
        hclose, hsize⟩

theorem readHeaders_of_block {headers : List Bytes} {close : Bytes} {behind : Option Nat}
    (hblock : Block length headers behind) (hbehind : behind = some body.length)
    (hlines : Lines (headers ++ [close]) s (body ++ rest)) (hclose : Says close .blank)
    (hsize : body.length ≤ 16 * 1024 * 1024) : readHeaders length s = .body body rest := by
  induction hblock generalizing s with
  | none length =>
      obtain ⟨behind, rfl, hline, hrest⟩ := Lines.cons_iff.mp hlines
      rw [Lines.nil_iff] at hrest
      rw [readHeaders_line hline, readHeader_eq_ok_iff.mpr hclose]
      exact takeBody_eq_body_iff.mpr ⟨hbehind, hrest, hsize⟩
  | length hmeans hlater ih =>
      obtain ⟨behind, rfl, hline, hrest⟩ := Lines.cons_iff.mp hlines
      rw [readHeaders_line hline, readHeader_eq_ok_iff.mpr hmeans]
      exact ih hbehind hrest
  | other hmeans hlater ih =>
      obtain ⟨behind, rfl, hline, hrest⟩ := Lines.cons_iff.mp hlines
      rw [readHeaders_line hline, readHeader_eq_ok_iff.mpr hmeans]
      exact ih hbehind hrest

theorem block_of_read (hread : read s = .body body rest) :
    ∃ blanks headers close, Lines (blanks ++ headers ++ [close]) s (body ++ rest) ∧
      (∀ line ∈ blanks, Says line .blank) ∧ Block none headers (some body.length) ∧
      Says close .blank ∧ body.length ≤ 16 * 1024 * 1024 := by
  fun_induction read s with
  | case1 | case2 => cases hread
  | case3 b tail hblank ih =>
      obtain ⟨blanks, headers, close, hlines, hblanks, hblock, hclose, hsize⟩ := ih hread
      refine ⟨(splitLine (b :: tail)).1 :: blanks, headers, close, hlines.split, ?_, hblock, hclose,
        hsize⟩
      exact List.forall_mem_cons.mpr ⟨readHeader_eq_ok_iff.mp hblank, hblanks⟩
  | case4 b tail n hlength =>
      obtain ⟨headers, close, hlines, hblock, hclose, hsize⟩ := block_of_readHeaders hread
      exact ⟨[], _ :: headers, close, hlines.split, List.forall_mem_nil _,
        .length (readHeader_eq_ok_iff.mp hlength) hblock, hclose, hsize⟩
  | case5 b tail hother =>
      obtain ⟨headers, close, hlines, hblock, hclose, hsize⟩ := block_of_readHeaders hread
      exact ⟨[], _ :: headers, close, hlines.split, List.forall_mem_nil _,
        .other (readHeader_eq_ok_iff.mp hother) hblock, hclose, hsize⟩

theorem read_of_block {blanks headers : List Bytes} {close : Bytes}
    (hlines : Lines (blanks ++ headers ++ [close]) s (body ++ rest))
    (hblanks : ∀ line ∈ blanks, Says line .blank) (hblock : Block none headers (some body.length))
    (hclose : Says close .blank) (hsize : body.length ≤ 16 * 1024 * 1024) :
    read s = .body body rest := by
  induction blanks generalizing s with
  | nil =>
      cases hblock with
      | length hmeans hlater =>
          obtain ⟨behind, rfl, hline, hrest⟩ := Lines.cons_iff.mp hlines
          rw [read_line hline, readHeader_eq_ok_iff.mpr hmeans]
          exact readHeaders_of_block hlater rfl hrest hclose hsize
      | other hmeans hlater =>
          obtain ⟨behind, rfl, hline, hrest⟩ := Lines.cons_iff.mp hlines
          rw [read_line hline, readHeader_eq_ok_iff.mpr hmeans]
          exact readHeaders_of_block hlater rfl hrest hclose hsize
  | cons line blanks ih =>
      obtain ⟨hblank, hlater⟩ := List.forall_mem_cons.mp hblanks
      obtain ⟨behind, rfl, hline, hrest⟩ := Lines.cons_iff.mp hlines
      rw [read_line hline, readHeader_eq_ok_iff.mpr hblank]
      exact ih hrest hlater

theorem readHeaders_ne_finished : readHeaders length s ≠ .finished := by
  have htake (length : Option Nat) (s : Bytes) : takeBody length s ≠ .finished := by
    unfold takeBody
    split
    · simp
    · split
      · simp
      · simp only
        split <;> simp
  fun_induction readHeaders length s with
  | case1 | case2 => simp
  | case3 => exact htake _ _
  | case4 length b tail n hlength ih => exact ih
  | case5 length b tail hother ih => exact ih

theorem read_eq_finished_iff : read s = .finished ↔
    ∃ blanks, Lines blanks s [] ∧ ∀ line ∈ blanks, Says line .blank := by
  constructor
  · intro hread
    fun_induction read s with
    | case1 => exact ⟨[], .none [], List.forall_mem_nil _⟩
    | case2 => cases hread
    | case3 b tail hblank ih =>
        obtain ⟨blanks, hlines, hblanks⟩ := ih hread
        exact ⟨_, hlines.split,
          List.forall_mem_cons.mpr ⟨readHeader_eq_ok_iff.mp hblank, hblanks⟩⟩
    | case4 | case5 => exact absurd hread readHeaders_ne_finished
  · rintro ⟨blanks, hlines, hblanks⟩
    induction blanks generalizing s with
    | nil =>
        rw [Lines.nil_iff.mp hlines, read]
    | cons line blanks ih =>
        obtain ⟨hblank, hlater⟩ := List.forall_mem_cons.mp hblanks
        obtain ⟨behind, rfl, hline, hrest⟩ := Lines.cons_iff.mp hlines
        rw [read_line hline, readHeader_eq_ok_iff.mpr hblank]
        exact ih hrest hlater

theorem block_of_others {before : Option Nat} {later : List Bytes}
    (hlater : ∀ line ∈ later, Says line .other) : Block before later before := by
  induction later with
  | nil => exact .none before
  | cons line later ih =>
      obtain ⟨hline, hlater⟩ := List.forall_mem_cons.mp hlater
      exact .other hline (ih hlater)

theorem block_append_cons {before : Option Nat} {earlier later : List Bytes} {header : Bytes} {n : Nat}
    (hearlier : ∀ line ∈ earlier, Says line .other ∨ ∃ n, Says line (.length n))
    (hheader : Says header (.length n)) (hlater : ∀ line ∈ later, Says line .other) :
    Block before (earlier ++ header :: later) (some n) := by
  induction earlier generalizing before with
  | nil => exact .length hheader (block_of_others hlater)
  | cons line earlier ih =>
      obtain ⟨hother | ⟨m, hlength⟩, hearlier⟩ := List.forall_mem_cons.mp hearlier
      · exact .other hother (ih hearlier)
      · exact .length hlength (ih hearlier)

theorem Block.last {before behind : Option Nat} {headers : List Bytes}
    (hblock : Block before headers behind) :
    (behind = before ∧ ∀ line ∈ headers, Says line .other) ∨
    ∃ earlier header later n, headers = earlier ++ header :: later ∧ behind = some n ∧
      (∀ line ∈ earlier, Says line .other ∨ ∃ n, Says line (.length n)) ∧
      Says header (.length n) ∧ ∀ line ∈ later, Says line .other := by
  induction hblock with
  | none length => exact .inl ⟨rfl, List.forall_mem_nil _⟩
  | length hmeans hlater ih =>
      obtain ⟨rfl, hothers⟩ | ⟨earlier, header, later, n, rfl, hn, hearlier, hheader, hothers⟩ := ih
      · exact .inr ⟨[], _, _, _, rfl, rfl, List.forall_mem_nil _, hmeans, hothers⟩
      · exact .inr ⟨_ :: earlier, header, later, n, rfl, hn,
          List.forall_mem_cons.mpr ⟨.inr ⟨_, hmeans⟩, hearlier⟩, hheader, hothers⟩
  | other hmeans hlater ih =>
      obtain ⟨rfl, hothers⟩ | ⟨earlier, header, later, n, rfl, hn, hearlier, hheader, hothers⟩ := ih
      · exact .inl ⟨rfl, List.forall_mem_cons.mpr ⟨hmeans, hothers⟩⟩
      · exact .inr ⟨_ :: earlier, header, later, n, rfl, hn,
          List.forall_mem_cons.mpr ⟨.inl hmeans, hearlier⟩, hheader, hothers⟩

theorem read_eq_body_iff : read s = .body body rest ↔ IsFrame s body rest := by
  constructor
  · intro hread
    obtain ⟨blanks, headers, close, hlines, hblanks, hblock, hclose, hsize⟩ := block_of_read hread
    obtain ⟨hnone, _⟩ | ⟨earlier, header, later, n, rfl, hn, hearlier, hheader, hlater⟩ :=
      hblock.last
    · cases hnone
    · cases hn
      exact ⟨blanks, earlier, header, later, close,
        ⟨hlines, hblanks, hearlier, hheader, hlater, hclose, hsize⟩⟩
  · rintro ⟨blanks, earlier, header, later, close, h⟩
    exact read_of_block h.lines h.blanks (block_append_cons h.earlier h.header h.later) h.close h.size

/-- What comes of reading a stream to its end: the bodies of its frames, and the failure behind
which no more can be read. -/
inductive Reads : Bytes → List Bytes → Option TransportFailure → Prop
  | body {s body rest : Bytes} {bodies : List Bytes} {failure : Option TransportFailure}
      (hread : read s = .body body rest) (hlater : Reads rest bodies failure) :
      Reads s (body :: bodies) failure
  | finished {s : Bytes} (hread : read s = .finished) : Reads s [] none
  | failed {s rest : Bytes} {cause : TransportFailure} (hread : read s = .failed cause rest) :
      Reads s [] (some cause)

theorem exists_reads (s : Bytes) :
    ∃ bodies failure, Reads s bodies failure ∧ bodies.length ≤ s.length := by
  induction hlength : s.length using Nat.strong_induction_on generalizing s with
  | _ size ih =>
      cases hread : read s with
      | finished => exact ⟨[], none, .finished hread, Nat.zero_le _⟩
      | failed cause rest => exact ⟨[], some cause, .failed hread, Nat.zero_le _⟩
      | body body rest =>
          have hlt : rest.length < size := hlength ▸ read_rest_lt hread
          obtain ⟨bodies, failure, hreads, hle⟩ := ih rest.length hlt rest rfl
          refine ⟨body :: bodies, failure, .body hread hreads, ?_⟩
          rw [List.length_cons]
          omega

/-- A frame is read exactly where the grammar has one, and the end of the stream exactly where there
are only blank lines. Every frame that is read takes something off the stream, so that all frames of
a stream are read after finitely many steps. -/
theorem read_iff_layout (s : Bytes) :
    (∀ body rest, read s = .body body rest ↔ IsFrame s body rest) ∧
    (read s = .finished ↔ ∃ blanks, Lines blanks s [] ∧ ∀ line ∈ blanks, Says line .blank) ∧
    (∀ body rest, read s = .body body rest → rest.length < s.length) ∧
    ∃ bodies failure, Reads s bodies failure ∧ bodies.length ≤ s.length :=
  ⟨fun _ _ => read_eq_body_iff, read_eq_finished_iff, fun _ _ => read_rest_lt, exists_reads s⟩

end CodeAssist.Frame
