import CodeAssist.Proofs.Frame.RoundTrip

namespace CodeAssist.Frame

open Text

/-! Frames that break off. A line that ends with the stream is read like one that ends with a line
feed, so what is read depends on where the header breaks off. -/

variable {body cut : Bytes} {n : Nat}

theorem prefix_append_iff {α : Type} {xs ys zs : List α} :
    xs <+: ys ++ zs ↔ xs <+: ys ∨ ∃ more, xs = ys ++ more ∧ more <+: zs := by
  constructor
  · intro hxs
    obtain hfirst | ⟨more, rfl⟩ := List.prefix_or_prefix_of_prefix hxs (List.prefix_append ys zs)
    · exact .inl hfirst
    · exact .inr ⟨more, rfl, (List.prefix_append_right_inj ys).mp hxs⟩
  · rintro (hfirst | ⟨more, rfl, hmore⟩)
    · exact hfirst.trans (List.prefix_append ys zs)
    · exact (List.prefix_append_right_inj ys).mpr hmore

/-- The text of the header, without the line feed behind it. -/
def headerText (n : Nat) : List Char := headingName ++ ':' :: ' ' :: decimal n ++ ['\r']

theorem headerLine_eq_text (n : Nat) : headerLine n = (headerText n).map Char.toUInt8 ++ [lf] :=
  headerLine_eq n

section header

variable {text : List Char}

theorem isLine_text (htext : text <+: headerText n) (hne : text ≠ []) :
    IsLine (text.map Char.toUInt8) [] := by
  refine .last (by simpa using hne) fun hmem => ?_
  obtain ⟨c, hc, hlf⟩ := List.mem_map.mp hmem
  exact (mem_heading (htext.subset hc)).2 hlf

theorem encode_text (htext : text <+: headerText n) :
    text.map Char.toUInt8 = Text.encode (String.ofList text) :=
  (encode_ascii fun _ hc => (mem_heading (htext.subset hc)).1).symm

theorem length_text (hn : n ≤ 16 * 1024 * 1024) (htext : text <+: headerText n) :
    (text.map Char.toUInt8).length ≤ 1024 := by
  have hline := length_headerLine (lt_size_of_le hn)
  have hle := htext.length_le
  rw [headerLine_eq_text, List.length_append, List.length_map] at hline
  rw [List.length_map]
  omega

end header

theorem readHeader_name {name : List Char} (hn : n ≤ 16 * 1024 * 1024) (hname : name <+: headingName)
    (hne : name ≠ []) :
    readHeader (name.map Char.toUInt8) = .error (.invalidHeader (String.ofList name)) := by
  have htext : name <+: headerText n := by
    rw [headerText, List.append_assoc]
    exact hname.trans (List.prefix_append _ _)
  have hplain : ∀ c ∈ headingName, isBreak c = false ∧ c ≠ ':' := by
    have hall : headingName.all fun c => !isBreak c && c != ':' := by decide
    simpa using hall
  have hkeep : dropEndWhile isBreak name = name := by
    refine List.rdropWhile_eq_self_iff.mpr fun hne => ?_
    simp [(hplain _ (hname.subset (List.getLast_mem hne))).1]
  have hcolon : name.dropWhile (· ≠ ':') = [] := by
    rw [List.dropWhile_eq_nil_iff]
    intro c hc
    simpa using (hplain c (hname.subset hc)).2
  have hempty : name.isEmpty = false := by simpa using hne
  rw [readHeader_of_text (length_text hn htext) (encode_text htext), hkeep, readText, hempty, hcolon]
  rfl

theorem readHeader_value {value : List Char} (hn : n ≤ 16 * 1024 * 1024)
    (hvalue : value <+: ' ' :: decimal n ++ ['\r']) :
    readHeader ((headingName ++ ':' :: value).map Char.toUInt8) = readLength value := by
  have htext : headingName ++ ':' :: value <+: headerText n := by
    rw [headerText, List.append_assoc, List.prefix_append_right_inj]
    simpa using hvalue
  have hheading : Heading ((headingName ++ ':' :: value).map Char.toUInt8) headingName value :=
    ⟨length_text hn htext, encode_text htext, by decide⟩
  rw [readHeader_of_heading hheading, if_pos (by decide)]

theorem readLength_blank {value : List Char} (hvalue : value = [] ∨ value = [' ']) :
    readLength value = .error (.invalidHeader "bad Content-Length: ") := by
  obtain rfl | rfl := hvalue <;> rfl

/-- Digits that break off are the digits of a number that is not larger. -/
theorem ofDigitChars_le {digits : List Char} (hdigits : digits <+: decimal n) :
    Nat.ofDigitChars 10 digits 0 ≤ n := by
  obtain ⟨more, hmore⟩ := hdigits
  have hvalue : Nat.ofDigitChars 10 (digits ++ more) 0 = n := by
    rw [hmore]
    exact Nat.ofDigitChars_ten_toDigits
  rw [Nat.ofDigitChars_append] at hvalue
  exact Nat.le_trans (le_ofDigitChars more _) (Nat.le_of_eq hvalue)

theorem readLength_digits {digits close : List Char} (hn : n ≤ 16 * 1024 * 1024)
    (hdigits : digits <+: decimal n) (hne : digits ≠ []) (hclose : close <+: ['\r']) :
    ∃ m, readLength (' ' :: (digits ++ close)) = .ok (.length m) := by
  have hdigit (c : Char) (hc : c ∈ digits) : c.isDigit := isDigit_decimal (hdigits.subset hc)
  have hblanks (c : Char) (hc : c ∈ close) : isBlank c := by
    cases List.mem_singleton.mp (hclose.subset hc)
    rfl
  have htrim : trim (' ' :: (digits ++ close)) = digits := by
    rw [trim_cons rfl, trim_append _ hblanks,
      trim_eq_self fun c hc => isBlank_of_isDigit (hdigit c hc)]
  have hsize : Nat.ofDigitChars 10 digits 0 < UInt64.size :=
    Nat.lt_of_le_of_lt (ofDigitChars_le hdigits) (Nat.lt_of_le_of_lt hn (by decide))
  refine ⟨Nat.ofDigitChars 10 digits 0, readLength_eq_ok_iff.mpr ⟨_, rfl, ?_, hsize⟩⟩
  rw [htrim]
  exact ⟨digits, .inl rfl, hne, hdigit, rfl⟩

theorem read_text {text : List Char} (hn : n ≤ 16 * 1024 * 1024) (htext : text <+: headerText n)
    (hne : text ≠ []) :
    read (text.map Char.toUInt8) = match readHeader (text.map Char.toUInt8) with
      | .error cause => .failed cause []
      | .ok .blank => .finished
      | .ok _ => .failed .connectionClosed [] := by
  have hline := isLine_text htext hne
  have hread := read_line hline
  have hsplit := splitLine_of_isLine hline
  have hshort := length_text hn htext
  rw [List.append_nil] at hread hsplit
  have hall : behindLine (text.map Char.toUInt8) = [] := by
    rw [behindLine, hsplit, List.drop_eq_nil_iff]
    exact Nat.le_min.mpr ⟨Nat.le_refl _, Nat.le_succ_of_le hshort⟩
  rw [hread, hall]
  cases readHeader (text.map Char.toUInt8) with
  | error cause => rfl
  | ok header => cases header <;> simp [read, readHeaders]

/-- What is read of a frame of which no more than `cut` has come. In front of the digits of the
length the header itself is refused. Behind them the connection counts as closed, unless only the
last line feed of a frame without a body is missing: then the frame counts as complete. -/
def cutOutcome (body cut : Bytes) : Next :=
  if cut = [] then .finished
  else if cut.length ≤ 14 then
    .failed (.invalidHeader (String.ofList (headingName.take cut.length))) []
  else if cut.length ≤ 16 then .failed (.invalidHeader "bad Content-Length: ") []
  else if body = [] ∧ cut.length + 1 = (encode body).length then .body [] []
  else .failed .connectionClosed []

theorem length_encode (body : Bytes) :
    (encode body).length = (headerText body.length).length + 3 + body.length := by
  rw [encode_eq_lines, headerLine_eq_text]
  simp only [List.length_append, List.length_map, Break.octets, List.length_cons, List.length_nil]
  omega

theorem length_headerText (n : Nat) : (headerText n).length = 17 + (decimal n).length := by
  have hname : headingName.length = 14 := by decide
  simp only [headerText, List.length_append, List.length_cons, List.length_nil, hname]
  omega

theorem cutOutcome_closed (hlong : 16 < cut.length)
    (hlast : body = [] → cut.length + 1 ≠ (encode body).length) :
    cutOutcome body cut = .failed .connectionClosed [] := by
  have hne : cut ≠ [] := List.ne_nil_of_length_pos (by omega)
  rw [cutOutcome, if_neg hne, if_neg (by omega), if_neg (by omega),
    if_neg fun hend => hlast hend.1 hend.2]

theorem read_cut_in_name {name : List Char} (hsize : body.length ≤ 16 * 1024 * 1024)
    (hname : name <+: headingName) :
    read (name.map Char.toUInt8) = cutOutcome body (name.map Char.toUInt8) := by
  by_cases hempty : name = []
  · subst hempty
    exact read.eq_1
  · have htext : name <+: headerText body.length := by
      rw [headerText, List.append_assoc]
      exact hname.trans (List.prefix_append _ _)
    have hlength : name.length ≤ 14 := hname.length_le
    have htake : headingName.take name.length = name := (List.prefix_iff_eq_take.mp hname).symm
    rw [read_text hsize htext hempty, readHeader_name hsize hname hempty, cutOutcome,
      if_neg (by simpa using hempty), List.length_map, if_pos hlength, htake]

theorem read_cut_in_value {value : List Char} (hsize : body.length ≤ 16 * 1024 * 1024)
    (hvalue : value <+: ' ' :: decimal body.length ++ ['\r']) :
    read ((headingName ++ ':' :: value).map Char.toUInt8) =
      cutOutcome body ((headingName ++ ':' :: value).map Char.toUInt8) := by
  have htext : headingName ++ ':' :: value <+: headerText body.length := by
    rw [headerText, List.append_assoc, List.prefix_append_right_inj]
    simpa using hvalue
  have hname : headingName.length = 14 := by decide
  have hlength : ((headingName ++ ':' :: value).map Char.toUInt8).length = 15 + value.length := by
    rw [List.length_map, List.length_append, List.length_cons, hname]
    omega
  rw [read_text hsize htext (by simp), readHeader_value hsize hvalue]
  by_cases hblank : value = [] ∨ value = [' ']
  · have hshort : value.length ≤ 1 := by
      obtain rfl | rfl := hblank <;> simp
    rw [readLength_blank hblank, cutOutcome, if_neg (by simp), if_neg (by omega), if_pos (by omega)]
  · -- There is a digit, so the length is read, and nothing comes behind it.
    obtain ⟨digits, close, rfl, hdigits, hne, hclose⟩ : ∃ digits close,
        value = ' ' :: (digits ++ close) ∧ digits <+: decimal body.length ∧ digits ≠ [] ∧
          close <+: ['\r'] := by
      obtain rfl | ⟨start, rfl, hstart⟩ := List.prefix_cons_iff.mp hvalue
      · simp at hblank
      · obtain hdigits | ⟨close, rfl, hclose⟩ := prefix_append_iff.mp hstart
        · exact ⟨start, [], by simp, hdigits, by simpa using hblank, List.nil_prefix⟩
        · exact ⟨_, close, rfl, List.prefix_rfl, Nat.toDigits_ne_nil, hclose⟩
    obtain ⟨m, hread⟩ := readLength_digits hsize hdigits hne hclose
    have hpos := List.length_pos_iff.mpr hne
    have hle := htext.length_le
    rw [hread]
    refine (cutOutcome_closed ?_ fun _ => ?_).symm
    · rw [hlength, List.length_cons, List.length_append]
      omega
    · rw [length_encode, List.length_map]
      omega

theorem takeBody_short {start : Bytes} (hn : n ≤ 16 * 1024 * 1024) (hshort : start.length < n) :
    takeBody (some n) start = .failed .connectionClosed [] := by
  have hsmall : ¬n > maxBody := Nat.not_lt.mpr hn
  have hless : (start.take n).length < n := Nat.lt_of_le_of_lt (List.length_take_le' n start) hshort
  simp only [takeBody, hsmall, if_false, hless, if_true]

theorem read_cut_behind_header (hsize : body.length ≤ 16 * 1024 * 1024) {rest : Bytes}
    (hrest : rest <+: Break.crlf.octets ++ body) (hne : rest ≠ Break.crlf.octets ++ body) :
    read (headerLine body.length ++ rest) = cutOutcome body (headerLine body.length ++ rest) := by
  have hlength : (headerLine body.length ++ rest).length =
      (headerText body.length).length + 1 + rest.length := by
    rw [headerLine_eq_text, List.length_append, List.length_append, List.length_map]
    rfl
  have hlong : 16 < (headerLine body.length ++ rest).length := by
    rw [hlength, length_headerText]
    omega
  have hwhole := length_encode body
  rw [read_headerLine (lt_size_of_le hsize)]
  obtain rfl | ⟨first, rfl, hfirst⟩ := List.prefix_cons_iff.mp hrest
  case inl =>
      rw [List.length_nil] at hlength
      rw [cutOutcome_closed hlong fun _ => by omega, readHeaders]
  case inr =>
  obtain rfl | ⟨start, rfl, hstart⟩ := List.prefix_cons_iff.mp hfirst
  case inl =>
      -- The carriage return alone is a blank line already.
      have hline : IsLine [13] [] := .last (by simp) (by decide)
      have hblank : Says [13] .blank := .blank (by simp) (by simp)
      have hread : readHeaders (some body.length) [13] = takeBody (some body.length) [] := by
        have hread := readHeaders_line hline (some body.length)
        rwa [readHeader_eq_ok_iff.mpr hblank] at hread
      rw [hread]
      simp only [List.length_cons, List.length_nil] at hlength
      by_cases hbody : body = []
      · subst hbody
        rw [List.length_nil] at hlength hwhole hlong ⊢
        rw [cutOutcome, if_neg (by simp), if_neg (by omega), if_neg (by omega),
          if_pos ⟨rfl, by omega⟩]
        rfl
      · have hshort : ([] : Bytes).length < body.length := List.length_pos_iff.mpr hbody
        rw [takeBody_short hsize hshort, cutOutcome_closed hlong fun hempty => absurd hempty hbody]
  case inr =>
      have hshort : start.length < body.length := by
        refine Nat.lt_of_le_of_ne hstart.length_le fun hsame => hne ?_
        rw [hstart.eq_of_length hsame]
        rfl
      have hread : readHeaders (some body.length) (13 :: 10 :: start) =
          takeBody (some body.length) start := readHeaders_break .crlf _ start
      rw [hread, takeBody_short hsize hshort, cutOutcome_closed hlong]
      rintro rfl
      simp at hshort

/-- What is read of a frame that breaks off, wherever it does. Of the frames that break off behind
their first octet, those are taken for a closed connection that have a digit of their length, but for
the empty body whose header lacks the last line feed. -/
theorem read_cut (hsize : body.length ≤ 16 * 1024 * 1024) (hcut : cut <+: encode body)
    (hne : cut ≠ encode body) : read cut = cutOutcome body cut := by
  have hlines : encode body = (headerText body.length).map Char.toUInt8 ++
      (lf :: (Break.crlf.octets ++ body)) := by
    rw [encode_eq_lines, headerLine_eq_text, List.append_assoc]
    rfl
  have hheader {text : List Char} (htext : text <+: headerText body.length) :
      read (text.map Char.toUInt8) = cutOutcome body (text.map Char.toUInt8) := by
    rw [headerText, List.append_assoc] at htext
    obtain hname | ⟨more, rfl, hmore⟩ := prefix_append_iff.mp htext
    · exact read_cut_in_name hsize hname
    · obtain rfl | ⟨value, rfl, hvalue⟩ := List.prefix_cons_iff.mp hmore
      · rw [List.append_nil]
        exact read_cut_in_name hsize List.prefix_rfl
      · exact read_cut_in_value hsize hvalue
  rw [hlines] at hcut
  obtain hcut | ⟨more, rfl, hmore⟩ := prefix_append_iff.mp hcut
  · obtain ⟨text, htext, rfl⟩ := List.prefix_map_iff.mp hcut
    exact hheader htext
  · obtain rfl | ⟨rest, rfl, hrest⟩ := List.prefix_cons_iff.mp hmore
    · rw [List.append_nil]
      exact hheader List.prefix_rfl
    · have hline : (headerText body.length).map Char.toUInt8 ++ lf :: rest =
          headerLine body.length ++ rest := by
        rw [headerLine_eq_text, List.append_assoc]
        rfl
      rw [hline]
      refine read_cut_behind_header hsize hrest ?_
      rintro rfl
      exact hne hlines.symm

/-- A header that breaks off inside its name is refused, one that breaks off inside its digits is
not, and an empty body is delivered though its last line feed has not come. -/
theorem read_cut_header :
    let header (n : Nat) := (headerText n).map Char.toUInt8
    read ((header 0).take 6) = .failed (.invalidHeader "Conten") [] ∧
      read ((header 0).take 17) = .failed .connectionClosed [] ∧
      read (header 0 ++ [10, 13]) = .body [] [] := by
  intro header
  have hframe : encode [] = header 0 ++ [10, 13] ++ [10] := by
    rw [encode_eq_lines, headerLine_eq_text, List.append_assoc, List.append_assoc]
    rfl
  have hcut (cut : Bytes) (hcut : cut <+: header 0 ++ [10, 13]) : read cut = cutOutcome [] cut := by
    refine read_cut (by decide) (hframe ▸ hcut.trans (List.prefix_append _ _)) ?_
    rintro rfl
    have hle := hcut.length_le
    simp [hframe] at hle
  have hlength : (encode []).length = 21 := by
    rw [hframe]
    decide
  have hstart (k : Nat) : (header 0).take k <+: header 0 ++ [10, 13] :=
    (List.take_prefix k _).trans (List.prefix_append _ _)
  rw [hcut _ (hstart 6), hcut _ (hstart 17), hcut _ List.prefix_rfl]
  simp only [cutOutcome, hlength]
  decide

end CodeAssist.Frame
