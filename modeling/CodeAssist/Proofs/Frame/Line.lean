import CodeAssist.Frame
import CodeAssist.Proofs.Text

namespace CodeAssist.Frame

open Text

/-! The lines of a stream. -/

/-- The first line of a stream, and what is behind it: a line goes up to and including the next line
feed, or up to the end. -/
inductive IsLine : Bytes → Bytes → Prop
  | ended {start rest : Bytes} (hstart : lf ∉ start) : IsLine (start ++ [lf]) rest
  | last {line : Bytes} (hne : line ≠ []) (hline : lf ∉ line) : IsLine line []

/-- A stream is some lines, and then the rest. -/
inductive Lines : List Bytes → Bytes → Bytes → Prop
  | none (s : Bytes) : Lines [] s s
  | next {line s rest : Bytes} {lines : List Bytes} (hline : IsLine line s)
      (hlater : Lines lines s rest) : Lines (line :: lines) (line ++ s) rest

variable {line s rest : Bytes}

theorem IsLine.ne_nil (h : IsLine line rest) : line ≠ [] := by
  cases h with
  | ended => simp
  | last hne => exact hne

theorem splitLine_of_isLine (h : IsLine line rest) : splitLine (line ++ rest) = (line, rest) := by
  have hbefore {start : Bytes} (hstart : lf ∉ start) : ∀ b ∈ start, (b != lf) = true := by
    intro b hb
    have hne : b ≠ lf := fun heq => hstart (heq ▸ hb)
    simpa using hne
  unfold splitLine
  cases h with
  | ended hstart =>
      rw [List.append_assoc, List.dropWhile_append_of_pos (hbefore hstart),
        List.takeWhile_append_of_pos (hbefore hstart)]
      simp
  | last hne hline =>
      rw [List.append_nil, List.dropWhile_eq_nil_iff.mpr (hbefore hline),
        List.takeWhile_eq_self_iff.mpr (hbefore hline)]

theorem isLine_splitLine (b : UInt8) (tail : Bytes) :
    IsLine (splitLine (b :: tail)).1 (splitLine (b :: tail)).2 := by
  have hbefore : lf ∉ (b :: tail).takeWhile (· != lf) := by
    intro hmem
    simpa using List.mem_takeWhile_imp hmem
  unfold splitLine
  split
  case h_1 hnone =>
      refine .last ?_ hbefore
      have hall := List.takeWhile_append_dropWhile (p := (· != lf)) (l := b :: tail)
      rw [hnone, List.append_nil] at hall
      rw [hall]
      simp
  case h_2 c rest hfound =>
      have hc : c = lf := by
        have hhead := List.head_dropWhile_not (p := (· != lf)) (l := b :: tail) (by simp [hfound])
        simpa [hfound] using hhead
      rw [hc]
      exact .ended hbefore

/-- A line with a colon: the text in front of the first one, and the text behind it. -/
structure Heading (line : Bytes) (name value : List Char) : Prop where
  short : line.length ≤ 1024
  text : line = Text.encode (String.ofList (name ++ ':' :: value))
  first : ':' ∉ name

def namesLength (name : List Char) : Bool :=
  sameIgnoringCase (String.ofList (trim name)) "content-length"

/-- What the lines in front of a body are to say. -/
inductive Says (line : Bytes) : Header → Prop
  | blank (hshort : line.length ≤ 1024) (hbreaks : ∀ b ∈ line, b = 13 ∨ b = 10) : Says line .blank
  | length {name value : List Char} {n : Nat} (hheading : Heading line name value)
      (hname : namesLength name) (hvalue : IsNumeral (trim value) n) (hn : n < UInt64.size) :
      Says line (.length n)
  | other {name value : List Char} (hheading : Heading line name value)
      (hname : ¬namesLength name) : Says line .other

theorem isBlank_of_isBreak {c : Char} (hbreak : isBreak c) : isBlank c := by
  simp only [isBreak, Bool.or_eq_true, beq_iff_eq] at hbreak
  obtain rfl | rfl := hbreak <;> rfl

theorem encode_breaks {cs : List Char} (hbreaks : ∀ c ∈ cs, isBreak c) :
    Text.encode (String.ofList cs) = cs.map Char.toUInt8 := by
  apply encode_ascii
  intro c hc
  have hbreak := hbreaks c hc
  simp only [isBreak, Bool.or_eq_true, beq_iff_eq] at hbreak
  obtain rfl | rfl := hbreak <;> rfl

theorem exists_breaks (hoctets : ∀ b ∈ line, b = 13 ∨ b = 10) :
    ∃ cs, (∀ c ∈ cs, isBreak c) ∧ line = Text.encode (String.ofList cs) := by
  have hbreaks : ∀ c ∈ line.map fun b => Char.ofNat b.toNat, isBreak c := by
    intro c hc
    obtain ⟨b, hb, rfl⟩ := List.mem_map.mp hc
    obtain rfl | rfl := hoctets b hb <;> rfl
  refine ⟨_, hbreaks, ?_⟩
  rw [encode_breaks hbreaks, List.map_map, List.map_congr_left (g := id) ?_, List.map_id]
  intro b hb
  obtain rfl | rfl := hoctets b hb <;> rfl

theorem breaks_iff (cs : List Char) :
    (∀ c ∈ cs, isBreak c) ↔ ∀ b ∈ Text.encode (String.ofList cs), b = 13 ∨ b = 10 := by
  constructor
  · intro hbreaks b hb
    rw [encode_breaks hbreaks] at hb
    obtain ⟨c, hc, rfl⟩ := List.mem_map.mp hb
    have hbreak := hbreaks c hc
    simp only [isBreak, Bool.or_eq_true, beq_iff_eq] at hbreak
    obtain rfl | rfl := hbreak
    · exact .inl rfl
    · exact .inr rfl
  · -- Octets that are breaks have a text of breaks, and no other.
    intro hoctets
    obtain ⟨ds, hbreaks, hsame⟩ := exists_breaks hoctets
    rw [String.ofList_injective (encode_injective hsame)]
    exact hbreaks

theorem readLength_eq (value : List Char) {breaks : List Char} (hbreaks : ∀ c ∈ breaks, isBreak c) :
    readLength (value ++ breaks) = readLength value := by
  unfold readLength
  rw [trim_append value fun c hc => isBlank_of_isBreak (hbreaks c hc)]

theorem readLength_eq_ok_iff {value : List Char} {h : Header} :
    readLength value = .ok h ↔
      ∃ n, h = .length n ∧ IsNumeral (trim value) n ∧ n < UInt64.size := by
  have hread (n : Nat) :
      readBelow? bound64 (trim value) = some n ↔ IsNumeral (trim value) n ∧ n < UInt64.size :=
    readBelow?_eq_some_iff
  unfold readLength
  constructor
  · intro hok
    split at hok
    · rename_i n hn
      cases hok
      exact ⟨n, rfl, (hread n).mp hn⟩
    · cases hok
  · rintro ⟨n, rfl, hvalue⟩
    rw [(hread n).mpr hvalue]

/-- What the text of a line says, once the line break is taken off. -/
def readText (header : List Char) : Except TransportFailure Header :=
  if header.isEmpty then .ok .blank
  else match header.dropWhile (· ≠ ':') with
    | [] => .error (.invalidHeader (String.ofList header))
    | _ :: value =>
        if namesLength (header.takeWhile (· ≠ ':')) then readLength value else .ok .other

theorem readHeader_of_text (hshort : line.length ≤ 1024) {text : List Char}
    (htext : line = Text.encode (String.ofList text)) :
    readHeader line = readText (dropEndWhile isBreak text) := by
  have hlong : ¬line.length > maxLine := Nat.not_lt.mpr hshort
  unfold readHeader
  rw [if_neg hlong, decode?_eq_some_iff.mpr htext]
  simp only [String.toList_ofList]
  rfl

theorem exists_text_of_readHeader {h : Header} (hok : readHeader line = .ok h) :
    line.length ≤ 1024 ∧ ∃ text, line = Text.encode (String.ofList text) := by
  unfold readHeader at hok
  split at hok
  case isTrue => cases hok
  case isFalse hlong =>
      refine ⟨Nat.le_of_not_lt hlong, ?_⟩
      cases htext : decode? line with
      | none => simp [htext] at hok
      | some text =>
          refine ⟨text.toList, ?_⟩
          rw [String.ofList_toList]
          exact decode?_eq_some_iff.mp htext

theorem readText_append_cons {name : List Char} (hname : ':' ∉ name) (value : List Char) :
    readText (name ++ ':' :: value) = if namesLength name then readLength value else .ok .other := by
  have hbefore : ∀ c ∈ name, decide (c ≠ ':') = true := by
    intro c hc
    have hne : c ≠ ':' := fun heq => hname (heq ▸ hc)
    simpa using hne
  have hempty : (name ++ ':' :: value).isEmpty = false := by simp
  unfold readText
  rw [hempty, List.dropWhile_append_of_pos hbefore, List.takeWhile_append_of_pos hbefore]
  simp

theorem readText_sound {header : List Char} {h : Header} (hok : readText header = .ok h) :
    header = [] ∧ h = .blank ∨
      ∃ name value, header = name ++ ':' :: value ∧ ':' ∉ name := by
  by_cases hcolon : ':' ∈ header
  · obtain ⟨name, value, hheader, hname⟩ := List.eq_append_cons_of_mem hcolon
    exact .inr ⟨name, value, hheader, hname⟩
  · have hnone : header.dropWhile (· ≠ ':') = [] := by
      rw [List.dropWhile_eq_nil_iff]
      intro c hc
      have hne : c ≠ ':' := fun heq => hcolon (heq ▸ hc)
      simpa using hne
    unfold readText at hok
    rw [hnone] at hok
    split at hok
    · rename_i hempty
      cases hok
      exact .inl ⟨List.isEmpty_iff.mp hempty, rfl⟩
    · cases hok

theorem readHeader_of_heading {name value : List Char} (hheading : Heading line name value) :
    readHeader line = if namesLength name then readLength value else .ok .other := by
  obtain ⟨breaks, hbreaks, hvalue⟩ := exists_dropEndWhile_append isBreak value
  have hsame : readLength (dropEndWhile isBreak value) = readLength value := by
    conv_rhs => rw [hvalue]
    exact (readLength_eq _ hbreaks).symm
  rw [readHeader_of_text hheading.short hheading.text,
    dropEndWhile_append_cons name value rfl, readText_append_cons hheading.first, hsame]

theorem readHeader_sound {h : Header} (hok : readHeader line = .ok h) : Says line h := by
  obtain ⟨hshort, text, htext⟩ := exists_text_of_readHeader hok
  have hread := hok
  rw [readHeader_of_text hshort htext] at hread
  obtain ⟨hempty, rfl⟩ | ⟨name, value, hheader, hname⟩ := readText_sound hread
  · refine .blank hshort ?_
    rw [htext, ← breaks_iff]
    exact dropEndWhile_eq_nil_iff.mp hempty
  · obtain ⟨breaks, hbreaks, hall⟩ := exists_dropEndWhile_append isBreak text
    have hheading : Heading line name (value ++ breaks) := by
      refine ⟨hshort, ?_, hname⟩
      rw [htext, hall, hheader, List.append_assoc, List.cons_append]
    rw [readHeader_of_heading hheading] at hok
    split at hok
    · rename_i hlength
      obtain ⟨n, rfl, hvalue, hn⟩ := readLength_eq_ok_iff.mp hok
      exact .length hheading hlength hvalue hn
    · rename_i hother
      cases hok
      exact .other hheading hother

theorem readHeader_of_blank (hshort : line.length ≤ 1024) (hbreaks : ∀ b ∈ line, b = 13 ∨ b = 10) :
    readHeader line = .ok .blank := by
  obtain ⟨cs, hcs, htext⟩ := exists_breaks hbreaks
  rw [readHeader_of_text hshort htext, dropEndWhile_eq_nil_iff.mpr hcs]
  rfl

theorem readHeader_eq_ok_iff {h : Header} : readHeader line = .ok h ↔ Says line h := by
  refine ⟨readHeader_sound, fun hmeans => ?_⟩
  cases hmeans with
  | blank hshort hbreaks => exact readHeader_of_blank hshort hbreaks
  | length hheading hname hvalue hn =>
      rw [readHeader_of_heading hheading, if_pos hname]
      exact readLength_eq_ok_iff.mpr ⟨_, rfl, hvalue, hn⟩
  | other hheading hname => rw [readHeader_of_heading hheading, if_neg hname]

end CodeAssist.Frame
