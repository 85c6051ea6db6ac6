import CodeAssist.Text.Blank
import CodeAssist.Text.Numeral
import CodeAssist.Text.Utf8
import Mathlib.Data.List.DropRight

namespace CodeAssist.Text

/-! A text and its octets. -/

theorem toList_loop (b : ByteArray) (i : Nat) (seen : List UInt8) :
    ByteArray.toList.loop b i seen = seen.reverse ++ b.data.toList.drop i := by
  fun_induction ByteArray.toList.loop b i seen with
  | case1 i seen hlt ih =>
      have hdrop : b.data.toList.drop i = b.get! i :: b.data.toList.drop (i + 1) := by
        have hlen : i < b.data.toList.length := hlt
        rw [List.drop_eq_getElem_cons hlen]
        congr 1
        change b.data.toList[i] = b.data[i]!
        rw [getElem!_pos b.data i hlt, Array.getElem_toList]
      rw [ih, hdrop, List.reverse_cons, List.append_assoc]
      rfl
  | case2 i seen hend =>
      have hlen : b.data.toList.length ≤ i := Nat.le_of_not_lt hend
      rw [List.drop_of_length_le hlen, List.append_nil]

theorem encode_eq (s : String) : encode s = s.toByteArray.data.toList := by
  rw [encode, String.toUTF8_eq_toByteArray, ByteArray.toList, toList_loop]
  rfl

theorem decode?_eq_some_iff {bytes : Bytes} {s : String} :
    decode? bytes = some s ↔ bytes = encode s := by
  rw [decode?, String.fromUTF8?, encode_eq]
  constructor
  · intro h
    split at h
    · cases h
      rfl
    · cases h
  · rintro rfl
    have hsame : (⟨s.toByteArray.data.toList.toArray⟩ : ByteArray) = s.toByteArray := by simp
    simp only [hsame]
    rw [dif_pos s.isValidUTF8]
    rfl

theorem encode_injective {s t : String} (h : encode s = encode t) : s = t :=
  Option.some.inj ((decode?_eq_some_iff.mpr rfl).symm.trans (decode?_eq_some_iff.mpr h))

theorem encode_ofList (cs : List Char) :
    encode (String.ofList cs) = cs.flatMap String.utf8EncodeChar := by
  rw [encode_eq, String.toByteArray_ofList]
  exact List.toList_data_toByteArray

theorem encode_append (s t : String) : encode (s ++ t) = encode s ++ encode t := by
  rw [← String.ofList_toList (s := s), ← String.ofList_toList (s := t), ← String.ofList_append]
  simp only [encode_ofList, List.flatMap_append]

def isAscii (c : Char) : Bool := c.toNat < 128

theorem utf8EncodeChar_ascii {c : Char} (hc : isAscii c) :
    String.utf8EncodeChar c = [c.toUInt8] := by
  have hval : c.val ≤ 127 := UInt32.le_iff_toNat_le.mpr (Nat.le_of_lt_succ (of_decide_eq_true hc))
  exact String.utf8EncodeChar_eq_singleton (Char.utf8Size_eq_one_iff.mpr hval)

theorem encode_ascii {cs : List Char} (hcs : ∀ c ∈ cs, isAscii c) :
    encode (String.ofList cs) = cs.map Char.toUInt8 := by
  rw [encode_ofList]
  induction cs with
  | nil => rfl
  | cons c cs ih =>
      rw [List.flatMap_cons, List.map_cons, utf8EncodeChar_ascii (hcs c List.mem_cons_self),
        ih fun d hd => hcs d (List.mem_cons_of_mem c hd)]
      rfl

section ends

variable {α : Type} {p : α → Bool}

theorem dropEndWhile_append (xs : List α) {end' : List α} (hend : ∀ x ∈ end', p x) :
    dropEndWhile p (xs ++ end') = dropEndWhile p xs := by
  unfold dropEndWhile
  rw [List.reverse_append, List.dropWhile_append_of_pos]
  simpa using hend

theorem dropEndWhile_eq_nil_iff {xs : List α} : dropEndWhile p xs = [] ↔ ∀ x ∈ xs, p x :=
  List.rdropWhile_eq_nil_iff

theorem exists_dropEndWhile_append (p : α → Bool) (xs : List α) :
    ∃ end', (∀ x ∈ end', p x) ∧ xs = dropEndWhile p xs ++ end' :=
  ⟨xs.rtakeWhile p, fun _ hx => List.mem_rtakeWhile_imp hx,
    List.rdropWhile_append_rtakeWhile.symm⟩

theorem dropEndWhile_append_cons (xs ys : List α) {c : α} (hc : p c = false) :
    dropEndWhile p (xs ++ c :: ys) = xs ++ c :: dropEndWhile p ys := by
  simp [dropEndWhile, List.dropWhile_append, hc]

end ends

theorem trim_append (s : List Char) {blanks : List Char} (hblanks : ∀ c ∈ blanks, isBlank c) :
    trim (s ++ blanks) = trim s := by
  unfold trim
  rw [List.dropWhile_append]
  split
  · rename_i hall
    rw [List.isEmpty_iff.mp hall, List.dropWhile_eq_nil_iff.mpr hblanks]
  · exact dropEndWhile_append _ hblanks

theorem trim_cons {c : Char} (hblank : isBlank c) (s : List Char) : trim (c :: s) = trim s := by
  rw [trim, List.dropWhile_cons_of_pos hblank, trim]

/-- What is left of a text without the blanks at its ends. -/
structure IsTrimmed (s t : List Char) : Prop where
  within : ∃ front back, s = front ++ t ++ back ∧ (∀ c ∈ front, isBlank c) ∧ ∀ c ∈ back, isBlank c
  head : ∀ c ∈ t.head?, isBlank c = false
  last : ∀ c ∈ t.getLast?, isBlank c = false

section trim

variable {s t : List Char}

theorem isTrimmed_trim (s : List Char) : IsTrimmed s (trim s) := by
  obtain ⟨back, hback, hsplit⟩ := exists_dropEndWhile_append isBlank (s.dropWhile isBlank)
  refine ⟨⟨s.takeWhile isBlank, back, ?_, fun _ hc => List.mem_takeWhile_imp hc, hback⟩, ?_, ?_⟩
  · rw [trim, List.append_assoc, ← hsplit, List.takeWhile_append_dropWhile]
  · intro c hc
    have hhead : c ∈ (s.dropWhile isBlank).head? := by
      rw [hsplit, List.head?_append]
      exact Option.or_eq_some_iff.mpr (.inl hc)
    have hnot := List.head?_dropWhile_not isBlank s
    rw [hhead] at hnot
    exact hnot
  · intro c hc
    obtain ⟨hne, rfl⟩ := List.mem_getLast?_eq_getLast hc
    exact Bool.eq_false_iff.mpr (List.rdropWhile_last_not isBlank _ hne)

theorem trim_append_left {front : List Char} (hfront : ∀ c ∈ front, isBlank c) (s : List Char) :
    trim (front ++ s) = trim s := by
  rw [trim, List.dropWhile_append_of_pos hfront, trim]

/-- Only one text is left of a text. -/
theorem IsTrimmed.eq_trim (h : IsTrimmed s t) : t = trim s := by
  obtain ⟨front, back, rfl, hfront, hback⟩ := h.within
  rw [trim_append _ hback, trim_append_left hfront, trim]
  cases t with
  | nil => rfl
  | cons c t =>
      rw [List.dropWhile_cons_of_neg (by simp [h.head c rfl])]
      refine (List.rdropWhile_eq_self_iff.mpr fun hne => ?_).symm
      rw [h.last _ (List.getLast?_eq_some_getLast hne)]
      exact Bool.false_ne_true

theorem trim_eq_self_of_ends (hhead : ∀ c ∈ s.head?, isBlank c = false)
    (hlast : ∀ c ∈ s.getLast?, isBlank c = false) : trim s = s :=
  (IsTrimmed.eq_trim ⟨⟨[], [], (List.append_nil s).symm, nofun, nofun⟩, hhead, hlast⟩).symm

theorem trim_eq_self (hnone : ∀ c ∈ s, isBlank c = false) : trim s = s :=
  trim_eq_self_of_ends (fun c hc => hnone c (List.mem_of_mem_head? hc))
    fun c hc => hnone c (List.mem_of_mem_getLast? hc)

theorem trim_eq_nil_iff : trim s = [] ↔ ∀ c ∈ s, isBlank c := by
  rw [trim, dropEndWhile_eq_nil_iff]
  constructor
  · intro h c hc
    rw [← List.takeWhile_append_dropWhile (p := isBlank) (l := s), List.mem_append] at hc
    exact hc.elim List.mem_takeWhile_imp (h c)
  · exact fun h c hc => h c ((List.dropWhile_sublist isBlank).subset hc)

end trim

theorem toNat_of_isDigit {c : Char} (hdigit : c.isDigit) : 48 ≤ c.toNat ∧ c.toNat ≤ 57 := by
  simpa [Char.isDigit, UInt32.le_iff_toNat_le] using hdigit

theorem isBlank_of_isDigit {c : Char} (hdigit : c.isDigit) : isBlank c = false := by
  have hrange := toNat_of_isDigit hdigit
  simp [isBlank]
  omega

/-- One or more digits, after at most one plus sign, and their value. -/
def IsNumeral (s : List Char) (n : Nat) : Prop :=
  ∃ digits, (s = digits ∨ s = '+' :: digits) ∧ digits ≠ [] ∧ (∀ c ∈ digits, c.isDigit) ∧
    n = Nat.ofDigitChars 10 digits 0

theorem digitValue?_eq (c : Char) :
    digitValue? c = if c.isDigit then some (c.toNat - '0'.toNat) else none := by
  have hsame : ('0' ≤ c && c ≤ '9') = c.isDigit := by
    simp [Char.isDigit, Char.le_def]
  rw [digitValue?, hsame]

theorem foldl_digits (s : List Char) (total : Option Nat) :
    s.foldl (fun total c => do return (← total) * 10 + (← digitValue? c)) total =
      if s.all Char.isDigit then total.map (Nat.ofDigitChars 10 s) else none := by
  induction s generalizing total with
  | nil => cases total <;> simp
  | cons c s ih =>
      rw [List.foldl_cons, ih, digitValue?_eq]
      cases total with
      | none => simp
      | some n => by_cases hc : c.isDigit <;> simp [hc, Nat.ofDigitChars_cons, Nat.mul_comm]

theorem digitsValue?_eq_some_iff {s : List Char} {n : Nat} :
    digitsValue? s = some n ↔ (∀ c ∈ s, c.isDigit) ∧ n = Nat.ofDigitChars 10 s 0 := by
  rw [digitsValue?, foldl_digits, ← List.all_eq_true]
  split
  case isTrue hdigits =>
      rw [Option.map_some, Option.some.injEq, eq_comm]
      exact (and_iff_right hdigits).symm
  case isFalse hnot => simp [hnot]

theorem readBelow?_eq_some_iff {bound n : Nat} {s : List Char} :
    readBelow? bound s = some n ↔ IsNumeral s n ∧ n < bound := by
  have hread (digits : List Char) :
      (if digits.isEmpty then none else (digitsValue? digits).filter (· < bound)) = some n ↔
        digits ≠ [] ∧ (∀ c ∈ digits, c.isDigit) ∧ n = Nat.ofDigitChars 10 digits 0 ∧ n < bound := by
    by_cases hempty : digits = []
    · simp [hempty]
    · simp [hempty, Option.filter_eq_some_iff, digitsValue?_eq_some_iff, and_assoc]
  unfold readBelow? IsNumeral
  split
  case h_1 rest =>
      rw [hread]
      constructor
      · rintro ⟨hne, hdigits, hn, hlt⟩
        exact ⟨⟨rest, .inr rfl, hne, hdigits, hn⟩, hlt⟩
      · rintro ⟨⟨digits, rfl | hplus, hne, hdigits, hn⟩, hlt⟩
        · exact absurd (hdigits '+' List.mem_cons_self) (by decide)
        · cases hplus
          exact ⟨hne, hdigits, hn, hlt⟩
  case h_2 hplain =>
      rw [hread]
      constructor
      · rintro ⟨hne, hdigits, hn, hlt⟩
        exact ⟨⟨s, .inl rfl, hne, hdigits, hn⟩, hlt⟩
      · rintro ⟨⟨digits, rfl | hplus, hne, hdigits, hn⟩, hlt⟩
        · exact ⟨hne, hdigits, hn, hlt⟩
        · exact absurd hplus (hplain digits)

theorem le_ofDigitChars (digits : List Char) (n : Nat) : n ≤ Nat.ofDigitChars 10 digits n := by
  rw [Nat.ofDigitChars_eq_ofDigitChars_zero]
  exact Nat.le_add_right_of_le (Nat.le_mul_of_pos_left n (Nat.pow_pos (by decide)))

theorem isNumeral_decimal (n : Nat) : IsNumeral (decimal n) n :=
  ⟨decimal n, .inl rfl, Nat.toDigits_ne_nil,
    fun _ hc => Nat.isDigit_of_mem_toDigits (by decide) (by decide) hc,
    Nat.ofDigitChars_ten_toDigits.symm⟩

end CodeAssist.Text
