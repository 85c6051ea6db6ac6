import CodeAssist.Json.Reader
import CodeAssist.Proofs.Text

namespace CodeAssist.Text

/-! The octets of characters. -/

def octets (cs : List Char) : Bytes := cs.flatMap String.utf8EncodeChar

@[simp] theorem octets_nil : octets [] = [] := rfl

@[simp] theorem octets_append (cs ds : List Char) : octets (cs ++ ds) = octets cs ++ octets ds :=
  List.flatMap_append

theorem octets_cons (c : Char) (cs : List Char) :
    octets (c :: cs) = String.utf8EncodeChar c ++ octets cs := List.flatMap_cons

theorem encode_eq_octets (cs : List Char) : encode (String.ofList cs) = octets cs :=
  encode_ofList cs

theorem decode?_octets (cs : List Char) : decode? (octets cs) = some (String.ofList cs) :=
  decode?_eq_some_iff.mpr (encode_eq_octets cs).symm

theorem octets_cons_ascii {c : Char} (hc : isAscii c) (cs : List Char) :
    octets (c :: cs) = c.toUInt8 :: octets cs := by
  rw [octets_cons, utf8EncodeChar_ascii hc]
  rfl

theorem octets_ascii {cs : List Char} (hcs : ∀ c ∈ cs, isAscii c) :
    octets cs = cs.map Char.toUInt8 := by
  rw [← encode_eq_octets, encode_ascii hcs]

/-- A character of several octets has no ASCII one among them. -/
theorem le_of_mem_utf8EncodeChar {c : Char} (hc : isAscii c = false) {b : UInt8}
    (hb : b ∈ String.utf8EncodeChar c) : 128 ≤ b := by
  have hlarge : 128 ≤ c.val.toNat := by simpa [isAscii] using hc
  have hoctet {m : Nat} (hlow : 128 ≤ m) (hhigh : m < 256) : (128 : UInt8) ≤ UInt8.ofNat m := by
    rw [UInt8.le_iff_toNat_le, UInt8.toNat_ofNat_of_lt' hhigh]
    exact hlow
  revert hb
  fun_cases String.utf8EncodeChar c with
  | case1 v hsmall => omega
  | case2 v _ hmid =>
      intro hb
      simp only [List.mem_cons, List.not_mem_nil, or_false] at hb
      obtain rfl | rfl := hb <;> exact hoctet (by omega) (by omega)
  | case3 v _ _ hmid =>
      intro hb
      simp only [List.mem_cons, List.not_mem_nil, or_false] at hb
      obtain rfl | rfl | rfl := hb <;> exact hoctet (by omega) (by omega)
  | case4 v =>
      intro hb
      simp only [List.mem_cons, List.not_mem_nil, or_false] at hb
      obtain rfl | rfl | rfl | rfl := hb <;> exact hoctet (by omega) (by omega)

end CodeAssist.Text

namespace CodeAssist.Json

open Text

/-- The reader succeeds with `value`, and `rest` is what is left behind it. -/
def Yields {α : Type} (result : Except ReadError (α × Cursor)) (value : α) (rest : Bytes) : Prop :=
  ∃ line column, result = .ok (value, ⟨rest, line, column⟩)

theorem Yields.bind {α β : Type} {result : Except ReadError (α × Cursor)} {value : α} {rest : Bytes}
    {next : α × Cursor → Except ReadError (β × Cursor)} {value' : β} {rest' : Bytes}
    (h : Yields result value rest)
    (hnext : ∀ line column, Yields (next (value, ⟨rest, line, column⟩)) value' rest') :
    Yields (result >>= next) value' rest' := by
  obtain ⟨line, column, rfl⟩ := h
  exact hnext line column

theorem Yields.ok {α : Type} (value : α) (rest : Bytes) (line column : Nat) :
    Yields (.ok (value, ⟨rest, line, column⟩)) value rest := ⟨line, column, rfl⟩

namespace Cursor

theorem bump_eq {b : UInt8} (hb : b ≠ 10) (rest : Bytes) (line column : Nat) :
    bump ⟨b :: rest, line, column⟩ = ⟨rest, line, column + 1⟩ := by
  simp [bump, hb]

theorem skipBlank_eq {b : UInt8} (hb : isBlank b = false) (rest : Bytes) (line column : Nat) :
    skipBlank ⟨b :: rest, line, column⟩ = ⟨b :: rest, line, column⟩ := by
  have hline : b ≠ 10 := by
    rintro rfl
    exact absurd hb (by decide)
  simp [skipBlank, skipBlank.go, hb, hline]

end Cursor

/-- The last `run` octets of `out`, which holds the latest first, are whole characters. -/
def Whole (run : Nat) (out : Bytes) : Prop := ∃ cs, (out.take run).reverse = octets cs

theorem Whole.none (out : Bytes) : Whole 0 out := ⟨[], by simp⟩

theorem Whole.keep {run : Nat} {out : Bytes} (h : Whole run out) (c : Char) :
    Whole (run + (String.utf8EncodeChar c).length) ((String.utf8EncodeChar c).reverse ++ out) := by
  obtain ⟨cs, hcs⟩ := h
  refine ⟨cs ++ [c], ?_⟩
  rw [Nat.add_comm, ← List.length_reverse, List.take_length_add_append, List.reverse_append,
    List.reverse_reverse, hcs, octets_append, octets_cons, octets_nil, List.append_nil]

theorem checkRun_ok {run : Nat} {out : Bytes} (h : Whole run out) (line column : Nat) :
    checkRun run out line column = .ok () := by
  obtain ⟨cs, hcs⟩ := h
  simp [checkRun, hcs, decode?_octets]

section text

variable {run : Nat} {out : Bytes}

/-- An octet of a quoted text that stands for itself. -/
def isKept (b : UInt8) : Bool := b ≠ 34 && b ≠ 92 && 32 ≤ b

theorem effect_kept {b : UInt8} (hb : isKept b) : effect true .plain b = .keep := by
  simp only [isKept, Bool.and_eq_true, decide_eq_true_eq] at hb
  simp [effect, hb.1.1, hb.1.2, hb.2]

theorem readOctets_kept {kept : Bytes} (hkept : ∀ b ∈ kept, isKept b) (rest : Bytes)
    (line column : Nat) :
    readOctets true .plain run out (kept ++ rest) line column =
      readOctets true .plain (run + kept.length) (kept.reverse ++ out) rest line
        (column + kept.length) := by
  induction kept generalizing run out column with
  | nil => rfl
  | cons b kept ih =>
      obtain ⟨hb, hlater⟩ := List.forall_mem_cons.mp hkept
      have hline : b ≠ 10 := by
        rintro rfl
        exact absurd hb (by decide)
      rw [List.cons_append, readOctets, effect_kept hb]
      simp only [Cursor.bump_eq hline]
      rw [ih hlater]
      simp only [List.length_cons, List.reverse_cons, List.append_assoc, List.singleton_append]
      congr 1 <;> omega

theorem readOctets_next (hrun : Whole run out) {within next : Within} {b : UInt8} {more : Bytes}
    (heffect : effect true within b = .next next more) (hb : b ≠ 10) (rest : Bytes)
    (line column : Nat) :
    readOctets true within run out (b :: rest) line column =
      readOctets true next 0 (more.reverse ++ out) rest line (column + 1) := by
  rw [readOctets, heffect]
  simp only [Cursor.bump_eq hb, checkRun_ok hrun]
  rfl

theorem hexUnit?_control : ∀ n < 32, hexUnit? [48, 48, (Nat.digitChar (n / 16)).toUInt8,
    (Nat.digitChar (n % 16)).toUInt8] = some n := by
  decide

theorem hexDigit_ne : ∀ n < 16, (Nat.digitChar n).toUInt8 ≠ 10 ∧ isAscii (Nat.digitChar n) := by
  decide

/-- The ways to write a character inside quotes. -/
inductive Written (c : Char) : Bytes → Prop
  | letter {letter b : UInt8} (hc : String.utf8EncodeChar c = [b]) (hletter : letter ≠ 10)
      (heffect : effect true .escape letter = .next .plain [b]) : Written c [92, letter]
  | control (hc : c.toNat < 32) : Written c [92, 117, 48, 48,
      (Nat.digitChar (c.toNat / 16)).toUInt8, (Nat.digitChar (c.toNat % 16)).toUInt8]
  | kept (hc : ∀ b ∈ String.utf8EncodeChar c, isKept b) : Written c (String.utf8EncodeChar c)

theorem isKept_of_mem {c : Char} (hquote : c ≠ '"') (hslash : c ≠ '\\') (hcontrol : ¬c.toNat < 32)
    {b : UInt8} (hb : b ∈ String.utf8EncodeChar c) : isKept b := by
  simp only [isKept, Bool.and_eq_true, decide_eq_true_eq]
  by_cases hascii : isAscii c
  · rw [utf8EncodeChar_ascii hascii, List.mem_singleton] at hb
    subst hb
    have hnat : c.toUInt8.toNat = c.toNat :=
      Nat.mod_eq_of_lt (Nat.lt_trans (of_decide_eq_true hascii) (by decide))
    refine ⟨⟨fun h => hquote ?_, fun h => hslash ?_⟩, ?_⟩
    · exact Char.toNat_inj.mp (hnat.symm.trans (congrArg UInt8.toNat h))
    · exact Char.toNat_inj.mp (hnat.symm.trans (congrArg UInt8.toNat h))
    · rw [UInt8.le_iff_toNat_le, hnat]
      exact Nat.le_of_not_lt hcontrol
  · have hlarge := le_of_mem_utf8EncodeChar (Bool.eq_false_iff.mpr hascii) hb
    have hle : (32 : UInt8) ≤ b := UInt8.le_trans (by decide) hlarge
    refine ⟨⟨?_, ?_⟩, hle⟩
    · rintro rfl
      exact absurd hlarge (by decide)
    · rintro rfl
      exact absurd hlarge (by decide)

theorem written_escape (c : Char) : Written c (octets (escape c)) := by
  by_cases hquote : c = '"'
  · subst hquote
    exact .letter rfl (by decide) rfl
  by_cases hslash : c = '\\'
  · subst hslash
    exact .letter rfl (by decide) rfl
  by_cases hback : c = '\x08'
  · subst hback
    exact .letter rfl (by decide) rfl
  by_cases hform : c = '\x0c'
  · subst hform
    exact .letter rfl (by decide) rfl
  by_cases hfeed : c = '\n'
  · subst hfeed
    exact .letter rfl (by decide) rfl
  by_cases hreturn : c = '\r'
  · subst hreturn
    exact .letter rfl (by decide) rfl
  by_cases htab : c = '\t'
  · subst htab
    exact .letter rfl (by decide) rfl
  have hescape : escape c = if c.toNat < 32 then ['\\', 'u', '0', '0',
      Nat.digitChar (c.toNat / 16), Nat.digitChar (c.toNat % 16)] else [c] := by
    simp [escape, hquote, hslash, hback, hform, hfeed, hreturn, htab]
  rw [hescape]
  split
  case isTrue hcontrol =>
      have hhigh := (hexDigit_ne (c.toNat / 16) (by omega)).2
      have hlow := (hexDigit_ne (c.toNat % 16) (by omega)).2
      have htext : ∀ d ∈ ['\\', 'u', '0', '0', Nat.digitChar (c.toNat / 16),
          Nat.digitChar (c.toNat % 16)], isAscii d := by
        simp only [List.forall_mem_cons, hhigh, hlow, List.not_mem_nil, false_implies, implies_true]
        decide
      rw [octets_ascii htext]
      exact .control hcontrol
  case isFalse hcontrol =>
      rw [octets_cons, octets_nil, List.append_nil]
      exact .kept fun b hb => isKept_of_mem hquote hslash hcontrol hb

theorem readOctets_written (hrun : Whole run out) {c : Char} {text : Bytes} (htext : Written c text)
    (line column : Nat) :
    ∃ run' column', Whole run' ((String.utf8EncodeChar c).reverse ++ out) ∧
      ∀ rest, readOctets true .plain run out (text ++ rest) line column =
        readOctets true .plain run' ((String.utf8EncodeChar c).reverse ++ out) rest line column' := by
  have hescape : effect true .plain 92 = .next .escape [] := rfl
  cases htext with
  | letter hc hletter heffect =>
      refine ⟨0, column + 2, .none _, fun rest => ?_⟩
      rw [List.cons_append, readOctets_next hrun hescape (by decide), List.cons_append,
        readOctets_next (.none _) heffect hletter, hc]
      rfl
  | control hc =>
      have hhigh := (hexDigit_ne (c.toNat / 16) (by omega)).1
      have hlow := (hexDigit_ne (c.toNat % 16) (by omega)).1
      have hunit : effect true .escape 117 = .next (.hex none []) [] := rfl
      have hfirst : effect true (.hex none []) 48 = .next (.hex none [48]) [] := rfl
      have hsecond : effect true (.hex none [48]) 48 = .next (.hex none [48, 48]) [] := rfl
      have hthird (b : UInt8) :
          effect true (.hex none [48, 48]) b = .next (.hex none [48, 48, b]) [] := rfl
      have hlast : effect true (.hex none [48, 48, (Nat.digitChar (c.toNat / 16)).toUInt8])
          (Nat.digitChar (c.toNat % 16)).toUInt8 = .next .plain (String.utf8EncodeChar c) := by
        have htrail : isTrail c.toNat = false := by
          simp only [isTrail, Bool.and_eq_false_iff, decide_eq_false_iff_not]
          omega
        have hlead : isLead c.toNat = false := by
          simp only [isLead, Bool.and_eq_false_iff, decide_eq_false_iff_not]
          omega
        simp [effect, hexUnit?_control _ hc, unitEffect, htrail, hlead, encodeScalar]
      refine ⟨0, column + 6, .none _, fun rest => ?_⟩
      simp only [List.cons_append, List.nil_append]
      rw [readOctets_next hrun hescape (by decide), readOctets_next (.none _) hunit (by decide),
        readOctets_next (.none _) hfirst (by decide), readOctets_next (.none _) hsecond (by decide),
        readOctets_next (.none _) (hthird _) hhigh, readOctets_next (.none _) hlast hlow]
      rfl
  | kept hc => exact ⟨_, _, hrun.keep c, fun rest => readOctets_kept hc rest line column⟩

theorem readOctets_text (cs : List Char) (hrun : Whole run out) (rest : Bytes) (line column : Nat) :
    Yields (readOctets true .plain run out (octets (cs.flatMap escape) ++ 34 :: rest) line column)
      (out.reverse ++ octets cs) rest := by
  induction cs generalizing run out column with
  | nil =>
      refine ⟨line, column + 1, ?_⟩
      have hclose : effect true .plain 34 = .close := rfl
      rw [List.flatMap_nil, octets_nil, List.nil_append, readOctets, hclose]
      simp only [checkRun_ok hrun, Cursor.bump_eq (show (34 : UInt8) ≠ 10 by decide),
        List.append_nil]
      rfl
  | cons c cs ih =>
      obtain ⟨run', column', hrun', hread⟩ := readOctets_written hrun (written_escape c) line column
      rw [List.flatMap_cons, octets_append, List.append_assoc, hread]
      have hlater := ih hrun' column'
      rwa [List.reverse_append, List.reverse_reverse, List.append_assoc, ← octets_cons] at hlater

end text

/-- The quoted text behind its opening quote. -/
def quotation (s : String) : Bytes := octets (s.toList.flatMap escape) ++ [34]

theorem octets_renderText (s : String) : octets (renderText s) = 34 :: quotation s := by
  have hquote : octets ['"'] = [34] := rfl
  rw [renderText, List.cons_append, octets_cons_ascii rfl, octets_append, hquote]
  rfl

theorem readText_quotation (s : String) (rest : Bytes) (line column : Nat) :
    Yields (readText ⟨quotation s ++ rest, line, column⟩) s rest := by
  obtain ⟨line', column', hread⟩ := readOctets_text s.toList (Whole.none []) rest line column
  refine ⟨line', column', ?_⟩
  simp only [readText, quotation, List.append_assoc, List.singleton_append, hread]
  simp [bind, Except.bind, decode?_octets]

/-- What may come behind a value: nothing, or what divides or closes lists and objects. -/
def Ends (rest : Bytes) : Prop := ∀ b ∈ rest.head?, b = 44 ∨ b = 93 ∨ b = 125

/-- What a numeral does not go on with: neither a digit, nor the start of a fraction or an
exponent. -/
def Stops (rest : Bytes) : Prop :=
  ∀ b ∈ rest.head?, Cursor.isDigit b = false ∧ b ≠ 46 ∧ b ≠ 101 ∧ b ≠ 69

theorem Ends.stops {rest : Bytes} (h : Ends rest) : Stops rest := by
  intro b hb
  obtain rfl | rfl | rfl := h b hb <;> decide

def numeral (n : Nat) : Bytes := (decimal n).map Char.toUInt8

theorem toNat_of_mem_decimal {n : Nat} {c : Char} (hc : c ∈ decimal n) :
    48 ≤ c.toNat ∧ c.toNat ≤ 57 :=
  toNat_of_isDigit (Nat.isDigit_of_mem_toDigits (by decide) (by decide) hc)

theorem octets_decimal (n : Nat) : octets (decimal n) = numeral n :=
  octets_ascii fun _ hc => decide_eq_true (Nat.lt_of_le_of_lt (toNat_of_mem_decimal hc).2 (by decide))

theorem toNat_toUInt8 {c : Char} (hc : c.toNat ≤ 57) : c.toUInt8.toNat = c.toNat :=
  Nat.mod_eq_of_lt (Nat.lt_of_le_of_lt hc (by decide))

theorem isDigit_of_mem_numeral {n : Nat} {b : UInt8} (hb : b ∈ numeral n) :
    Cursor.isDigit b = true := by
  obtain ⟨c, hc, rfl⟩ := List.mem_map.mp hb
  have hrange := toNat_of_mem_decimal hc
  have hnat := toNat_toUInt8 hrange.2
  simp only [Cursor.isDigit, Bool.and_eq_true, decide_eq_true_eq, UInt8.le_iff_toNat_le, hnat]
  exact hrange

theorem Stops.not_digit {rest : Bytes} (h : Stops rest) :
    rest.takeWhile Cursor.isDigit = [] ∧ rest.dropWhile Cursor.isDigit = rest := by
  cases rest with
  | nil => exact ⟨rfl, rfl⟩
  | cons b rest => simp [(h b rfl).1]

theorem digits_numeral (n : Nat) {rest : Bytes} (hrest : Stops rest) (line column : Nat) :
    Cursor.digits ⟨numeral n ++ rest, line, column⟩ =
      ((decimal n).map fun c => c.toNat - 48, ⟨rest, line, column + (numeral n).length⟩) := by
  have hall : ∀ b ∈ numeral n, Cursor.isDigit b = true := fun _ hb => isDigit_of_mem_numeral hb
  have hvalues : (numeral n).map (fun b => b.toNat - 48) = (decimal n).map fun c => c.toNat - 48 := by
    rw [numeral, List.map_map]
    refine List.map_congr_left fun c hc => ?_
    simp only [Function.comp_apply, toNat_toUInt8 (toNat_of_mem_decimal hc).2]
  simp only [Cursor.digits, List.takeWhile_append_of_pos hall, List.dropWhile_append_of_pos hall,
    hrest.not_digit.1, hrest.not_digit.2, List.append_nil, hvalues]

theorem exists_first_digit {n : Nat} (hn : 0 < n) :
    ∃ c rest, decimal n = c :: rest ∧ c.toNat - 48 ≠ 0 := by
  induction n using Nat.base_induction 10 (by decide) with
  | single m hm =>
      refine ⟨m.digitChar, [], Nat.toDigits_of_lt_base hm, ?_⟩
      rw [Nat.toNat_digitChar_sub_48_of_lt_ten hm]
      omega
  | digit m k hk hm ih =>
      obtain ⟨c, rest, hdigits, hc⟩ := ih hm
      refine ⟨c, rest ++ Nat.toDigits 10 k, ?_, hc⟩
      rw [decimal, ← Nat.toDigits_append_toDigits (by decide) hm hk]
      exact congrArg (· ++ Nat.toDigits 10 k) hdigits

theorem readWhole_numeral (n : Nat) {rest : Bytes} (hrest : Stops rest) (line column : Nat) :
    Yields (readWhole ⟨numeral n ++ rest, line, column⟩)
      ((decimal n).map fun c => c.toNat - 48) rest := by
  refine ⟨line, column + (numeral n).length, ?_⟩
  simp only [readWhole, digits_numeral n hrest]
  cases n with
  | zero => rfl
  | succ n =>
      obtain ⟨c, more, hdigits, hc⟩ := exists_first_digit (Nat.succ_pos n)
      simp [hdigits, hc]

namespace Numeral

/-- As long as its value fits 64 bits, collecting the digits of a number computes it. -/
theorem foldl_addWhole {cs : List Char} {m : Nat} (hm : Nat.ofDigitChars 10 cs m < bound64) :
    (cs.map fun c => c.toNat - 48).foldl Collected.addWhole { significand := m } =
      { significand := Nat.ofDigitChars 10 cs m } := by
  induction cs generalizing m with
  | nil => simp
  | cons c cs ih =>
      have hvalue : Nat.ofDigitChars 10 (c :: cs) m =
          Nat.ofDigitChars 10 cs (m * 10 + (c.toNat - 48)) := by
        rw [Nat.ofDigitChars_cons, Nat.mul_comm]
        rfl
      rw [hvalue] at hm ⊢
      have hfits : fits m (c.toNat - 48) = true :=
        decide_eq_true (Nat.lt_of_le_of_lt (le_ofDigitChars cs _) hm)
      rw [List.map_cons, List.foldl_cons, Collected.addWhole]
      simp only [hfits, Bool.not_false, Bool.and_self, if_true]
      exact ih hm

theorem value?_integer {n : Nat} (hn : n < bound64) :
    value? { negative := false, whole := (decimal n).map fun c => c.toNat - 48 } =
      some (.integer n) := by
  have hvalue : Nat.ofDigitChars 10 (decimal n) 0 = n := Nat.ofDigitChars_ten_toDigits
  have hwhole := foldl_addWhole (hvalue.trans_lt hn)
  simp [value?, collect, hwhole, hvalue]

theorem value?_negative {n : Nat} (hpos : 0 < n) (hn : 2 * n ≤ bound64) :
    value? { negative := true, whole := (decimal n).map fun c => c.toNat - 48 } =
      some (.integer (-n)) := by
  have hvalue : Nat.ofDigitChars 10 (decimal n) 0 = n := Nat.ofDigitChars_ten_toDigits
  have hsize : n < bound64 := by
    unfold bound64 at hn ⊢
    omega
  have hwhole := foldl_addWhole (hvalue.trans_lt hsize)
  simp [value?, collect, hwhole, hvalue, hpos, hn]

end Numeral

theorem readNumber_of_value {negative : Bool} {n : Nat} {value : Number} {rest : Bytes}
    (hrest : Stops rest)
    (hvalue : Numeral.value? { negative, whole := (decimal n).map fun c => c.toNat - 48 } =
      some value) (line column : Nat) :
    Yields (readNumber negative ⟨numeral n ++ rest, line, column⟩) value rest := by
  have hfraction (line column : Nat) :
      readFraction ⟨rest, line, column⟩ = .ok ([], ⟨rest, line, column⟩) := by
    cases rest with
    | nil => rfl
    | cons b rest =>
        obtain ⟨-, hdot, -, -⟩ := hrest b rfl
        simp [readFraction, hdot]
  have hexponent (line column : Nat) :
      readExponent ⟨rest, line, column⟩ = .ok (none, ⟨rest, line, column⟩) := by
    cases rest with
    | nil => rfl
    | cons b rest =>
        obtain ⟨-, -, hsmall, hlarge⟩ := hrest b rfl
        simp [readExponent, hsmall, hlarge]
  obtain ⟨line', column', hwhole⟩ := readWhole_numeral n hrest line column
  refine ⟨line', column', ?_⟩
  simp only [readNumber, hwhole, hfraction, hexponent, bind, Except.bind]
  rw [hvalue]

end CodeAssist.Json
