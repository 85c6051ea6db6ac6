import CodeAssist.Proofs.Json.Inversion

namespace CodeAssist.Json

open Text (Bytes)

/-! What is read is also passed over, and the place behind it is the same. -/

theorem length_readWord_le {word : Bytes} {c c' : Cursor} (h : readWord word c = .ok c') :
    c'.rest.length ≤ c.rest.length := by
  induction word generalizing c with
  | nil =>
      cases h
      exact Nat.le_refl _
  | cons letter word ih =>
      rw [readWord] at h
      split at h
      · cases h
      · split at h
        · exact Nat.le_trans (ih h) c.length_bump_le
        · cases h
theorem length_digits_le (c : Cursor) : c.digits.2.rest.length ≤ c.rest.length :=
  (List.dropWhile_sublist _).length_le

theorem length_digits_lt {c : Cursor} (h : c.digits.1 ≠ []) :
    c.digits.2.rest.length < c.rest.length := by
  have hsplit := congrArg List.length
    (List.takeWhile_append_dropWhile (p := Cursor.isDigit) (l := c.rest))
  have hpos : 0 < (c.rest.takeWhile Cursor.isDigit).length := by
    rw [List.length_pos_iff]
    exact fun heq => h (by simp [Cursor.digits, heq])
  rw [List.length_append] at hsplit
  change (c.rest.dropWhile Cursor.isDigit).length < _
  omega

theorem readWhole_eq_ok {c c' : Cursor} {whole : List Nat} (h : readWhole c = .ok (whole, c')) :
    c.digits = (whole, c') ∧ whole ≠ [] ∧ ∀ d rest, whole ≠ 0 :: d :: rest := by
  unfold readWhole at h
  generalize c.digits = found at h ⊢
  obtain ⟨digits, after⟩ := found
  dsimp only at h
  split at h
  case h_1 => cases h
  case h_2 => cases h
  case h_3 hne hzero =>
    cases h
    exact ⟨rfl, hne, fun d rest heq => hzero d rest heq⟩

theorem readFraction_eq_ok {c c' : Cursor} {fraction : List Nat}
    (h : readFraction c = .ok (fraction, c')) :
    (c' = c ∧ ∀ rest, c.rest ≠ 46 :: rest) ∨
      ∃ rest, c.rest = 46 :: rest ∧ c.bump.digits = (fraction, c') ∧ fraction ≠ [] := by
  unfold readFraction at h
  generalize c.bump.digits = found at h ⊢
  obtain ⟨digits, after⟩ := found
  split at h
  case h_1 rest heq =>
    by_cases hempty : digits = []
    · simp [hempty] at h
    · simp only [List.isEmpty_iff, hempty, if_false, Except.ok.injEq, Prod.mk.injEq] at h
      obtain ⟨rfl, rfl⟩ := h
      exact .inr ⟨rest, heq, rfl, hempty⟩
  case h_2 hnone =>
    cases h
    exact .inl ⟨rfl, hnone⟩

theorem length_readExponentSign_le (c : Cursor) :
    (readExponentSign c).2.rest.length ≤ c.rest.length := by
  unfold readExponentSign
  split <;> first | exact c.length_bump_le | exact Nat.le_refl _

theorem readExponent_eq_ok {c c' : Cursor} {exponent : Option (Bool × List Nat)}
    (h : readExponent c = .ok (exponent, c')) :
    (c' = c ∧ ∀ b rest, c.rest = b :: rest → (b == 101 || b == 69) = false) ∨
      ∃ b rest digits, c.rest = b :: rest ∧ (b == 101 || b == 69) = true ∧
        (readExponentSign c.bump).2.digits = (digits, c') ∧ digits ≠ [] := by
  unfold readExponent at h
  generalize hsign : readExponentSign c.bump = sign at h ⊢
  obtain ⟨up, behind⟩ := sign
  split at h
  case h_1 b rest heq =>
    cases hletter : b == 101 || b == 69 with
    | false =>
        rw [if_neg (by simp [hletter])] at h
        cases h
        exact .inl ⟨rfl, fun _ _ heq' => by rwa [(List.cons.inj (heq.symm.trans heq')).1] at hletter⟩
    | true =>
        rw [if_pos hletter] at h
        by_cases hempty : behind.digits.1 = []
        · simp [hempty] at h
        · simp only [List.isEmpty_iff, hempty, if_false, Except.ok.injEq, Prod.mk.injEq] at h
          obtain ⟨-, rfl⟩ := h
          exact .inr ⟨b, rest, _, heq, hletter, rfl, hempty⟩
  case h_2 heq =>
    cases h
    exact .inl ⟨rfl, fun b rest heq' => nomatch heq.symm.trans heq'⟩

def skipExponent (c : Cursor) : Except ReadError Cursor :=
  match c.rest with
  | b :: _ =>
      if b == 101 || b == 69 then
        let (_, c) := readExponentSign c.bump
        let (digits, after) := c.digits
        if digits.isEmpty then .error (c.bump.fail .invalidNumber) else .ok after
      else .ok c
  | [] => .ok c

theorem skipExponent_of_readExponent {c c' : Cursor} {exponent : Option (Bool × List Nat)}
    (h : readExponent c = .ok (exponent, c')) :
    skipExponent c = .ok c' ∧ c'.rest.length ≤ c.rest.length := by
  obtain ⟨rfl, hnone⟩ | ⟨b, rest, digits, hrest, hletter, hdigits, hne⟩ := readExponent_eq_ok h
  · refine ⟨?_, Nat.le_refl _⟩
    unfold skipExponent
    split
    case h_1 b rest heq => rw [if_neg (by simp [hnone b rest heq])]
    case h_2 => rfl
  · have hbehind := length_digits_le (readExponentSign c.bump).2
    rw [hdigits] at hbehind
    refine ⟨?_, Nat.le_trans hbehind
      (Nat.le_trans (length_readExponentSign_le _) c.length_bump_le)⟩
    unfold skipExponent
    simp [hrest, hletter, hdigits, hne]

theorem skipNumber_of_readNumber {negative : Bool} {c c' : Cursor} {n : Number}
    (h : readNumber negative c = .ok (n, c')) : skipNumber c = .ok c' ∧ Goes c c' := by
  rw [readNumber] at h
  simp only [bind_eq_ok_iff, Prod.exists] at h
  obtain ⟨whole, c₁, hwhole, fraction, c₂, hfraction, exponent, c₃, hexponent, h⟩ := h
  obtain ⟨hdigits, hne, hzero⟩ := readWhole_eq_ok hwhole
  obtain rfl : c' = c₃ := by
    split at h <;> cases h
    rfl
  have hlength : c₁.rest.length < c.rest.length := by
    have hless := length_digits_lt (c := c) (by rw [hdigits]; exact hne)
    rwa [hdigits] at hless
  obtain ⟨hskip, hbehind⟩ := skipExponent_of_readExponent hexponent
  have hnumber : skipNumber c = skipExponent c₂ ∧ c₂.rest.length ≤ c₁.rest.length := by
    rw [skipNumber, hdigits]
    dsimp only
    split
    case h_1 => exact absurd rfl hne
    case h_2 => exact absurd rfl (hzero _ _)
    case h_3 =>
      obtain ⟨rfl, hnone⟩ | ⟨rest, hrest, hmore, hsome⟩ := readFraction_eq_ok hfraction
      · refine ⟨?_, Nat.le_refl _⟩
        split
        case h_1 rest heq => exact absurd heq (hnone rest)
        case h_2 => rfl
      · have hless := length_digits_le c₁.bump
        rw [hmore] at hless
        refine ⟨?_, Nat.le_trans hless c₁.length_bump_le⟩
        simp only [hrest, hmore]
        rw [if_neg (by simpa using hsome)]
        rfl
  exact ⟨hnumber.1.trans hskip,
    Nat.lt_of_le_of_lt (Nat.le_trans hbehind hnumber.2) hlength⟩

/-- Where the reader stands that only passes over a text: it knows no halves of characters. -/
def Within.loose : Within → Within
  | .plain => .plain
  | .escape => .escape
  | .hex _ got => .hex none got
  | .secondEscape _ => .plain
  | .secondLetter _ => .escape

theorem unitEffect_loose (lead : Option Nat) (n : Nat) :
    (∃ fault, unitEffect true lead n = .stop fault) ∨
      ∃ next more, unitEffect true lead n = .next next more ∧ next.loose = .plain := by
  unfold unitEffect
  cases lead with
  | none =>
      by_cases htrail : isTrail n
      · exact .inl ⟨_, by simp [htrail]; rfl⟩
      · by_cases hlead : isLead n
        · exact .inr ⟨.secondEscape n, [], by simp [htrail, hlead], rfl⟩
        · exact .inr ⟨.plain, _, by simp [htrail, hlead]; rfl, rfl⟩
  | some first =>
      by_cases htrail : isTrail n
      · exact .inr ⟨.plain, _, by simp [htrail]; rfl, rfl⟩
      · exact .inl ⟨_, by simp [htrail]; rfl⟩

/-- An octet that is no fault has the same effect when the text is only passed over. -/
inductive Loosens : Effect → Effect → Prop
  | stop (fault : Fault) (other : Effect) : Loosens (.stop fault) other
  | keep : Loosens .keep .keep
  | close : Loosens .close .close
  | next (within : Within) (more more' : Bytes) :
      Loosens (.next within more) (.next within.loose more')

theorem loosens_escape (b : UInt8) : Loosens (escapeEffect b) (escapeEffect b) := by
  unfold escapeEffect
  split
  case h_10 => exact .stop _ _
  all_goals exact .next _ _ _

theorem loosens_effect (within : Within) (b : UInt8) :
    Loosens (effect true within b) (effect false within.loose b) := by
  cases within with
  | plain =>
      unfold effect Within.loose
      by_cases hquote : b == 34
      · simp only [hquote, if_true]
        exact .close
      · by_cases hslash : b == 92
        · simp only [hquote, hslash, if_true]
          exact .next .escape [] []
        · by_cases hcontrol : b < 32
          · simp only [hquote, hslash, hcontrol, if_true]
            exact .stop _ _
          · simp only [hquote, hslash, hcontrol]
            exact .keep
  | escape => exact loosens_escape b
  | hex lead got =>
      unfold effect Within.loose
      by_cases hfew : (got ++ [b]).length < 4
      · simp only [hfew, if_true]
        exact .next (.hex lead (got ++ [b])) [] []
      · simp only [hfew, if_false]
        cases hexUnit? (got ++ [b]) with
        | none => exact .stop _ _
        | some n =>
            have hplain : unitEffect false none n = .next .plain [] := rfl
            obtain ⟨fault, hstop⟩ | ⟨next, more, hnext, hloose⟩ := unitEffect_loose lead n
            · simp only [hstop]
              exact .stop _ _
            · simp only [hnext, hplain, ← hloose]
              exact .next _ _ _
  | secondEscape lead =>
      unfold effect Within.loose
      by_cases hslash : b = 92
      · subst hslash
        exact .next (.secondLetter lead) [] []
      · simp only [beq_iff_eq, hslash, if_false]
        exact .stop _ _
  | secondLetter lead =>
      unfold effect Within.loose
      by_cases hletter : b = 117
      · subst hletter
        exact .next (.hex (some lead) []) [] []
      · simp only [beq_iff_eq, hletter, if_false]
        exact .stop _ _

theorem readOctets_loose {within : Within} {run : Nat} {out rest octets : Bytes}
    {line column : Nat} {c' : Cursor}
    (h : readOctets true within run out rest line column = .ok (octets, c')) (run' : Nat)
    (out' : Bytes) :
    ∃ octets', readOctets false within.loose run' out' rest line column = .ok (octets', c') ∧
      c'.rest.length < rest.length := by
  -- What is kept on the way differs between the two, where they stand does not.
  induction rest generalizing within run out line column run' out' with
  | nil => cases h
  | cons b rest ih =>
      have hbump : (Cursor.bump ⟨b :: rest, line, column⟩).rest = rest := by
        rw [Cursor.bump]
        dsimp only
        split <;> rfl
      rw [readOctets] at h ⊢
      dsimp only at h ⊢
      have heffect := loosens_effect within b
      generalize effect true within b = strict at h heffect
      generalize effect false within.loose b = loose at heffect ⊢
      cases heffect with
      | stop => simp at h
      | keep =>
          obtain ⟨octets', hread, hless⟩ := ih h (run' + 1) (b :: out')
          exact ⟨octets', hread, Nat.lt_succ_of_lt hless⟩
      | close =>
          simp only [if_true, bind_eq_ok_iff] at h
          obtain ⟨-, -, heq⟩ := h
          cases heq
          exact ⟨out'.reverse, rfl, by rw [hbump]; exact Nat.lt_succ_self _⟩
      | next next more more' =>
          simp only [if_true, bind_eq_ok_iff] at h
          obtain ⟨-, -, hrest⟩ := h
          obtain ⟨octets', hread, hless⟩ := ih hrest 0 (more'.reverse ++ out')
          exact ⟨octets', hread, Nat.lt_succ_of_lt hless⟩

theorem skipText_of_readText {c c' : Cursor} {s : String} (h : readText c = .ok (s, c')) :
    skipText c = .ok c' ∧ Goes c c' := by
  simp only [readText, bind_eq_ok_iff, Prod.exists] at h
  obtain ⟨octets, after, hread, h⟩ := h
  obtain rfl : c' = after := by
    split at h <;> cases h
    rfl
  obtain ⟨octets', hskip, hless⟩ := readOctets_loose hread 0 []
  refine ⟨?_, hless⟩
  rw [skipText]
  exact bind_of_ok hskip _

section skipping

variable {fuel : Nat} {outer : Brackets} {inObject first more : Bool} {c c' : Cursor}

/-- Goes on behind closed brackets: to the next value, if some are still open. -/
def skipOn (fuel : Nat) (left : Brackets) (c : Cursor) : Except ReadError Cursor :=
  match left with
  | [] => .ok c
  | inObject :: _ => do
      let c ← if inObject then skipKey c else .ok c
      skipFrom fuel left c

/-- Goes on behind a value, or behind an opening bracket. -/
def skipAfter (fuel : Nat) (comma : Bool) (outer : Brackets) (c : Cursor) :
    Except ReadError Cursor := do
  let (left, c) ← skipClosing c.fuel comma outer c
  skipOn fuel left c

theorem skipKey_skipBlank (c : Cursor) : skipKey c.skipBlank = skipKey c := by
  rw [skipKey, skipKey, Cursor.skipBlank_skipBlank]

theorem skipFrom_skipBlank (hfuel : 0 < fuel) (c : Cursor) :
    skipFrom fuel outer c.skipBlank = skipFrom fuel outer c := by
  obtain ⟨fuel, rfl⟩ := Nat.exists_eq_succ_of_ne_zero (Nat.ne_zero_of_lt hfuel)
  rw [skipFrom, skipFrom, Cursor.skipBlank_skipBlank]

theorem skipOn_skipBlank (hfuel : 0 < fuel) (c : Cursor) :
    skipOn fuel (inObject :: outer) c.skipBlank = skipOn fuel (inObject :: outer) c := by
  cases inObject with
  | true => simp only [skipOn, if_true, skipKey_skipBlank]
  | false => exact skipFrom_skipBlank hfuel c

/-- Closing brackets takes up text, so it does not run out of fuel. -/
theorem skipClosing_eq {k k' : Nat} {comma : Bool} (hk : c.rest.length < k)
    (hk' : c.rest.length < k') : skipClosing k comma outer c = skipClosing k' comma outer c := by
  induction outer generalizing k k' comma c with
  | nil =>
      obtain ⟨k, rfl⟩ := Nat.exists_eq_succ_of_ne_zero (Nat.ne_zero_of_lt hk)
      obtain ⟨k', rfl⟩ := Nat.exists_eq_succ_of_ne_zero (Nat.ne_zero_of_lt hk')
      rfl
  | cons inObject outer ih =>
      obtain ⟨k, rfl⟩ := Nat.exists_eq_succ_of_ne_zero (Nat.ne_zero_of_lt hk)
      obtain ⟨k', rfl⟩ := Nat.exists_eq_succ_of_ne_zero (Nat.ne_zero_of_lt hk')
      rw [skipClosing, skipClosing]
      split
      · rfl
      case h_2 b rest hrest =>
        have hless := Nat.lt_of_lt_of_le (Cursor.length_bump_lt hrest) c.length_skipBlank_le
        have hk₁ : c.skipBlank.bump.rest.length < k := by omega
        have hk₂ : c.skipBlank.bump.rest.length < k' := by omega
        rw [ih hk₁ hk₂]

theorem skipAfter_close {rest : Bytes} {comma : Bool}
    (hrest : c.skipBlank.rest = closing inObject :: rest) :
    skipAfter fuel comma (inObject :: outer) c = skipAfter fuel true outer c.skipBlank.bump := by
  have hless := Nat.lt_of_lt_of_le (Cursor.length_bump_lt hrest) c.length_skipBlank_le
  have hclosed : skipClosing c.fuel comma (inObject :: outer) c =
      skipClosing c.skipBlank.bump.fuel true outer c.skipBlank.bump := by
    rw [Cursor.fuel, skipClosing, hrest, closing]
    dsimp only
    rw [if_pos (beq_self_eq_true _)]
    exact skipClosing_eq hless (Nat.lt_succ_self _)
  rw [skipAfter, hclosed]
  rfl

theorem skipAfter_part (inObject : Bool) (h : Another (closing inObject) first c true c')
    (hfuel : 0 < fuel) :
    skipAfter fuel (!first) (inObject :: outer) c = skipOn fuel (inObject :: outer) c' := by
  cases h with
  | @first _ b rest hrest hb =>
      have hopen : skipClosing c.fuel false (inObject :: outer) c =
          .ok (inObject :: outer, c.skipBlank) := by
        rw [Cursor.fuel, skipClosing, hrest]
        dsimp only
        rw [← closing, if_neg (by simpa using hb)]
        simp
      rw [Bool.not_true, skipAfter, bind_of_ok hopen]
  | @later _ b rest rest' hcomma hclose hrest =>
      have hopen : skipClosing c.fuel true (inObject :: outer) c =
          .ok (inObject :: outer, c.skipBlank.bump) := by
        rw [Cursor.fuel, skipClosing, hcomma]
        dsimp only
        rw [← closing, if_neg (by simpa using hclose)]
        simp
      rw [Bool.not_false, skipAfter, bind_of_ok hopen]
      exact (skipOn_skipBlank hfuel _).symm

theorem skipFrom_scalar {b : UInt8} {rest : Bytes} (hrest : c.skipBlank.rest = b :: rest)
    (hlist : b ≠ 91) (hobject : b ≠ 123) (hskip : skipScalar c.skipBlank b = .ok c') :
    skipFrom (fuel + 1) outer c = skipAfter fuel true outer c' := by
  rw [skipFrom, hrest]
  dsimp only
  rw [if_neg (by simpa using hlist), if_neg (by simpa using hobject), hskip]
  rfl

theorem skipFrom_open (inObject : Bool) {rest : Bytes}
    (hrest : c.skipBlank.rest = (if inObject then 123 else 91) :: rest) :
    skipFrom (fuel + 1) outer c = skipAfter fuel false (inObject :: outer) c.skipBlank.bump := by
  rw [skipFrom, hrest]
  cases inObject <;> rfl

/-- What `value` reads is passed over, whatever encloses it. -/
def Passes (value : Cursor → Except ReadError (Json × Cursor)) : Prop :=
  ∀ c j c', value c = .ok (j, c') → Goes c c' ∧
    ∀ outer fuel, c.rest.length < fuel → ∃ fuel', c'.rest.length < fuel' ∧
      skipFrom fuel outer c = skipAfter fuel' true outer c'

theorem length_readColon_le (h : readColon c = .ok c') : c'.rest.length ≤ c.rest.length := by
  unfold readColon at h
  dsimp only at h
  split at h <;> cases h
  exact Nat.le_trans (Cursor.length_bump_le _) c.length_skipBlank_le

theorem skipKey_of_read {rest : Bytes} {key : String} {behind : Cursor} (hrest : c.rest = 34 :: rest)
    (hkey : readText c.bump = .ok (key, behind)) (hcolon : readColon behind = .ok c') :
    skipKey c = .ok c' := by
  rw [skipKey, Cursor.skipBlank_of_rest hrest rfl]
  simp only [hrest]
  exact (bind_of_ok (skipText_of_readText hkey).1 _).trans hcolon

/-- The closing bracket is passed over, whether or not a value came before it. -/
theorem skipAfter_done (inObject : Bool) (h : Another (closing inObject) first c false c') :
    Goes c c'.bump ∧ ∀ outer fuel, c.rest.length < fuel → ∃ fuel', c'.bump.rest.length < fuel' ∧
      skipAfter fuel (!first) (inObject :: outer) c = skipAfter fuel' true outer c'.bump := by
  cases h with
  | @none _ _ rest hclose =>
      have hgoes : Goes c c.skipBlank.bump :=
        Nat.lt_of_lt_of_le (Cursor.length_bump_lt hclose) c.length_skipBlank_le
      exact ⟨hgoes, fun outer fuel hfuel => ⟨fuel, Nat.lt_trans hgoes hfuel, skipAfter_close hclose⟩⟩

section nested

variable {value : Cursor → Except ReadError (Json × Cursor)} (hvalue : Passes value)
include hvalue

theorem skipAfter_of_readItems {n : Nat} {items : List Json}
    (h : readItems value n first [] c = .ok (items, c')) : Goes c c' ∧
      ∀ outer fuel, c.rest.length < fuel → ∃ fuel', c'.rest.length < fuel' ∧
        skipAfter fuel (!first) (false :: outer) c = skipAfter fuel' true outer c' := by
  induction n generalizing first items c with
  | zero => cases h
  | succ n ih =>
      obtain ⟨c₁, hanother, -, rfl⟩ | ⟨c₁, j, c₂, later, hanother, hread, hlater, -⟩ :=
        readItems_eq_ok_iff.mp h
      · exact skipAfter_done false (another_of_item hanother)
      · have hplace := another_of_item hanother
        obtain ⟨hgoes, hskip⟩ := hvalue _ _ _ hread
        obtain ⟨hgoes', hskip'⟩ := ih hlater
        -- Passing over the item leaves some fuel that suffices, and the others go on with that.
        refine ⟨Nat.lt_trans hgoes' (Nat.lt_of_lt_of_le hgoes hplace.length_le),
          fun outer fuel hfuel => ?_⟩
        obtain ⟨fuel', hfuel', heq⟩ :=
          hskip (false :: outer) fuel (Nat.lt_of_le_of_lt hplace.length_le hfuel)
        obtain ⟨fuel'', hfuel'', heq'⟩ := hskip' outer fuel' hfuel'
        refine ⟨fuel'', hfuel'', ?_⟩
        rw [skipAfter_part false hplace (Nat.zero_lt_of_lt hfuel)]
        exact heq.trans heq'

theorem skipAfter_of_readMembers {n : Nat} {members found : List (String × Json)}
    (h : readMembers (keepMember value) n first members c = .ok (found, c')) : Goes c c'.bump ∧
      ∀ outer fuel, c.rest.length < fuel → ∃ fuel', c'.bump.rest.length < fuel' ∧
        skipAfter fuel (!first) (true :: outer) c = skipAfter fuel' true outer c'.bump := by
  induction n generalizing first members c with
  | zero => cases h
  | succ n ih =>
      obtain ⟨hanother, -⟩ | ⟨c₁, key, c₂, between, c₄, hanother, hkey, hmember, hlater⟩ :=
        readMembers_eq_ok_iff.mp h
      · exact skipAfter_done true (another_of_member hanother).1
      · obtain ⟨hplace, hquote⟩ := another_of_member hanother
        obtain ⟨rest, hrest⟩ := hquote rfl
        obtain ⟨c₃, j, hcolon, hread, -⟩ := keepMember_eq_ok_iff.mp hmember
        obtain ⟨hgoes, hskip⟩ := hvalue _ _ _ hread
        obtain ⟨hgoes', hskip'⟩ := ih hlater
        have hless : c₃.rest.length < c₁.rest.length :=
          Nat.lt_of_le_of_lt (length_readColon_le hcolon)
            (Nat.lt_of_lt_of_le (skipText_of_readText hkey).2 c₁.length_bump_le)
        refine ⟨Nat.lt_trans hgoes' (Nat.lt_of_lt_of_le (Nat.lt_trans hgoes hless)
          hplace.length_le), fun outer fuel hfuel => ?_⟩
        obtain ⟨fuel', hfuel', heq⟩ := hskip (true :: outer) fuel
          (Nat.lt_trans hless (Nat.lt_of_le_of_lt hplace.length_le hfuel))
        obtain ⟨fuel'', hfuel'', heq'⟩ := hskip' outer fuel' hfuel'
        refine ⟨fuel'', hfuel'', ?_⟩
        rw [skipAfter_part true hplace (Nat.zero_lt_of_lt hfuel), skipOn,
          if_pos rfl, bind_of_ok (skipKey_of_read hrest hkey hcolon)]
        exact heq.trans heq'

end nested

theorem Scalar.skip {j : Json} (h : Scalar c j c') : ∃ b rest, c.rest = b :: rest ∧
    b ≠ 91 ∧ b ≠ 123 ∧ skipScalar c b = .ok c' ∧ Goes c c' := by
  have hword {word : Bytes} {b : UInt8} {rest : Bytes} (hfirst : c.rest = b :: rest)
      (hread : readWord word c.bump = .ok c') : Goes c c' :=
    Nat.lt_of_le_of_lt (length_readWord_le hread) (Cursor.length_bump_lt hfirst)
  cases h with
  | null hfirst hread => exact ⟨_, _, hfirst, by decide, by decide, hread, hword hfirst hread⟩
  | true hfirst hread => exact ⟨_, _, hfirst, by decide, by decide, hread, hword hfirst hread⟩
  | false hfirst hread => exact ⟨_, _, hfirst, by decide, by decide, hread, hword hfirst hread⟩
  | negative hfirst hread =>
      obtain ⟨hskip, hgoes⟩ := skipNumber_of_readNumber hread
      exact ⟨_, _, hfirst, by decide, by decide, hskip,
        Nat.lt_of_lt_of_le hgoes c.length_bump_le⟩
  | text hfirst hread =>
      obtain ⟨hskip, hgoes⟩ := skipText_of_readText hread
      exact ⟨_, _, hfirst, by decide, by decide, hskip,
        Nat.lt_of_lt_of_le hgoes c.length_bump_le⟩
  | @number b rest _ _ hfirst hdigit hread =>
      obtain ⟨hskip, hgoes⟩ := skipNumber_of_readNumber hread
      have hother {d : UInt8} (hd : ¬Cursor.isDigit d) : b ≠ d := by
        rintro rfl
        exact hd hdigit
      refine ⟨b, rest, hfirst, hother (by decide), hother (by decide), ?_, hgoes⟩
      rw [skipScalar, if_pos hdigit]
      · exact hskip
      all_goals exact hother (by decide)

theorem passes_readValueWith {nested : Option (Cursor → Except ReadError (Json × Cursor))}
    (hnested : ∀ value, nested = some value → Passes value) : Passes (readValueWith nested) := by
  intro c j c' h
  have hblank := c.length_skipBlank_le
  cases opens_of_read h with
  | scalar hread =>
      obtain ⟨b, rest, hfirst, hlist, hobject, hskip, hgoes⟩ := hread.skip
      have hless : Goes c c' := Nat.lt_of_lt_of_le hgoes hblank
      refine ⟨hless, fun outer fuel hfuel => ?_⟩
      obtain ⟨fuel, rfl⟩ := Nat.exists_eq_succ_of_ne_zero (Nat.ne_zero_of_lt hfuel)
      exact ⟨fuel, Nat.lt_of_lt_of_le hless (Nat.le_of_lt_succ hfuel),
        skipFrom_scalar hfirst hlist hobject hskip⟩
  | list hvalue hfirst hread =>
      have hopen := Nat.lt_of_lt_of_le (Cursor.length_bump_lt hfirst) hblank
      obtain ⟨hgoes, hskip⟩ := skipAfter_of_readItems (hnested _ hvalue) hread
      refine ⟨Nat.lt_trans hgoes hopen, fun outer fuel hfuel => ?_⟩
      obtain ⟨fuel, rfl⟩ := Nat.exists_eq_succ_of_ne_zero (Nat.ne_zero_of_lt hfuel)
      rw [skipFrom_open false hfirst]
      exact hskip outer fuel (Nat.lt_of_lt_of_le hopen (Nat.le_of_lt_succ hfuel))
  | object hvalue hfirst hread =>
      have hopen := Nat.lt_of_lt_of_le (Cursor.length_bump_lt hfirst) hblank
      obtain ⟨hgoes, hskip⟩ := skipAfter_of_readMembers (hnested _ hvalue) hread
      refine ⟨Nat.lt_trans hgoes hopen, fun outer fuel hfuel => ?_⟩
      obtain ⟨fuel, rfl⟩ := Nat.exists_eq_succ_of_ne_zero (Nat.ne_zero_of_lt hfuel)
      rw [skipFrom_open true hfirst]
      exact hskip outer fuel (Nat.lt_of_lt_of_le hopen (Nat.le_of_lt_succ hfuel))

theorem passes_readValue (depth : Nat) : Passes (readValue depth) := by
  induction depth with
  | zero => exact passes_readValueWith fun _ hvalue => nomatch hvalue
  | succ depth ih =>
      refine passes_readValueWith fun value hvalue => ?_
      cases hvalue
      exact ih

/-- A value that can be read is passed over up to the same place when nobody asks for it. -/
theorem skipValue_of_readValue {depth : Nat} {j : Json} (h : readValue depth c = .ok (j, c')) :
    skipValue c = .ok c' := by
  obtain ⟨-, hskip⟩ := passes_readValue depth _ _ _ h
  obtain ⟨fuel, -, heq⟩ := hskip [] c.fuel (Nat.lt_succ_self _)
  exact heq

end skipping

end CodeAssist.Json
