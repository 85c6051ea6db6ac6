import CodeAssist.Json.Scan
import CodeAssist.Proofs.Json.Skipping
import CodeAssist.Proofs.Json.Record

namespace CodeAssist.Json

/-! What is scanned from a text is what the document that stands there is read as. -/

section

variable {α : Type} {depth : Nat} {c c' : Cursor}

/-- A value is scanned if and only if a document can be read there that stands for it. -/
def Exact (depth : Nat) (scan : Cursor → Except ReadError (α × Cursor))
    (decode : Json → Except Mismatch α) : Prop :=
  ∀ c a c', scan c = .ok (a, c') ↔ ∃ j, readValue depth c = .ok (j, c') ∧ decode j = .ok a

/-- Where a document can be read, what it stands for is scanned. -/
def Follows (depth : Nat) (scan : Cursor → Except ReadError (α × Cursor))
    (decode : Json → Except Mismatch α) : Prop :=
  ∀ c j c', readValue depth c = .ok (j, c') →
    ∀ a c'', scan c = .ok (a, c'') ↔ decode j = .ok a ∧ c'' = c'

theorem Exact.follows {scan : Cursor → Except ReadError (α × Cursor)}
    {decode : Json → Except Mismatch α} (h : Exact depth scan decode) :
    Follows depth scan decode := by
  intro c j c' hread a c''
  rw [h]
  constructor
  · rintro ⟨j', hread', hdecode⟩
    cases hread.symm.trans hread'
    exact ⟨hdecode, rfl⟩
  · rintro ⟨hdecode, rfl⟩
    exact ⟨j, hread, hdecode⟩

theorem lookAhead_eq_ok_iff {b : UInt8} :
    lookAhead c = .ok (b, c') ↔ ∃ rest, c.skipBlank.rest = b :: rest ∧ c' = c.skipBlank := by
  unfold lookAhead
  cases hrest : c.skipBlank.rest <;> simp [hrest, eq_comm]

theorem lookAhead_eq {b : UInt8} {rest : Text.Bytes} (hrest : c.skipBlank.rest = b :: rest) :
    lookAhead c = .ok (b, c.skipBlank) :=
  lookAhead_eq_ok_iff.mpr ⟨rest, hrest, rfl⟩

theorem readValue_scalar {j : Json} (h : Scalar c.skipBlank j c') :
    readValue depth c = .ok (j, c') := by
  cases depth <;> exact h.read

def isScalar : Json → Bool
  | .list _ | .object _ => false
  | .null | .boolean _ | .number _ | .text _ => true

theorem scalar_of_readValue {j : Json} (hj : j.isScalar) (h : readValue depth c = .ok (j, c')) :
    Scalar c.skipBlank j c' := by
  cases depth <;> cases opens_of_read h <;> first | assumption | cases hj

theorem exists_opens {j : Json} (h : readValue depth c = .ok (j, c')) :
    ∃ nested, Opens nested c.skipBlank j c' := by
  cases depth <;> exact ⟨_, opens_of_read h⟩

theorem isScalar_of_readValue_zero {j : Json} (h : readValue 0 c = .ok (j, c')) : j.isScalar := by
  cases opens_of_read h with
  | scalar hread => cases hread <;> rfl
  | list hnested => cases hnested
  | object hnested => cases hnested

theorem readValue_scalar_iff (depth : Nat) {j : Json} (hj : j.isScalar) :
    readValue depth c = .ok (j, c') ↔ Scalar c.skipBlank j c' :=
  ⟨scalar_of_readValue hj, readValue_scalar⟩

theorem scanText_iff {expected s : String} :
    scanText expected c = .ok (s, c') ↔ Scalar c.skipBlank (.text s) c' := by
  simp only [scanText, bind_eq_ok_iff, Prod.exists, lookAhead_eq_ok_iff]
  constructor
  · rintro ⟨b, _, ⟨rest, hfirst, rfl⟩, h⟩
    split at h
    case isTrue hb =>
      obtain rfl := beq_iff_eq.mp hb
      exact .text hfirst h
    case isFalse => cases h
  · intro h
    cases h with
    | text hfirst hread => exact ⟨34, _, ⟨_, hfirst, rfl⟩, hread⟩

theorem scanFlag_iff {b : Bool} :
    scanFlag c = .ok (b, c') ↔ Scalar c.skipBlank (.boolean b) c' := by
  simp only [scanFlag, bind_eq_ok_iff, Prod.exists, lookAhead_eq_ok_iff]
  constructor
  · rintro ⟨first, _, ⟨rest, hfirst, rfl⟩, h⟩
    split at h
    case isTrue htrue =>
      obtain rfl := beq_iff_eq.mp htrue
      obtain ⟨c₁, hread, heq⟩ := bind_eq_ok_iff.mp h
      cases heq
      exact .true hfirst hread
    case isFalse =>
      split at h
      case isTrue hfalse =>
        obtain rfl := beq_iff_eq.mp hfalse
        obtain ⟨c₁, hread, heq⟩ := bind_eq_ok_iff.mp h
        cases heq
        exact .false hfirst hread
      case isFalse => cases h
  · intro h
    cases h with
    | true hfirst hread => exact ⟨116, _, ⟨_, hfirst, rfl⟩, bind_of_ok hread _⟩
    | false hfirst hread => exact ⟨102, _, ⟨_, hfirst, rfl⟩, bind_of_ok hread _⟩

theorem scanUnit_iff : scanUnit c = .ok c' ↔ Scalar c.skipBlank .null c' := by
  simp only [scanUnit, bind_eq_ok_iff, Prod.exists, lookAhead_eq_ok_iff]
  constructor
  · rintro ⟨b, _, ⟨rest, hfirst, rfl⟩, h⟩
    split at h
    case isTrue hb =>
      obtain rfl := beq_iff_eq.mp hb
      exact .null hfirst h
    case isFalse => cases h
  · intro h
    cases h with
    | null hfirst hread => exact ⟨110, _, ⟨_, hfirst, rfl⟩, hread⟩

theorem unsigned_checked_iff {width : Width} {number : Number} {n : Nat} :
    (match unsignedOf width number with
      | .ok value => .ok (value, c)
      | .error cause => .error (mismatchAt c cause)) = Except.ok (n, c') ↔
        unsignedOf width number = .ok n ∧ c' = c := by
  cases unsignedOf width number <;> simp [eq_comm]

theorem scanUnsigned_iff {width : Width} {n : Nat} :
    scanUnsigned width c = .ok (n, c') ↔
      ∃ number, Scalar c.skipBlank (.number number) c' ∧ unsignedOf width number = .ok n := by
  simp only [scanUnsigned, bind_eq_ok_iff, Prod.exists, lookAhead_eq_ok_iff]
  constructor
  · rintro ⟨b, _, ⟨rest, hfirst, rfl⟩, h⟩
    split at h
    case isFalse => cases h
    case isTrue hb =>
      split at h
      case isTrue hminus =>
        obtain rfl := beq_iff_eq.mp hminus
        obtain ⟨⟨number, c₁⟩, hread, h⟩ := bind_eq_ok_iff.mp h
        obtain ⟨hvalue, rfl⟩ := unsigned_checked_iff.mp h
        exact ⟨number, .negative hfirst hread, hvalue⟩
      case isFalse hminus =>
        have hdigit := (Bool.or_eq_true_iff.mp hb).resolve_left hminus
        obtain ⟨⟨number, c₁⟩, hread, h⟩ := bind_eq_ok_iff.mp h
        obtain ⟨hvalue, rfl⟩ := unsigned_checked_iff.mp h
        exact ⟨number, .number hfirst hdigit hread, hvalue⟩
  · rintro ⟨number, h, hvalue⟩
    cases h with
    | negative hfirst hread =>
        refine ⟨45, _, ⟨_, hfirst, rfl⟩, ?_⟩
        simp [hread, hvalue, bind, Except.bind]
    | @number b _ _ _ hfirst hdigit hread =>
        refine ⟨b, _, ⟨_, hfirst, rfl⟩, ?_⟩
        have hminus : (b == 45) = false := by
          refine beq_eq_false_iff_ne.mpr ?_
          rintro rfl
          exact absurd hdigit (by decide)
        simp [hread, hvalue, hdigit, hminus, bind, Except.bind]

theorem scanChosen_iff {names : List String} {expected : String} {index : Fin names.length} :
    scanChosen names expected c = .ok (index, c') ↔
      ∃ given, Scalar c.skipBlank (.text given) c' ∧ chosen names given = .ok index := by
  simp only [scanChosen, bind_eq_ok_iff, Prod.exists, scanText_iff]
  constructor
  · rintro ⟨given, c₁, hscalar, h⟩
    cases hchosen : chosen names given with
    | error => simp [hchosen] at h
    | ok found =>
        simp only [hchosen, Except.ok.injEq, Prod.mk.injEq] at h
        obtain ⟨rfl, rfl⟩ := h
        exact ⟨given, hscalar, hchosen⟩
  · rintro ⟨given, hscalar, hchosen⟩
    exact ⟨given, c', hscalar, by simp [hchosen]⟩

theorem anotherMember_done_iff {first : Bool} : anotherMember first c = .ok (false, c') ↔
    (∃ rest, c.skipBlank.rest = 125 :: rest) ∧ c' = c.skipBlank := by
  constructor
  · intro h
    cases (another_of_member h).1 with
    | none hclose => exact ⟨⟨_, hclose⟩, rfl⟩
  · rintro ⟨⟨rest, hclose⟩, rfl⟩
    simp [anotherMember, hclose]

theorem lookForKey_iff : lookForKey c = .ok c' ↔ anotherMember true c = .ok (true, c') := by
  unfold lookForKey anotherMember
  cases hrest : c.skipBlank.rest with
  | nil => simp [hrest]
  | cons b rest =>
      by_cases hquote : b = 34
      · simp [hrest, hquote]
      · by_cases hclose : b = 125
        · simp [hrest, hclose]
        · simp [hrest, hquote, hclose]

/-- Members that are kept come in front of those kept before. -/
theorem exists_of_readMembers {value : Cursor → Except ReadError (Json × Cursor)} {n : Nat}
    {first : Bool} {before found : List (String × Json)}
    (h : readMembers (keepMember value) n first before c = .ok (found, c')) :
    ∃ later, found = later ++ before := by
  induction n generalizing first before c with
  | zero => cases h
  | succ n ih =>
      obtain ⟨-, rfl⟩ | ⟨_, key, _, between, _, -, -, hmember, hlater⟩ := readMembers_eq_ok_iff.mp h
      · exact ⟨[], rfl⟩
      · obtain ⟨_, j, -, -, rfl⟩ := keepMember_eq_ok_iff.mp hmember
        obtain ⟨later, rfl⟩ := ih hlater
        exact ⟨later ++ [(key, j)], by simp⟩

theorem readMembers_single_iff {value : Cursor → Except ReadError (Json × Cursor)} {n : Nat}
    {key : String} {j : Json} :
    readMembers (keepMember value) (n + 2) true [] c = .ok ([(key, j)], c') ↔
      ∃ c₁ c₂ c₃ c₄, anotherMember true c = .ok (true, c₁) ∧ readText c₁.bump = .ok (key, c₂) ∧
        readColon c₂ = .ok c₃ ∧ value c₃ = .ok (j, c₄) ∧ anotherMember false c₄ = .ok (false, c') := by
  constructor
  · intro h
    obtain ⟨-, hnone⟩ | ⟨c₁, _, c₂, _, c₄, hanother, hkey, hmember, hlater⟩ :=
      readMembers_eq_ok_iff.mp h
    · cases hnone
    obtain ⟨c₃, _, hcolon, hread, rfl⟩ := keepMember_eq_ok_iff.mp hmember
    obtain ⟨hdone, hsingle⟩ | ⟨_, _, _, _, _, -, -, hmember, hlater⟩ :=
      readMembers_eq_ok_iff.mp hlater
    · cases hsingle
      exact ⟨c₁, c₂, c₃, c₄, hanother, hkey, hcolon, hread, hdone⟩
    · obtain ⟨_, _, -, -, rfl⟩ := keepMember_eq_ok_iff.mp hmember
      obtain ⟨later, heq⟩ := exists_of_readMembers hlater
      have hlength := congrArg List.length heq
      simp at hlength
  · rintro ⟨c₁, c₂, c₃, c₄, hanother, hkey, hcolon, hread, hdone⟩
    refine readMembers_eq_ok_iff.mpr (.inr ⟨c₁, key, c₂, [(key, j)], c₄, hanother, hkey, ?_, ?_⟩)
    · exact keepMember_eq_ok_iff.mpr ⟨c₃, j, hcolon, hread, rfl⟩
    · exact readMembers_eq_ok_iff.mpr (.inl ⟨hdone, rfl⟩)

theorem readValue_object_iff {members : List (String × Json)} :
    readValue depth c = .ok (.object members, c') ↔ ∃ inner rest c₁, depth = inner + 1 ∧
      c.skipBlank.rest = 123 :: rest ∧
      readMembers (keepMember (readValue inner)) c.skipBlank.fuel true [] c.skipBlank.bump =
        .ok (members.reverse, c₁) ∧ c' = c₁.bump := by
  constructor
  · intro h
    cases depth with
    | zero => cases isScalar_of_readValue_zero h
    | succ inner =>
        cases opens_of_read h with
        | scalar hread => cases hread
        | object hnested hfirst hread =>
            cases hnested
            rw [List.reverse_reverse]
            exact ⟨inner, _, _, rfl, hfirst, hread, rfl⟩
  · rintro ⟨inner, rest, c₁, rfl, hfirst, hread, rfl⟩
    have hopens : Opens (some (readValue inner)) c.skipBlank _ c₁.bump :=
      .object rfl hfirst hread
    rw [List.reverse_reverse] at hopens
    exact hopens.read

/-- How a choice is scanned that stands in an object. -/
theorem scanChoice_object_iff {names : List String} {index : Fin names.length} {rest : Text.Bytes}
    (hfirst : c.skipBlank.rest = 123 :: rest) :
    scanChoice (depth + 1) names c = .ok (index, c') ↔ ∃ given c₁, chosen names given = .ok index ∧
      readMembers (keepMember (readValue depth)) c.skipBlank.fuel true [] c.skipBlank.bump =
        .ok ([(given, .null)], c₁) ∧ c' = c₁.bump := by
  have hfuel : c.skipBlank.fuel = rest.length + 2 := by rw [Cursor.fuel, hfirst]; rfl
  rw [scanChoice, bind_of_ok (lookAhead_eq hfirst), hfuel]
  simp only [readMembers_single_iff, readValue_scalar_iff depth (rfl : isScalar .null),
    anotherMember_done_iff]
  constructor
  · intro h
    obtain ⟨c₁, hlook, h⟩ := bind_eq_ok_iff.mp h
    obtain ⟨⟨_, c₂⟩, hchosen, h⟩ := bind_eq_ok_iff.mp h
    obtain ⟨given, hscalar, hchosen⟩ := scanChosen_iff.mp hchosen
    obtain ⟨c₃, hcolon, h⟩ := bind_eq_ok_iff.mp h
    obtain ⟨c₄, hunit, h⟩ := bind_eq_ok_iff.mp h
    have hanother := lookForKey_iff.mp hlook
    obtain ⟨more, hquote⟩ := (another_of_member hanother).2 rfl
    rw [Cursor.skipBlank_of_rest hquote rfl] at hscalar
    cases hscalar with
    | text _ hkey =>
        dsimp only at h
        split at h
        case h_1 rest' hclose =>
          cases h
          exact ⟨given, _, hchosen, ⟨c₁, c₂, c₃, c₄, hanother, hkey, hcolon, scanUnit_iff.mp hunit,
            ⟨rest', hclose⟩, rfl⟩, rfl⟩
        case h_2 => cases h
        case h_3 => cases h
  · rintro ⟨given, _, hchosen, ⟨c₁, c₂, c₃, c₄, hanother, hkey, hcolon, hnull, ⟨rest', hclose⟩,
      rfl⟩, rfl⟩
    obtain ⟨more, hquote⟩ := (another_of_member hanother).2 rfl
    have hscanned : scanChosen names "variant identifier" c₁ = .ok (index, c₂) := by
      refine scanChosen_iff.mpr ⟨given, ?_, hchosen⟩
      rw [Cursor.skipBlank_of_rest hquote rfl]
      exact .text hquote hkey
    have hunit := scanUnit_iff.mpr hnull
    simp [lookForKey_iff.mpr hanother, hscanned, hcolon, hunit, hclose, bind, Except.bind]

theorem scanChoice_iff {names : List String} {index : Fin names.length} :
    scanChoice depth names c = .ok (index, c') ↔
      ∃ j, readValue depth c = .ok (j, c') ∧ choiceOf .document names j = .ok index := by
  simp only [choiceOf_document_iff]
  constructor
  · intro h
    have h' := h
    rw [scanChoice] at h
    obtain ⟨⟨b, _⟩, hlook, h⟩ := bind_eq_ok_iff.mp h
    obtain ⟨rest, hfirst, rfl⟩ := lookAhead_eq_ok_iff.mp hlook
    dsimp only at h
    split at h
    case isTrue =>
      obtain ⟨given, hscalar, hchosen⟩ := scanChosen_iff.mp h
      rw [Cursor.skipBlank_skipBlank] at hscalar
      exact ⟨.text given, readValue_scalar hscalar, given, hchosen, .inl rfl⟩
    case isFalse =>
      split at h
      case isFalse => cases h
      case isTrue hbrace =>
        obtain rfl := beq_iff_eq.mp hbrace
        cases depth with
        | zero => cases h
        | succ depth =>
            obtain ⟨given, c₁, hchosen, hread, rfl⟩ := (scanChoice_object_iff hfirst).mp h'
            exact ⟨.object [(given, .null)],
              readValue_object_iff.mpr ⟨depth, rest, c₁, rfl, hfirst, hread, rfl⟩, given, hchosen,
              .inr rfl⟩
  · rintro ⟨_, hread, given, hchosen, rfl | rfl⟩
    · have hscalar := scalar_of_readValue rfl hread
      rw [scanChoice]
      cases hscalar with
      | text hfirst htext =>
          rw [bind_of_ok (lookAhead_eq hfirst)]
          refine scanChosen_iff.mpr ⟨given, ?_, hchosen⟩
          rw [Cursor.skipBlank_skipBlank]
          exact .text hfirst htext
    · obtain ⟨inner, rest, c₁, rfl, hfirst, hmembers, rfl⟩ := readValue_object_iff.mp hread
      exact (scanChoice_object_iff hfirst).mpr ⟨given, c₁, hchosen, hmembers, rfl⟩

theorem readValue_skipBlank {j : Json} :
    readValue depth c.skipBlank = .ok (j, c') ↔ readValue depth c = .ok (j, c') := by
  cases depth <;> rw [readValue, readValueWith, readValueWith, Cursor.skipBlank_skipBlank]

theorem eq_null_iff {j : Json} (h : readValue depth c = .ok (j, c')) :
    j = .null ↔ ∃ rest, c.skipBlank.rest = 110 :: rest := by
  constructor
  · rintro rfl
    cases scalar_of_readValue rfl h with
    | null hfirst => exact ⟨_, hfirst⟩
  · rintro ⟨rest, hfirst⟩
    obtain ⟨_, hopens⟩ := exists_opens h
    have hother {b : UInt8} {rest' : Text.Bytes} (hrest : c.skipBlank.rest = b :: rest') : b = 110 :=
      (List.cons.inj (hrest.symm.trans hfirst)).1
    cases hopens with
    | list _ hrest => cases hother hrest
    | object _ hrest => cases hother hrest
    | scalar hscalar =>
        cases hscalar with
        | null => rfl
        | number hrest hdigit =>
            obtain rfl := hother hrest
            exact absurd hdigit (by decide)
        | true hrest => cases hother hrest
        | false hrest => cases hother hrest
        | negative hrest => cases hother hrest
        | text hrest => cases hother hrest

variable {shape : Shape}

/-- The value of an optional shape where no null stands. -/
theorem scan_optional_iff (hfirst : ∀ rest, c.skipBlank.rest ≠ 110 :: rest)
    {value : Option shape.Value} : (Shape.optional shape).scan depth c = .ok (value, c') ↔
      ∃ v, shape.scan depth c.skipBlank = .ok (v, c') ∧ value = some v := by
  rw [Shape.scan]
  dsimp only
  split
  case h_1 rest hrest => exact absurd hrest (hfirst rest)
  case h_2 =>
    simp only [bind_eq_ok_iff, Prod.exists, Except.ok.injEq, Prod.mk.injEq]
    constructor
    · rintro ⟨v, _, hscan, rfl, rfl⟩
      exact ⟨v, hscan, rfl⟩
    · rintro ⟨v, hscan, rfl⟩
      exact ⟨v, c', hscan, rfl, rfl⟩

theorem scan_optional_null {rest : Text.Bytes} (hfirst : c.skipBlank.rest = 110 :: rest)
    {value : Option shape.Value} : (Shape.optional shape).scan depth c = .ok (value, c') ↔
      Scalar c.skipBlank .null c' ∧ value = none := by
  rw [Shape.scan]
  simp only [hfirst, bind_eq_ok_iff, Except.ok.injEq, Prod.mk.injEq]
  constructor
  · rintro ⟨_, hread, rfl, rfl⟩
    exact ⟨.null hfirst hread, rfl⟩
  · rintro ⟨hnull, rfl⟩
    cases hnull with
    | null _ hread => exact ⟨c', hread, rfl, rfl⟩

theorem Follows.optional (h : Follows depth (shape.scan depth) (shape.ofJson .document)) :
    Follows depth ((Shape.optional shape).scan depth) ((Shape.optional shape).ofJson .document) := by
  intro c j c' hread value c''
  by_cases hj : j = .null
  · subst hj
    obtain ⟨rest, hfirst⟩ := (eq_null_iff hread).mp rfl
    have hnull (c₁ : Cursor) : Scalar c.skipBlank .null c₁ ↔ c₁ = c' := by
      rw [← readValue_scalar_iff depth rfl, hread]
      simp [eq_comm]
    have hvalue : (Shape.optional shape).ofJson .document .null = .ok value ↔ value = none := by
      rw [Shape.ofJson, Except.ok.injEq, eq_comm]
    rw [scan_optional_null hfirst, hnull, hvalue, and_comm]
  · have hfirst (rest : Text.Bytes) : c.skipBlank.rest ≠ 110 :: rest :=
      fun hrest => hj ((eq_null_iff hread).mpr ⟨rest, hrest⟩)
    rw [scan_optional_iff hfirst, ofJson_optional_iff hj, ← exists_and_right]
    refine exists_congr fun v => ?_
    rw [h _ _ _ (readValue_skipBlank.mpr hread), and_right_comm]

/-- A shape that asks for no brackets, apart from a choice that stands in an object. -/
def Shape.isPlain : Shape → Bool
  | .any | .text _ | .flag | .unsigned _ | .choice _ => true
  | .optional shape => shape.isPlain
  | .list _ | .table _ | .record _ _ => false

theorem Shape.exact_of_plain : (shape : Shape) → shape.isPlain → (depth : Nat) →
    Exact depth (shape.scan depth) (shape.ofJson .document)
  | .any, _, depth => by
      intro c value c'
      rw [Shape.scan]
      simp only [bind_eq_ok_iff, Prod.exists, Except.ok.injEq, Prod.mk.injEq, Shape.ofJson]
      constructor
      · rintro ⟨j, _, hread, hvalue, rfl⟩
        exact ⟨j, hread, hvalue⟩
      · rintro ⟨j, hread, hvalue⟩
        exact ⟨j, c', hread, hvalue, rfl⟩
  | .text expected, _, depth => by
      intro c s c'
      rw [Shape.scan, scanText_iff, ← readValue_scalar_iff depth rfl]
      constructor
      · intro hread
        exact ⟨.text s, hread, rfl⟩
      · rintro ⟨j, hread, hvalue⟩
        cases j <;> cases hvalue
        exact hread
  | .flag, _, depth => by
      intro c b c'
      rw [Shape.scan, scanFlag_iff, ← readValue_scalar_iff depth rfl]
      constructor
      · intro hread
        exact ⟨.boolean b, hread, rfl⟩
      · rintro ⟨j, hread, hvalue⟩
        cases j <;> cases hvalue
        exact hread
  | .unsigned width, _, depth => by
      intro c n c'
      rw [Shape.scan, scanUnsigned_iff]
      constructor
      · rintro ⟨number, hscalar, hvalue⟩
        exact ⟨.number number, readValue_scalar hscalar, hvalue⟩
      · rintro ⟨j, hread, hvalue⟩
        cases j with
        | number number => exact ⟨number, scalar_of_readValue rfl hread, hvalue⟩
        | _ => cases hvalue
  | .choice names, _, depth => by
      intro c index c'
      rw [Shape.scan, scanChoice_iff]
      exact Iff.rfl
  | .optional shape, hplain, depth => by
      have hexact := shape.exact_of_plain hplain depth
      intro c value c'
      constructor
      · intro hscan
        suffices hread : ∃ j, readValue depth c = .ok (j, c') by
          obtain ⟨j, hread⟩ := hread
          exact ⟨j, hread, ((hexact.follows.optional _ _ _ hread _ _).mp hscan).1⟩
        by_cases hfirst : ∃ rest, c.skipBlank.rest = 110 :: rest
        · obtain ⟨rest, hfirst⟩ := hfirst
          exact ⟨.null, readValue_scalar ((scan_optional_null hfirst).mp hscan).1⟩
        · obtain ⟨v, hscan, -⟩ := (scan_optional_iff fun rest hrest => hfirst ⟨rest, hrest⟩).mp hscan
          obtain ⟨j, hread, -⟩ := (hexact _ _ _).mp hscan
          exact ⟨j, readValue_skipBlank.mp hread⟩
      · rintro ⟨j, hread, hvalue⟩
        exact (hexact.follows.optional _ _ _ hread _ _).mpr ⟨hvalue, rfl⟩

end

end CodeAssist.Json
