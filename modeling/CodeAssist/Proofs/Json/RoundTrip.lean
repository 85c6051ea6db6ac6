import CodeAssist.Proofs.Json.Reading
import Mathlib.Algebra.Group.Int.Defs

namespace CodeAssist.Json

open Text

/-! Words, lists and objects as they are written. -/

theorem readWord_eq {word : Bytes} (hword : 10 ∉ word) (rest : Bytes)
    (line column : Nat) :
    readWord word ⟨word ++ rest, line, column⟩ = .ok ⟨rest, line, column + word.length⟩ := by
  induction word generalizing column with
  | nil => rfl
  | cons b word ih =>
      have hb : b ≠ 10 := (List.ne_of_not_mem_cons hword).symm
      have hlater : 10 ∉ word := List.not_mem_of_not_mem_cons hword
      simp only [List.cons_append, readWord, beq_self_eq_true, if_true, Cursor.bump_eq hb]
      rw [ih hlater, List.length_cons, Nat.add_assoc, Nat.add_comm 1]

/-- What stands in front of a part: a comma, unless it is the first. -/
def divider (first : Bool) : Bytes := if first then [] else [44]

/-- The parts of a list or an object, divided by commas. -/
def joined {α : Type} (text : α → Bytes) : Bool → List α → Bytes
  | _, [] => []
  | first, part :: parts => divider first ++ (text part ++ joined text false parts)

section parts

variable {α σ : Type} {text : α → Bytes} {rest : Bytes}

theorem ends_joined (parts : List α) (hrest : Ends rest) : Ends (joined text false parts ++ rest) := by
  cases parts with
  | nil => exact hrest
  | cons part parts =>
      intro b hb
      exact .inl (Option.some.inj hb).symm

theorem length_le_joined {parts : List α} (htext : ∀ part ∈ parts, text part ≠ []) (first : Bool) :
    parts.length ≤ (joined text first parts).length := by
  induction parts generalizing first with
  | nil => exact Nat.zero_le _
  | cons part parts ih =>
      obtain ⟨hpart, hlater⟩ := List.forall_mem_cons.mp htext
      have hlength := List.length_pos_iff.mpr hpart
      have hparts := ih hlater false
      simp only [joined, List.length_append, List.length_cons]
      omega

def isOpening (b : UInt8) : Bool := !Cursor.isBlank b && b != 93

theorem isOpening_iff {b : UInt8} : isOpening b ↔ Cursor.isBlank b = false ∧ b ≠ 93 := by
  simp [isOpening]

theorem anotherItem_of_opening {b : UInt8} (hb : isOpening b) (first : Bool) (line column : Nat) :
    Yields (anotherItem first ⟨divider first ++ b :: rest, line, column⟩) true (b :: rest) := by
  obtain ⟨hblank, hclose⟩ := isOpening_iff.mp hb
  cases first with
  | true =>
      refine ⟨line, column, ?_⟩
      simp [anotherItem, divider, Cursor.skipBlank_eq hblank]
  | false =>
      refine ⟨line, column + 1, ?_⟩
      have hcomma : Cursor.isBlank 44 = false := rfl
      simp [anotherItem, divider, Cursor.skipBlank_eq hcomma, Cursor.bump_eq,
        Cursor.skipBlank_eq hblank, hclose]

theorem readItems_end (item : Cursor → Except ReadError (α × Cursor)) (fuel : Nat) (first : Bool)
    (items : List α) (line column : Nat) :
    Yields (readItems item (fuel + 1) first items ⟨93 :: rest, line, column⟩) items.reverse rest := by
  refine ⟨line, column + 1, ?_⟩
  have hclose : Cursor.isBlank 93 = false := rfl
  simp [readItems, anotherItem, Cursor.skipBlank_eq hclose, Cursor.bump_eq, bind, Except.bind]

theorem readItems_joined {item : Cursor → Except ReadError (α × Cursor)} {items : List α}
    (hopening : ∀ a ∈ items, ∃ b tail, text a = b :: tail ∧ isOpening b)
    (hitem : ∀ a ∈ items, ∀ rest, Ends rest → ∀ line column,
      Yields (item ⟨text a ++ rest, line, column⟩) a rest)
    {fuel : Nat} (hfuel : items.length < fuel) (first : Bool) (before : List α)
    (line column : Nat) :
    Yields (readItems item fuel first before ⟨joined text first items ++ 93 :: rest, line, column⟩)
      (before.reverse ++ items) rest := by
  induction items generalizing fuel first before line column with
  | nil =>
      obtain ⟨fuel, rfl⟩ := Nat.exists_eq_succ_of_ne_zero (Nat.ne_zero_of_lt hfuel)
      rw [List.append_nil]
      exact readItems_end item fuel first before line column
  | cons a items ih =>
      obtain ⟨fuel, rfl⟩ := Nat.exists_eq_succ_of_ne_zero (Nat.ne_zero_of_lt hfuel)
      obtain ⟨⟨b, tail, htext, hb⟩, hlaterOpening⟩ := List.forall_mem_cons.mp hopening
      obtain ⟨hfirst, hlater⟩ := List.forall_mem_cons.mp hitem
      have hends : Ends (joined text false items ++ 93 :: rest) :=
        ends_joined items fun _ h => .inr (.inl (Option.some.inj h).symm)
      rw [readItems, joined, htext]
      simp only [List.append_assoc, List.cons_append]
      refine (anotherItem_of_opening hb first line column).bind fun line column => ?_
      simp only [if_true]
      rw [← List.cons_append, ← htext]
      refine (hfirst _ hends line column).bind fun line column => ?_
      have hread := ih hlaterOpening hlater (Nat.lt_of_succ_lt_succ hfuel) false (a :: before)
        line column
      rwa [List.reverse_cons, List.append_assoc, List.singleton_append] at hread

variable {member : String → Cursor → σ → Except ReadError (σ × Cursor)}

theorem anotherMember_of_quote (first : Bool) (line column : Nat) :
    Yields (anotherMember first ⟨divider first ++ 34 :: rest, line, column⟩) true (34 :: rest) := by
  have hquote : Cursor.isBlank 34 = false := rfl
  cases first with
  | true =>
      refine ⟨line, column, ?_⟩
      simp [anotherMember, divider, Cursor.skipBlank_eq hquote]
  | false =>
      refine ⟨line, column + 1, ?_⟩
      have hcomma : Cursor.isBlank 44 = false := rfl
      simp [anotherMember, divider, Cursor.skipBlank_eq hcomma, Cursor.bump_eq,
        Cursor.skipBlank_eq hquote]

theorem readMembers_end (fuel : Nat) (first : Bool) (state : σ) (line column : Nat) :
    Yields (readMembers member (fuel + 1) first state ⟨125 :: rest, line, column⟩) state
      (125 :: rest) := by
  refine ⟨line, column, ?_⟩
  have hclose : Cursor.isBlank 125 = false := rfl
  simp [readMembers, anotherMember, Cursor.skipBlank_eq hclose, bind, Except.bind]

theorem readMembers_cons {key : String} {body : Bytes} {state state' final : σ} {rest' : Bytes}
    {fuel : Nat}
    (hmember : ∀ line column, Yields (member key ⟨body, line, column⟩ state) state' rest)
    (hlater : ∀ line column,
      Yields (readMembers member fuel false state' ⟨rest, line, column⟩) final rest')
    (first : Bool) (line column : Nat) :
    Yields (readMembers member (fuel + 1) first state
      ⟨divider first ++ 34 :: (quotation key ++ body), line, column⟩) final rest' := by
  rw [readMembers]
  refine (anotherMember_of_quote first line column).bind fun line column => ?_
  simp only [if_true]
  rw [Cursor.bump_eq (by decide)]
  refine (readText_quotation key body line (column + 1)).bind fun line column => ?_
  exact (hmember line column).bind hlater

theorem readColon_eq (line column : Nat) :
    readColon ⟨58 :: rest, line, column⟩ = .ok ⟨rest, line, column + 1⟩ := by
  have hcolon : Cursor.isBlank 58 = false := rfl
  simp [readColon, Cursor.skipBlank_eq hcolon, Cursor.bump_eq]

end parts

def memberText (member : String × Json) : Bytes :=
  34 :: (quotation member.1 ++ 58 :: octets member.2.render)

theorem length_le_members (members : List (String × Json)) :
    members.length ≤ (joined memberText true members).length :=
  length_le_joined (fun _ _ => List.cons_ne_nil _ _) true

theorem octets_renderItems (items : List Json) :
    octets (renderItems items) = joined (fun j => octets j.render) false items := by
  induction items with
  | nil => rfl
  | cons item items ih =>
      rw [renderItems, octets_cons_ascii rfl, octets_append, ih]
      rfl

theorem octets_render_list (items : List Json) :
    octets (render (.list items)) = 91 :: (joined (fun j => octets j.render) true items ++ [93]) := by
  have hclose : octets [']'] = [93] := rfl
  cases items with
  | nil => rfl
  | cons item items =>
      rw [render, octets_cons_ascii rfl, octets_append, octets_append, octets_renderItems, hclose]
      rfl

theorem octets_member (name : String) (value : Json) :
    octets (renderText name ++ ':' :: value.render) = memberText (name, value) := by
  rw [octets_append, octets_renderText, octets_cons_ascii rfl]
  rfl

theorem octets_renderMembers (members : List (String × Json)) :
    octets (renderMembers members) = joined memberText false members := by
  induction members with
  | nil => rfl
  | cons member members ih =>
      rw [renderMembers, octets_cons_ascii rfl, octets_append, octets_member, ih]
      rfl

theorem octets_render_object (members : List (String × Json)) :
    octets (render (.object members)) = 123 :: (joined memberText true members ++ [125]) := by
  have hclose : octets ['\x7d'] = [125] := rfl
  cases members with
  | nil => rfl
  | cons member members =>
      rw [render, octets_cons_ascii rfl, octets_append, octets_append, octets_member,
        octets_renderMembers, hclose]
      rfl

/-- Nested at most `depth` deep, with integers of 64 bits, signed or unsigned, as the only numbers,
and with the names of each object in order and none of them twice. -/
def Regular : Nat → Json → Prop
  | _, .null => True
  | _, .boolean _ => True
  | _, .number (.integer value) => -2 ^ 63 ≤ value ∧ value < 2 ^ 64
  | _, .number (.double _) => False
  | _, .text _ => True
  | 0, .list _ => False
  | depth + 1, .list items => ∀ item ∈ items, Regular depth item
  | 0, .object _ => False
  | depth + 1, .object members =>
      members.Pairwise (·.1 < ·.1) ∧ ∀ member ∈ members, Regular depth member.2

instance Regular.decidable : (depth : Nat) → (j : Json) → Decidable (Regular depth j)
  | 0, .null | _ + 1, .null | 0, .boolean _ | _ + 1, .boolean _ | 0, .text _ | _ + 1, .text _ =>
      isTrue trivial
  | 0, .number (.integer value) | _ + 1, .number (.integer value) =>
      inferInstanceAs (Decidable (-2 ^ 63 ≤ value ∧ value < 2 ^ 64))
  | 0, .number (.double _) | _ + 1, .number (.double _) | 0, .list _ | 0, .object _ =>
      isFalse id
  | depth + 1, .list items =>
      have := Regular.decidable depth
      inferInstanceAs (Decidable (∀ item ∈ items, Regular depth item))
  | depth + 1, .object members =>
      have := Regular.decidable depth
      inferInstanceAs (Decidable
        (members.Pairwise (·.1 < ·.1) ∧ ∀ member ∈ members, Regular depth member.2))

theorem numeral_eq_cons (n : Nat) : ∃ b tail, numeral n = b :: tail ∧ Cursor.isDigit b := by
  cases hnumeral : numeral n with
  | nil =>
      have hempty : decimal n = [] := List.map_eq_nil_iff.mp hnumeral
      exact absurd hempty (Nat.toDigits_ne_nil)
  | cons b tail =>
      refine ⟨b, tail, rfl, isDigit_of_mem_numeral (n := n) ?_⟩
      rw [hnumeral]
      exact List.mem_cons_self

theorem isBlank_of_isDigit {b : UInt8} (hb : Cursor.isDigit b) : Cursor.isBlank b = false := by
  by_contra hblank
  simp only [Cursor.isBlank, Bool.not_eq_false, Bool.or_eq_true, beq_iff_eq] at hblank
  obtain ((rfl | rfl) | rfl) | rfl := hblank <;> exact absurd hb (by decide)

theorem isOpening_of_isDigit {b : UInt8} (hb : Cursor.isDigit b) : isOpening b := by
  refine isOpening_iff.mpr ⟨isBlank_of_isDigit hb, ?_⟩
  rintro rfl
  exact absurd hb (by decide)

/-- A document starts with neither a blank nor a closing bracket. -/
theorem exists_opening {depth : Nat} {j : Json} (hj : Regular depth j) :
    ∃ b tail, octets j.render = b :: tail ∧ isOpening b := by
  cases j with
  | null => exact ⟨110, [117, 108, 108], rfl, by decide⟩
  | boolean value =>
      cases value with
      | true => exact ⟨116, [114, 117, 101], rfl, by decide⟩
      | false => exact ⟨102, [97, 108, 115, 101], rfl, by decide⟩
  | number value =>
      cases value with
      | integer value =>
          cases value with
          | ofNat n =>
              obtain ⟨b, tail, hnumeral, hb⟩ := numeral_eq_cons n
              exact ⟨b, tail, (octets_decimal n).trans hnumeral, isOpening_of_isDigit hb⟩
          | negSucc n => exact ⟨45, _, octets_cons_ascii (c := '-') rfl _, by decide⟩
      | double bits => cases depth <;> exact hj.elim
  | text s => exact ⟨34, quotation s, octets_renderText s, by decide⟩
  | list items => exact ⟨91, _, octets_render_list items, by decide⟩
  | object members => exact ⟨123, _, octets_render_object members, by decide⟩

section value

variable {nested : Option (Cursor → Except ReadError (Json × Cursor))} {rest : Bytes}

theorem readValueWith_digit {b : UInt8} (hb : Cursor.isDigit b) (line column : Nat) :
    readValueWith nested ⟨b :: rest, line, column⟩ =
      (readNumber false ⟨b :: rest, line, column⟩).bind fun (n, c) => .ok (.number n, c) := by
  simp only [readValueWith, Cursor.skipBlank_eq (isBlank_of_isDigit hb)]
  split
  case h_8 =>
      rw [if_pos hb]
      rfl
  all_goals exact absurd hb (by decide)

theorem readValueWith_minus (line column : Nat) :
    readValueWith nested ⟨45 :: rest, line, column⟩ =
      (readNumber true ⟨rest, line, column + 1⟩).bind fun (n, c) => .ok (.number n, c) := by
  rw [readValueWith, Cursor.skipBlank_eq rfl]
  rfl

theorem readValueWith_quote (line column : Nat) :
    readValueWith nested ⟨34 :: rest, line, column⟩ =
      (readText ⟨rest, line, column + 1⟩).bind fun (s, c) => .ok (.text s, c) := by
  rw [readValueWith, Cursor.skipBlank_eq rfl]
  rfl

theorem readValueWith_null (line column : Nat) :
    Yields (readValueWith nested ⟨octets (render .null) ++ rest, line, column⟩) .null rest := by
  have hread : readValueWith nested ⟨octets (render .null) ++ rest, line, column⟩ =
      (readWord restOfNull ⟨restOfNull ++ rest, line, column + 1⟩).bind fun c => .ok (.null, c) := rfl
  rw [hread, readWord_eq (by decide)]
  exact .ok ..

theorem readValueWith_boolean (value : Bool) (line column : Nat) :
    Yields (readValueWith nested ⟨octets (render (.boolean value)) ++ rest, line, column⟩)
      (.boolean value) rest := by
  cases value with
  | true =>
      have hread : readValueWith nested ⟨octets (render (.boolean true)) ++ rest, line, column⟩ =
          (readWord restOfTrue ⟨restOfTrue ++ rest, line, column + 1⟩).bind
            fun c => .ok (.boolean true, c) := rfl
      rw [hread, readWord_eq (by decide)]
      exact .ok ..
  | false =>
      have hread : readValueWith nested ⟨octets (render (.boolean false)) ++ rest, line, column⟩ =
          (readWord restOfFalse ⟨restOfFalse ++ rest, line, column + 1⟩).bind
            fun c => .ok (.boolean false, c) := rfl
      rw [hread, readWord_eq (by decide)]
      exact .ok ..

theorem readValueWith_integer {value : Int} (hvalue : -2 ^ 63 ≤ value ∧ value < 2 ^ 64)
    (hrest : Stops rest) (line column : Nat) :
    Yields (readValueWith nested ⟨octets (render (.number (.integer value))) ++ rest, line, column⟩)
      (.number (.integer value)) rest := by
  cases value with
  | ofNat n =>
      obtain ⟨b, tail, hnumeral, hb⟩ := numeral_eq_cons n
      have hsize : n < bound64 := Int.ofNat_lt.mp hvalue.2
      have hrender : octets (render (.number (.integer (.ofNat n)))) = numeral n := octets_decimal n
      rw [hrender, hnumeral, List.cons_append, readValueWith_digit hb, ← List.cons_append, ← hnumeral]
      have hread := readNumber_of_value hrest (Numeral.value?_integer hsize) line column
      exact hread.bind fun line column => .ok ..
  | negSucc n =>
      have hsize : 2 * (n + 1) ≤ bound64 := by
        unfold bound64
        omega
      have hrender : octets (render (.number (.integer (.negSucc n)))) = 45 :: numeral (n + 1) := by
        rw [← octets_decimal]
        exact octets_cons_ascii rfl _
      rw [hrender, List.cons_append, readValueWith_minus]
      have hread := readNumber_of_value hrest (Numeral.value?_negative (Nat.succ_pos n) hsize) line
        (column + 1)
      exact hread.bind fun line column => .ok ..

theorem readValueWith_text (s : String) (line column : Nat) :
    Yields (readValueWith nested ⟨octets (render (.text s)) ++ rest, line, column⟩) (.text s)
      rest := by
  rw [render, octets_renderText, List.cons_append, readValueWith_quote]
  exact (readText_quotation s rest line (column + 1)).bind fun line column => .ok ..

theorem readValueWith_scalar {j : Json} (hj : Regular 0 j) (hrest : Stops rest)
    (line column : Nat) :
    Yields (readValueWith nested ⟨octets j.render ++ rest, line, column⟩) j rest := by
  cases j with
  | null => exact readValueWith_null line column
  | boolean value => exact readValueWith_boolean value line column
  | number value =>
      cases value with
      | integer value => exact readValueWith_integer hj hrest line column
      | double bits => exact hj.elim
  | text s => exact readValueWith_text s line column
  | list items => exact hj.elim
  | object members => exact hj.elim

end value

/-- Every regular document of that depth reads as it was written, whatever follows. -/
def Reads (depth : Nat) (value : Cursor → Except ReadError (Json × Cursor)) : Prop :=
  ∀ j, Regular depth j → ∀ rest, Ends rest → ∀ line column,
    Yields (value ⟨octets j.render ++ rest, line, column⟩) j rest

theorem reads_zero (nested : Option (Cursor → Except ReadError (Json × Cursor))) :
    Reads 0 (readValueWith nested) :=
  fun _ hj _ hrest line column => readValueWith_scalar hj hrest.stops line column

section nested

variable {depth : Nat} {value : Cursor → Except ReadError (Json × Cursor)}

theorem readNested_list (hvalue : Reads depth value) {items : List Json}
    (hitems : ∀ item ∈ items, Regular depth item) (rest : Bytes) (line column : Nat) :
    Yields (readNested (some value) ⟨octets (render (.list items)) ++ rest, line, column⟩)
      (.list items) rest := by
  have hopening : ∀ item ∈ items, ∃ b tail, octets item.render = b :: tail ∧ isOpening b :=
    fun item hitem => exists_opening (hitems item hitem)
  have htext : ∀ item ∈ items, octets item.render ≠ [] := by
    intro item hitem
    obtain ⟨b, tail, hrender, -⟩ := hopening item hitem
    rw [hrender]
    exact List.cons_ne_nil b tail
  have hlength := length_le_joined htext true
  rw [octets_render_list, List.cons_append, List.append_assoc, List.singleton_append, readNested]
  rw [Cursor.bump_eq (by decide)]
  have hfuel : items.length < Cursor.fuel ⟨91 :: (joined (fun j => octets j.render) true items ++
      93 :: rest), line, column⟩ := by
    simp only [Cursor.fuel, List.length_cons, List.length_append]
    omega
  refine (readItems_joined hopening (fun item hitem => hvalue item (hitems item hitem)) hfuel true []
    line (column + 1)).bind fun line column => ?_
  exact .ok ..

/-- How the members of a document are read one by one, the latest kept first. -/
def keepMember (value : Cursor → Except ReadError (Json × Cursor)) (key : String) (c : Cursor)
    (members : List (String × Json)) : Except ReadError (List (String × Json) × Cursor) := do
  let c ← readColon c
  let (v, c) ← value c
  .ok ((key, v) :: members, c)

theorem readMembers_joined (hvalue : Reads depth value) {members : List (String × Json)}
    (hmembers : ∀ member ∈ members, Regular depth member.2) {fuel : Nat}
    (hfuel : members.length < fuel) (first : Bool) (before : List (String × Json)) (rest : Bytes)
    (line column : Nat) :
    Yields (readMembers (keepMember value) fuel first before
      ⟨joined memberText first members ++ 125 :: rest, line, column⟩)
      (members.reverse ++ before) (125 :: rest) := by
  induction members generalizing fuel first before line column with
  | nil =>
      obtain ⟨fuel, rfl⟩ := Nat.exists_eq_succ_of_ne_zero (Nat.ne_zero_of_lt hfuel)
      exact readMembers_end fuel first before line column
  | cons member members ih =>
      obtain ⟨fuel, rfl⟩ := Nat.exists_eq_succ_of_ne_zero (Nat.ne_zero_of_lt hfuel)
      obtain ⟨hmember, hlater⟩ := List.forall_mem_cons.mp hmembers
      have hends : Ends (joined memberText false members ++ 125 :: rest) :=
        ends_joined members fun _ h => .inr (.inr (Option.some.inj h).symm)
      have hstep (line column : Nat) : Yields (keepMember value member.1 ⟨58 :: (octets
          member.2.render ++ (joined memberText false members ++ 125 :: rest)), line, column⟩ before)
          (member :: before) (joined memberText false members ++ 125 :: rest) := by
        rw [keepMember, readColon_eq]
        exact (hvalue member.2 hmember _ hends line (column + 1)).bind fun line column => .ok ..
      have hrest (line column : Nat) := ih hlater (Nat.lt_of_succ_lt_succ hfuel) false
        (member :: before) line column
      have hread := readMembers_cons hstep hrest first line column
      simpa only [joined, memberText, List.append_assoc, List.cons_append, List.reverse_cons,
        List.nil_append] using hread

theorem readNested_object (hvalue : Reads depth value) {members : List (String × Json)}
    (hmembers : ∀ member ∈ members, Regular depth member.2) (rest : Bytes) (line column : Nat) :
    Yields (readNested (some value) ⟨octets (render (.object members)) ++ rest, line, column⟩)
      (.object members) rest := by
  have hlength := length_le_members members
  have hfuel : members.length < Cursor.fuel ⟨123 :: (joined memberText true members ++
      125 :: rest), line, column⟩ := by
    simp only [Cursor.fuel, List.length_cons, List.length_append]
    omega
  rw [octets_render_object, List.cons_append, List.append_assoc, List.singleton_append]
  obtain ⟨line', column', hread⟩ := readMembers_joined hvalue hmembers hfuel true [] rest line
    (column + 1)
  refine ⟨line', column' + 1, ?_⟩
  have hopen : readNested (some value) ⟨123 :: (joined memberText true members ++ 125 :: rest), line,
      column⟩ = (readMembers (keepMember value) (Cursor.fuel ⟨123 :: (joined memberText true members ++
        125 :: rest), line, column⟩) true [] ⟨joined memberText true members ++ 125 :: rest, line,
        column + 1⟩).bind fun read => .ok (.object read.1.reverse, read.2.bump) := rfl
  rw [hopen, hread]
  simp [Except.bind, Cursor.bump_eq]

end nested

theorem reads_succ {depth : Nat} {value : Cursor → Except ReadError (Json × Cursor)}
    (hvalue : Reads depth value) : Reads (depth + 1) (readValueWith (some value)) := by
  intro j hj rest hrest line column
  cases j with
  | null => exact reads_zero _ .null hj rest hrest line column
  | boolean flag => exact reads_zero _ (.boolean flag) hj rest hrest line column
  | number value =>
      cases value with
      | integer value => exact reads_zero _ (.number (.integer value)) hj rest hrest line column
      | double bits => exact hj.elim
  | text s => exact reads_zero _ (.text s) hj rest hrest line column
  | list items =>
      have hread := readNested_list hvalue hj rest line column
      rwa [octets_render_list] at hread ⊢
  | object members =>
      have hread := readNested_object hvalue hj.2 rest line column
      rwa [octets_render_object] at hread ⊢

theorem reads_readValue (depth : Nat) : Reads depth (readValue depth) := by
  induction depth with
  | zero => exact reads_zero none
  | succ depth ih => exact reads_succ ih

theorem insertMember_greatest {name : String} {value : Json} {members : List (String × Json)}
    (h : ∀ member ∈ members, member.1 < name) :
    insertMember name value members = members ++ [(name, value)] := by
  induction members with
  | nil => rfl
  | cons member members ih =>
      obtain ⟨hmember, hlater⟩ := List.forall_mem_cons.mp h
      have hless : ¬name < member.1 := String.lt_asymm hmember
      have hdiffer : name ≠ member.1 := by
        intro heq
        rw [heq] at hmember
        exact String.lt_irrefl _ hmember
      rw [insertMember, if_neg hless, if_neg hdiffer, ih hlater, List.cons_append]

theorem foldl_insertMember {before members : List (String × Json)}
    (h : (before ++ members).Pairwise (·.1 < ·.1)) :
    members.foldl (fun sorted (name, value) => insertMember name value sorted) before =
      before ++ members := by
  induction members generalizing before with
  | nil => exact (List.append_nil before).symm
  | cons member members ih =>
      obtain ⟨name, value⟩ := member
      have hgreatest : ∀ m ∈ before, m.1 < name := fun m hm =>
        (List.pairwise_append.mp h).2.2 m hm (name, value) List.mem_cons_self
      rw [List.append_cons] at h
      simp only [List.foldl_cons, insertMember_greatest hgreatest]
      rw [ih h, List.append_assoc, List.singleton_append]

theorem sortMembers_eq {members : List (String × Json)} (h : members.Pairwise (·.1 < ·.1)) :
    sortMembers members = members := foldl_insertMember ((List.nil_append members).symm ▸ h)

theorem normalizeList_eq {items : List Json} (h : ∀ item ∈ items, item.normalize = item) :
    normalizeList items = items := by
  induction items with
  | nil => rfl
  | cons item items ih =>
      obtain ⟨hitem, hlater⟩ := List.forall_mem_cons.mp h
      rw [normalizeList, hitem, ih hlater]

theorem normalizeMembers_eq {members : List (String × Json)}
    (h : ∀ member ∈ members, member.2.normalize = member.2) : normalizeMembers members = members := by
  induction members with
  | nil => rfl
  | cons member members ih =>
      obtain ⟨hmember, hlater⟩ := List.forall_mem_cons.mp h
      rw [normalizeMembers, hmember, ih hlater]

theorem Regular.normalize_eq {depth : Nat} {j : Json} (hj : Regular depth j) : j.normalize = j := by
  induction depth generalizing j with
  | zero =>
      cases j with
      | list items => exact hj.elim
      | object members => exact hj.elim
      | _ => rfl
  | succ depth ih =>
      cases j with
      | list items => rw [normalize, normalizeList_eq fun item hitem => ih (hj item hitem)]
      | object members =>
          rw [normalize, normalizeMembers_eq fun member hmember => ih (hj.2 member hmember),
            sortMembers_eq hj.1]
      | _ => rfl

theorem readAll_of_yields {α : Type} {reader : Cursor → Except ReadError (α × Cursor)} {text : Bytes}
    {value : α} (h : Yields (reader (.start text)) value []) : readAll reader text = .ok value := by
  obtain ⟨line, column, hread⟩ := h
  simp only [readAll, hread, bind, Except.bind]
  rfl

theorem encode_eq (j : Json) : j.encode = octets j.render := encode_eq_octets j.render

/-- A regular document is what its text says. -/
theorem parse_encode {j : Json} (hj : Regular maxDepth j) : parse j.encode = .ok j := by
  have hends : Ends [] := fun _ h => nomatch h
  have hread := reads_readValue maxDepth j hj [] hends 1 0
  rw [List.append_nil, ← encode_eq] at hread
  rw [parse, readAll_of_yields hread]
  exact congrArg Except.ok hj.normalize_eq

theorem Written.lf_not_mem {c : Char} {text : Bytes} (h : Written c text) : 10 ∉ text := by
  cases h with
  | letter hc hletter heffect => simp [hletter.symm]
  | control hc =>
      have hhigh := (hexDigit_ne (c.toNat / 16) (by omega)).1
      have hlow := (hexDigit_ne (c.toNat % 16) (by omega)).1
      simp [hhigh.symm, hlow.symm]
  | kept hc =>
      intro hmem
      exact absurd (hc 10 hmem) (by decide)

theorem lf_not_mem_quotation (s : String) : 10 ∉ quotation s := by
  have hescaped (cs : List Char) : 10 ∉ octets (cs.flatMap escape) := by
    induction cs with
    | nil => exact List.not_mem_nil
    | cons c cs ih =>
        rw [List.flatMap_cons, octets_append, List.mem_append, not_or]
        exact ⟨(written_escape c).lf_not_mem, ih⟩
  rw [quotation, List.mem_append, not_or]
  exact ⟨hescaped _, by decide⟩

theorem lf_not_mem_numeral (n : Nat) : 10 ∉ numeral n := by
  intro hmem
  exact absurd (isDigit_of_mem_numeral hmem) (by decide)

theorem lf_not_mem_joined {α : Type} {text : α → Bytes} {parts : List α}
    (h : ∀ part ∈ parts, 10 ∉ text part) (first : Bool) : 10 ∉ joined text first parts := by
  induction parts generalizing first with
  | nil => exact List.not_mem_nil
  | cons part parts ih =>
      obtain ⟨hpart, hlater⟩ := List.forall_mem_cons.mp h
      have hdivider : 10 ∉ divider first := by cases first <;> decide
      rw [joined, List.mem_append, List.mem_append, not_or, not_or]
      exact ⟨hdivider, hpart, ih hlater false⟩

theorem lf_not_mem_memberText {member : String × Json} (h : 10 ∉ octets member.2.render) :
    10 ∉ memberText member := by
  simp [memberText, lf_not_mem_quotation, h]

theorem lf_not_mem_object {members : List (String × Json)}
    (h : ∀ member ∈ members, 10 ∉ octets member.2.render) :
    10 ∉ octets (render (.object members)) := by
  have hmembers := lf_not_mem_joined (fun member hmember => lf_not_mem_memberText (h member hmember)) true
  simp [octets_render_object, hmembers]

theorem lf_not_mem_scalar {j : Json} (hj : Regular 0 j) : 10 ∉ octets j.render := by
  cases j with
  | null => decide
  | boolean value => cases value <;> decide
  | number value =>
      cases value with
      | integer value =>
          cases value with
          | ofNat n =>
              rw [render, Number.render, octets_decimal]
              exact lf_not_mem_numeral n
          | negSucc n =>
              rw [render, Number.render, octets_cons_ascii rfl, octets_decimal, List.mem_cons, not_or]
              exact ⟨by decide, lf_not_mem_numeral (n + 1)⟩
      | double bits => exact hj.elim
  | text s =>
      rw [render, octets_renderText, List.mem_cons, not_or]
      exact ⟨by decide, lf_not_mem_quotation s⟩
  | list items => exact hj.elim
  | object members => exact hj.elim

theorem Regular.lf_not_mem {depth : Nat} {j : Json} (hj : Regular depth j) :
    10 ∉ octets j.render := by
  induction depth generalizing j with
  | zero => exact lf_not_mem_scalar hj
  | succ depth ih =>
      cases j with
      | null => exact lf_not_mem_scalar (j := .null) hj
      | boolean value => exact lf_not_mem_scalar (j := .boolean value) hj
      | number value =>
          cases value with
          | integer value => exact lf_not_mem_scalar (j := .number (.integer value)) hj
          | double bits => exact hj.elim
      | text s => exact lf_not_mem_scalar (j := .text s) hj
      | list items =>
          have hitems := lf_not_mem_joined (fun item hitem => ih (hj item hitem)) true
          simp [octets_render_list, hitems]
      | object members => exact lf_not_mem_object fun member hmember => ih (hj.2 member hmember)

end CodeAssist.Json
