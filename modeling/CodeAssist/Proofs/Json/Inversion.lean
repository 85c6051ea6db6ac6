import CodeAssist.Proofs.Json.RoundTrip

namespace CodeAssist.Json

open Text (Bytes)

theorem bind_eq_ok_iff {ε α β : Type} {x : Except ε α} {f : α → Except ε β} {b : β} :
    (x >>= f) = .ok b ↔ ∃ a, x = .ok a ∧ f a = .ok b := by
  cases x <;> simp [bind, Except.bind]

theorem bind_of_ok {ε α β : Type} {x : Except ε α} {a : α} (h : x = .ok a) (f : α → Except ε β) :
    (x >>= f) = f a := by
  rw [h]
  rfl

namespace Cursor

theorem skipBlank_skipBlank (c : Cursor) : c.skipBlank.skipBlank = c.skipBlank := by
  suffices hgo : ∀ rest line column,
      (skipBlank.go rest line column).skipBlank = skipBlank.go rest line column from hgo _ _ _
  intro rest line column
  fun_induction skipBlank.go rest line column with
  | case1 => rfl
  | case2 _ _ _ _ _ ih => exact ih
  | case3 _ _ _ _ _ _ ih => exact ih
  | case4 line column b rest _ hblank => exact skipBlank_eq (Bool.eq_false_iff.mpr hblank) _ _ _

theorem skipBlank_of_rest {c : Cursor} {b : UInt8} {rest : Bytes} (hrest : c.rest = b :: rest)
    (hb : isBlank b = false) : c.skipBlank = c := by
  obtain ⟨octets, line, column⟩ := c
  obtain rfl : octets = b :: rest := hrest
  exact skipBlank_eq hb _ _ _

theorem length_skipBlank_le (c : Cursor) : c.skipBlank.rest.length ≤ c.rest.length := by
  suffices hgo : ∀ rest line column, (skipBlank.go rest line column).rest.length ≤ rest.length
    from hgo _ _ _
  intro rest line column
  fun_induction skipBlank.go rest line column with
  | case1 => exact Nat.le_refl _
  | case2 _ _ _ _ _ ih => exact Nat.le_succ_of_le ih
  | case3 _ _ _ _ _ _ ih => exact Nat.le_succ_of_le ih
  | case4 => exact Nat.le_refl _

theorem length_bump_le (c : Cursor) : c.bump.rest.length ≤ c.rest.length := by
  obtain ⟨rest, line, column⟩ := c
  cases rest with
  | nil => exact Nat.le_refl _
  | cons b rest =>
      rw [bump]
      dsimp only
      split <;> exact Nat.le_succ _

theorem length_bump_lt {c : Cursor} {b : UInt8} {rest : Bytes} (h : c.rest = b :: rest) :
    c.bump.rest.length < c.rest.length := by
  rw [bump, h]
  dsimp only
  split <;> exact Nat.lt_succ_self _

end Cursor

def Goes (c c' : Cursor) : Prop := c'.rest.length < c.rest.length

section values

variable {nested : Option (Cursor → Except ReadError (Json × Cursor))} {c c' : Cursor} {j : Json}

/-- How a value without brackets is read from its first octet on. -/
inductive Scalar (c : Cursor) : Json → Cursor → Prop
  | null {rest : Bytes} {c' : Cursor} (hfirst : c.rest = 110 :: rest)
      (hread : readWord restOfNull c.bump = .ok c') : Scalar c .null c'
  | true {rest : Bytes} {c' : Cursor} (hfirst : c.rest = 116 :: rest)
      (hread : readWord restOfTrue c.bump = .ok c') : Scalar c (.boolean true) c'
  | false {rest : Bytes} {c' : Cursor} (hfirst : c.rest = 102 :: rest)
      (hread : readWord restOfFalse c.bump = .ok c') : Scalar c (.boolean false) c'
  | negative {rest : Bytes} {n : Number} {c' : Cursor} (hfirst : c.rest = 45 :: rest)
      (hread : readNumber Bool.true c.bump = .ok (n, c')) : Scalar c (.number n) c'
  | number {b : UInt8} {rest : Bytes} {n : Number} {c' : Cursor} (hfirst : c.rest = b :: rest)
      (hdigit : Cursor.isDigit b) (hread : readNumber Bool.false c = .ok (n, c')) :
      Scalar c (.number n) c'
  | text {rest : Bytes} {s : String} {c' : Cursor} (hfirst : c.rest = 34 :: rest)
      (hread : readText c.bump = .ok (s, c')) : Scalar c (.text s) c'

/-- How a value is read from its first octet on. -/
inductive Opens (nested : Option (Cursor → Except ReadError (Json × Cursor))) (c : Cursor) :
    Json → Cursor → Prop
  | scalar {j : Json} {c' : Cursor} (hread : Scalar c j c') : Opens nested c j c'
  | list {value : Cursor → Except ReadError (Json × Cursor)} {rest : Bytes} {items : List Json}
      {c' : Cursor} (hnested : nested = some value) (hfirst : c.rest = 91 :: rest)
      (hread : readItems value c.fuel Bool.true [] c.bump = .ok (items, c')) :
      Opens nested c (.list items) c'
  | object {value : Cursor → Except ReadError (Json × Cursor)} {rest : Bytes}
      {members : List (String × Json)} {c' : Cursor} (hnested : nested = some value)
      (hfirst : c.rest = 123 :: rest)
      (hread : readMembers (keepMember value) c.fuel Bool.true [] c.bump = .ok (members, c')) :
      Opens nested c (.object members.reverse) c'.bump

theorem Scalar.read (h : Scalar c.skipBlank j c') : readValueWith nested c = .ok (j, c') := by
  rw [readValueWith]
  generalize c.skipBlank = c at h ⊢
  cases h with
  | null hfirst hread => simp only [hfirst, hread]; rfl
  | true hfirst hread => simp only [hfirst, hread]; rfl
  | false hfirst hread => simp only [hfirst, hread]; rfl
  | negative hfirst hread => simp only [hfirst, hread]; rfl
  | text hfirst hread => simp only [hfirst, hread]; rfl
  | number hfirst hdigit hread =>
      simp only [hfirst]
      split
      case h_8 =>
          rw [if_pos hdigit]
          exact bind_of_ok hread _
      all_goals exact absurd hdigit (by decide)

theorem Opens.read (h : Opens nested c.skipBlank j c') : readValueWith nested c = .ok (j, c') := by
  cases h with
  | scalar hread => exact hread.read
  | list hnested hfirst hread =>
      subst hnested
      rw [readValueWith]
      simp only [hfirst, readNested, hread]
      rfl
  | object hnested hfirst hread =>
      subst hnested
      rw [readValueWith]
      simp only [hfirst, readNested]
      exact bind_of_ok hread _

theorem opens_of_read (h : readValueWith nested c = .ok (j, c')) : Opens nested c.skipBlank j c' := by
  rw [readValueWith] at h
  generalize c.skipBlank = c at h ⊢
  dsimp only at h
  split at h
  case h_1 => cases h
  case h_2 b rest hfirst =>
    split at h
    case h_1 =>
      obtain ⟨c₁, hread, heq⟩ := bind_eq_ok_iff.mp h
      cases heq
      exact .scalar (.null hfirst hread)
    case h_2 =>
      obtain ⟨c₁, hread, heq⟩ := bind_eq_ok_iff.mp h
      cases heq
      exact .scalar (.true hfirst hread)
    case h_3 =>
      obtain ⟨c₁, hread, heq⟩ := bind_eq_ok_iff.mp h
      cases heq
      exact .scalar (.false hfirst hread)
    case h_4 =>
      obtain ⟨⟨n, c₁⟩, hread, heq⟩ := bind_eq_ok_iff.mp h
      cases heq
      exact .scalar (.negative hfirst hread)
    case h_5 =>
      obtain ⟨⟨s, c₁⟩, hread, heq⟩ := bind_eq_ok_iff.mp h
      cases heq
      exact .scalar (.text hfirst hread)
    case h_6 =>
      cases nested with
      | none => cases h
      | some value =>
          rw [readNested, hfirst] at h
          obtain ⟨⟨items, c₁⟩, hread, heq⟩ := bind_eq_ok_iff.mp h
          cases heq
          exact .list rfl hfirst hread
    case h_7 =>
      cases nested with
      | none => cases h
      | some value =>
          rw [readNested, hfirst] at h
          obtain ⟨⟨members, c₁⟩, hread, heq⟩ := bind_eq_ok_iff.mp h
          cases heq
          exact .object rfl hfirst hread
    case h_8 =>
      split at h
      case isTrue hdigit =>
        obtain ⟨⟨n, c₁⟩, hread, heq⟩ := bind_eq_ok_iff.mp h
        cases heq
        exact .scalar (.number hfirst hdigit hread)
      case isFalse => cases h

end values

def closing (inObject : Bool) : UInt8 := if inObject then 125 else 93

/-- Whether another part comes, and where that or the closing bracket stands. -/
inductive Another (close : UInt8) : Bool → Cursor → Bool → Cursor → Prop
  | none {first : Bool} {c : Cursor} {rest : Bytes} (hclose : c.skipBlank.rest = close :: rest) :
      Another close first c false c.skipBlank
  | first {c : Cursor} {b : UInt8} {rest : Bytes} (hrest : c.skipBlank.rest = b :: rest)
      (hb : b ≠ close) : Another close true c true c.skipBlank
  | later {c : Cursor} {b : UInt8} {rest rest' : Bytes} (hcomma : c.skipBlank.rest = 44 :: rest)
      (hclose : (44 : UInt8) ≠ close) (hrest : c.skipBlank.bump.skipBlank.rest = b :: rest') :
      Another close false c true c.skipBlank.bump.skipBlank

section parts

variable {first more : Bool} {c c' : Cursor}

theorem another_of_item (h : anotherItem first c = .ok (more, c')) : Another 93 first c more c' := by
  unfold anotherItem at h
  dsimp only at h
  split at h
  case h_1 => cases h
  case h_2 rest hrest =>
    cases h
    exact .none hrest
  case h_3 b rest hclose hrest =>
    cases first with
    | true =>
        cases h
        exact .first hrest hclose
    | false =>
        rw [if_neg Bool.false_ne_true] at h
        split at h
        case isFalse => cases h
        case isTrue hcomma =>
          obtain rfl := beq_iff_eq.mp hcomma
          cases hnext : c.skipBlank.bump.skipBlank.rest with
          | nil => simp [hnext] at h
          | cons d rest' =>
              by_cases hd : d = 93
              · simp [hnext, hd] at h
              · simp [hnext, hd] at h
                obtain ⟨rfl, rfl⟩ := h
                exact .later hrest hclose hnext

theorem another_of_member (h : anotherMember first c = .ok (more, c')) :
    Another 125 first c more c' ∧ (more → ∃ rest, c'.rest = 34 :: rest) := by
  unfold anotherMember at h
  dsimp only at h
  split at h
  case h_1 => cases h
  case h_2 rest hrest =>
    cases h
    exact ⟨.none hrest, nofun⟩
  case h_3 b rest hclose hrest =>
    cases first with
    | true =>
        rw [if_pos rfl] at h
        split at h
        case isFalse => cases h
        case isTrue hquote =>
          obtain rfl := beq_iff_eq.mp hquote
          cases h
          exact ⟨.first hrest hclose, fun _ => ⟨rest, hrest⟩⟩
    | false =>
        rw [if_neg Bool.false_ne_true] at h
        split at h
        case isFalse => cases h
        case isTrue hcomma =>
          obtain rfl := beq_iff_eq.mp hcomma
          cases hnext : c.skipBlank.bump.skipBlank.rest with
          | nil => simp [hnext] at h
          | cons d rest' =>
              by_cases hd : d = 34
              · simp only [hnext, hd, Except.ok.injEq, Prod.mk.injEq] at h
                obtain ⟨rfl, rfl⟩ := h
                exact ⟨.later hrest hclose hnext, fun _ => ⟨rest', hd ▸ hnext⟩⟩
              · by_cases hd' : d = 125
                · simp [hnext, hd'] at h
                · simp [hnext, hd, hd'] at h

theorem Another.length_le {close : UInt8} (h : Another close first c more c') :
    c'.rest.length ≤ c.rest.length := by
  cases h with
  | none | first => exact c.length_skipBlank_le
  | later =>
      exact Nat.le_trans (Cursor.length_skipBlank_le _)
        (Nat.le_trans (Cursor.length_bump_le _) c.length_skipBlank_le)

variable {α σ : Type} {item : Cursor → Except ReadError (α × Cursor)}
  {member : String → Cursor → σ → Except ReadError (σ × Cursor)} {n : Nat}

theorem readItems_succ (before : List α) :
    readItems item (n + 1) first before c = (do
      let (more, c₁) ← anotherItem first c
      if more then
        let (a, c₂) ← item c₁
        readItems item n false (a :: before) c₂
      else .ok (before.reverse, c₁.bump)) := rfl

theorem readItems_before_iff {before items : List α} :
    readItems item n first before c = .ok (items, c') ↔
      ∃ later, readItems item n first [] c = .ok (later, c') ∧ items = before.reverse ++ later := by
  induction n generalizing first before items c with
  | zero =>
      constructor
      · intro h
        cases h
      · rintro ⟨_, h, _⟩
        cases h
  | succ n ih =>
      rw [readItems_succ, readItems_succ]
      cases anotherItem first c with
      | error => simp [bind, Except.bind]
      | ok another =>
          obtain ⟨more, c₁⟩ := another
          cases more with
          | false => simp [bind, Except.bind, eq_comm, and_comm]
          | true =>
              cases hitem : item c₁ with
              | error => simp [bind, Except.bind, hitem]
              | ok read =>
                  obtain ⟨a, c₂⟩ := read
                  simp only [bind, Except.bind, if_true, hitem]
                  have hsingle (items : List α) :
                      readItems item n false [a] c₂ = .ok (items, c') ↔ _ := ih
                  rw [ih]
                  simp only [hsingle]
                  constructor
                  · rintro ⟨later, hread, rfl⟩
                    exact ⟨a :: later, ⟨later, hread, rfl⟩, by simp⟩
                  · rintro ⟨_, ⟨later, hread, rfl⟩, rfl⟩
                    exact ⟨later, hread, by simp⟩

/-- How a list is read: either it ends here, or an item comes and then the others. -/
theorem readItems_eq_ok_iff {items : List α} :
    readItems item (n + 1) first [] c = .ok (items, c') ↔
      (∃ c₁, anotherItem first c = .ok (false, c₁) ∧ items = [] ∧ c' = c₁.bump) ∨
      ∃ c₁ a c₂ later, anotherItem first c = .ok (true, c₁) ∧ item c₁ = .ok (a, c₂) ∧
        readItems item n false [] c₂ = .ok (later, c') ∧ items = a :: later := by
  rw [readItems_succ]
  cases anotherItem first c with
  | error => simp [bind, Except.bind]
  | ok another =>
      obtain ⟨more, c₁⟩ := another
      cases more with
      | false => simp [bind, Except.bind, eq_comm]
      | true =>
          cases hitem : item c₁ with
          | error => simp [bind, Except.bind, hitem]
          | ok read =>
              obtain ⟨a, c₂⟩ := read
              simp only [bind, Except.bind, if_true, hitem]
              rw [readItems_before_iff]
              simp [hitem]

/-- How members are read: either the object ends here, or one comes and then the others. -/
theorem readMembers_eq_ok_iff {state state' : σ} :
    readMembers member (n + 1) first state c = .ok (state', c') ↔
      (anotherMember first c = .ok (false, c') ∧ state' = state) ∨
      ∃ c₁ key c₂ between c₃, anotherMember first c = .ok (true, c₁) ∧
        readText c₁.bump = .ok (key, c₂) ∧ member key c₂ state = .ok (between, c₃) ∧
        readMembers member n false between c₃ = .ok (state', c') := by
  rw [readMembers]
  cases anotherMember first c with
  | error => simp [bind, Except.bind]
  | ok another =>
      obtain ⟨more, c₁⟩ := another
      cases more with
      | false => simp [bind, Except.bind, eq_comm, and_comm]
      | true => simp [bind_eq_ok_iff]

theorem keepMember_eq_ok_iff {value : Cursor → Except ReadError (Json × Cursor)} {key : String}
    {members members' : List (String × Json)} :
    keepMember value key c members = .ok (members', c') ↔ ∃ c₁ j, readColon c = .ok c₁ ∧
      value c₁ = .ok (j, c') ∧ members' = (key, j) :: members := by
  simp only [keepMember, bind_eq_ok_iff, Prod.exists, Except.ok.injEq, Prod.mk.injEq]
  constructor
  · rintro ⟨c₁, hcolon, j, _, hread, rfl, rfl⟩
    exact ⟨c₁, j, hcolon, hread, rfl⟩
  · rintro ⟨c₁, j, hcolon, hread, rfl⟩
    exact ⟨c₁, hcolon, j, c', hread, rfl, rfl⟩

end parts

end CodeAssist.Json
