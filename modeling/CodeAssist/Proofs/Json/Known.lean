import CodeAssist.Proofs.Json.Following

namespace CodeAssist.Json

open Text (Bytes)

/-! Whole texts. -/

/-- Whether a text starts as an object does. -/
def opensObject (text : Bytes) : Bool := (Cursor.start text).skipBlank.rest.head? == some 123

/-- Reads an object of which only the members of some names matter. Those of other names are passed
over. -/
def readKnown (names : List String) (depth : Nat) (c : Cursor) :
    Except ReadError (List (String × Json) × Cursor) := do
  let (b, c) ← lookAhead c
  if b == 123 then do
    let (members, c) ← readMembers (keepKnown names (readValue depth)) c.fuel true [] c.bump
    .ok (members.reverse, c.bump)
  else .error (c.failNext .expectedValue)

/-- The members of those names of the object that a text holds. -/
def knownMembers (names : List String) (text : Bytes) : Except ReadError (List (String × Json)) :=
  readAll (readKnown names (maxDepth - 1)) text

section

variable {α : Type} {depth : Nat} {c c' : Cursor} {text : Bytes}

theorem readAll_eq_ok_iff {reader : Cursor → Except ReadError (α × Cursor)} {a : α} :
    readAll reader text = .ok a ↔ ∃ c, reader (.start text) = .ok (a, c) ∧ readEnd c = .ok () := by
  simp only [readAll, bind_eq_ok_iff, Prod.exists, Except.ok.injEq]
  constructor
  · rintro ⟨_, c, hread, _, hend, rfl⟩
    exact ⟨c, hread, hend⟩
  · rintro ⟨c, hread, hend⟩
    exact ⟨a, c, hread, (), hend, rfl⟩

/-- A text is read as a shape as the document is that it holds. -/
theorem parse_iff_of_read {shape : Shape} {j : Json} (h : read text = .ok j)
    {value : shape.Value} : shape.parse text = .ok value ↔ shape.ofJson .document j = .ok value := by
  obtain ⟨c, hread, hend⟩ := readAll_eq_ok_iff.mp h
  rw [Shape.parse, readAll_eq_ok_iff]
  simp only [shape.follows maxDepth _ _ _ hread]
  constructor
  · rintro ⟨_, ⟨hvalue, rfl⟩, -⟩
    exact hvalue
  · intro hvalue
    exact ⟨c, ⟨hvalue, rfl⟩, hend⟩

theorem readKnown_eq_ok_iff {names : List String} {members : List (String × Json)} :
    readKnown names depth c = .ok (members, c') ↔ ∃ rest c₁, c.skipBlank.rest = 123 :: rest ∧
      readMembers (keepKnown names (readValue depth)) c.skipBlank.fuel true [] c.skipBlank.bump =
        .ok (members.reverse, c₁) ∧ c' = c₁.bump := by
  simp only [readKnown, bind_eq_ok_iff, Prod.exists, lookAhead_eq_ok_iff]
  constructor
  · rintro ⟨b, _, ⟨rest, hfirst, rfl⟩, h⟩
    split at h
    case isFalse => cases h
    case isTrue hb =>
      obtain rfl := beq_iff_eq.mp hb
      obtain ⟨⟨found, c₁⟩, hread, heq⟩ := bind_eq_ok_iff.mp h
      cases heq
      rw [List.reverse_reverse]
      exact ⟨rest, c₁, hfirst, hread, rfl⟩
  · rintro ⟨rest, c₁, hfirst, hread, rfl⟩
    refine ⟨123, _, ⟨rest, hfirst, rfl⟩, (bind_of_ok hread _).trans ?_⟩
    rw [List.reverse_reverse]

theorem opensObject_of_read {members : List (String × Json)}
    (h : read text = .ok (.object members)) : opensObject text := by
  obtain ⟨c, hread, -⟩ := readAll_eq_ok_iff.mp h
  obtain ⟨_, rest, _, -, hfirst, -⟩ := readValue_object_iff.mp hread
  rw [opensObject, hfirst]
  rfl

theorem knownMembers_of_read {names : List String} {members : List (String × Json)}
    (h : read text = .ok (.object members)) :
    knownMembers names text = .ok (members.filter (·.1 ∈ names)) := by
  obtain ⟨c, hread, hend⟩ := readAll_eq_ok_iff.mp h
  obtain ⟨inner, rest, c₁, hdepth, hfirst, hmembers, rfl⟩ := readValue_object_iff.mp hread
  obtain rfl : inner = maxDepth - 1 := (congrArg (· - 1) hdepth).symm
  exact readAll_eq_ok_iff.mpr
    ⟨_, readKnown_eq_ok_iff.mpr ⟨rest, c₁, hfirst, readMembers_known hmembers, rfl⟩, hend⟩

namespace Fields

theorem All.imp {P Q : Shape → Prop} (h : ∀ shape, P shape → Q shape) :
    (fields : Fields) → fields.All P → fields.All Q
  | .nil, _ => trivial
  | .cons _ shape _ rest, hall => ⟨h shape hall.1, All.imp h rest hall.2⟩

/-- Where the value of a member is scanned that a field is named after, it can be read. -/
theorem exists_of_scanMember {key : String} : (fields : Fields) → key ∈ fields.names →
    fields.All (fun shape => Exact depth (shape.scan depth) (shape.ofJson .document)) →
    (met met' : fields.Partial) → fields.scanMember depth key c met = .ok (met', c') →
      ∃ c₁ j, readColon c = .ok c₁ ∧ readValue depth c₁ = .ok (j, c')
  | .cons name shape _ rest, hmem, hall, (old, earlier), (new, later), h => by
      rw [scanMember] at h
      by_cases hkey : key = name
      · rw [if_pos hkey] at h
        cases old with
        | some => simp at h
        | none =>
            simp only [Option.isSome_none, Bool.false_eq_true, if_false, bind_eq_ok_iff,
              Prod.exists, Except.ok.injEq, Prod.mk.injEq] at h
            obtain ⟨c₁, hcolon, value, _, hscan, -, rfl⟩ := h
            obtain ⟨j, hread, -⟩ := (hall.1 _ _ _).mp hscan
            exact ⟨c₁, j, hcolon, hread⟩
      · rw [if_neg hkey] at h
        simp only [bind_eq_ok_iff, Prod.exists, Except.ok.injEq, Prod.mk.injEq] at h
        obtain ⟨between, _, hscan, -, heq⟩ := h
        rw [heq] at hscan
        exact rest.exists_of_scanMember ((List.mem_cons.mp hmem).resolve_left hkey) hall.2 _ _ hscan

theorem keepKnown_of_scanMember {key : String} {fields : Fields}
    (hall : fields.All fun shape => Exact depth (shape.scan depth) (shape.ofJson .document))
    {met met' : fields.Partial} (h : fields.scanMember depth key c met = .ok (met', c'))
    (members : List (String × Json)) :
    ∃ members', keepKnown fields.names (readValue depth) key c members = .ok (members', c') := by
  by_cases hkey : key ∈ fields.names
  · obtain ⟨c₁, j, hcolon, hread⟩ := fields.exists_of_scanMember hkey hall _ _ h
    refine ⟨(key, j) :: members, ?_⟩
    rw [keepKnown, if_pos hkey, keepMember_eq_ok_iff]
    exact ⟨c₁, j, hcolon, hread, rfl⟩
  · obtain ⟨-, c₁, hcolon, hskip⟩ := (fields.scanMember_of_not_mem hkey _ _).mp h
    refine ⟨members, ?_⟩
    rw [keepKnown, if_neg hkey, bind_of_ok hcolon, bind_of_ok hskip]

end Fields

/-- An object of plain fields is scanned if and only if the members can be read that the fields are
named after, and stand for what is scanned. -/
theorem scan_object_iff {name : String} {fields : Fields} (hplain : fields.All (·.isPlain))
    {rest : Bytes} (hfirst : c.skipBlank.rest = 123 :: rest) {values : fields.Value} :
    (Shape.record name fields).scan (depth + 1) c = .ok (values, c') ↔
      ∃ members, readKnown fields.names depth c = .ok (members, c') ∧
        (Shape.record name fields).ofJson .document (.object members) = .ok values := by
  have hexact : fields.All fun shape => Exact depth (shape.scan depth) (shape.ofJson .document) :=
    Fields.All.imp (fun shape h => shape.exact_of_plain h depth) fields hplain
  have hiff {members : List (String × Json)} {behind : Cursor}
      (h : readMembers (keepKnown fields.names (readValue depth)) c.skipBlank.fuel true []
        c.skipBlank.bump = .ok (members.reverse, behind)) :
      (Shape.record name fields).scan (depth + 1) c = .ok (values, c') ↔ _ :=
    scan_record_object (fields.follows depth) hfirst h values c'
  constructor
  · intro hscan
    have h := hscan
    rw [Shape.scan, bind_of_ok (lookAhead_eq hfirst)] at h
    obtain ⟨⟨met, c₁⟩, hmet, -⟩ := bind_eq_ok_iff.mp h
    -- Only that the members can be read is carried along. What they are then follows from `hiff`.
    have hkeeps : ∀ key c met met' c' (members : List (String × Json)), True →
        fields.scanMember depth key c met = .ok (met', c') →
          ∃ members', keepKnown fields.names (readValue depth) key c members = .ok (members', c') ∧
            True := by
      intro key c met met' c' members _ hmember
      obtain ⟨members', hkeep⟩ := Fields.keepKnown_of_scanMember hexact hmember members
      exact ⟨members', hkeep, trivial⟩
    obtain ⟨members, hmembers, -⟩ : ∃ members, readMembers (keepKnown fields.names (readValue depth))
        c.skipBlank.fuel true [] c.skipBlank.bump = .ok (members, c₁) ∧ True :=
      readMembers_mono (fun _ _ => True) hkeeps trivial hmet
    rw [← List.reverse_reverse members] at hmembers
    obtain ⟨hvalues, rfl⟩ := (hiff hmembers).mp hscan
    exact ⟨members.reverse, readKnown_eq_ok_iff.mpr ⟨rest, c₁, hfirst, hmembers, rfl⟩, hvalues⟩
  · rintro ⟨members, hknown, hvalues⟩
    obtain ⟨_, c₁, -, hmembers, rfl⟩ := readKnown_eq_ok_iff.mp hknown
    exact (hiff hmembers).mpr ⟨hvalues, rfl⟩

/-- A text that starts as an object does is read as a record of plain fields as the members are that
the fields are named after. Members of other names may be whatever can be passed over. -/
theorem parse_object_iff {name : String} {fields : Fields} (hplain : fields.All (·.isPlain))
    (hopens : opensObject text) {values : fields.Value} :
    (Shape.record name fields).parse text = .ok values ↔
      ∃ members, knownMembers fields.names text = .ok members ∧
        (Shape.record name fields).ofJson .document (.object members) = .ok values := by
  obtain ⟨rest, hfirst⟩ : ∃ rest, (Cursor.start text).skipBlank.rest = 123 :: rest := by
    have hhead := beq_iff_eq.mp hopens
    exact ⟨_, (List.eq_cons_of_mem_head? hhead)⟩
  have hscan (values : fields.Value) (c : Cursor) :
      (Shape.record name fields).scan maxDepth (.start text) = .ok (values, c) ↔
        ∃ members, readKnown fields.names (maxDepth - 1) (.start text) = .ok (members, c) ∧
          (Shape.record name fields).ofJson .document (.object members) = .ok values :=
    scan_object_iff hplain hfirst
  simp only [Shape.parse, knownMembers, readAll_eq_ok_iff, hscan]
  constructor
  · rintro ⟨c, ⟨members, hknown, hvalues⟩, hend⟩
    exact ⟨members, ⟨c, hknown, hend⟩, hvalues⟩
  · rintro ⟨members, ⟨c, hknown, hend⟩, hvalues⟩
    exact ⟨c, ⟨members, hknown, hvalues⟩, hend⟩

end

end CodeAssist.Json
