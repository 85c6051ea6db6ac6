import CodeAssist.Json.Shape
import CodeAssist.Proofs.Json.Inversion
import CodeAssist.Proofs.Json.Members
import CodeAssist.Table

namespace CodeAssist.Json

/-! A record as a document: an object of named fields, or the list of their values in order. -/

/-- What a document gives for a field, where `names` are those of all fields: the member of that
name, or the item at its place. -/
def given? (names : List String) (name : String) : Json → Option Json
  | .object members => members.lookup name
  | .list items => items[names.idxOf name]?
  | _ => none

/-- An object that gives no field twice, or a list that has no item too many. -/
def IsRecord (names : List String) : Json → Prop
  | .object members => ((members.map Prod.fst).filter (· ∈ names)).Nodup
  | .list items => items.length ≤ names.length
  | _ => False

instance (names : List String) : (j : Json) → Decidable (j.IsRecord names)
  | .object _ => inferInstanceAs (Decidable (List.Nodup _))
  | .list _ => inferInstanceAs (Decidable (_ ≤ _))
  | .null | .boolean _ | .number _ | .text _ => inferInstanceAs (Decidable False)

theorem ofJson_optional_iff {source : Source} {shape : Shape} {j : Json} (hnull : j ≠ .null)
    {value : Option shape.Value} :
    (Shape.optional shape).ofJson source j = .ok value ↔
      ∃ v, shape.ofJson source j = .ok v ∧ value = some v := by
  rw [Shape.ofJson]
  · cases shape.ofJson source j <;> simp [bind, Except.bind, eq_comm]
  · exact hnull

theorem choiceOf_document_iff {names : List String} {j : Json} {index : Fin names.length} :
    choiceOf .document names j = .ok index ↔
      ∃ given, chosen names given = .ok index ∧ (j = .text given ∨ j = .object [(given, .null)]) := by
  have hunit (value : Json) : checkUnit .document value = .ok () ↔ value = .null := by
    cases value <;> simp [checkUnit]
  constructor
  · intro h
    unfold choiceOf at h
    split at h
    case h_1 given => exact ⟨given, h, .inl rfl⟩
    case h_2 given value =>
      obtain ⟨name, hname, h⟩ := bind_eq_ok_iff.mp h
      obtain ⟨_, hvalue, h⟩ := bind_eq_ok_iff.mp h
      cases h
      rw [(hunit value).mp hvalue]
      exact ⟨given, hname, .inr rfl⟩
    case h_3 => cases h
    case h_4 => cases h
  · rintro ⟨given, hchosen, rfl | rfl⟩
    · exact hchosen
    · exact bind_of_ok hchosen _

theorem ofJson_text_iff {expected : String} (j : Json) (s : String) :
    j = .text s ↔ (Shape.text expected).ofJson .document j = .ok s := by
  cases j <;> simp [Shape.ofJson]

/-- What becomes of the document given for a field, if there is one. -/
def Shape.Taken (source : Source) (shape : Shape) (given : Option Json)
    (value : Option shape.Value) : Prop :=
  match given with
  | none => value = none
  | some j => ∃ v, shape.ofJson source j = .ok v ∧ value = some v

section taken

variable {source : Source} {given : Option Json}

theorem Shape.taken_any_iff {value : Option Json} :
    Shape.any.Taken source given value ↔ value = given.map normalize := by
  cases given <;> simp [Taken, ofJson]

theorem Shape.taken_flag_iff {value : Option Bool} :
    Shape.flag.Taken source given value ↔ given = value.map .boolean := by
  cases given with
  | none => cases value <;> simp [Taken]
  | some j => cases j <;> cases value <;> simp [Taken, ofJson, eq_comm]

theorem Shape.taken_text_iff {expected : String} {value : Option String} :
    (Shape.text expected).Taken source given value ↔ given = value.map .text := by
  cases given with
  | none => cases value <;> simp [Taken]
  | some j => cases j <;> cases value <;> simp [Taken, ofJson, eq_comm]

theorem unsignedOf_iff {width : Width} {number : Number} {n : Nat} :
    unsignedOf width number = .ok n ↔ number = .integer n ∧ n < width.bound := by
  fun_cases unsignedOf width number with
  | case1 value hbound =>
      simp only [Except.ok.injEq, Number.integer.injEq, Int.ofNat_eq_natCast, Int.natCast_inj]
      exact ⟨fun heq => ⟨heq, heq ▸ hbound⟩, And.left⟩
  | case2 value hbound =>
      simp only [Number.integer.injEq, Int.ofNat_eq_natCast, Int.natCast_inj]
      exact ⟨nofun, fun ⟨heq, hlt⟩ => absurd (heq ▸ hlt) hbound⟩
  | case3 => exact ⟨nofun, fun ⟨heq, _⟩ => nomatch heq⟩
  | case4 => exact ⟨nofun, fun ⟨heq, _⟩ => nomatch heq⟩

theorem Shape.taken_unsigned_iff {width : Width} {n : Nat} :
    (Shape.unsigned width).Taken source given (some n) ↔
      given = some (ofNat n) ∧ n < width.bound := by
  cases given with
  | none => simp [Taken]
  | some j => cases j <;> simp [Taken, ofJson, Json.ofNat, unsignedOf_iff]

end taken

/-- A field that had no value gets that of the document given for it, and one that is given none
stays as it was. -/
def Shape.Met (source : Source) (shape : Shape) (given : Option Json)
    (old new : Option shape.Value) : Prop :=
  match given with
  | none => new = old
  | some j => old = none ∧ shape.Taken source (some j) new

theorem Shape.met_none_iff {source : Source} {shape : Shape} {given : Option Json}
    {new : Option shape.Value} : shape.Met source given none new ↔ shape.Taken source given new := by
  cases given with
  | none => exact Iff.rfl
  | some j => exact and_iff_right rfl

def Shape.isOptional : Shape → Bool
  | .optional _ => true
  | _ => false

namespace Fields

def names : Fields → List String
  | .nil => []
  | .cons name _ _ rest => name :: rest.names

@[simp] theorem length_names : (fields : Fields) → fields.names.length = fields.length
  | .nil => rfl
  | .cons _ _ _ rest => congrArg (· + 1) rest.length_names

/-- No field that has to be there may be left out of an object, as an optional one may. -/
def strict : Fields → Bool
  | .nil => true
  | .cons _ shape defaulted rest => (defaulted || !shape.isOptional) && rest.strict

theorem absent_of_not_optional (name : String) {shape : Shape} (h : shape.isOptional = false) :
    absent name shape = .error (.missing name) := by
  cases shape <;> first | rfl | cases h

/-- Every field has the value of the document that is given under its name. One that is not
defaulted is given. -/
def Reads (source : Source) (find : String → Option Json) : (fields : Fields) → fields.Value → Prop
  | .nil, _ => True
  | .cons name shape true rest, (value, values) =>
      shape.Taken source (find name) value ∧ rest.Reads source find values
  | .cons name shape false rest, (value, values) =>
      shape.Taken source (find name) (some value) ∧ rest.Reads source find values

theorem reads_congr {source : Source} {find find' : String → Option Json} :
    (fields : Fields) → {values : fields.Value} → (∀ name ∈ fields.names, find name = find' name) →
      (fields.Reads source find values ↔ fields.Reads source find' values)
  | .nil, _, _ => Iff.rfl
  | .cons name _ true rest, (_, _), hfind => by
      rw [Reads, Reads, hfind name List.mem_cons_self,
        rest.reads_congr fun other hmem => hfind other (List.mem_cons_of_mem _ hmem)]
  | .cons name _ false rest, (_, _), hfind => by
      rw [Reads, Reads, hfind name List.mem_cons_self,
        rest.reads_congr fun other hmem => hfind other (List.mem_cons_of_mem _ hmem)]

/-- The fields that `find` gives a document for get its value. -/
def Meets (source : Source) (find : String → Option Json) :
    (fields : Fields) → fields.Partial → fields.Partial → Prop
  | .nil, _, _ => True
  | .cons name shape _ rest, (old, earlier), (new, later) =>
      shape.Met source (find name) old new ∧ rest.Meets source find earlier later

section objects

variable {source : Source} {key : String} {j : Json}

theorem meets_nothing {find : String → Option Json} : (fields : Fields) →
    (met met' : fields.Partial) → (∀ name ∈ fields.names, find name = none) →
      (fields.Meets source find met met' ↔ met' = met)
  | .nil, _, _, _ => ⟨fun _ => rfl, fun _ => trivial⟩
  | .cons name shape _ rest, (old, earlier), (new, later), hfind => by
      have hrest := rest.meets_nothing earlier later fun other hmem =>
        hfind other (List.mem_cons_of_mem _ hmem)
      rw [Meets, hfind name List.mem_cons_self, hrest, Prod.mk.injEq]
      rfl

theorem ofMember_iff : (fields : Fields) → {met met' : fields.Partial} → fields.names.Nodup →
    (fields.ofMember source key j met = .ok met' ↔
      fields.Meets source (fun name => if name = key then some j else none) met met')
  | .nil, _, _, _ => ⟨fun _ => trivial, fun _ => rfl⟩
  | .cons name shape _ rest, (old, earlier), (new, later), hnodup => by
      obtain ⟨hfresh, hlater⟩ := List.nodup_cons.mp hnodup
      rw [ofMember, Meets]
      by_cases hkey : key = name
      · subst hkey
        have hnothing : ∀ other ∈ rest.names, (if other = key then some j else none) = none :=
          fun other hmem => if_neg (ne_of_mem_of_not_mem hmem hfresh)
        rw [rest.meets_nothing _ _ hnothing]
        cases old with
        | some => simp [Shape.Met]
        | none =>
            rw [if_pos rfl, Shape.met_none_iff]
            cases hread : shape.ofJson source j <;>
              simp [Shape.Taken, hread, bind, Except.bind, eq_comm]
      · rw [if_neg hkey, if_neg (Ne.symm hkey), ← rest.ofMember_iff hlater]
        cases rest.ofMember source key j earlier <;>
          simp [Shape.Met, bind, Except.bind, eq_comm]

theorem ofMember_of_not_mem : (fields : Fields) → {met : fields.Partial} → key ∉ fields.names →
    fields.ofMember source key j met = .ok met
  | .nil, _, _ => rfl
  | .cons name _ _ rest, (_, _), hnone => by
      rw [ofMember, if_neg (List.ne_of_not_mem_cons hnone),
        rest.ofMember_of_not_mem (List.not_mem_of_not_mem_cons hnone)]
      rfl

/-- One after the other, if no field is given twice. -/
theorem meets_meets {find find' : String → Option Json} :
    (fields : Fields) → (met met' : fields.Partial) →
      (∀ name ∈ fields.names, find name = none ∨ find' name = none) →
        ((∃ between, fields.Meets source find met between ∧ fields.Meets source find' between met') ↔
          fields.Meets source (fun name => (find name).or (find' name)) met met')
  | .nil, _, _, _ => ⟨fun _ => trivial, fun _ => ⟨(), trivial, trivial⟩⟩
  | .cons name shape _ rest, (old, earlier), (new, later), hapart => by
      have hrest := rest.meets_meets earlier later fun other hmem =>
        hapart other (List.mem_cons_of_mem _ hmem)
      simp only [Meets, ← hrest, Prod.exists]
      cases hfind : find name with
      | none =>
          constructor
          · rintro ⟨_, between, ⟨rfl, hearlier⟩, hgiven, hlater⟩
            exact ⟨hgiven, between, hearlier, hlater⟩
          · rintro ⟨hgiven, between, hearlier, hlater⟩
            exact ⟨old, between, ⟨rfl, hearlier⟩, hgiven, hlater⟩
      | some given =>
          rw [(hapart name List.mem_cons_self).resolve_left (by rw [hfind]; nofun)]
          constructor
          · rintro ⟨_, between, ⟨hgiven, hearlier⟩, rfl, hlater⟩
            exact ⟨hgiven, between, hearlier, hlater⟩
          · rintro ⟨hgiven, between, hearlier, hlater⟩
            exact ⟨new, between, ⟨hgiven, hearlier⟩, rfl, hlater⟩

theorem not_meets_twice {find find' : String → Option Json} {name : String} {given given' : Json}
    (hfind : find name = some given) (hfind' : find' name = some given') :
    (fields : Fields) → {met between met' : fields.Partial} → name ∈ fields.names →
      fields.Meets source find met between → ¬fields.Meets source find' between met'
  | .cons other shape _ rest, (_, earlier), (middle, between), (_, later), hmem, hmeets, hmeets' => by
      obtain rfl | hmem := List.mem_cons.mp hmem
      · have hgiven := hmeets.1
        have hgiven' := hmeets'.1
        rw [hfind] at hgiven
        rw [hfind'] at hgiven'
        obtain ⟨-, value, -, hsome⟩ := hgiven
        exact absurd (hsome.symm.trans hgiven'.1) nofun
      · exact rest.not_meets_twice hfind hfind' hmem hmeets.2 hmeets'.2

theorem foldlM_ofMember_iff {fields : Fields} (hfields : fields.names.Nodup)
    {members : List (String × Json)} {met met' : fields.Partial} :
    members.foldlM (fun met (key, value) => fields.ofMember source key value met) met = .ok met' ↔
      ((members.map Prod.fst).filter (· ∈ fields.names)).Nodup ∧
        fields.Meets source (members.lookup ·) met met' := by
  induction members generalizing met with
  | nil =>
      have hnothing : fields.Meets source (List.lookup · []) met met' ↔ met' = met :=
        fields.meets_nothing met met' fun _ _ => rfl
      rw [hnothing]
      change Except.ok met = .ok met' ↔ List.Nodup [] ∧ met' = met
      rw [Except.ok.injEq, eq_comm, and_iff_right List.nodup_nil]
  | cons member members ih =>
      obtain ⟨key, value⟩ := member
      have hsplit : ((key, value) :: members).foldlM
            (fun met (key, value) => fields.ofMember source key value met) met = .ok met' ↔
          ∃ between, fields.Meets source (fun name => if name = key then some value else none) met
              between ∧ ((members.map Prod.fst).filter (· ∈ fields.names)).Nodup ∧
            fields.Meets source (members.lookup ·) between met' := by
        rw [List.foldlM_cons]
        simp only [← fields.ofMember_iff hfields, ← ih]
        cases fields.ofMember source key value met <;> simp [bind, Except.bind]
      have hfind : (((key, value) :: members).lookup ·) =
          fun name => (if name = key then some value else none).or (members.lookup name) := by
        funext name
        rw [lookup_cons_if]
        by_cases hname : name = key <;> simp [hname]
      have hkeys : ((key, value) :: members).map Prod.fst = key :: members.map Prod.fst := rfl
      rw [hsplit, hfind, hkeys, List.filter_cons]
      by_cases htwice : key ∈ fields.names ∧ key ∈ members.map Prod.fst
      · obtain ⟨hkey, hmem⟩ := htwice
        have hrepeated : key ∈ (members.map Prod.fst).filter (· ∈ fields.names) :=
          List.mem_filter.mpr ⟨hmem, decide_eq_true hkey⟩
        obtain ⟨again, hagain⟩ := Option.isSome_iff_exists.mp (Table.mem_keys_iff.mp hmem)
        rw [if_pos (decide_eq_true hkey)]
        constructor
        · rintro ⟨between, hfirst, -, hlater⟩
          exact (fields.not_meets_twice (if_pos rfl) hagain hkey hfirst hlater).elim
        · rintro ⟨hnodup, -⟩
          exact absurd hrepeated (List.nodup_cons.mp hnodup).1
      · have hapart (name : String) (hname : name ∈ fields.names) :
            (if name = key then some value else none) = none ∨ members.lookup name = none := by
          by_cases heq : name = key
          · refine .inr (Option.not_isSome_iff_eq_none.mp fun hsome => htwice ?_)
            exact heq ▸ ⟨hname, Table.mem_keys_iff.mpr hsome⟩
          · exact .inl (if_neg heq)
        have hnodup : (if decide (key ∈ fields.names) = true then
              key :: (members.map Prod.fst).filter (· ∈ fields.names)
            else (members.map Prod.fst).filter (· ∈ fields.names)).Nodup ↔
            ((members.map Prod.fst).filter (· ∈ fields.names)).Nodup := by
          split
          case isTrue hkey =>
            rw [List.nodup_cons]
            exact and_iff_right fun hmem =>
              htwice ⟨of_decide_eq_true hkey, (List.mem_filter.mp hmem).1⟩
          case isFalse => exact Iff.rfl
        rw [← fields.meets_meets _ _ hapart, hnodup]
        constructor
        · rintro ⟨between, hfirst, honce, hlater⟩
          exact ⟨honce, between, hfirst, hlater⟩
        · rintro ⟨honce, between, hfirst, hlater⟩
          exact ⟨between, hfirst, honce, hlater⟩

theorem complete_iff (find : String → Option Json) : (fields : Fields) → (values : fields.Value) →
    fields.strict →
      ((∃ met, fields.Meets source find fields.blank met ∧ fields.complete met = .ok values) ↔
        fields.Reads source find values)
  | .nil, _, _ => ⟨fun _ => trivial, fun _ => ⟨(), trivial, rfl⟩⟩
  | .cons name shape true rest, (value, values), hstrict => by
      have hrest := rest.complete_iff find values hstrict
      have hcomplete (new : Option shape.Value) (later : rest.Partial) :
          (Fields.cons name shape true rest).complete (new, later) = .ok (value, values) ↔
            new = value ∧ rest.complete later = .ok values := by
        rw [complete]
        cases rest.complete later <;> simp [bind, Except.bind]
      simp only [Reads, ← hrest, Meets, blank, Prod.exists, Shape.met_none_iff, hcomplete]
      constructor
      · rintro ⟨_, later, ⟨htaken, hmeets⟩, rfl, hlater⟩
        exact ⟨htaken, later, hmeets, hlater⟩
      · rintro ⟨htaken, later, hmeets, hlater⟩
        exact ⟨value, later, ⟨htaken, hmeets⟩, rfl, hlater⟩
  | .cons name shape false rest, (value, values), hstrict => by
      obtain ⟨hshape, hlater⟩ := Bool.and_eq_true_iff.mp hstrict
      have habsent := absent_of_not_optional name (Bool.not_inj (y := false) hshape)
      have hrest := rest.complete_iff find values hlater
      have hcomplete (new : Option shape.Value) (later : rest.Partial) :
          (Fields.cons name shape false rest).complete (new, later) = .ok (value, values) ↔
            new = some value ∧ rest.complete later = .ok values := by
        cases new with
        | none => simp [complete, habsent, bind, Except.bind]
        | some v =>
            rw [complete]
            cases rest.complete later <;> simp [bind, Except.bind]
      simp only [Reads, ← hrest, Meets, blank, Prod.exists, Shape.met_none_iff, hcomplete]
      constructor
      · rintro ⟨_, later, ⟨htaken, hmeets⟩, rfl, hlater⟩
        exact ⟨htaken, later, hmeets, hlater⟩
      · rintro ⟨htaken, later, hmeets, hlater⟩
        exact ⟨some value, later, ⟨htaken, hmeets⟩, rfl, hlater⟩

end objects

section lists

variable {source : Source} {expected : String}

theorem find_tail {name : String} {names : List String} (hfresh : name ∉ names) (item : Json)
    (items : List Json) {other : String} (hmem : other ∈ names) :
    (item :: items)[(name :: names).idxOf other]? = items[names.idxOf other]? := by
  rw [List.idxOf_cons_ne _ (ne_of_mem_of_not_mem hmem hfresh).symm]
  rfl

theorem ofItems_iff : (fields : Fields) → (values : fields.Value) → (items surplus : List Json) →
    (index : Nat) → fields.names.Nodup →
      (fields.ofItems source expected index items = .ok (values, surplus) ↔
        surplus = items.drop fields.length ∧
          fields.Reads source (fun name => items[fields.names.idxOf name]?) values)
  | .nil, (), items, surplus, _, _ => by
      rw [ofItems]
      simp [Reads, length, eq_comm]
  | .cons name shape true rest, (value, values), [], surplus, index, hnodup => by
      have hrest := rest.ofItems_iff values [] surplus (index + 1) (List.nodup_cons.mp hnodup).2
      rw [ofItems, Reads]
      simp only [List.getElem?_nil, List.drop_nil] at hrest ⊢
      rw [and_left_comm, ← hrest]
      cases rest.ofItems source expected (index + 1) [] with
      | error => simp [bind, Except.bind]
      | ok result =>
          obtain ⟨later, left⟩ := result
          simp [Shape.Taken, bind, Except.bind, eq_comm, and_assoc]
  | .cons name shape false rest, (value, values), [], surplus, index, _ => by
      rw [ofItems, Reads]
      simp [Shape.Taken]
  | .cons name shape true rest, (value, values), item :: items, surplus, index, hnodup => by
      obtain ⟨hfresh, hlater⟩ := List.nodup_cons.mp hnodup
      have hrest := rest.ofItems_iff values items surplus (index + 1) hlater
      rw [ofItems, Reads, names, rest.reads_congr fun other => find_tail hfresh item items,
        List.idxOf_cons_self, length, List.drop_succ_cons, and_left_comm, ← hrest]
      cases hread : shape.ofJson source item with
      | error => simp [Shape.Taken, hread, bind, Except.bind]
      | ok v =>
          cases rest.ofItems source expected (index + 1) items with
          | error => simp [Shape.Taken, bind, Except.bind]
          | ok result =>
              obtain ⟨later, left⟩ := result
              simp [Shape.Taken, hread, bind, Except.bind, eq_comm, and_assoc]
  | .cons name shape false rest, (value, values), item :: items, surplus, index, hnodup => by
      obtain ⟨hfresh, hlater⟩ := List.nodup_cons.mp hnodup
      have hrest := rest.ofItems_iff values items surplus (index + 1) hlater
      rw [ofItems, Reads, names, rest.reads_congr fun other => find_tail hfresh item items,
        List.idxOf_cons_self, length, List.drop_succ_cons, and_left_comm, ← hrest]
      cases hread : shape.ofJson source item with
      | error => simp [Shape.Taken, hread, bind, Except.bind]
      | ok v =>
          cases rest.ofItems source expected (index + 1) items with
          | error => simp [Shape.Taken, bind, Except.bind]
          | ok result =>
              obtain ⟨later, left⟩ := result
              simp [Shape.Taken, hread, bind, Except.bind, eq_comm, and_assoc]

end lists

end Fields

/-- A document is read as a record if and only if it is one, and every field can be read from what
it gives for that. -/
theorem ofJson_record_iff {source : Source} {name : String} {fields : Fields}
    (hfields : fields.names.Nodup) (hstrict : fields.strict) {j : Json} {values : fields.Value} :
    (Shape.record name fields).ofJson source j = .ok values ↔
      j.IsRecord fields.names ∧
        fields.Reads source (fun other => j.given? fields.names other) values := by
  cases j with
  | object members =>
      have hfold (met : fields.Partial) :
          members.foldlM (fun met (key, value) => fields.ofMember source key value met)
              fields.blank = .ok met ↔
            ((members.map Prod.fst).filter (· ∈ fields.names)).Nodup ∧
              fields.Meets source (members.lookup ·) fields.blank met :=
        fields.foldlM_ofMember_iff hfields
      rw [Shape.ofJson, IsRecord, ← fields.complete_iff _ values hstrict, ← exists_and_left]
      simp only [given?, ← and_assoc, ← hfold]
      cases members.foldlM (fun met (key, value) => fields.ofMember source key value met)
        fields.blank <;> simp [bind, Except.bind]
  | list items =>
      have hread : (Shape.record name fields).ofJson source (.list items) = .ok values ↔
          fields.ofItems source (recordLength name fields) 0 items = .ok (values, []) := by
        rw [Shape.ofJson]
        cases fields.ofItems source (recordLength name fields) 0 items with
        | error => simp [bind, Except.bind]
        | ok result =>
            obtain ⟨read, surplus⟩ := result
            cases surplus <;> simp [bind, Except.bind]
      rw [hread, fields.ofItems_iff values items [] 0 hfields, eq_comm, List.drop_eq_nil_iff,
        ← fields.length_names]
      exact Iff.rfl
  | _ => simp [Shape.ofJson, IsRecord]

theorem record_bind_iff {α : Type} {name : String} {fields : Fields} (hfields : fields.names.Nodup)
    (hstrict : fields.strict) {f : fields.Value → Except Mismatch α} {j : Json} {a : α} :
    ((Shape.record name fields).decode j >>= f) = .ok a ↔ j.IsRecord fields.names ∧
      ∃ values, fields.Reads .document (fun other => j.given? fields.names other) values ∧
        f values = .ok a := by
  have hread (values : fields.Value) :
      (Shape.record name fields).ofJson .document j = .ok values ↔ j.IsRecord fields.names ∧
        fields.Reads .document (fun other => j.given? fields.names other) values :=
    ofJson_record_iff hfields hstrict
  rw [← exists_and_left]
  simp only [← and_assoc, ← hread, Shape.decode]
  cases (Shape.record name fields).ofJson .document j <;> simp [bind, Except.bind]

/-- Members that no field is named after make no difference. -/
theorem ofJson_record_filter {source : Source} {name : String} {fields : Fields}
    (members : List (String × Json)) :
    (Shape.record name fields).ofJson source (.object members) =
      (Shape.record name fields).ofJson source
        (.object (members.filter (·.1 ∈ fields.names))) := by
  have hfold (met : fields.Partial) :
      members.foldlM (fun met (key, value) => fields.ofMember source key value met) met =
        (members.filter (·.1 ∈ fields.names)).foldlM
          (fun met (key, value) => fields.ofMember source key value met) met := by
    induction members generalizing met with
    | nil => rfl
    | cons member members ih =>
        obtain ⟨key, value⟩ := member
        by_cases hmem : key ∈ fields.names
        · simp only [List.filter_cons, hmem, decide_true, if_true, List.foldlM_cons, ih]
        · simp only [List.filter_cons, hmem, decide_false, Bool.false_eq_true, if_false,
            List.foldlM_cons, fields.ofMember_of_not_mem hmem]
          exact ih met
  rw [Shape.ofJson, Shape.ofJson, hfold]

end CodeAssist.Json
