import CodeAssist.Proofs.Json.Scanning

namespace CodeAssist.Json

/-! Shapes with parts: their scans follow the documents as those of the parts do. -/

section

variable {α : Type} {depth n : Nat} {first : Bool} {c c' : Cursor}

theorem readItems_follows {scan : Cursor → Except ReadError (α × Cursor)}
    {decode : Json → Except Mismatch α} (h : Follows depth scan decode) {items : List Json}
    (hread : readItems (readValue depth) n first [] c = .ok (items, c')) (values : List α)
    (c'' : Cursor) : readItems scan n first [] c = .ok (values, c'') ↔
      items.mapM decode = .ok values ∧ c'' = c' := by
  induction n generalizing first items c values with
  | zero => cases hread
  | succ n ih =>
      rw [readItems_eq_ok_iff]
      obtain ⟨c₁, hanother, rfl, rfl⟩ | ⟨c₁, j, c₂, later, hanother, hitem, hlater, rfl⟩ :=
        readItems_eq_ok_iff.mp hread
      · simp [hanother, pure, Except.pure, eq_comm]
      · simp only [hanother, List.mapM_cons, bind_eq_ok_iff]
        constructor
        · rintro (⟨_, heq, -⟩ | ⟨_, a, _, more, heq, ha, hmore, rfl⟩)
          · cases heq
          · cases heq
            obtain ⟨hvalue, rfl⟩ := (h _ _ _ hitem _ _).mp ha
            obtain ⟨hvalues, rfl⟩ := (ih hlater more).mp hmore
            exact ⟨⟨a, hvalue, more, hvalues, rfl⟩, rfl⟩
        · rintro ⟨⟨a, hvalue, more, hvalues, heq⟩, rfl⟩
          cases heq
          exact .inr ⟨c₁, a, c₂, more, rfl, (h _ _ _ hitem _ _).mpr ⟨hvalue, rfl⟩,
            (ih hlater more).mpr ⟨hvalues, rfl⟩, rfl⟩

/-- A document starts as its kind does. -/
inductive Starts : UInt8 → Json → Prop
  | list (items : List Json) : Starts 91 (.list items)
  | object (members : List (String × Json)) : Starts 123 (.object members)
  | scalar {b : UInt8} {j : Json} (hj : j.isScalar) (hlist : b ≠ 91) (hobject : b ≠ 123) : Starts b j

theorem exists_starts {j : Json} (h : readValue depth c = .ok (j, c')) :
    ∃ b, lookAhead c = .ok (b, c.skipBlank) ∧ Starts b j := by
  obtain ⟨_, hopens⟩ := exists_opens h
  cases hopens with
  | scalar hscalar =>
      obtain ⟨b, rest, hfirst, hlist, hobject, -⟩ := hscalar.skip
      refine ⟨b, lookAhead_eq hfirst, .scalar ?_ hlist hobject⟩
      cases hscalar <;> rfl
  | list _ hfirst => exact ⟨91, lookAhead_eq hfirst, .list _⟩
  | object _ hfirst => exact ⟨123, lookAhead_eq hfirst, .object _⟩

theorem readValue_list_iff {items : List Json} :
    readValue depth c = .ok (.list items, c') ↔ ∃ inner rest, depth = inner + 1 ∧
      c.skipBlank.rest = 91 :: rest ∧
      readItems (readValue inner) c.skipBlank.fuel true [] c.skipBlank.bump = .ok (items, c') := by
  constructor
  · intro h
    cases depth with
    | zero => cases isScalar_of_readValue_zero h
    | succ inner =>
        cases opens_of_read h with
        | scalar hread => cases hread
        | list hnested hfirst hread =>
            cases hnested
            exact ⟨inner, _, rfl, hfirst, hread⟩
  · rintro ⟨inner, rest, rfl, hfirst, hread⟩
    have hopens : Opens (some (readValue inner)) c.skipBlank (.list items) c' :=
      .list rfl hfirst hread
    exact hopens.read

theorem follows_list {shape : Shape}
    (h : ∀ depth, Follows depth (shape.scan depth) (shape.ofJson .document)) :
    Follows depth ((Shape.list shape).scan depth) ((Shape.list shape).ofJson .document) := by
  intro c j c' hread values c''
  obtain ⟨b, hlook, hstarts⟩ := exists_starts hread
  rw [Shape.scan, bind_of_ok hlook]
  cases hstarts with
  | object members =>
      constructor
      · intro hscan
        cases hscan
      · rintro ⟨heq, -⟩
        cases heq
  | scalar hj hlist hobject =>
      have hb : (b != 91) = true := bne_iff_ne.mpr hlist
      simp only [hb, if_true]
      constructor
      · intro hscan
        cases hscan
      · rintro ⟨heq, -⟩
        cases j <;> first | cases heq | cases hj
  | list items =>
      obtain ⟨inner, rest, rfl, hfirst, hitems⟩ := readValue_list_iff.mp hread
      exact readItems_follows (h inner) hitems values c''

section members

variable {ε σ τ : Type}

/-- What `keep` adds to the members kept before, `take` takes in where it stands. -/
def Steps (keep : String → Cursor → List σ → Except ReadError (List σ × Cursor))
    (take : String → Cursor → τ → Except ReadError (τ × Cursor)) (put : τ → σ → Except ε τ) : Prop :=
  ∀ key c before found c', keep key c before = .ok (found, c') →
    ∃ more : List σ, found = more.reverse ++ before ∧ ∀ state state' c'',
      take key c state = .ok (state', c'') ↔ more.foldlM put state = .ok state' ∧ c'' = c'

theorem Steps.readMembers {keep : String → Cursor → List σ → Except ReadError (List σ × Cursor)}
    {take : String → Cursor → τ → Except ReadError (τ × Cursor)} {put : τ → σ → Except ε τ}
    (h : Steps keep take put) {before found : List σ}
    (hread : readMembers keep n first before c = .ok (found, c')) :
    ∃ later : List σ, found = later.reverse ++ before ∧ ∀ state state' c'',
      Json.readMembers take n first state c = .ok (state', c'') ↔
        later.foldlM put state = .ok state' ∧ c'' = c' := by
  induction n generalizing first before c with
  | zero => cases hread
  | succ n ih =>
      obtain ⟨hanother, rfl⟩ | ⟨c₁, key, c₂, between, c₃, hanother, hkey, hmember, hlater⟩ :=
        readMembers_eq_ok_iff.mp hread
      · refine ⟨[], rfl, fun state state' c'' => ?_⟩
        rw [readMembers_eq_ok_iff]
        simp [hanother, pure, Except.pure, eq_comm, and_comm]
      · obtain ⟨more, rfl, htake⟩ := h _ _ _ _ _ hmember
        obtain ⟨later, rfl, hrest⟩ := ih hlater
        -- One member may add none or several, and the others add theirs behind.
        refine ⟨more ++ later, by simp, fun state state' c'' => ?_⟩
        rw [readMembers_eq_ok_iff, List.foldlM_append, bind_eq_ok_iff]
        constructor
        · rintro (⟨hdone, -⟩ | ⟨_, _, _, middle, _, hanother', hkey', hfirst, hmore⟩)
          · cases hanother.symm.trans hdone
          · cases hanother.symm.trans hanother'
            cases hkey.symm.trans hkey'
            obtain ⟨hput, rfl⟩ := (htake _ _ _).mp hfirst
            obtain ⟨hputs, rfl⟩ := (hrest _ _ _).mp hmore
            exact ⟨⟨middle, hput, hputs⟩, rfl⟩
        · rintro ⟨⟨middle, hput, hputs⟩, rfl⟩
          exact .inr ⟨c₁, key, c₂, middle, c₃, hanother, hkey, (htake _ _ _).mpr ⟨hput, rfl⟩,
            (hrest _ _ _).mpr ⟨hputs, rfl⟩⟩

/-- Members that one reader gets through another gets through as well. -/
theorem readMembers_mono {take : String → Cursor → σ → Except ReadError (σ × Cursor)}
    {keep : String → Cursor → τ → Except ReadError (τ × Cursor)} (Fit : σ → τ → Prop)
    (h : ∀ key c state state' c' other, Fit state other → take key c state = .ok (state', c') →
      ∃ other', keep key c other = .ok (other', c') ∧ Fit state' other')
    {state state' : σ} {other : τ} (hfit : Fit state other)
    (hread : readMembers take n first state c = .ok (state', c')) :
    ∃ other', readMembers keep n first other c = .ok (other', c') ∧ Fit state' other' := by
  induction n generalizing first state other c with
  | zero => cases hread
  | succ n ih =>
      obtain ⟨hanother, rfl⟩ | ⟨c₁, key, c₂, between, c₃, hanother, hkey, hmember, hlater⟩ :=
        readMembers_eq_ok_iff.mp hread
      · exact ⟨other, readMembers_eq_ok_iff.mpr (.inl ⟨hanother, rfl⟩), hfit⟩
      · obtain ⟨middle, hmiddle, hfit'⟩ := h _ _ _ _ _ _ hfit hmember
        obtain ⟨other', hother, hfinal⟩ := ih hfit' hlater
        exact ⟨other', readMembers_eq_ok_iff.mpr
          (.inr ⟨c₁, key, c₂, middle, c₃, hanother, hkey, hmiddle, hother⟩), hfinal⟩

end members

/-- How the members of a table are scanned one by one, the latest kept first. -/
def keepScanned (scan : Cursor → Except ReadError (α × Cursor)) (key : String) (c : Cursor)
    (members : List (String × α)) : Except ReadError (List (String × α) × Cursor) := do
  let c ← readColon c
  let (value, c) ← scan c
  .ok ((key, value) :: members, c)

/-- What the document of a member stands for, with its name. -/
def decodeMember (decode : Json → Except Mismatch α) (member : String × Json) :
    Except Mismatch (String × α) := do
  let value ← decode member.2
  .ok (member.1, value)

def putMember (decode : Json → Except Mismatch α) (members : List (String × α))
    (member : String × Json) : Except Mismatch (List (String × α)) := do
  let decoded ← decodeMember decode member
  .ok (decoded :: members)

theorem decodeMember_eq_ok_iff {decode : Json → Except Mismatch α} {key : String} {j : Json}
    {member : String × α} :
    decodeMember decode (key, j) = .ok member ↔
      ∃ value, decode j = .ok value ∧ member = (key, value) := by
  rw [decodeMember, bind_eq_ok_iff]
  simp only [Except.ok.injEq, eq_comm]

theorem steps_table {scan : Cursor → Except ReadError (α × Cursor)}
    {decode : Json → Except Mismatch α} (h : Follows depth scan decode) :
    Steps (keepMember (readValue depth)) (keepScanned scan) (putMember decode) := by
  intro key c before found c' hkeep
  obtain ⟨c₁, j, hcolon, hread, rfl⟩ := keepMember_eq_ok_iff.mp hkeep
  refine ⟨[(key, j)], rfl, fun members members' c'' => ?_⟩
  rw [keepScanned, bind_of_ok hcolon, List.foldlM_cons]
  simp only [List.foldlM_nil, putMember, bind_eq_ok_iff, decodeMember_eq_ok_iff, Prod.exists]
  constructor
  · rintro ⟨value, _, hscan, heq⟩
    cases heq
    obtain ⟨hvalue, rfl⟩ := (h _ _ _ hread _ _).mp hscan
    exact ⟨⟨_, ⟨_, _, ⟨value, hvalue, rfl⟩, rfl⟩, rfl⟩, rfl⟩
  · rintro ⟨⟨_, ⟨_, _, ⟨value, hvalue, heq⟩, heq'⟩, heq''⟩, rfl⟩
    cases heq
    cases heq'
    cases heq''
    exact ⟨_, c'', (h _ _ _ hread _ _).mpr ⟨hvalue, rfl⟩, rfl⟩

theorem foldlM_putMember {decode : Json → Except Mismatch α} {members : List (String × Json)}
    {before after : List (String × α)} :
    members.foldlM (putMember decode) before = .ok after ↔
      ∃ more, members.mapM (decodeMember decode) = .ok more ∧ after = more.reverse ++ before := by
  induction members generalizing before with
  | nil => simp [pure, Except.pure, eq_comm]
  | cons member members ih =>
      simp only [List.foldlM_cons, List.mapM_cons, putMember, bind_eq_ok_iff]
      constructor
      · rintro ⟨_, ⟨decoded, hdecoded, heq⟩, hlater⟩
        cases heq
        obtain ⟨more, hmore, rfl⟩ := ih.mp hlater
        exact ⟨decoded :: more, ⟨decoded, hdecoded, more, hmore, rfl⟩, by simp⟩
      · rintro ⟨_, ⟨decoded, hdecoded, more, hmore, heq⟩, rfl⟩
        cases heq
        exact ⟨decoded :: before, ⟨decoded, hdecoded, rfl⟩, ih.mpr ⟨more, hmore, by simp⟩⟩

theorem follows_table {shape : Shape}
    (h : ∀ depth, Follows depth (shape.scan depth) (shape.ofJson .document)) :
    Follows depth ((Shape.table shape).scan depth) ((Shape.table shape).ofJson .document) := by
  intro c j c' hread values c''
  obtain ⟨b, hlook, hstarts⟩ := exists_starts hread
  rw [Shape.scan, bind_of_ok hlook]
  cases hstarts with
  | list items =>
      constructor
      · intro hscan
        cases hscan
      · rintro ⟨heq, -⟩
        cases heq
  | scalar hj hlist hobject =>
      have hb : (b != 123) = true := bne_iff_ne.mpr hobject
      simp only [hb, if_true]
      constructor
      · intro hscan
        cases hscan
      · rintro ⟨heq, -⟩
        cases j <;> first | cases heq | cases hj
  | object members =>
      obtain ⟨inner, rest, c₁, rfl, hfirst, hmembers, rfl⟩ := readValue_object_iff.mp hread
      obtain ⟨later, heq, hscan⟩ := (steps_table (h inner)).readMembers hmembers
      obtain rfl := List.reverse_injective (heq.trans (List.append_nil _))
      change (readMembers (keepScanned (shape.scan inner)) c.skipBlank.fuel true [] c.skipBlank.bump >>=
        fun read => Except.ok (read.1.reverse, read.2.bump)) = .ok (values, c'') ↔
          members.mapM (decodeMember (shape.ofJson .document)) = .ok values ∧ c'' = c₁.bump
      simp only [bind_eq_ok_iff, Prod.exists, hscan, foldlM_putMember]
      constructor
      · rintro ⟨_, _, ⟨⟨more, hmore, rfl⟩, rfl⟩, heq⟩
        cases heq
        rw [List.append_nil, List.reverse_reverse]
        exact ⟨hmore, rfl⟩
      · rintro ⟨hvalues, rfl⟩
        exact ⟨_, c₁, ⟨⟨values, hvalues, rfl⟩, rfl⟩, by simp⟩

/-- How the members of an object are read of which only those of some names matter. -/
def keepKnown (names : List String) (value : Cursor → Except ReadError (Json × Cursor))
    (key : String) (c : Cursor) (members : List (String × Json)) :
    Except ReadError (List (String × Json) × Cursor) :=
  if key ∈ names then keepMember value key c members
  else do
    let c ← readColon c
    let c ← skipValue c
    .ok (members, c)

theorem anotherItem_done_iff : anotherItem first c = .ok (false, c') ↔
    (∃ rest, c.skipBlank.rest = 93 :: rest) ∧ c' = c.skipBlank := by
  constructor
  · intro h
    cases another_of_item h with
    | none hclose => exact ⟨⟨_, hclose⟩, rfl⟩
  · rintro ⟨⟨rest, hclose⟩, rfl⟩
    simp [anotherItem, hclose]

theorem readListEnd_iff : readListEnd c = .ok c' ↔
    (∃ rest, c.skipBlank.rest = 93 :: rest) ∧ c' = c.skipBlank.bump := by
  constructor
  · intro h
    unfold readListEnd at h
    dsimp only at h
    split at h
    case h_1 => cases h
    case h_2 rest hclose =>
      cases h
      exact ⟨⟨rest, hclose⟩, rfl⟩
    case h_3 => split at h <;> cases h
    case h_4 => cases h
  · rintro ⟨⟨rest, hclose⟩, rfl⟩
    simp [readListEnd, hclose]

namespace Fields

/-- A member that no field is named after is passed over. -/
theorem scanMember_of_not_mem {key : String} : (fields : Fields) → key ∉ fields.names →
    (met met' : fields.Partial) → (fields.scanMember depth key c met = .ok (met', c') ↔
      met' = met ∧ ∃ c₁, readColon c = .ok c₁ ∧ skipValue c₁ = .ok c')
  | .nil, _, (), () => by
      rw [scanMember]
      simp [bind_eq_ok_iff]
  | .cons name shape defaulted rest, hnone, (old, earlier), (new, later) => by
      have hrest := rest.scanMember_of_not_mem (List.not_mem_of_not_mem_cons hnone) earlier later
      rw [scanMember, if_neg (List.ne_of_not_mem_cons hnone)]
      simp only [bind_eq_ok_iff, Prod.exists, Except.ok.injEq, Prod.mk.injEq]
      constructor
      · rintro ⟨between, c₁, hmember, ⟨rfl, rfl⟩, rfl⟩
        obtain ⟨rfl, hpassed⟩ := hrest.mp hmember
        exact ⟨⟨rfl, rfl⟩, hpassed⟩
      · rintro ⟨⟨rfl, rfl⟩, hpassed⟩
        exact ⟨later, c', hrest.mpr ⟨rfl, hpassed⟩, ⟨rfl, rfl⟩, rfl⟩

/-- The shape of every field has the property. -/
def All (P : Shape → Prop) : Fields → Prop
  | .nil => True
  | .cons _ shape _ rest => P shape ∧ rest.All P

theorem follows_member (key : String) {c₁ : Cursor} {j : Json} (hcolon : readColon c = .ok c₁)
    (hread : readValue depth c₁ = .ok (j, c')) : (fields : Fields) →
      fields.All (fun shape => Follows depth (shape.scan depth) (shape.ofJson .document)) →
      (met met' : fields.Partial) → (c'' : Cursor) →
        (fields.scanMember depth key c met = .ok (met', c'') ↔
          fields.ofMember .document key j met = .ok met' ∧ c'' = c')
  | .nil, _, (), (), c'' => by
      rw [scanMember, ofMember, bind_of_ok hcolon, bind_of_ok (skipValue_of_readValue hread)]
      simp [eq_comm]
  | .cons name shape defaulted rest, h, (old, earlier), (new, later), c'' => by
      rw [scanMember, ofMember]
      by_cases hkey : key = name
      · rw [if_pos hkey, if_pos hkey]
        cases old with
        | some => simp
        | none =>
            simp only [Option.isSome_none, Bool.false_eq_true, if_false, bind_of_ok hcolon,
              bind_eq_ok_iff, Prod.exists, h.1 _ _ _ hread, Except.ok.injEq, Prod.mk.injEq]
            constructor
            · rintro ⟨value, _, ⟨hvalue, rfl⟩, ⟨rfl, rfl⟩, rfl⟩
              exact ⟨⟨value, hvalue, rfl, rfl⟩, rfl⟩
            · rintro ⟨⟨value, hvalue, rfl, rfl⟩, rfl⟩
              exact ⟨value, c'', ⟨hvalue, rfl⟩, ⟨rfl, rfl⟩, rfl⟩
      · rw [if_neg hkey, if_neg hkey]
        simp only [bind_eq_ok_iff, Prod.exists, Except.ok.injEq, Prod.mk.injEq,
          rest.follows_member key hcolon hread h.2 earlier]
        constructor
        · rintro ⟨between, _, ⟨hmember, rfl⟩, ⟨rfl, rfl⟩, rfl⟩
          exact ⟨⟨between, hmember, rfl, rfl⟩, rfl⟩
        · rintro ⟨⟨between, hmember, rfl, rfl⟩, rfl⟩
          exact ⟨between, c'', ⟨hmember, rfl⟩, ⟨rfl, rfl⟩, rfl⟩

theorem steps_members {fields : Fields}
    (h : fields.All fun shape => Follows depth (shape.scan depth) (shape.ofJson .document)) :
    Steps (keepKnown fields.names (readValue depth)) (fun key => fields.scanMember depth key)
      (fun met (member : String × Json) => fields.ofMember .document member.1 member.2 met) := by
  intro key c before found c' hkeep
  unfold keepKnown at hkeep
  split at hkeep
  case isTrue =>
    obtain ⟨c₁, j, hcolon, hread, rfl⟩ := keepMember_eq_ok_iff.mp hkeep
    refine ⟨[(key, j)], rfl, fun met met' c'' => ?_⟩
    rw [fields.follows_member key hcolon hread h]
    simp [bind_eq_ok_iff, pure, Except.pure]
  case isFalse hnone =>
    simp only [bind_eq_ok_iff, Except.ok.injEq, Prod.mk.injEq] at hkeep
    obtain ⟨c₁, hcolon, c₂, hskip, rfl, rfl⟩ := hkeep
    refine ⟨[], rfl, fun met met' c'' => ?_⟩
    rw [fields.scanMember_of_not_mem hnone]
    simp [pure, Except.pure, hcolon, hskip, eq_comm]

/-- The items of a list are scanned as the fields that they are the values of. -/
theorem follows_items (expected : String) : (fields : Fields) →
    fields.All (fun shape => Follows depth (shape.scan depth) (shape.ofJson .document)) →
    (n index : Nat) → (first : Bool) → (c c' : Cursor) → (items : List Json) →
      readItems (readValue depth) n first [] c = .ok (items, c') →
        (values : fields.Value) → (c'' : Cursor) →
          ((∃ behind, fields.scanItems depth expected index first c = .ok (values, behind) ∧
              readListEnd behind = .ok c'') ↔
            fields.ofItems .document expected index items = .ok (values, []) ∧ c'' = c')
  | _, _, 0, _, _, _, _, _, h, _, _ => by cases h
  | .nil, _, n + 1, index, first, c, c', items, h, (), c'' => by
      rw [scanItems, ofItems]
      simp only [Except.ok.injEq, Prod.mk.injEq, true_and, exists_eq_left', readListEnd_iff]
      obtain ⟨c₁, hanother, rfl, rfl⟩ | ⟨c₁, _, _, later, hanother, -, -, rfl⟩ :=
        readItems_eq_ok_iff.mp h
      · obtain ⟨hclose, rfl⟩ := anotherItem_done_iff.mp hanother
        simp [hclose]
      · have hopen : ¬∃ rest, c.skipBlank.rest = 93 :: rest := by
          intro hclose
          cases (anotherItem_done_iff.mpr ⟨hclose, rfl⟩).symm.trans hanother
        simp [hopen]
  | .cons name shape true rest, hall, n + 1, index, first, c, c', items, h, (value, values), c'' => by
      rw [scanItems]
      obtain ⟨c₁, hanother, rfl, rfl⟩ | ⟨c₁, j, c₂, later, hanother, hread, hlater, rfl⟩ :=
        readItems_eq_ok_iff.mp h
      · -- Each field that is left out meets the closing bracket again.
        have hend : readItems (readValue depth) (n + 1) first [] c₁ = .ok ([], c₁.bump) := by
          obtain ⟨⟨rest', hclose⟩, rfl⟩ := anotherItem_done_iff.mp hanother
          rw [← Cursor.skipBlank_skipBlank] at hclose
          refine readItems_eq_ok_iff.mpr (.inl ⟨_, anotherItem_done_iff.mpr ⟨⟨rest', hclose⟩, rfl⟩,
            rfl, ?_⟩)
          rw [Cursor.skipBlank_skipBlank]
        have hrest := rest.follows_items expected hall.2 (n + 1) (index + 1) first c₁ _ []
          hend values c''
        rw [bind_of_ok hanother, ofItems]
        simp only [Bool.false_eq_true, if_false, bind_eq_ok_iff, Prod.exists, Except.ok.injEq,
          Prod.mk.injEq]
        constructor
        · rintro ⟨behind, ⟨_, _, hscan, ⟨rfl, rfl⟩, rfl⟩, hbehind⟩
          obtain ⟨hvalues, rfl⟩ := hrest.mp ⟨_, hscan, hbehind⟩
          exact ⟨⟨_, _, hvalues, ⟨rfl, rfl⟩, rfl⟩, rfl⟩
        · rintro ⟨⟨_, _, hvalues, ⟨rfl, rfl⟩, rfl⟩, rfl⟩
          obtain ⟨behind, hscan, hbehind⟩ := hrest.mpr ⟨hvalues, rfl⟩
          exact ⟨behind, ⟨_, _, hscan, ⟨rfl, rfl⟩, rfl⟩, hbehind⟩
      · have hrest := rest.follows_items expected hall.2 n (index + 1) false c₂ c' later
          hlater values c''
        rw [bind_of_ok hanother, ofItems]
        simp only [if_true, bind_eq_ok_iff, Prod.exists, Except.ok.injEq, Prod.mk.injEq,
          hall.1 _ _ _ hread]
        constructor
        · rintro ⟨behind, ⟨v, _, ⟨hv, rfl⟩, _, _, hscan, ⟨rfl, rfl⟩, rfl⟩, hbehind⟩
          obtain ⟨hvalues, rfl⟩ := hrest.mp ⟨_, hscan, hbehind⟩
          exact ⟨⟨v, hv, _, _, hvalues, ⟨rfl, rfl⟩, rfl⟩, rfl⟩
        · rintro ⟨⟨v, hv, _, _, hvalues, ⟨rfl, rfl⟩, rfl⟩, rfl⟩
          obtain ⟨behind, hscan, hbehind⟩ := hrest.mpr ⟨hvalues, rfl⟩
          exact ⟨behind, ⟨v, _, ⟨hv, rfl⟩, _, _, hscan, ⟨rfl, rfl⟩, rfl⟩, hbehind⟩
  | .cons name shape false rest, hall, n + 1, index, first, c, c', items, h, (value, values), c'' => by
      rw [scanItems]
      obtain ⟨c₁, hanother, rfl, rfl⟩ | ⟨c₁, j, c₂, later, hanother, hread, hlater, rfl⟩ :=
        readItems_eq_ok_iff.mp h
      · rw [bind_of_ok hanother, ofItems]
        simp
      · have hrest := rest.follows_items expected hall.2 n (index + 1) false c₂ c' later
          hlater values c''
        rw [bind_of_ok hanother, ofItems]
        simp only [if_true, bind_eq_ok_iff, Prod.exists, Except.ok.injEq, Prod.mk.injEq,
          hall.1 _ _ _ hread]
        constructor
        · rintro ⟨behind, ⟨v, _, ⟨hv, rfl⟩, _, _, hscan, ⟨rfl, rfl⟩, rfl⟩, hbehind⟩
          obtain ⟨hvalues, rfl⟩ := hrest.mp ⟨_, hscan, hbehind⟩
          exact ⟨⟨v, hv, _, _, hvalues, ⟨rfl, rfl⟩, rfl⟩, rfl⟩
        · rintro ⟨⟨v, hv, _, _, hvalues, ⟨rfl, rfl⟩, rfl⟩, rfl⟩
          obtain ⟨behind, hscan, hbehind⟩ := hrest.mpr ⟨hvalues, rfl⟩
          exact ⟨behind, ⟨v, _, ⟨hv, rfl⟩, _, _, hscan, ⟨rfl, rfl⟩, rfl⟩, hbehind⟩

end Fields

/-- Members that can be read are passed over where they do not matter. -/
theorem readMembers_known {names : List String} {members : List (String × Json)}
    (hread : readMembers (keepMember (readValue depth)) n first [] c = .ok (members.reverse, c')) :
    readMembers (keepKnown names (readValue depth)) n first [] c =
      .ok ((members.filter (·.1 ∈ names)).reverse, c') := by
  have hstep : ∀ key c before found c' (known : List (String × Json)),
      known = before.filter (·.1 ∈ names) →
      keepMember (readValue depth) key c before = .ok (found, c') →
        ∃ known', keepKnown names (readValue depth) key c known = .ok (known', c') ∧
          known' = found.filter (·.1 ∈ names) := by
    rintro key c before found c' known rfl hkeep
    obtain ⟨c₁, j, hcolon, hvalue, rfl⟩ := keepMember_eq_ok_iff.mp hkeep
    refine ⟨_, ?_, rfl⟩
    by_cases hkey : key ∈ names
    · rw [keepKnown, if_pos hkey, keepMember_eq_ok_iff]
      exact ⟨c₁, j, hcolon, hvalue, by simp [hkey]⟩
    · rw [keepKnown, if_neg hkey, bind_of_ok hcolon, bind_of_ok (skipValue_of_readValue hvalue)]
      simp [hkey]
  obtain ⟨known, hknown, rfl⟩ := readMembers_mono _ hstep rfl hread
  rw [← List.filter_reverse]
  exact hknown

section record

variable {name : String} {fields : Fields} {rest : Text.Bytes}

theorem complete_checked_iff {met : fields.Partial} {values : fields.Value} {c'' : Cursor} :
    (match fields.complete met with
      | .ok values => .ok (values, c.bump)
      | .error cause => .error (mismatchAt (behindObject c) cause)) = Except.ok (values, c'') ↔
        fields.complete met = .ok values ∧ c'' = c.bump := by
  cases fields.complete met <;> simp [eq_comm]

/-- An object is scanned as the members stand for that the fields are named after. -/
theorem scan_record_object
    (h : fields.All fun shape => Follows depth (shape.scan depth) (shape.ofJson .document))
    (hfirst : c.skipBlank.rest = 123 :: rest) {members : List (String × Json)}
    (hread : readMembers (keepKnown fields.names (readValue depth)) c.skipBlank.fuel true []
      c.skipBlank.bump = .ok (members.reverse, c')) (values : fields.Value) (c'' : Cursor) :
    (Shape.record name fields).scan (depth + 1) c = .ok (values, c'') ↔
      (Shape.record name fields).ofJson .document (.object members) = .ok values ∧
        c'' = c'.bump := by
  obtain ⟨later, heq, hscan⟩ := (Fields.steps_members h).readMembers hread
  obtain rfl := List.reverse_injective (heq.trans (List.append_nil _))
  have hlist : ((123 : UInt8) == 91) = false := rfl
  have hobject : ((123 : UInt8) == 123) = true := rfl
  have hdepth : (depth + 1 == 0) = false := rfl
  rw [Shape.scan, bind_of_ok (lookAhead_eq hfirst), Shape.ofJson]
  simp only [hlist, hobject, hdepth, Bool.false_eq_true, if_false, if_true, Nat.add_sub_cancel,
    bind_eq_ok_iff, Prod.exists, hscan]
  constructor
  · rintro ⟨met, _, ⟨hmet, rfl⟩, hchecked⟩
    obtain ⟨hvalues, rfl⟩ := complete_checked_iff.mp hchecked
    exact ⟨⟨met, hmet, hvalues⟩, rfl⟩
  · rintro ⟨⟨met, hmet, hvalues⟩, rfl⟩
    exact ⟨met, c', ⟨hmet, rfl⟩, complete_checked_iff.mpr ⟨hvalues, rfl⟩⟩

theorem scan_record_list
    (h : fields.All fun shape => Follows depth (shape.scan depth) (shape.ofJson .document))
    (hfirst : c.skipBlank.rest = 91 :: rest) {items : List Json}
    (hread : readItems (readValue depth) c.skipBlank.fuel true [] c.skipBlank.bump = .ok (items, c'))
    (values : fields.Value) (c'' : Cursor) :
    (Shape.record name fields).scan (depth + 1) c = .ok (values, c'') ↔
      (Shape.record name fields).ofJson .document (.list items) = .ok values ∧ c'' = c' := by
  have hitems := fields.follows_items (recordLength name fields) h _ 0 true _ _ items hread values c''
  have hsurplus (read : fields.Value) (surplus : List Json) :
      (if surplus.isEmpty then .ok read
        else .error (Source.document.surplus items.length fields.length)) = Except.ok values ↔
          read = values ∧ surplus = [] := by
    cases surplus <;> simp
  rw [Shape.scan, bind_of_ok (lookAhead_eq hfirst), Shape.ofJson]
  change (fields.scanItems depth (recordLength name fields) 0 true c.skipBlank.bump >>= fun read =>
    readListEnd read.2 >>= fun c => Except.ok (read.1, c)) = Except.ok (values, c'') ↔ _
  simp only [bind_eq_ok_iff, Prod.exists, Except.ok.injEq, Prod.mk.injEq, hsurplus]
  constructor
  · rintro ⟨_, behind, hscan, _, hend, rfl, rfl⟩
    obtain ⟨hvalues, rfl⟩ := hitems.mp ⟨behind, hscan, hend⟩
    exact ⟨⟨_, [], hvalues, rfl, rfl⟩, rfl⟩
  · rintro ⟨⟨_, _, hvalues, rfl, rfl⟩, rfl⟩
    obtain ⟨behind, hscan, hend⟩ := hitems.mpr ⟨hvalues, rfl⟩
    exact ⟨_, behind, hscan, _, hend, rfl, rfl⟩

theorem follows_record
    (h : ∀ depth, fields.All fun shape => Follows depth (shape.scan depth) (shape.ofJson .document)) :
    Follows depth ((Shape.record name fields).scan depth)
      ((Shape.record name fields).ofJson .document) := by
  intro c j c' hread values c''
  obtain ⟨b, hlook, hstarts⟩ := exists_starts hread
  cases hstarts with
  | scalar hj hlist hobject =>
      rw [Shape.scan, bind_of_ok hlook]
      constructor
      · intro hscan
        simp [hlist, hobject] at hscan
      · rintro ⟨heq, -⟩
        cases j <;> first | cases heq | cases hj
  | list items =>
      obtain ⟨inner, rest, rfl, hfirst, hitems⟩ := readValue_list_iff.mp hread
      exact scan_record_list (h inner) hfirst hitems values c''
  | object members =>
      obtain ⟨inner, rest, c₁, rfl, hfirst, hmembers, rfl⟩ := readValue_object_iff.mp hread
      rw [ofJson_record_filter]
      exact scan_record_object (h inner) hfirst (readMembers_known hmembers) values c''

end record

mutual

/-- Where a document can be read, a shape is scanned as what it makes of that document. -/
theorem Shape.follows : (shape : Shape) → (depth : Nat) →
    Follows depth (shape.scan depth) (shape.ofJson .document)
  | .any, depth => (Shape.exact_of_plain .any rfl depth).follows
  | .text expected, depth => (Shape.exact_of_plain (.text expected) rfl depth).follows
  | .flag, depth => (Shape.exact_of_plain .flag rfl depth).follows
  | .unsigned width, depth => (Shape.exact_of_plain (.unsigned width) rfl depth).follows
  | .choice names, depth => (Shape.exact_of_plain (.choice names) rfl depth).follows
  | .optional shape, depth => (shape.follows depth).optional
  | .list shape, _ => follows_list shape.follows
  | .table shape, _ => follows_table shape.follows
  | .record _ fields, _ => follows_record fields.follows

theorem Fields.follows : (fields : Fields) → (depth : Nat) →
    fields.All fun shape => Follows depth (shape.scan depth) (shape.ofJson .document)
  | .nil, _ => trivial
  | .cons _ shape _ rest, depth => ⟨shape.follows depth, rest.follows depth⟩

end

end

end CodeAssist.Json
