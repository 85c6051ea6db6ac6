import CodeAssist.Proofs.Edit.Cover

namespace CodeAssist.Edit

/-! Blocks that lead from one place in two texts to their ends. -/

/-- The blocks go through both texts, from line `old` and line `new` on. Lines that are equal stand at
their place in both texts, lines that are replaced at theirs in the old text, and those that replace
them at theirs in the new one. Where lines are inserted is a place in the old text, but not always
theirs. -/
inductive Divides (t : Texts) : Nat → Nat → List Block → Prop
  | none : Divides t t.old.size t.new.size []
  | equal {old new length : Nat} {rest : List Block} (hpos : 0 < length)
      (hagree : Agree t old new length) (h : Divides t (old + length) (new + length) rest) :
      Divides t old new (⟨false, old, length, new, length⟩ :: rest)
  | change {old new oldAt oldLength newAt newLength : Nat} {rest : List Block}
      (hpos : 0 < oldLength ∨ 0 < newLength) (hold : 0 < oldLength → oldAt = old)
      (hnew : 0 < newLength → newAt = new) (hplace : oldAt + oldLength ≤ t.old.size)
      (h : Divides t (old + oldLength) (new + newLength) rest) :
      Divides t old new (⟨true, oldAt, oldLength, newAt, newLength⟩ :: rest)

variable {t : Texts} {old new oldNow newNow : Nat}

theorem Divides.old_le {bs : List Block} (h : Divides t old new bs) : old ≤ t.old.size := by
  induction h with
  | none => exact Nat.le_refl _
  | equal _ _ _ ih => omega
  | change _ _ _ _ _ ih => omega

theorem Divides.new_le {bs : List Block} (h : Divides t old new bs) : new ≤ t.new.size := by
  induction h with
  | none => exact Nat.le_refl _
  | equal _ _ _ ih => omega
  | change _ _ _ _ _ ih => omega

theorem Agree.take_drop_eq {length : Nat} (h : Agree t old new length) :
    (t.old.toList.drop old).take length = (t.new.toList.drop new).take length := by
  apply List.ext_getElem?
  intro m
  rcases Nat.lt_or_ge m length with hlt | hge
  · have hsame := h m hlt
    rw [List.getElem?_take_of_lt hlt, List.getElem?_take_of_lt hlt, List.getElem?_drop,
      List.getElem?_drop, Array.getElem?_toList, Array.getElem?_toList]
    unfold Texts.sameLine at hsame
    split at hsame
    case h_1 a b hold hnew => rw [hold, hnew, beq_iff_eq.mp hsame]
    case h_2 => cases hsame
  · rw [List.getElem?_take_eq_none hge, List.getElem?_take_eq_none hge]

/-- Every block stands where the old lines of the blocks before it end. -/
inductive Placed : Nat → List Block → Prop
  | none {old : Nat} : Placed old []
  | block {b : Block} {rest : List Block} (h : Placed (b.old + b.oldLength) rest) :
      Placed b.old (b :: rest)

theorem placed_cons_iff {old : Nat} {b : Block} {rest : List Block} :
    Placed old (b :: rest) ↔ b.old = old ∧ Placed (old + b.oldLength) rest := by
  constructor
  · rintro ⟨⟩
    exact ⟨rfl, ‹_›⟩
  · rintro ⟨rfl, h⟩
    exact .block h

instance decidablePlaced : (old : Nat) → (bs : List Block) → Decidable (Placed old bs)
  | _, [] => isTrue .none
  | old, b :: rest =>
      have := decidablePlaced (old + b.oldLength) rest
      decidable_of_iff (b.old = old ∧ Placed (old + b.oldLength) rest) placed_cons_iff.symm

inductive Deletes : Option Run → Nat → Nat → Prop
  | none {old : Nat} : Deletes none old old
  | some {old length : Nat} (place : Nat) (hpos : 0 < length) :
      Deletes (some ⟨.delete, old, place, length⟩) old (old + length)

inductive Inserts (t : Texts) : Option Run → Nat → Nat → Prop
  | none {new : Nat} : Inserts t none new new
  | some {new place length : Nat} (hpos : 0 < length) (hplace : place ≤ t.old.size) :
      Inserts t (some ⟨.insert, place, new, length⟩) new (new + length)

theorem Deletes.join {delete : Option Run} {length : Nat} (h : Deletes delete old oldNow)
    (place : Nat) (hpos : 0 < length) :
    Deletes (Gathered.join delete ⟨.delete, oldNow, place, length⟩) old (oldNow + length) := by
  cases h with
  | none => exact .some place hpos
  | some first hfirst =>
      rw [Nat.add_assoc]
      exact .some first (Nat.add_pos_left hfirst _)

theorem Inserts.join {insert : Option Run} {length place : Nat} (h : Inserts t insert new newNow)
    (hpos : 0 < length) (hplace : place ≤ t.old.size) :
    Inserts t (Gathered.join insert ⟨.insert, place, newNow, length⟩) new (newNow + length) := by
  cases h with
  | none => exact .some hpos hplace
  | some hfirst hplace =>
      rw [Nat.add_assoc]
      exact .some (Nat.add_pos_left hfirst _) hplace

/-- What has been gathered since the last block leads from line `old` and line `new` to line `oldNow`
and line `newNow`. -/
inductive Gathers (t : Texts) : Gathered → Nat → Nat → Nat → Nat → Prop
  | equal {done : List Block} {old new length : Nat} (hpos : 0 < length)
      (hagree : Agree t old new length) :
      Gathers t ⟨done, some ⟨.equal, old, new, length⟩, none, none⟩ old new (old + length)
        (new + length)
  | change {done : List Block} {delete insert : Option Run} {old new oldNow newNow : Nat}
      (hdelete : Deletes delete old oldNow) (hinsert : Inserts t insert new newNow) :
      Gathers t ⟨done, none, delete, insert⟩ old new oldNow newNow

/-- Finishing what has been gathered adds a block that leads on, if any. -/
def Flushes (t : Texts) (done : List Block) (g : Gathered) (old new oldNow newNow : Nat) : Prop :=
  ∃ block? : Option Block, g = ⟨block?.toList ++ done, none, none, none⟩ ∧
    ∀ rest, Divides t oldNow newNow rest → Divides t old new (block?.toList ++ rest)

theorem flushes_change (done : List Block) {delete insert : Option Run}
    (hdelete : Deletes delete old oldNow) (hinsert : Inserts t insert new newNow) :
    Flushes t done (Gathered.flushChange ⟨done, none, delete, insert⟩) old new oldNow newNow := by
  cases hdelete with
  | none =>
      cases hinsert with
      | none => exact ⟨none, rfl, fun _ h => h⟩
      | some hpos hplace =>
          refine ⟨some _, rfl, fun rest h => ?_⟩
          exact .change (.inr hpos) (fun hzero => absurd hzero (by decide)) (fun _ => rfl) hplace h
  | some place hpos =>
      cases hinsert with
      | none =>
          refine ⟨some _, rfl, fun rest h => ?_⟩
          exact .change (.inl hpos) (fun _ => rfl) (fun hzero => absurd hzero (by decide)) h.old_le h
      | some hpos' hplace =>
          refine ⟨some _, rfl, fun rest h => ?_⟩
          exact .change (.inl hpos) (fun _ => rfl) (fun _ => rfl) h.old_le h

theorem flushes_equal (done : List Block) {length : Nat} (hpos : 0 < length)
    (hagree : Agree t old new length) :
    Flushes t done (Gathered.flushEqual ⟨done, some ⟨.equal, old, new, length⟩, none, none⟩) old new
      (old + length) (new + length) :=
  ⟨some ⟨false, old, length, new, length⟩, rfl, fun _ h => .equal hpos hagree h⟩

/-- What has been gathered goes on, behind a block that has been finished, if any. -/
def Leads (t : Texts) (g g' : Gathered) (old new oldNow newNow : Nat) : Prop :=
  ∃ (block? : Option Block) (oldThen newThen : Nat), g'.done = block?.toList ++ g.done ∧
    Gathers t g' oldThen newThen oldNow newNow ∧
    ∀ rest, Divides t oldThen newThen rest → Divides t old new (block?.toList ++ rest)

section add

variable {g : Gathered} {length place : Nat}

theorem Gathers.add_equal (h : Gathers t g old new oldNow newNow) (hpos : 0 < length)
    (hagree : Agree t oldNow newNow length) :
    Leads t g (g.add ⟨.equal, oldNow, newNow, length⟩) old new (oldNow + length)
      (newNow + length) := by
  cases h with
  | @equal _ _ _ first hfirst hagree' =>
      refine ⟨none, old, new, rfl, ?_, fun _ h => h⟩
      have hjoined := hagree'.append hagree
      rw [Nat.add_assoc, Nat.add_assoc]
      exact .equal (Nat.add_pos_left hfirst _) hjoined
  | @change done _ _ _ _ _ _ hdelete hinsert =>
      obtain ⟨block?, hflush, hleads⟩ := flushes_change done hdelete hinsert
      refine ⟨block?, oldNow, newNow, ?_, ?_, hleads⟩
      · simp only [Gathered.add, hflush]
      · simp only [Gathered.add, hflush]
        exact .equal hpos hagree

theorem Gathers.add_delete (h : Gathers t g old new oldNow newNow) (hpos : 0 < length) :
    Leads t g (g.add ⟨.delete, oldNow, place, length⟩) old new (oldNow + length) newNow := by
  cases h with
  | @equal done _ _ _ hfirst hagree =>
      obtain ⟨block?, hflush, hleads⟩ := flushes_equal done hfirst hagree
      refine ⟨block?, _, _, ?_, ?_, hleads⟩
      · simp only [Gathered.add, hflush]
      · simp only [Gathered.add, hflush]
        exact .change (.some place hpos) .none
  | change hdelete hinsert =>
      exact ⟨none, old, new, rfl, .change (hdelete.join place hpos) hinsert, fun _ h => h⟩

theorem Gathers.add_insert (h : Gathers t g old new oldNow newNow) (hpos : 0 < length)
    (hplace : place ≤ t.old.size) :
    Leads t g (g.add ⟨.insert, place, newNow, length⟩) old new oldNow (newNow + length) := by
  cases h with
  | @equal done _ _ _ hfirst hagree =>
      obtain ⟨block?, hflush, hleads⟩ := flushes_equal done hfirst hagree
      refine ⟨block?, _, _, ?_, ?_, hleads⟩
      · simp only [Gathered.add, hflush]
      · simp only [Gathered.add, hflush]
        exact .change .none (.some hpos hplace)
  | change hdelete hinsert =>
      exact ⟨none, old, new, rfl, .change hdelete (hinsert.join hpos hplace), fun _ h => h⟩

theorem reverse_toList_append (block? : Option Block) (done : List Block) :
    (block?.toList ++ done).reverse = done.reverse ++ block?.toList := by
  cases block? <;> simp

theorem Gathers.finish (h : Gathers t g old new oldNow newNow) (hend : Divides t oldNow newNow []) :
    ∃ bs, g.finish = g.done.reverse ++ bs ∧ Divides t old new bs := by
  cases h with
  | @equal done _ _ _ hpos hagree =>
      obtain ⟨block?, hflush, hleads⟩ := flushes_equal done hpos hagree
      refine ⟨block?.toList ++ [], ?_, hleads [] hend⟩
      rw [List.append_nil, ← reverse_toList_append, Gathered.finish, hflush]
      rfl
  | @change done _ _ _ _ _ _ hdelete hinsert =>
      obtain ⟨block?, hflush, hleads⟩ := flushes_change done hdelete hinsert
      refine ⟨block?.toList ++ [], ?_, hleads [] hend⟩
      rw [List.append_nil, ← reverse_toList_append, Gathered.finish, Gathered.flushEqual, hflush]

end add

theorem Leads.finish {g g' : Gathered} {runs : List Run} (h : Leads t g g' old new oldNow newNow)
    (hlater : ∀ {oldThen newThen}, Gathers t g' oldThen newThen oldNow newNow →
      ∃ bs, (runs.foldl Gathered.add g').finish = g'.done.reverse ++ bs ∧
        Divides t oldThen newThen bs) :
    ∃ bs, (runs.foldl Gathered.add g').finish = g.done.reverse ++ bs ∧ Divides t old new bs := by
  obtain ⟨block?, oldThen, newThen, hdone, hgathers, hleads⟩ := h
  obtain ⟨bs, hfinish, hdivides⟩ := hlater hgathers
  refine ⟨block?.toList ++ bs, ?_, hleads bs hdivides⟩
  rw [hfinish, hdone, reverse_toList_append, List.append_assoc]

theorem exists_divides {runs : List Run} {g : Gathered}
    (hcovers : Covers t t.old.size t.new.size oldNow newNow runs)
    (hgathers : Gathers t g old new oldNow newNow) :
    ∃ bs, (runs.foldl Gathered.add g).finish = g.done.reverse ++ bs ∧ Divides t old new bs := by
  induction hcovers generalizing g old new with
  | none => exact hgathers.finish .none
  | equal hpos hagree _ ih => exact (hgathers.add_equal hpos hagree).finish fun h => ih h
  | delete place hpos _ ih => exact (hgathers.add_delete hpos).finish fun h => ih h
  | insert hpos hplace h ih =>
      exact (hgathers.add_insert hpos (Nat.le_trans hplace h.old_le)).finish fun h => ih h

theorem script_divides (t : Texts) : Divides t 0 0 (script t) := by
  have hruns : Covers t t.old.size t.new.size 0 0
      (compact t (conquer t (t.old.size + t.new.size + 1) ⟨0, t.old.size, 0, t.new.size⟩)) :=
    compact_covers (covers_conquer (b := ⟨0, t.old.size, 0, t.new.size⟩) (Nat.zero_le _) (Nat.zero_le _))
  obtain ⟨bs, hfinish, hdivides⟩ := exists_divides hruns (g := {}) (.change .none .none)
  have hscript : script t = bs := hfinish
  rw [hscript]
  exact hdivides

theorem commonFrom_go_self {lines : Array String} {i count left : Nat}
    (hsize : i + count + left ≤ lines.size) :
    Texts.commonFrom.go ⟨lines, lines⟩ i i count left = count + left := by
  induction left generalizing count with
  | zero => rfl
  | succ left ih =>
      have hsame : Texts.sameLine ⟨lines, lines⟩ (i + count) (i + count) = true := by
        have hlt : i + count < lines.size := by omega
        simp [Texts.sameLine, Array.getElem?_eq_getElem hlt]
      rw [Texts.commonFrom.go, if_pos hsame, ih (by omega)]
      omega

theorem conquer_self (lines : Array String) (fuel : Nat) :
    conquer ⟨lines, lines⟩ (fuel + 1) ⟨0, lines.size, 0, lines.size⟩ =
      runIf .equal 0 0 lines.size := by
  have hfront : Texts.commonFrom ⟨lines, lines⟩ 0 0 lines.size = lines.size := by
    rw [Texts.commonFrom, commonFrom_go_self (by omega), Nat.zero_add]
  simp [conquer, Box.height, Box.width, hfront, Texts.commonBefore, Texts.commonBefore.go, runIf]

theorem settle_eq_self {tag : Tag} {fuel left : Nat} {before after : List Run}
    (hnone : ∀ r ∈ after, r.tag ≠ tag) :
    settle t tag fuel left before after = before.reverse ++ after := by
  induction left generalizing before after with
  | zero => rfl
  | succ left ih =>
      cases after with
      | nil => simp [settle]
      | cons this after =>
          obtain ⟨hthis, hafter⟩ := List.forall_mem_cons.mp hnone
          rw [settle, if_neg (by simpa using hthis), ih hafter, List.reverse_cons, List.append_assoc]
          rfl

theorem compact_eq_self {runs : List Run} (hequal : ∀ r ∈ runs, r.tag = .equal) :
    compact t runs = runs := by
  have hsettle {tag : Tag} (htag : tag ≠ .equal) (fuel left : Nat) :
      settle t tag fuel left [] runs = runs := by
    apply settle_eq_self
    intro r hr
    rw [hequal r hr]
    exact htag.symm
  rw [compact, hsettle (by decide), hsettle (by decide)]

theorem script_self (lines : Array String) : ∀ b ∈ script ⟨lines, lines⟩, b.changed = false := by
  intro b hb
  rw [script, conquer_self, compact_eq_self ?_, runIf] at hb
  · split at hb
    case isTrue =>
        obtain rfl := List.mem_singleton.mp hb
        rfl
    case isFalse => cases hb
  · intro r hr
    rw [runIf] at hr
    split at hr
    case isTrue => rw [List.mem_singleton.mp hr]
    case isFalse => cases hr

end CodeAssist.Edit
