import CodeAssist.Edit.Script
import CodeAssist.Proofs.Edit.Middle

namespace CodeAssist.Edit

/-! Runs that lead from one place in two texts to another. -/

def deleted : List Run → Nat
  | [] => 0
  | r :: rest => (if r.tag = .delete then r.length else 0) + deleted rest

@[simp] theorem deleted_append (xs ys : List Run) : deleted (xs ++ ys) = deleted xs + deleted ys := by
  induction xs with
  | nil => simp [deleted]
  | cons r xs ih => simp [deleted, ih, Nat.add_assoc]

def Agree (t : Texts) (old new length : Nat) : Prop := ∀ m < length, t.sameLine (old + m) (new + m)

/-- The runs go through both texts, from line `old` and line `new` on. Equal and deleted lines stand
at their place in the old text, and equal and inserted lines at theirs in the new one. Where the
lines are inserted is off by no more than what is still to be deleted. -/
inductive Covers (t : Texts) (oldEnd newEnd : Nat) : Nat → Nat → List Run → Prop
  | none : Covers t oldEnd newEnd oldEnd newEnd []
  | equal {old new length : Nat} {rest : List Run} (hpos : 0 < length)
      (hagree : Agree t old new length)
      (h : Covers t oldEnd newEnd (old + length) (new + length) rest) :
      Covers t oldEnd newEnd old new (⟨.equal, old, new, length⟩ :: rest)
  | delete {old new length : Nat} {rest : List Run} (place : Nat) (hpos : 0 < length)
      (h : Covers t oldEnd newEnd (old + length) new rest) :
      Covers t oldEnd newEnd old new (⟨.delete, old, place, length⟩ :: rest)
  | insert {old new length place : Nat} {rest : List Run} (hpos : 0 < length)
      (hplace : place ≤ old + deleted rest)
      (h : Covers t oldEnd newEnd old (new + length) rest) :
      Covers t oldEnd newEnd old new (⟨.insert, place, new, length⟩ :: rest)

namespace Covers

variable {t : Texts} {oldEnd newEnd old new oldMid newMid : Nat} {xs ys zs : List Run}

theorem append (hxs : Covers t oldMid newMid old new xs)
    (hys : Covers t oldEnd newEnd oldMid newMid ys) : Covers t oldEnd newEnd old new (xs ++ ys) := by
  induction hxs with
  | none => exact hys
  | equal hpos hagree _ ih => exact .equal hpos hagree ih
  | delete place hpos _ ih => exact .delete place hpos ih
  | insert hpos hplace _ ih =>
      refine .insert hpos ?_ ih
      rw [List.append_eq, deleted_append]
      omega

/-- The runs at the end may be exchanged for others that lead the same way. -/
theorem exchange (hexchange : ∀ old new, Covers t oldEnd newEnd old new ys →
      Covers t oldEnd newEnd old new zs) (hdeleted : deleted ys ≤ deleted zs)
    (h : Covers t oldEnd newEnd old new (xs ++ ys)) :
    Covers t oldEnd newEnd old new (xs ++ zs) := by
  induction xs generalizing old new with
  | nil => exact hexchange old new h
  | cons r xs ih =>
      cases h with
      | equal hpos hagree h => exact .equal hpos hagree (ih h)
      | delete place hpos h => exact .delete place hpos (ih h)
      | insert hpos hplace h =>
          refine .insert hpos ?_ (ih h)
          rw [List.append_eq, deleted_append] at hplace ⊢
          omega

theorem pos (h : Covers t oldEnd newEnd old new xs) {r : Run} (hr : r ∈ xs) : 0 < r.length := by
  induction h with
  | none => cases hr
  | equal hpos _ _ ih =>
      obtain rfl | hlater := List.mem_cons.mp hr
      · exact hpos
      · exact ih hlater
  | delete _ hpos _ ih =>
      obtain rfl | hlater := List.mem_cons.mp hr
      · exact hpos
      · exact ih hlater
  | insert hpos _ _ ih =>
      obtain rfl | hlater := List.mem_cons.mp hr
      · exact hpos
      · exact ih hlater

theorem old_le (h : Covers t oldEnd newEnd old new xs) : old + deleted xs ≤ oldEnd := by
  induction h with
  | none => exact Nat.le_refl _
  | equal _ _ _ ih =>
      simp only [deleted]
      simp
      omega
  | delete _ _ _ ih =>
      simp only [deleted]
      simp
      omega
  | insert _ _ _ ih =>
      simp only [deleted]
      simp
      omega

end Covers

section conquer

variable {t : Texts} {old new length : Nat}

theorem covers_runIf (hagree : Agree t old new length) :
    Covers t (old + length) (new + length) old new (runIf .equal old new length) := by
  unfold runIf
  split
  case isTrue hpos => exact .equal hpos hagree .none
  case isFalse hnot =>
      obtain rfl : length = 0 := by omega
      exact .none

theorem covers_apart {b : Box} (hold : b.oldFrom ≤ b.oldTo) (hnew : b.newFrom ≤ b.newTo) :
    Covers t b.oldTo b.newTo b.oldFrom b.newFrom
      (runIf .delete b.oldFrom b.newFrom b.height ++ runIf .insert b.oldTo b.newFrom b.width) := by
  have hheight : b.oldFrom + b.height = b.oldTo := Nat.add_sub_cancel' hold
  have hwidth : b.newFrom + b.width = b.newTo := Nat.add_sub_cancel' hnew
  have hdelete : Covers t b.oldTo b.newFrom b.oldFrom b.newFrom
      (runIf .delete b.oldFrom b.newFrom b.height) := by
    unfold runIf
    split
    case isTrue hpos => exact .delete _ hpos (hheight ▸ .none)
    case isFalse hnot =>
        obtain heq : b.oldFrom = b.oldTo := by omega
        exact heq ▸ .none
  have hinsert : Covers t b.oldTo b.newTo b.oldTo b.newFrom
      (runIf .insert b.oldTo b.newFrom b.width) := by
    unfold runIf
    split
    case isTrue hpos => exact .insert hpos (Nat.le_add_right _ _) (hwidth ▸ .none)
    case isFalse hnot =>
        obtain heq : b.newFrom = b.newTo := by omega
        exact heq ▸ .none
  exact hdelete.append hinsert

/-- What stands between the lines that agree at both ends of a box. -/
def between (t : Texts) (fuel : Nat) (core : Box) : List Run :=
  if core.height == 0 && core.width == 0 then []
  else if core.width == 0 then [⟨.delete, core.oldFrom, core.newFrom, core.height⟩]
  else if core.height == 0 then [⟨.insert, core.oldFrom, core.newFrom, core.width⟩]
  else match middle? t core with
    | some (old, new) =>
        conquer t fuel { core with oldTo := old, newTo := new } ++
          conquer t fuel { core with oldFrom := old, newFrom := new }
    | none =>
        [⟨.delete, core.oldFrom, core.newFrom, core.height⟩,
          ⟨.insert, core.oldFrom, core.newFrom, core.width⟩]

theorem covers_between {b : Box} {fuel : Nat} (hold : b.oldFrom ≤ b.oldTo) (hnew : b.newFrom ≤ b.newTo)
    (hconquer : ∀ c : Box, c.oldFrom ≤ c.oldTo → c.newFrom ≤ c.newTo →
      Covers t c.oldTo c.newTo c.oldFrom c.newFrom (conquer t fuel c)) :
    Covers t b.oldTo b.newTo b.oldFrom b.newFrom (between t fuel b) := by
  have hheight : b.oldFrom + b.height = b.oldTo := Nat.add_sub_cancel' hold
  have hwidth : b.newFrom + b.width = b.newTo := Nat.add_sub_cancel' hnew
  unfold between
  split
  case isTrue hempty =>
      simp only [Bool.and_eq_true, beq_iff_eq] at hempty
      rw [hempty.1, Nat.add_zero] at hheight
      rw [hempty.2, Nat.add_zero] at hwidth
      exact hheight ▸ hwidth ▸ .none
  case isFalse hsome =>
      simp only [Bool.and_eq_true, beq_iff_eq, not_and] at hsome
      split
      case isTrue hflat =>
          rw [beq_iff_eq] at hflat
          rw [hflat, Nat.add_zero] at hwidth
          have hpos : 0 < b.height := Nat.pos_of_ne_zero fun hzero => hsome hzero hflat
          exact .delete _ hpos (hheight ▸ hwidth ▸ .none)
      case isFalse hwide =>
          have hwidthPos : 0 < b.width := Nat.pos_of_ne_zero (by simpa using hwide)
          split
          case isTrue hthin =>
              rw [beq_iff_eq] at hthin
              rw [hthin, Nat.add_zero] at hheight
              exact .insert hwidthPos (Nat.le_add_right _ _) (hheight ▸ hwidth ▸ .none)
          case isFalse htall =>
              have hheightPos : 0 < b.height := Nat.pos_of_ne_zero (by simpa using htall)
              split
              case h_1 old new hmiddle =>
                  obtain ⟨holdFrom, holdTo, hnewFrom, hnewTo⟩ := middle?_in_box hmiddle
                  rw [hheight] at holdTo
                  rw [hwidth] at hnewTo
                  have hlow := hconquer { b with oldTo := old, newTo := new } holdFrom hnewFrom
                  have hhigh := hconquer { b with oldFrom := old, newFrom := new } holdTo hnewTo
                  exact hlow.append hhigh
              case h_2 =>
                  refine .delete _ hheightPos (.insert hwidthPos ?_ (hheight ▸ hwidth ▸ .none))
                  omega

theorem agree_of_commonBefore {length limit : Nat} (hold : length ≤ old) (hnew : length ≤ new)
    (hlength : length ≤ t.commonBefore old new limit) :
    Agree t (old - length) (new - length) length := by
  intro m hm
  have hsame := Texts.sameLine_of_lt_commonBefore
    (Nat.lt_of_lt_of_le (by omega : length - 1 - m < length) hlength)
  have holdAt : old - (length - 1 - m) - 1 = old - length + m := by omega
  have hnewAt : new - (length - 1 - m) - 1 = new - length + m := by omega
  rwa [holdAt, hnewAt] at hsame

theorem covers_conquer {b : Box} {fuel : Nat} (hold : b.oldFrom ≤ b.oldTo)
    (hnew : b.newFrom ≤ b.newTo) :
    Covers t b.oldTo b.newTo b.oldFrom b.newFrom (conquer t fuel b) := by
  induction fuel generalizing b with
  | zero => exact covers_apart hold hnew
  | succ fuel ih =>
      let front := t.commonFrom b.oldFrom b.newFrom (min b.height b.width)
      let inner : Box := { b with oldFrom := b.oldFrom + front, newFrom := b.newFrom + front }
      let back := t.commonBefore b.oldTo b.newTo (min inner.height inner.width)
      let core : Box := { inner with oldTo := b.oldTo - back, newTo := b.newTo - back }
      have hconquer : conquer t (fuel + 1) b = runIf .equal b.oldFrom b.newFrom front ++
          between t fuel core ++ runIf .equal core.oldTo core.newTo back := rfl
      have hfront : front ≤ min (b.oldTo - b.oldFrom) (b.newTo - b.newFrom) := Texts.commonFrom_le
      have hback : back ≤ min (b.oldTo - (b.oldFrom + front)) (b.newTo - (b.newFrom + front)) :=
        Texts.commonBefore_le
      have hfirst : Covers t core.oldFrom core.newFrom b.oldFrom b.newFrom
          (runIf .equal b.oldFrom b.newFrom front) :=
        covers_runIf fun m hm => Texts.sameLine_of_lt_commonFrom hm
      have hcoreOld : b.oldFrom + front ≤ b.oldTo - back := by omega
      have hcoreNew : b.newFrom + front ≤ b.newTo - back := by omega
      have hmiddle : Covers t core.oldTo core.newTo core.oldFrom core.newFrom (between t fuel core) :=
        covers_between hcoreOld hcoreNew fun c => ih
      have hlast : Covers t b.oldTo b.newTo core.oldTo core.newTo
          (runIf .equal core.oldTo core.newTo back) := by
        have hagree := agree_of_commonBefore (by omega) (by omega) (Nat.le_refl back)
        have hend := covers_runIf hagree
        rwa [Nat.sub_add_cancel (by omega), Nat.sub_add_cancel (by omega)] at hend
      rw [hconquer]
      exact (hfirst.append hmiddle).append hlast

end conquer

/-- All runs, with the one in focus in its place. -/
def Focus.runs (f : Focus) : List Run := f.before.reverse ++ f.this :: f.after

section compact

variable {t : Texts} {oldEnd newEnd old new : Nat} {this prev next : Run} {before after : List Run}

theorem Covers.swap (hne : prev.tag ≠ .equal) (hne' : this.tag ≠ .equal) (hdiffer : prev.tag ≠ this.tag)
    (h : Covers t oldEnd newEnd old new (prev :: this :: after)) :
    Covers t oldEnd newEnd old new (this :: prev :: after) := by
  cases h with
  | equal => exact absurd rfl hne
  | delete place hpos h =>
      cases h with
      | equal => exact absurd rfl hne'
      | delete => exact absurd rfl hdiffer
      | insert hpos' hplace h =>
          refine .insert hpos' ?_ (.delete place hpos h)
          simp only [deleted]
          simp
          omega
  | insert hpos hplace h =>
      cases h with
      | equal => exact absurd rfl hne'
      | delete place' hpos' h =>
          refine .delete place' hpos' (.insert hpos ?_ h)
          simp only [deleted] at hplace
          simp at hplace
          omega
      | insert => exact absurd rfl hdiffer

theorem Agree.append {length more : Nat} (h : Agree t old new length)
    (hmore : Agree t (old + length) (new + length) more) : Agree t old new (length + more) := by
  intro m hm
  by_cases hlt : m < length
  · exact h m hlt
  · have hsame := hmore (m - length) (by omega)
    have holdAt : old + length + (m - length) = old + m := by omega
    have hnewAt : new + length + (m - length) = new + m := by omega
    rwa [holdAt, hnewAt] at hsame

theorem Covers.merge (hsame : prev.tag = this.tag)
    (h : Covers t oldEnd newEnd old new (prev :: this :: after)) :
    Covers t oldEnd newEnd old new (prev.grow this.length :: after) := by
  cases h with
  | equal hpos hagree h =>
      cases h with
      | equal hpos' hagree' h =>
          rw [Nat.add_assoc, Nat.add_assoc] at h
          exact .equal (Nat.add_pos_left hpos _) (hagree.append hagree') h
      | delete => cases hsame
      | insert => cases hsame
  | delete place hpos h =>
      cases h with
      | equal => cases hsame
      | delete place' hpos' h =>
          rw [Nat.add_assoc] at h
          exact .delete place (Nat.add_pos_left hpos _) h
      | insert => cases hsame
  | insert hpos hplace h =>
      cases h with
      | equal => cases hsame
      | delete => cases hsame
      | insert hpos' hplace' h =>
          rw [Nat.add_assoc] at h
          refine .insert (Nat.add_pos_left hpos _) ?_ h
          simp only [deleted] at hplace
          simpa using hplace

theorem deleted_merge (hsame : prev.tag = this.tag) :
    deleted (prev.grow this.length :: after) = deleted (prev :: this :: after) := by
  simp only [deleted, Run.grow, hsame]
  split <;> omega

theorem Covers.putEqualAfter {n : Nat} (hpos : 0 < n) (hold : n ≤ old) (hnew : n ≤ new)
    (hagree : Agree t (old - n) (new - n) n) (h : Covers t oldEnd newEnd old new after) :
    Covers t oldEnd newEnd (old - n) (new - n) (putEqualAfter after (old - n) (new - n) n) := by
  have hlone : Covers t oldEnd newEnd (old - n) (new - n)
      (⟨.equal, old - n, new - n, n⟩ :: after) := by
    refine .equal hpos hagree ?_
    rwa [Nat.sub_add_cancel hold, Nat.sub_add_cancel hnew]
  cases h with
  | none => exact hlone
  | @equal _ _ length rest hpos' hagree' h =>
      have hsame : (⟨.equal, old - n, new - n, n⟩ : Run).tag =
          (⟨.equal, old, new, length⟩ : Run).tag := rfl
      have hgrow : (Run.moveUp ⟨.equal, old, new, length⟩ n).grow n =
          Run.grow ⟨.equal, old - n, new - n, n⟩ length := by
        simp [Run.grow, Run.moveUp, Nat.add_comm]
      have hmerged := hlone.merge hsame
      rw [← hgrow] at hmerged
      exact hmerged
  | delete place hpos' h => exact hlone
  | insert hpos' hplace h => exact hlone

theorem deleted_putEqualAfter (old new n : Nat) :
    deleted (putEqualAfter after old new n) = deleted after := by
  unfold putEqualAfter
  split
  case h_1 next rest =>
      split
      case isTrue hequal =>
          rw [beq_iff_eq] at hequal
          simp [deleted, Run.grow, Run.moveUp, hequal]
      case isFalse => simp [deleted]
  case h_2 => simp [deleted]

/-- A run, unless none of its lines are left. -/
def kept (r : Run) : List Run := if r.length == 0 then [] else [r]

theorem kept_append (r : Run) (rest : List Run) :
    (if r.length == 0 then rest else r :: rest) = kept r ++ rest := by
  rw [kept]
  split <;> rfl

theorem Covers.kept {length : Nat} (hagree : Agree t old new length)
    (h : Covers t oldEnd newEnd (old + length) (new + length) after) :
    Covers t oldEnd newEnd old new (kept ⟨.equal, old, new, length⟩ ++ after) := by
  rw [← kept_append]
  split
  case isTrue hzero =>
      simp only [beq_iff_eq] at hzero
      rw [hzero] at h
      exact h
  case isFalse hsome =>
      simp only [beq_iff_eq] at hsome
      exact .equal (Nat.pos_of_ne_zero hsome) hagree h

theorem reverse_kept (r : Run) : (kept r).reverse = kept r := by
  rw [kept]
  split <;> rfl

theorem deleted_kept (hequal : this.tag = .equal) : deleted (kept this) = 0 := by
  rw [kept]
  split
  case isTrue => rfl
  case isFalse => simp [deleted, hequal]

/-- An insertion moves up past equal lines that agree with its last lines. -/
theorem Covers.shiftUp {n : Nat} (hprev : prev.tag = .equal) (hthis : this.tag = .insert) (hpos : 0 < n)
    (hn : n ≤ prev.length) (hn' : n ≤ this.length)
    (hagree : Agree t (prev.oldEnd - n) (this.newEnd - n) n)
    (h : Covers t oldEnd newEnd old new (prev :: this :: after)) :
    Covers t oldEnd newEnd old new
      (Edit.kept (prev.shrink n) ++ this.moveUp n ::
        Edit.putEqualAfter after (prev.oldEnd - n) (this.newEnd - n) n) := by
  cases h with
  | delete => cases hprev
  | insert => cases hprev
  | @equal _ _ length _ hlength hagree' h =>
      cases h with
      | equal => cases hthis
      | delete => cases hthis
      | @insert _ _ length' place _ hlength' hplace h =>
          simp only at hn hn'
          have hend : Run.oldEnd ⟨.equal, old, new, length⟩ = old + length := rfl
          have hend' : Run.newEnd ⟨.insert, place, new + length, length'⟩ = new + length + length' := rfl
          rw [hend, hend'] at hagree ⊢
          have hafter := h.putEqualAfter hpos (by omega) (by omega) hagree
          have hup : Run.moveUp ⟨.insert, place, new + length, length'⟩ n =
              ⟨.insert, place - n, new + (length - n), length'⟩ := by
            rw [← Nat.add_sub_assoc hn]
            rfl
          have hmoved : Covers t oldEnd newEnd (old + (length - n)) (new + (length - n))
              (Run.moveUp ⟨.insert, place, new + length, length'⟩ n ::
                Edit.putEqualAfter after (old + length - n) (new + length + length' - n) n) := by
            rw [hup]
            refine .insert hlength' ?_ ?_
            · rw [deleted_putEqualAfter]
              omega
            · have holdAt : old + (length - n) = old + length - n := by omega
              have hnewAt : new + (length - n) + length' = new + length + length' - n := by omega
              rwa [holdAt, hnewAt]
          have hshort : Agree t old new (length - n) := fun m hm => hagree' m (by omega)
          exact hmoved.kept hshort

theorem deleted_shiftUp {n old new : Nat} (hprev : prev.tag = .equal) (hthis : this.tag = .insert) :
    deleted (prev :: this :: after) ≤
      deleted (kept (prev.shrink n) ++ this.moveUp n :: putEqualAfter after old new n) := by
  have hkept : deleted (kept (prev.shrink n)) = 0 := deleted_kept hprev
  simp [hkept, deleted, deleted_putEqualAfter, Run.moveUp, hprev, hthis]

/-- An insertion moves down past equal lines that agree with its first lines. -/
theorem Covers.shiftDown {n : Nat} (hthis : this.tag = .insert) (hnext : next.tag = .equal) (hpos : 0 < n)
    (hn : n ≤ next.length) (hn' : n ≤ this.length) (hagree : Agree t next.old this.new n)
    (h : Covers t oldEnd newEnd old new (this :: next :: after)) :
    Covers t oldEnd newEnd old new (⟨.equal, next.old, this.new, n⟩ :: this.moveDown n ::
      (Edit.kept ((next.moveDown n).shrink n) ++ after)) := by
  cases h with
  | equal => cases hthis
  | delete => cases hthis
  | @insert _ _ length place _ hlength hplace h =>
      cases h with
      | delete => cases hnext
      | insert => cases hnext
      | @equal _ _ length' _ hlength' hagree' h =>
          simp only at hn hn'
          have hdown : (Run.moveDown ⟨.equal, old, new + length, length'⟩ n).shrink n =
              ⟨.equal, old + n, new + n + length, length' - n⟩ := by
            rw [Nat.add_right_comm]
            rfl
          have holdAt : old + n + (length' - n) = old + length' := by omega
          have hnewAt : new + n + length + (length' - n) = new + length + length' := by omega
          rw [← holdAt, ← hnewAt] at h
          rw [hdown]
          refine .equal hpos hagree (.insert hlength ?_ (h.kept fun m hm => ?_))
          · rw [deleted_append, deleted_kept rfl, Nat.zero_add]
            simp [deleted] at hplace ⊢
            omega
          · have hsame := hagree' (n + m) (by omega)
            rwa [← Nat.add_assoc, ← Nat.add_assoc, Nat.add_right_comm new] at hsame

theorem Run.length_le_oldEnd (h : prev.tag ≠ .insert) : prev.length ≤ prev.oldEnd := by
  simp [Run.oldEnd, Run.oldLength, h]

theorem Run.length_le_newEnd (h : this.tag ≠ .delete) : this.length ≤ this.newEnd := by
  simp [Run.newEnd, Run.newLength, h]

/-- Only an insertion has lines in common with those around it. -/
theorem insert_of_common {n : Nat} (hequal : prev.tag = .equal) (htag : this.tag ≠ .equal) (hpos : 0 < n)
    (hn : n ≤ min prev.oldLength this.newLength) :
    this.tag = .insert ∧ n ≤ prev.length ∧ n ≤ this.length := by
  have hold : prev.oldLength = prev.length := by simp [Run.oldLength, hequal]
  cases hthis : this.tag with
  | equal => exact absurd hthis htag
  | delete =>
      have hnew : this.newLength = 0 := by simp [Run.newLength, hthis]
      omega
  | insert =>
      have hnew : this.newLength = this.length := by simp [Run.newLength, hthis]
      exact ⟨rfl, by omega, by omega⟩

theorem stepUp_covers {f f' : Focus} (htag : f.this.tag ≠ .equal)
    (h : Covers t oldEnd newEnd old new f.runs) (hstep : stepUp t f = some f') :
    f'.this.tag = f.this.tag ∧ Covers t oldEnd newEnd old new f'.runs := by
  obtain ⟨before, this, after⟩ := f
  unfold stepUp at hstep
  cases before with
  | nil => cases hstep
  | cons prev rest =>
      have hruns : Focus.runs ⟨prev :: rest, this, after⟩ = rest.reverse ++ prev :: this :: after := by
        simp [Focus.runs]
      rw [hruns] at h
      simp only at hstep htag ⊢
      split at hstep
      case isTrue hequal =>
          rw [beq_iff_eq] at hequal
          split at hstep
          case isTrue hpos =>
              obtain ⟨hthis, hn, hn'⟩ := insert_of_common hequal htag hpos Texts.commonBefore_le
              have hold := Nat.le_trans hn (Run.length_le_oldEnd (by simp [hequal]))
              have hnew := Nat.le_trans hn' (Run.length_le_newEnd (by simp [hthis]))
              have hagree := agree_of_commonBefore hold hnew (Nat.le_refl _)
              cases hstep
              refine ⟨rfl, ?_⟩
              have hshift := h.exchange (fun _ _ => .shiftUp hequal hthis hpos hn hn' hagree)
                (deleted_shiftUp hequal hthis)
              rw [Focus.runs, kept_append, List.reverse_append, reverse_kept, List.append_assoc]
              exact hshift
          case isFalse hnone =>
              split at hstep
              case isTrue hzero =>
                  have hpos := h.pos (r := prev) (by simp)
                  rw [beq_iff_eq] at hzero
                  omega
              case isFalse => cases hstep
      case isFalse hchange =>
          rw [beq_iff_eq] at hchange
          split at hstep
          case isTrue hsame =>
              rw [beq_iff_eq] at hsame
              cases hstep
              refine ⟨hsame, h.exchange (fun _ _ => .merge hsame) ?_⟩
              exact Nat.le_of_eq (deleted_merge hsame).symm
          case isFalse hdiffer =>
              rw [beq_iff_eq] at hdiffer
              cases hstep
              refine ⟨rfl, h.exchange (fun _ _ => .swap hchange htag hdiffer) ?_⟩
              simp only [deleted]
              omega

theorem deleted_shiftDown {n old new : Nat} (hthis : this.tag = .insert) (hnext : next.tag = .equal) :
    deleted (this :: next :: after) ≤
      deleted (⟨.equal, old, new, n⟩ :: this.moveDown n ::
        (kept ((next.moveDown n).shrink n) ++ after)) := by
  simp [deleted, Run.moveDown, hthis, hnext]

theorem Covers.putEqualBefore {n : Nat} (h : Covers t oldEnd newEnd old new
      (before.reverse ++ ⟨.equal, prev.old, this.new, n⟩ :: after)) :
    Covers t oldEnd newEnd old new
      ((Edit.putEqualBefore before prev.old this.new n).reverse ++ after) := by
  unfold Edit.putEqualBefore
  split
  case h_1 last rest =>
      split
      case isTrue hequal =>
          rw [beq_iff_eq] at hequal
          have hsame : last.tag = (⟨.equal, prev.old, this.new, n⟩ : Run).tag := hequal
          rw [List.reverse_cons, List.append_assoc] at h ⊢
          refine h.exchange (fun _ _ h => h.merge hsame) ?_
          exact Nat.le_of_eq (deleted_merge hsame).symm
      case isFalse => simpa using h
  case h_2 => exact h

theorem stepDown_covers {f f' : Focus} (htag : f.this.tag ≠ .equal)
    (h : Covers t oldEnd newEnd old new f.runs) (hstep : stepDown t f = some f') :
    f'.this.tag = f.this.tag ∧ Covers t oldEnd newEnd old new f'.runs := by
  obtain ⟨before, this, after⟩ := f
  unfold stepDown at hstep
  cases after with
  | nil => cases hstep
  | cons next rest =>
      have hruns : Focus.runs ⟨before, this, next :: rest⟩ = before.reverse ++ this :: next :: rest := rfl
      rw [hruns] at h
      simp only at hstep htag ⊢
      split at hstep
      case isTrue hequal =>
          rw [beq_iff_eq] at hequal
          split at hstep
          case isTrue hpos =>
              obtain ⟨hthis, hn, hn'⟩ := insert_of_common hequal htag hpos Texts.commonFrom_le
              have hagree : Agree t next.old this.new
                  (t.commonFrom next.old this.new (min next.oldLength this.newLength)) :=
                fun m hm => Texts.sameLine_of_lt_commonFrom hm
              cases hstep
              refine ⟨rfl, ?_⟩
              have hshift := h.exchange (fun _ _ => .shiftDown hthis hequal hpos hn hn' hagree)
                (deleted_shiftDown hthis hequal)
              rw [Focus.runs, kept_append]
              exact hshift.putEqualBefore
          case isFalse hnone =>
              split at hstep
              case isTrue hzero =>
                  have hpos := h.pos (r := next) (by simp)
                  rw [beq_iff_eq] at hzero
                  omega
              case isFalse => cases hstep
      case isFalse hchange =>
          rw [beq_iff_eq] at hchange
          split at hstep
          case isTrue hsame =>
              rw [beq_iff_eq] at hsame
              cases hstep
              refine ⟨rfl, h.exchange (fun _ _ => .merge hsame.symm) ?_⟩
              exact Nat.le_of_eq (deleted_merge hsame.symm).symm
          case isFalse hdiffer =>
              rw [beq_iff_eq] at hdiffer
              cases hstep
              refine ⟨rfl, ?_⟩
              have hdeleted : deleted (this :: next :: rest) ≤ deleted (next :: this :: rest) := by
                simp only [deleted]
                omega
              have hswap := h.exchange (fun _ _ => .swap htag hchange (Ne.symm hdiffer)) hdeleted
              simpa [Focus.runs] using hswap

theorem repeatStep_covers {step : Focus → Option Focus} {f : Focus} (fuel : Nat)
    (hstep : ∀ {f f' : Focus}, f.this.tag ≠ .equal → Covers t oldEnd newEnd old new f.runs →
      step f = some f' → f'.this.tag = f.this.tag ∧ Covers t oldEnd newEnd old new f'.runs)
    (htag : f.this.tag ≠ .equal) (h : Covers t oldEnd newEnd old new f.runs) :
    (repeatStep step fuel f).this.tag = f.this.tag ∧
      Covers t oldEnd newEnd old new (repeatStep step fuel f).runs := by
  induction fuel generalizing f with
  | zero => exact ⟨rfl, h⟩
  | succ fuel ih =>
      rw [repeatStep]
      split
      case h_1 f' hsome =>
          obtain ⟨hkept, hcovers⟩ := hstep htag h hsome
          obtain ⟨hlater, hend⟩ := ih (hkept ▸ htag) hcovers
          exact ⟨hlater.trans hkept, hend⟩
      case h_2 => exact ⟨rfl, h⟩

theorem settle_covers {tag : Tag} (htag : tag ≠ .equal) {fuel left : Nat}
    (h : Covers t oldEnd newEnd old new (before.reverse ++ after)) :
    Covers t oldEnd newEnd old new (settle t tag fuel left before after) := by
  induction left generalizing before after with
  | zero => exact h
  | succ left ih =>
      cases after with
      | nil => simpa [settle] using h
      | cons this after =>
          rw [settle]
          split
          case isTrue hthis =>
              rw [beq_iff_eq] at hthis
              have hfocus : (⟨before, this, after⟩ : Focus).this.tag ≠ .equal := hthis ▸ htag
              obtain ⟨hup, hcovers⟩ := repeatStep_covers fuel stepUp_covers hfocus h
              obtain ⟨-, hsettled⟩ := repeatStep_covers fuel stepDown_covers (hup ▸ hfocus) hcovers
              refine ih ?_
              simpa [Focus.runs] using hsettled
          case isFalse =>
              refine ih ?_
              simpa using h

theorem compact_covers {runs : List Run} (h : Covers t oldEnd newEnd old new runs) :
    Covers t oldEnd newEnd old new (compact t runs) := by
  refine settle_covers (by decide) ?_
  exact settle_covers (by decide) h

end compact

end CodeAssist.Edit
