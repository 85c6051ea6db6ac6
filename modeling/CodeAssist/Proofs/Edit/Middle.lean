import CodeAssist.Edit.Snake
import Mathlib.Data.List.Nodup

namespace CodeAssist.Edit

/-! Lines that agree. -/

namespace Texts

variable {t : Texts} {i j limit : Nat}

theorem commonFrom_go (count left : Nat) :
    count ≤ commonFrom.go t i j count left ∧ commonFrom.go t i j count left ≤ count + left ∧
      ∀ m, count ≤ m → m < commonFrom.go t i j count left → t.sameLine (i + m) (j + m) := by
  induction left generalizing count with
  | zero => exact ⟨Nat.le_refl _, Nat.le_refl _, fun m hle hlt => absurd hle (Nat.not_le.mpr hlt)⟩
  | succ left ih =>
      rw [commonFrom.go]
      split
      case isTrue hsame =>
          obtain ⟨hlow, hhigh, hagree⟩ := ih (count + 1)
          refine ⟨by omega, by omega, fun m hle hlt => ?_⟩
          obtain rfl | hmore := Nat.eq_or_lt_of_le hle
          · exact hsame
          · exact hagree m hmore hlt
      case isFalse =>
          exact ⟨Nat.le_refl _, by omega, fun m hle hlt => absurd hle (Nat.not_le.mpr hlt)⟩

theorem commonFrom_le : t.commonFrom i j limit ≤ limit := by
  have hgo := (commonFrom_go (t := t) (i := i) (j := j) 0 limit).2.1
  rwa [Nat.zero_add] at hgo

theorem sameLine_of_lt_commonFrom {m : Nat} (hm : m < t.commonFrom i j limit) :
    t.sameLine (i + m) (j + m) := (commonFrom_go 0 limit).2.2 m (Nat.zero_le m) hm

theorem commonBefore_go (count left : Nat) :
    count ≤ commonBefore.go t i j count left ∧ commonBefore.go t i j count left ≤ count + left ∧
      ∀ m, count ≤ m → m < commonBefore.go t i j count left →
        t.sameLine (i - m - 1) (j - m - 1) := by
  induction left generalizing count with
  | zero => exact ⟨Nat.le_refl _, Nat.le_refl _, fun m hle hlt => absurd hle (Nat.not_le.mpr hlt)⟩
  | succ left ih =>
      rw [commonBefore.go]
      split
      case isTrue hsame =>
          obtain ⟨hlow, hhigh, hagree⟩ := ih (count + 1)
          refine ⟨by omega, by omega, fun m hle hlt => ?_⟩
          obtain rfl | hmore := Nat.eq_or_lt_of_le hle
          · exact hsame
          · exact hagree m hmore hlt
      case isFalse =>
          exact ⟨Nat.le_refl _, by omega, fun m hle hlt => absurd hle (Nat.not_le.mpr hlt)⟩

theorem commonBefore_le : t.commonBefore i j limit ≤ limit := by
  have hgo := (commonBefore_go (t := t) (i := i) (j := j) 0 limit).2.1
  rwa [Nat.zero_add] at hgo

theorem sameLine_of_lt_commonBefore {m : Nat} (hm : m < t.commonBefore i j limit) :
    t.sameLine (i - m - 1) (j - m - 1) := (commonBefore_go 0 limit).2.2 m (Nat.zero_le m) hm

end Texts

theorem mem_diagonals {d : Nat} {k : Int} :
    k ∈ diagonals d ↔ -d ≤ k ∧ k ≤ d ∧ (k + d) % 2 = 0 := by
  simp only [diagonals, List.mem_map, List.mem_range]
  constructor
  · rintro ⟨i, hi, rfl⟩
    simp only [Int.ofNat_eq_natCast]
    omega
  · rintro ⟨hlow, hhigh, heven⟩
    refine ⟨((d - k) / 2).toNat, ?_, ?_⟩
    · omega
    · simp only [Int.ofNat_eq_natCast]
      omega

theorem nodup_diagonals (d : Nat) : (diagonals d).Nodup := by
  refine List.Nodup.map ?_ List.nodup_range
  intro i j heq
  simp only [Int.ofNat_eq_natCast] at heq
  omega

namespace Reach

/-- The diagonals from `-n` to `n` have a place. -/
structure Spans (r : Reach) (n : Nat) : Prop where
  size : r.far.size = 2 * r.offset + 1
  le : n ≤ r.offset

variable {r : Reach} {n : Nat} {k l : Int} {x : Nat}

theorem Spans.set (h : r.Spans n) (k : Int) (x : Nat) : (r.set k x).Spans n :=
  ⟨by rw [Reach.set, Array.size_setIfInBounds, h.size], h.le⟩

theorem get_set_self (h : r.Spans n) (hk : k.natAbs ≤ n) : (r.set k x).get k = x := by
  have hsize := h.size
  have hle := h.le
  have hlt : (k + r.offset).toNat < r.far.size := by omega
  simp [get, Reach.set, hlt]

theorem get_set_of_ne (h : r.Spans n) (hk : k.natAbs ≤ n) (hl : l.natAbs ≤ n) (hne : l ≠ k) :
    (r.set k x).get l = r.get l := by
  have hle := h.le
  have hindex : (k + r.offset).toNat ≠ (l + r.offset).toNat := by omega
  simp [get, Reach.set, Array.getElem?_setIfInBounds_ne hindex]

theorem get_blank (n : Nat) (k : Int) : (blank n).get k = 0 := by
  simp only [get, blank, Array.getD_eq_getD_getElem?, Array.getElem?_replicate]
  split <;> rfl

/-- A diagonal starts from the neighbour that has come further. -/
theorem origin_cases (r : Reach) {d : Nat} {k : Int} (hd : 0 < d) (hlow : -d ≤ k) (hhigh : k ≤ d) :
    (k < d ∧ r.origin d k = r.get (k + 1) ∧ (-d < k → r.get (k - 1) < r.get (k + 1))) ∨
      (-d < k ∧ r.origin d k = r.get (k - 1) + 1 ∧ (k < d → r.get (k + 1) ≤ r.get (k - 1))) := by
  unfold origin
  split
  case isTrue h =>
      simp only [Bool.or_eq_true, beq_iff_eq, Bool.and_eq_true, bne_iff_ne, decide_eq_true_eq] at h
      refine .inl ⟨by omega, rfl, fun hk => ?_⟩
      obtain hends | ⟨_, hless⟩ := h
      · omega
      · exact hless
  case isFalse h =>
      simp only [Bool.or_eq_true, beq_iff_eq, Bool.and_eq_true, bne_iff_ne, decide_eq_true_eq, not_or,
        not_and, Nat.not_lt] at h
      exact .inr ⟨by omega, rfl, fun hk => h.2 (by omega)⟩

theorem le_origin_left {d : Nat} {k : Int} (r : Reach) (hd : 0 < d) (hlow : -d ≤ k) (hhigh : k < d) :
    r.get (k + 1) ≤ r.origin d k := by
  obtain ⟨_, heq, _⟩ | ⟨_, heq, hle⟩ := r.origin_cases hd hlow (Int.le_of_lt hhigh)
  · exact Nat.le_of_eq heq.symm
  · rw [heq]
    exact Nat.le_succ_of_le (hle hhigh)

theorem lt_origin_right {d : Nat} {k : Int} (r : Reach) (hd : 0 < d) (hlow : -d < k) (hhigh : k ≤ d) :
    r.get (k - 1) < r.origin d k := by
  obtain ⟨_, heq, hless⟩ | ⟨_, heq, _⟩ := r.origin_cases hd (Int.le_of_lt hlow) hhigh
  · rw [heq]
    exact hless hlow
  · rw [heq]
    exact Nat.lt_succ_self _

end Reach

/-- After `d` steps, diagonal `k` has come from its origin along lines that agree, if at all. -/
def Follows (b : Box) (d : Nat) (before after : Reach) (k : Int) : Prop :=
  ∃ run, after.get k = before.origin d k + run ∧
    (run = 0 ∨ before.origin d k + run ≤ b.height ∧ (before.origin d k + run : Int) ≤ b.width + k)

/-- How far the diagonals have come after `d` steps. One that has left the box at a side was
followed there by the next one on that side, and that at most one line behind. -/
structure Level (b : Box) (d : Nat) (r : Reach) : Prop where
  le : ∀ k ∈ diagonals d, k ≤ r.get k
  wide : ∀ k ∈ diagonals d, b.height < r.get k → -d < k ∧ r.get k ≤ r.get (k - 2) + 1
  tall : ∀ k ∈ diagonals d, b.width + k < r.get k → k < d ∧ r.get k + 1 ≤ r.get (k + 2)

section level

variable {b : Box} {d : Nat} {before after : Reach}

theorem Follows.le {k : Int} (h : Follows b d before after k) :
    before.origin d k ≤ after.get k := by
  obtain ⟨run, hget, _⟩ := h
  rw [hget]
  exact Nat.le_add_right _ _

theorem Follows.eq_of_wide {k : Int} (h : Follows b d before after k)
    (hwide : b.height < after.get k) : after.get k = before.origin d k := by
  obtain ⟨run, hget, rfl | ⟨hheight, _⟩⟩ := h
  · exact hget
  · omega

theorem Follows.eq_of_tall {k : Int} (h : Follows b d before after k)
    (htall : b.width + k < after.get k) : after.get k = before.origin d k := by
  obtain ⟨run, hget, rfl | ⟨_, hwidth⟩⟩ := h
  · exact hget
  · omega

theorem Level.zero (hblank : ∀ k, before.get k = 0)
    (hfollows : ∀ k ∈ diagonals 0, Follows b 0 before after k) : Level b 0 after := by
  have hmem : (0 : Int) ∈ diagonals 0 := by decide
  have hsmall : after.get 0 ≤ b.height ∧ after.get 0 ≤ b.width := by
    obtain ⟨run, hget, hrun⟩ := hfollows 0 hmem
    have horigin : before.origin 0 0 = 0 := hblank 1
    rw [horigin] at hget hrun
    omega
  have honly : ∀ k ∈ diagonals 0, k = 0 := by
    intro k hk
    have hrange := mem_diagonals.mp hk
    omega
  refine ⟨fun k hk => ?_, fun k hk hwide => ?_, fun k hk htall => ?_⟩
  · rw [honly k hk]
    omega
  · rw [honly k hk] at hwide
    omega
  · rw [honly k hk] at htall
    omega

theorem Level.succ (h : Level b d before)
    (hfollows : ∀ k ∈ diagonals (d + 1), Follows b (d + 1) before after k) :
    Level b (d + 1) after := by
  have hpos : 0 < d + 1 := Nat.succ_pos d
  refine ⟨fun k hk => ?_, fun k hk hwide => ?_, fun k hk htall => ?_⟩
  · have hle := (hfollows k hk).le
    obtain ⟨hlow, hhigh, heven⟩ := mem_diagonals.mp hk
    obtain ⟨hlt, heq, _⟩ | ⟨hlt, heq, _⟩ := before.origin_cases hpos hlow hhigh
    · have hnext := h.le (k + 1) (mem_diagonals.mpr (by omega))
      omega
    · have hnext := h.le (k - 1) (mem_diagonals.mpr (by omega))
      omega
  · have heq' := (hfollows k hk).eq_of_wide hwide
    obtain ⟨hlow, hhigh, heven⟩ := mem_diagonals.mp hk
    have hfrom : -((d + 1 : Nat) : Int) < k ∧ after.get k ≤ before.get (k - 1) + 1 := by
      obtain ⟨hlt, heq, _⟩ | ⟨hlt, heq, _⟩ := before.origin_cases hpos hlow hhigh
      · have hnext := h.wide (k + 1) (mem_diagonals.mpr (by omega)) (by omega)
        have hsame : k + 1 - 2 = k - 1 := by omega
        rw [hsame] at hnext
        omega
      · omega
    have hbehind := (hfollows (k - 2) (mem_diagonals.mpr (by omega))).le
    have horigin := before.le_origin_left (k := k - 2) hpos (by omega) (by omega)
    have hsame : k - 2 + 1 = k - 1 := by omega
    rw [hsame] at horigin
    omega
  · have heq' := (hfollows k hk).eq_of_tall htall
    obtain ⟨hlow, hhigh, heven⟩ := mem_diagonals.mp hk
    have hfrom : k < ((d + 1 : Nat) : Int) ∧ after.get k ≤ before.get (k + 1) := by
      obtain ⟨hlt, heq, _⟩ | ⟨hlt, heq, _⟩ := before.origin_cases hpos hlow hhigh
      · omega
      · have hnext := h.tall (k - 1) (mem_diagonals.mpr (by omega)) (by omega)
        have hsame : k - 1 + 2 = k + 1 := by omega
        rw [hsame] at hnext
        omega
    have hbehind := (hfollows (k + 2) (mem_diagonals.mpr (by omega))).le
    have horigin := before.lt_origin_right (k := k + 2) hpos (by omega) (by omega)
    have hsame : k + 2 - 1 = k + 1 := by omega
    rw [hsame] at horigin
    omega

end level

/-- Near the diagonal of the box's last corner, no diagonal has reached the far sides of the box. -/
def Apart (b : Box) (d : Nat) (r : Reach) : Prop :=
  ∀ k ∈ diagonals d, (k - b.delta).natAbs + 1 ≤ d →
    r.get k < b.height ∧ (r.get k : Int) < b.height + (k - b.delta)

/-- Near that diagonal every origin lies in the box. -/
theorem origin_in_box {b : Box} {d : Nat} {r : Reach} (hodd : b.delta % 2 ≠ 0) (hlevel : Level b d r)
    (hapart : Apart b d r) {k : Int} (hk : k ∈ diagonals (d + 1))
    (hnear : (k - b.delta).natAbs + 1 ≤ d + 1) :
    r.origin (d + 1) k ≤ b.height ∧ ((r.origin (d + 1) k : Int) - k).toNat ≤ b.width := by
  obtain ⟨hlow, hhigh, heven⟩ := mem_diagonals.mp hk
  have hdelta : b.delta = b.height - b.width := rfl
  have hpos : 0 < d + 1 := Nat.succ_pos d
  obtain ⟨hlt, heq, _⟩ | ⟨hlt, heq, _⟩ := r.origin_cases hpos hlow hhigh
  · have hmem : k + 1 ∈ diagonals d := mem_diagonals.mpr (by omega)
    by_cases hinner : (k + 1 - b.delta).natAbs + 1 ≤ d
    · have hclose := hapart (k + 1) hmem hinner
      omega
    · -- Only the highest diagonal is left, and behind it there is one near the corner.
      have hheight : r.get (k + 1) ≤ b.height := by
        by_contra hwide
        obtain ⟨hnot, hbehind⟩ := hlevel.wide (k + 1) hmem (by omega)
        have hsame : k + 1 - 2 = k - 1 := by omega
        rw [hsame] at hbehind
        have hclose := hapart (k - 1) (mem_diagonals.mpr (by omega)) (by omega)
        omega
      omega
  · have hmem : k - 1 ∈ diagonals d := mem_diagonals.mpr (by omega)
    by_cases hinner : (k - 1 - b.delta).natAbs + 1 ≤ d
    · have hclose := hapart (k - 1) hmem hinner
      omega
    · have hwidth : (r.get (k - 1) : Int) ≤ b.width + (k - 1) := by
        by_contra htall
        obtain ⟨hnot, hbehind⟩ := hlevel.tall (k - 1) hmem (by omega)
        have hsame : k - 1 + 2 = k + 1 := by omega
        rw [hsame] at hbehind
        have hclose := hapart (k + 1) (mem_diagonals.mpr (by omega)) (by omega)
        omega
      omega

section loop

variable {t : Texts} {b : Box} {d n : Nat} {start reach other : Reach} {ks : List Int}

/-- Off the diagonals of level `d`, nothing has changed since its start. -/
def Unchanged (d : Nat) (start reach : Reach) : Prop :=
  ∀ k : Int, k.natAbs ≤ d + 1 → (k + d) % 2 ≠ 0 → reach.get k = start.get k

theorem Unchanged.origin_eq (h : Unchanged d start reach) {k : Int} (hk : k ∈ diagonals d) :
    reach.origin d k = start.origin d k := by
  obtain ⟨hlow, hhigh, heven⟩ := mem_diagonals.mp hk
  rw [Reach.origin, Reach.origin, h (k + 1) (by omega) (by omega), h (k - 1) (by omega) (by omega)]

theorem Unchanged.set (h : Unchanged d start reach) (hspans : reach.Spans n) (hd : d + 1 ≤ n)
    {k : Int} (hk : k ∈ diagonals d) (x : Nat) : Unchanged d start (reach.set k x) := by
  obtain ⟨hlow, hhigh, heven⟩ := mem_diagonals.mp hk
  intro l hl hodd
  rw [Reach.get_set_of_ne hspans (by omega) (by omega) (by omega)]
  exact h l hl hodd

/-- A level has been searched: each of its diagonals has been followed. -/
structure Searched (b : Box) (d n : Nat) (start reach : Reach) (ks : List Int) (after : Reach) :
    Prop where
  spans : after.Spans n
  follows : ∀ k ∈ ks, Follows b d start after k
  kept : ∀ k : Int, k.natAbs ≤ n → k ∉ ks → after.get k = reach.get k

theorem Searched.cons {k : Int} {after : Reach} {run : Nat} (hspans : reach.Spans n) (hd : d + 1 ≤ n)
    (hk : k ∈ diagonals d) (hfresh : k ∉ ks)
    (hrun : run = 0 ∨
      start.origin d k + run ≤ b.height ∧ (start.origin d k + run : Int) ≤ b.width + k)
    (h : Searched b d n start (reach.set k (start.origin d k + run)) ks after) :
    after.get k = start.origin d k + run ∧ Searched b d n start reach (k :: ks) after := by
  obtain ⟨hlow, hhigh, heven⟩ := mem_diagonals.mp hk
  have hget : after.get k = start.origin d k + run := by
    rw [h.kept k (by omega) hfresh, Reach.get_set_self hspans (by omega)]
  refine ⟨hget, h.spans, List.forall_mem_cons.mpr ⟨⟨run, hget, hrun⟩, h.follows⟩, fun l hl hnot => ?_⟩
  rw [List.mem_cons, not_or] at hnot
  rw [h.kept l hl hnot.2, Reach.get_set_of_ne hspans (by omega) hl hnot.1]

theorem run_in_box {x run : Nat} {k : Int}
    (hrun : run ≤ min (b.height - x) (b.width - ((x : Int) - k).toNat))
    (hx : x < b.height) (hy : ((x : Int) - k).toNat < b.width) :
    x + run ≤ b.height ∧ (x + run : Int) ≤ b.width + k := by
  omega

theorem forward_cases (back : Reach) (hspans : reach.Spans n) (hd : d + 1 ≤ n)
    (hks : ∀ k ∈ ks, k ∈ diagonals d) (hnodup : ks.Nodup) (hsame : Unchanged d start reach) :
    (∃ k ∈ ks, b.delta % 2 ≠ 0 ∧ (k - b.delta).natAbs + 1 ≤ d ∧
      forward t b d back ks reach = .found (b.oldFrom + start.origin d k)
        (b.newFrom + ((start.origin d k : Int) - k).toNat)) ∨
    ∃ after, forward t b d back ks reach = .going after ∧ Searched b d n start reach ks after ∧
      ∀ k ∈ ks, b.delta % 2 ≠ 0 → (k - b.delta).natAbs + 1 ≤ d →
        after.get k + back.get (-(k - b.delta)) < b.height := by
  induction ks generalizing reach with
  | nil => exact .inr ⟨reach, rfl, ⟨hspans, by simp, fun _ _ _ => rfl⟩, by simp⟩
  | cons k ks ih =>
      obtain ⟨hk, hlater⟩ := List.forall_mem_cons.mp hks
      obtain ⟨hfresh, hdistinct⟩ := List.nodup_cons.mp hnodup
      rw [forward, hsame.origin_eq hk]
      simp only [Int.ofNat_eq_natCast]
      generalize hrun : (if (decide (start.origin d k < b.height) &&
        decide (((start.origin d k : Int) - k).toNat < b.width)) = true then _ else 0) = run
      have hbox : run = 0 ∨
          start.origin d k + run ≤ b.height ∧ (start.origin d k + run : Int) ≤ b.width + k := by
        subst hrun
        split
        case isTrue hin =>
            simp only [Bool.and_eq_true, decide_eq_true_eq] at hin
            exact .inr (run_in_box Texts.commonFrom_le hin.1 hin.2)
        case isFalse => exact .inl rfl
      split
      case isTrue hmet =>
          simp only [Bool.and_eq_true, bne_iff_ne, decide_eq_true_eq] at hmet
          exact .inl ⟨k, List.mem_cons_self, hmet.1.1, hmet.1.2, rfl⟩
      case isFalse hnot =>
          obtain ⟨l, hl, hfound⟩ | ⟨after, hgoing, hsearched, hapart⟩ :=
            ih (hspans.set k _) hlater hdistinct (hsame.set hspans hd hk _)
          · exact .inl ⟨l, List.mem_cons_of_mem k hl, hfound⟩
          · obtain ⟨hget, hall⟩ := hsearched.cons hspans hd hk hfresh hbox
            refine .inr ⟨after, hgoing, hall, List.forall_mem_cons.mpr ⟨fun hodd hnear => ?_, hapart⟩⟩
            simp only [Bool.and_eq_true, bne_iff_ne, decide_eq_true_eq, not_and, ge_iff_le,
              Nat.not_le] at hnot
            rw [hget]
            exact hnot ⟨hodd, hnear⟩

def Box.Holds (b : Box) (old new : Nat) : Prop :=
  b.oldFrom ≤ old ∧ old ≤ b.oldFrom + b.height ∧ b.newFrom ≤ new ∧ new ≤ b.newFrom + b.width

theorem backward_cases (front : Reach) (hspans : reach.Spans n) (hd : d + 1 ≤ n)
    (hks : ∀ k ∈ ks, k ∈ diagonals d) (hnodup : ks.Nodup) (hsame : Unchanged d start reach) :
    (∃ old new, b.Holds old new ∧ backward t b d front ks reach = .found old new) ∨
    ∃ after, backward t b d front ks reach = .going after ∧
      Searched b d n start reach ks after := by
  induction ks generalizing reach with
  | nil => exact .inr ⟨reach, rfl, hspans, by simp, fun _ _ _ => rfl⟩
  | cons k ks ih =>
      obtain ⟨hk, hlater⟩ := List.forall_mem_cons.mp hks
      obtain ⟨hfresh, hdistinct⟩ := List.nodup_cons.mp hnodup
      rw [backward, hsame.origin_eq hk]
      simp only [Int.ofNat_eq_natCast]
      generalize hrun : (if (decide (start.origin d k < b.height) &&
        decide (((start.origin d k : Int) - k).toNat < b.width)) = true then _ else 0) = run
      have hbox : run = 0 ∨
          start.origin d k + run ≤ b.height ∧ (start.origin d k + run : Int) ≤ b.width + k := by
        subst hrun
        split
        case isTrue hin =>
            simp only [Bool.and_eq_true, decide_eq_true_eq] at hin
            exact .inr (run_in_box Texts.commonBefore_le hin.1 hin.2)
        case isFalse => exact .inl rfl
      split
      case isTrue hmet =>
          refine .inl ⟨_, _, ⟨?_, ?_, ?_, ?_⟩, rfl⟩ <;> omega
      case isFalse hnot =>
          obtain hfound | ⟨after, hgoing, hsearched⟩ :=
            ih (hspans.set k _) hlater hdistinct (hsame.set hspans hd hk _)
          · exact .inl hfound
          · exact .inr ⟨after, hgoing, (hsearched.cons hspans hd hk hfresh hbox).2⟩

end loop

theorem Unchanged.refl (d : Nat) (r : Reach) : Unchanged d r r := fun _ _ _ => rfl

section search

variable {t : Texts} {b : Box} {n : Nat}

/-- How a search stands when `d` steps have been taken from both ends. -/
inductive Halfway (b : Box) : Nat → Reach → Reach → Prop
  | start {front back : Reach} (hfront : ∀ k, front.get k = 0) (hback : ∀ k, back.get k = 0) :
      Halfway b 0 front back
  | step {d : Nat} {front back : Reach} (hfront : Level b d front) (hback : Level b d back)
      (hapart : b.delta % 2 ≠ 0 → Apart b d front) : Halfway b (d + 1) front back

variable {d : Nat} {front back front' back' : Reach}

theorem Halfway.level (h : Halfway b d front back)
    (hsearched : ∀ k ∈ diagonals d, Follows b d front front' k) : Level b d front' := by
  cases h with
  | start hfront => exact .zero hfront hsearched
  | step hfront => exact hfront.succ hsearched

theorem Halfway.levelBack (h : Halfway b d front back)
    (hsearched : ∀ k ∈ diagonals d, Follows b d back back' k) : Level b d back' := by
  cases h with
  | start _ hback => exact .zero hback hsearched
  | step _ hback => exact hback.succ hsearched

theorem Halfway.origin_in_box (h : Halfway b d front back) (hodd : b.delta % 2 ≠ 0) {k : Int}
    (hk : k ∈ diagonals d) (hnear : (k - b.delta).natAbs + 1 ≤ d) :
    b.Holds (b.oldFrom + front.origin d k)
      (b.newFrom + ((front.origin d k : Int) - k).toNat) := by
  cases h with
  | start => omega
  | step hfront _ hapart =>
      obtain ⟨hheight, hwidth⟩ := Edit.origin_in_box hodd hfront (hapart hodd) hk hnear
      refine ⟨?_, ?_, ?_, ?_⟩ <;> omega

theorem Halfway.apart (h : Halfway b d front back) (hodd : b.delta % 2 ≠ 0)
    (hunmet : ∀ k ∈ diagonals d, b.delta % 2 ≠ 0 → (k - b.delta).natAbs + 1 ≤ d →
      front'.get k + back.get (-(k - b.delta)) < b.height) : Apart b d front' := by
  intro k hk hnear
  have hless := hunmet k hk hodd hnear
  obtain ⟨hlow, hhigh, heven⟩ := mem_diagonals.mp hk
  cases h with
  | start => omega
  | @step e _ _ _ hback =>
      have hreach := hback.le (-(k - b.delta)) (mem_diagonals.mpr (by omega))
      omega

theorem searchFrom_in_box {fuel old new : Nat} (h : Halfway b d front back) (hfront : front.Spans n)
    (hback : back.Spans n) (hfuel : d + fuel ≤ n)
    (hfound : searchFrom t b fuel d front back = some (old, new)) : b.Holds old new := by
  induction fuel generalizing d front back with
  | zero => cases hfound
  | succ fuel ih =>
      have hmem (k : Int) (hk : k ∈ diagonals d) : k ∈ diagonals d := hk
      have hd : d + 1 ≤ n := by omega
      rw [searchFrom] at hfound
      obtain ⟨k, hk, hodd, hnear, hforward⟩ | ⟨front', hforward, hsearched, hunmet⟩ :=
        forward_cases (t := t) (b := b) back hfront hd hmem (nodup_diagonals d) (.refl d front)
      · rw [hforward] at hfound
        cases hfound
        exact h.origin_in_box hodd hk hnear
      · rw [hforward] at hfound
        obtain ⟨old', new', hholds, hbackward⟩ | ⟨back', hbackward, hsearchedBack⟩ :=
          backward_cases (t := t) (b := b) front' hback hd hmem (nodup_diagonals d) (.refl d back)
        · simp only [hbackward] at hfound
          cases hfound
          exact hholds
        · simp only [hbackward] at hfound
          have hnext : Halfway b (d + 1) front' back' :=
            .step (h.level hsearched.follows) (h.levelBack hsearchedBack.follows)
              fun hodd => h.apart hodd hunmet
          exact ih hnext hsearched.spans hsearchedBack.spans (by omega) hfound

end search

theorem middle?_in_box {t : Texts} {b : Box} {old new : Nat} (h : middle? t b = some (old, new)) :
    b.Holds old new := by
  have hspans (n : Nat) : (Reach.blank n).Spans n := ⟨by simp [Reach.blank], Nat.le_refl n⟩
  refine searchFrom_in_box (.start (Reach.get_blank _) (Reach.get_blank _)) (hspans _) (hspans _) ?_ h
  omega

end CodeAssist.Edit
