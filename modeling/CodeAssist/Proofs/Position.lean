import CodeAssist.Position
import Mathlib.Data.List.DropRight

namespace CodeAssist.Position

/-! Offsets into a buffer and places in it stand for each other. -/

theorem walk_append (p : Position) (s rest : List Char) :
    p.walk s.length (s ++ rest) = some (s.foldl advance p) := by
  induction s generalizing p with
  | nil =>
      rw [List.length_nil, walk]
      rfl
  | cons c s ih => exact ih (p.advance c)

theorem walk_of_length_lt {s : List Char} {offset : Nat} (hout : s.length < offset) (p : Position) :
    p.walk offset s = none := by
  fun_induction walk p offset s with
  | case1 => exact absurd hout (Nat.not_lt_zero _)
  | case2 => rfl
  | case3 p offset c rest ih => exact ih (Nat.lt_of_succ_lt_succ hout)

theorem walk_eq_some_iff {p q : Position} {offset : Nat} {s : List Char} :
    p.walk offset s = some q ↔ offset ≤ s.length ∧ (s.take offset).foldl advance p = q := by
  obtain hlt | hle := Nat.lt_or_ge s.length offset
  · rw [walk_of_length_lt hlt]
    exact ⟨nofun, fun h => absurd h.1 (Nat.not_le_of_lt hlt)⟩
  · have hwalk := p.walk_append (s.take offset) (s.drop offset)
    rw [List.take_append_drop, List.length_take_of_le hle] at hwalk
    rw [hwalk, Option.some_inj, and_iff_right hle]

theorem line_foldl (s : List Char) (p : Position) :
    (s.foldl advance p).line = p.line + s.count '\n' := by
  induction s generalizing p with
  | nil => rfl
  | cons c s ih =>
      rw [List.foldl_cons, ih, advance, List.count_cons]
      split <;> simp only [Nat.add_zero, Nat.add_assoc, Nat.add_comm 1]

theorem column_foldl (s : List Char) (first : Nat) :
    (s.foldl advance ⟨first, 0⟩).column = (s.rtakeWhile (· ≠ '\n')).length := by
  induction s using List.reverseRecOn with
  | nil => rfl
  | append_singleton s c ih =>
      rw [List.foldl_append, List.foldl_cons, List.foldl_nil, List.rtakeWhile_concat, advance]
      by_cases hc : c = '\n'
      · simp [hc]
      · simp [hc, ih]

/-- On an earlier line, or further left on the same one. -/
def Before (p q : Position) : Prop := p.line < q.line ∨ p.line = q.line ∧ p.column < q.column

theorem Before.trans {p q r : Position} (hpq : p.Before q) (hqr : q.Before r) : p.Before r := by
  unfold Before at *
  omega

theorem not_before_self (p : Position) : ¬p.Before p := by
  unfold Before
  omega

theorem before_advance (p : Position) (c : Char) : p.Before (p.advance c) := by
  unfold advance
  split
  · exact .inl (Nat.lt_succ_self _)
  · exact .inr ⟨rfl, Nat.lt_succ_self _⟩

theorem before_foldl {s : List Char} (hsome : s ≠ []) (p : Position) :
    p.Before (s.foldl advance p) := by
  induction s generalizing p with
  | nil => exact absurd rfl hsome
  | cons c s ih =>
      by_cases hnil : s = []
      · rw [hnil]
        exact p.before_advance c
      · exact (p.before_advance c).trans (ih hnil (p.advance c))

theorem walk_before {p q q' : Position} {i j : Nat} {s : List Char} (hlt : i < j)
    (hq : p.walk i s = some q) (hq' : p.walk j s = some q') : q.Before q' := by
  obtain ⟨-, rfl⟩ := walk_eq_some_iff.mp hq
  obtain ⟨hj, rfl⟩ := walk_eq_some_iff.mp hq'
  have hparts : s.take j = s.take i ++ (s.drop i).take (j - i) := by
    rw [← List.take_add, Nat.add_sub_cancel' (Nat.le_of_lt hlt)]
  have hsome : (s.drop i).take (j - i) ≠ [] := by
    rw [← List.length_pos_iff, List.length_take, List.length_drop]
    omega
  rw [hparts, List.foldl_append]
  exact before_foldl hsome _

theorem walk_injective {p q : Position} {i j : Nat} {s : List Char} (hi : p.walk i s = some q)
    (hj : p.walk j s = some q) : i = j := by
  obtain hlt | heq | hgt := Nat.lt_trichotomy i j
  · exact absurd (walk_before hlt hi hj) (not_before_self _)
  · exact heq
  · exact absurd (walk_before hgt hj hi) (not_before_self _)

def linesOf (buffer : String) : List (List Char) := buffer.toList.splitOn '\n'

theorem length_splitOn (s : List Char) : (s.splitOn '\n').length = s.count '\n' + 1 := by
  induction s with
  | nil => rfl
  | cons c s ih =>
      rw [List.splitOn_cons_eq_if_modifyHead, List.count_cons]
      split
      · rw [List.length_cons, ih]
      · rw [List.length_modifyHead, ih]

theorem exists_walk_cons_iff {p q : Position} {c : Char} {s : List Char} :
    (∃ offset, p.walk offset (c :: s) = some q) ↔
      p = q ∨ ∃ offset, (p.advance c).walk offset s = some q := by
  constructor
  · rintro ⟨offset, hwalk⟩
    cases offset with
    | zero => exact .inl (Option.some.inj hwalk)
    | succ offset => exact .inr ⟨offset, hwalk⟩
  · rintro (rfl | ⟨offset, hwalk⟩)
    · exact ⟨0, rfl⟩
    · exact ⟨offset + 1, hwalk⟩

/-- The places on lines of which the first begins at `p`. -/
def On (p : Position) : List (List Char) → Position → Prop
  | [], _ => False
  | line :: below, q =>
      (p.line = q.line ∧ p.column ≤ q.column ∧ q.column ≤ p.column + line.length) ∨
        On ⟨p.line + 1, 0⟩ below q

/-- An empty line has only the place that it begins with. -/
theorem on_nil_cons_iff {p q : Position} {below : List (List Char)} :
    p.On ([] :: below) q ↔ p = q ∨ On ⟨p.line + 1, 0⟩ below q := by
  rw [On, List.length_nil, Nat.add_zero]
  refine or_congr_left ⟨fun ⟨hline, hleft, hright⟩ => ?_, ?_⟩
  · obtain ⟨line, column⟩ := q
    exact congrArg₂ mk hline (Nat.le_antisymm hleft hright)
  · rintro rfl
    exact ⟨rfl, Nat.le_refl _, Nat.le_refl _⟩

/-- A line that goes on for one character more has the place in front of that too. -/
theorem on_modifyHead_iff {p q : Position} {c : Char} {lines : List (List Char)}
    (hsome : lines ≠ []) :
    p.On (lines.modifyHead (c :: ·)) q ↔ p = q ∨ On ⟨p.line, p.column + 1⟩ lines q := by
  cases lines with
  | nil => exact absurd rfl hsome
  | cons line below =>
      have hhere : (p.line = q.line ∧ p.column ≤ q.column ∧
            q.column ≤ p.column + (line.length + 1)) ↔
          p = q ∨ (p.line = q.line ∧ p.column + 1 ≤ q.column ∧
            q.column ≤ p.column + 1 + line.length) := by
        obtain ⟨line, column⟩ := p
        obtain ⟨line', column'⟩ := q
        rw [mk.injEq]
        dsimp only
        omega
      rw [List.modifyHead_cons, On, On, List.length_cons, hhere, or_assoc]

theorem exists_walk_iff {p q : Position} {s : List Char} :
    (∃ offset, p.walk offset s = some q) ↔ p.On (s.splitOn '\n') q := by
  induction s generalizing p with
  | nil =>
      rw [List.splitOn_nil, on_nil_cons_iff, On, or_false]
      simp only [walk_eq_some_iff, List.take_nil, List.foldl_nil]
      exact ⟨fun ⟨_, _, heq⟩ => heq, fun heq => ⟨0, Nat.zero_le _, heq⟩⟩
  | cons c s ih =>
      rw [exists_walk_cons_iff, ih, List.splitOn_cons_eq_if_modifyHead, advance]
      by_cases hc : c = '\n'
      · rw [if_pos (beq_iff_eq.mpr hc), if_pos (beq_iff_eq.mpr hc), on_nil_cons_iff]
      · rw [if_neg (mt beq_iff_eq.mp hc), if_neg (mt beq_iff_eq.mp hc),
          on_modifyHead_iff (List.splitOn_ne_nil _ _)]

theorem on_iff {first : Nat} {lines : List (List Char)} {q : Position} :
    On ⟨first, 0⟩ lines q ↔
      ∃ n line, lines[n]? = some line ∧ q.line = first + n ∧ q.column ≤ line.length := by
  induction lines generalizing first with
  | nil => simp [On]
  | cons line below ih =>
      rw [On, ih]
      constructor
      · rintro (⟨hline, -, hright⟩ | ⟨n, other, hother, hline, hcolumn⟩)
        · exact ⟨0, line, rfl, hline.symm, Nat.zero_add line.length ▸ hright⟩
        · refine ⟨n + 1, other, hother, ?_, hcolumn⟩
          rw [hline, Nat.add_assoc, Nat.add_comm 1]
      · rintro ⟨n, other, hother, hline, hcolumn⟩
        cases n with
        | zero =>
            cases hother
            exact .inl ⟨hline.symm, Nat.zero_le _, (Nat.zero_add line.length).symm ▸ hcolumn⟩
        | succ n =>
            refine .inr ⟨n, other, hother, ?_, hcolumn⟩
            rw [hline, Nat.add_assoc, Nat.add_comm 1]

/-- There is a place at each offset up to the end of a buffer and none further on. Its line is one
more than the LFs in front of it, and its column the number of characters behind the last of them.
Further on in the buffer is further on in the order of places, and each place on a line of the
buffer, also the one behind its last character, is that of exactly one offset. -/
theorem at?_bijective (buffer : String) :
    (∀ offset, (at? buffer offset).isSome ↔ offset ≤ buffer.length) ∧
    (∀ offset p, at? buffer offset = some p →
      p.line = 1 + (buffer.toList.take offset).count '\n' ∧
      p.column = ((buffer.toList.take offset).rtakeWhile (· ≠ '\n')).length) ∧
    (∀ i j p q, i < j → at? buffer i = some p → at? buffer j = some q → p.Before q) ∧
    ∀ l c, (∃! offset, at? buffer offset = some ⟨l, c⟩) ↔
      1 ≤ l ∧ l ≤ buffer.toList.count '\n' + 1 ∧
        ∃ line, (linesOf buffer)[l - 1]? = some line ∧ c ≤ line.length := by
  refine ⟨fun offset => ?_, fun offset p hp => ?_, fun i j p q hlt hp hq => ?_, fun l c => ?_⟩
  · rw [Option.isSome_iff_exists, at?]
    simp only [walk_eq_some_iff, String.length_toList]
    exact ⟨fun ⟨_, hle, _⟩ => hle, fun hle => ⟨_, hle, rfl⟩⟩
  · obtain ⟨-, rfl⟩ := walk_eq_some_iff.mp hp
    exact ⟨line_foldl .., column_foldl ..⟩
  · exact walk_before hlt hp hq
  · have hplaces : (∃ offset, at? buffer offset = some ⟨l, c⟩) ↔
        ∃ n line, (linesOf buffer)[n]? = some line ∧ l = 1 + n ∧ c ≤ line.length :=
      exists_walk_iff.trans on_iff
    constructor
    · intro hone
      obtain ⟨n, line, hline, rfl, hcolumn⟩ := hplaces.mp hone.exists
      have hlt := (List.getElem?_eq_some_iff.mp hline).1
      rw [linesOf, length_splitOn] at hlt
      rw [Nat.add_sub_cancel_left]
      exact ⟨Nat.le_add_right .., Nat.add_comm 1 n ▸ hlt, line, hline, hcolumn⟩
    · rintro ⟨hfirst, -, line, hline, hcolumn⟩
      have hoffset := hplaces.mpr
        ⟨l - 1, line, hline, (Nat.add_sub_of_le hfirst).symm, hcolumn⟩
      exact existsUnique_of_exists_of_unique hoffset fun _ _ => walk_injective

/-- An empty line, and the place behind the LF at the end. -/
theorem at?_bijective_empty_line :
    (at? "é\n\nx\n" 2 = some ⟨2, 0⟩ ∧ at? "é\n\nx\n" 5 = some ⟨4, 0⟩) ∧
      Before ⟨2, 0⟩ ⟨4, 0⟩ ∧ (∃! offset, at? "é\n\nx\n" offset = some ⟨3, 1⟩) ∧
      ¬∃! offset, at? "é\n\nx\n" offset = some ⟨2, 1⟩ := by
  obtain ⟨-, hcounts, horder, hone⟩ := at?_bijective "é\n\nx\n"
  have hsecond : at? "é\n\nx\n" 2 = some ⟨2, 0⟩ := by decide +kernel
  have hlast : at? "é\n\nx\n" 5 = some ⟨4, 0⟩ := by decide +kernel
  refine ⟨⟨hsecond, hlast⟩, horder 2 5 _ _ (by decide) hsecond hlast, ?_, ?_⟩
  · rw [hone]
    exact ⟨by decide, by decide, ['x'], by decide +kernel, by decide⟩
  · rw [hone]
    rintro ⟨-, -, line, hline, hcolumn⟩
    have hempty : (linesOf "é\n\nx\n")[2 - 1]? = some [] := by decide +kernel
    cases hempty.symm.trans hline
    exact absurd hcolumn (by decide)

end CodeAssist.Position
