import CodeAssist.Proofs.Edit.Rebuild
import CodeAssist.Proofs.Position

namespace CodeAssist

namespace Text

/-! The two ways to cut a text into lines agree unless a CR stands alone in it. -/

/-- A CR that is neither followed by LF nor the end of the text. -/
def LoneReturn (s : List Char) : Prop :=
  ∃ before c after, s = before ++ '\r' :: c :: after ∧ c ≠ '\n'

theorem loneReturn_cons {c : Char} {s : List Char} :
    LoneReturn (c :: s) ↔ (c = '\r' ∧ ∃ d rest, s = d :: rest ∧ d ≠ '\n') ∨ LoneReturn s := by
  constructor
  · rintro ⟨before, d, after, heq, hd⟩
    cases before with
    | nil =>
        obtain ⟨rfl, rfl⟩ := List.cons.inj heq
        exact .inl ⟨rfl, d, after, rfl, hd⟩
    | cons b before =>
        obtain ⟨rfl, rfl⟩ := List.cons.inj heq
        exact .inr ⟨before, d, after, rfl, hd⟩
  · rintro (⟨rfl, d, rest, rfl, hd⟩ | ⟨before, d, after, rfl, hd⟩)
    · exact ⟨[], d, rest, rfl, hd⟩
    · exact ⟨c :: before, d, after, rfl, hd⟩

theorem loneReturn_cons_of_ne {c : Char} {s : List Char} (hc : c ≠ '\r') :
    LoneReturn (c :: s) ↔ LoneReturn s := by
  rw [loneReturn_cons]
  exact or_iff_right fun h => hc h.1

theorem loneReturn_return_lf {s : List Char} : LoneReturn ('\r' :: '\n' :: s) ↔ LoneReturn s := by
  rw [loneReturn_cons, loneReturn_cons_of_ne (by decide)]
  refine or_iff_right ?_
  rintro ⟨-, d, rest, heq, hd⟩
  exact hd (List.cons.inj heq).1.symm

theorem not_loneReturn_nil : ¬LoneReturn [] := by
  rintro ⟨before, c, after, heq, -⟩
  simp at heq

theorem splitAtLf_go_cons (done : List (List Char)) (line : List Char) {c : Char} (s : List Char)
    (hc : c ≠ '\n') : splitAtLf.go done line (c :: s) = splitAtLf.go done (c :: line) s := by
  rw [splitAtLf.go]
  exact hc

theorem flatten_splitAtLf_go (done : List (List Char)) (line s : List Char) :
    (splitAtLf.go done line s).flatten = done.reverse.flatten ++ line.reverse ++ s := by
  fun_induction splitAtLf.go done line s with
  | case1 done line =>
      split
      case isTrue hempty => simp [List.isEmpty_iff.mp hempty]
      case isFalse => simp
  | case2 done line rest ih =>
      rw [ih]
      simp
  | case3 done line c rest _ ih =>
      rw [ih]
      simp

theorem splitAtLf_go_eq {done : List (List Char)} {line s : List Char} (hnone : ¬LoneReturn s) :
    splitAtLf.go done line s = splitAtBreaks.go done line s := by
  fun_induction splitAtBreaks.go done line s with
  | case1 done line => rfl
  | case2 done line rest ih =>
      rw [loneReturn_return_lf] at hnone
      rw [splitAtLf_go_cons _ _ _ (by decide), splitAtLf.go, ih hnone]
  | case3 done line c rest hnot hbreak ih =>
      rw [loneReturn_cons, not_or] at hnone
      obtain ⟨hlone, hrest⟩ := hnone
      by_cases hc : c = '\n'
      · rw [hc, splitAtLf.go, ← hc, ih hrest]
      · have hreturn : c = '\r' := by simpa [hc] using hbreak
        -- A CR that is not alone and not followed by LF is the end of the text.
        cases rest with
        | nil => simp [splitAtLf.go, splitAtBreaks.go, hreturn]
        | cons d rest =>
            exact absurd ⟨hreturn, d, rest, rfl, fun hd => hnot rest hreturn (hd ▸ rfl)⟩ hlone
  | case4 done line c rest hnot hbreak ih =>
      rw [loneReturn_cons, not_or] at hnone
      have hc : c ≠ '\n' := fun hc => hbreak (by simp [hc])
      rw [splitAtLf_go_cons _ _ _ hc, ih hnone.2]

theorem length_splitAtLf_go (done : List (List Char)) (line s : List Char) :
    (splitAtLf.go done line s).length = done.length + (splitAtLf.go [] line s).length := by
  induction s generalizing done line with
  | nil =>
      rw [splitAtLf.go, splitAtLf.go]
      split <;> simp
  | cons c s ih =>
      by_cases hc : c = '\n'
      · rw [hc, splitAtLf.go, splitAtLf.go, ih, ih [_], List.length_cons, List.length_singleton,
          Nat.add_assoc]
      · rw [splitAtLf_go_cons _ _ _ hc, splitAtLf_go_cons _ _ _ hc, ih]

/-- What a line has begun with does not matter for the number of lines once it has more to come. -/
theorem length_splitAtLf_go_line (done : List (List Char)) (line line' : List Char) (c : Char)
    (s : List Char) :
    (splitAtLf.go done line (c :: s)).length = (splitAtLf.go done line' (c :: s)).length := by
  induction s generalizing line line' c with
  | nil =>
      by_cases hc : c = '\n'
      · rw [hc]
        simp [splitAtLf.go]
      · rw [splitAtLf_go_cons _ _ _ hc, splitAtLf_go_cons _ _ _ hc]
        simp [splitAtLf.go]
  | cons d s ih =>
      by_cases hc : c = '\n'
      · rw [hc, splitAtLf.go, splitAtLf.go, length_splitAtLf_go, length_splitAtLf_go (_ :: _)]
        rfl
      · rw [splitAtLf_go_cons _ _ _ hc, splitAtLf_go_cons _ _ _ hc]
        exact ih ..

theorem length_splitAtLf_go_le (done : List (List Char)) (line s : List Char) :
    (splitAtLf.go done line s).length ≤ (splitAtBreaks.go done line s).length ∧
      (LoneReturn s →
        (splitAtLf.go done line s).length < (splitAtBreaks.go done line s).length) := by
  fun_induction splitAtBreaks.go done line s with
  | case1 done line => exact ⟨Nat.le_refl _, fun hlone => absurd hlone not_loneReturn_nil⟩
  | case2 done line rest ih =>
      rw [loneReturn_return_lf, splitAtLf_go_cons _ _ _ (by decide), splitAtLf.go]
      exact ih
  | case3 done line c rest hnot hbreak ih =>
      by_cases hc : c = '\n'
      · rw [hc, loneReturn_cons_of_ne (by decide), splitAtLf.go, ← hc]
        exact ih
      · have hreturn : c = '\r' := by simpa [hc] using hbreak
        rw [splitAtLf_go_cons _ _ _ hc]
        cases rest with
        | nil =>
            refine ⟨by simp [splitAtLf.go, splitAtBreaks.go], fun hlone => ?_⟩
            obtain ⟨-, d, rest, hnil, -⟩ | hnil := loneReturn_cons.mp hlone
            · cases hnil
            · exact absurd hnil not_loneReturn_nil
        | cons d rest =>
            -- The line that a lone CR ends goes on for those who count LF only.
            have hless := ih.1
            rw [length_splitAtLf_go, List.length_cons] at hless
            rw [length_splitAtLf_go_line done (c :: line) [] d rest, length_splitAtLf_go]
            exact ⟨by omega, fun _ => by omega⟩
  | case4 done line c rest hnot hbreak ih =>
      have hc : c ≠ '\n' := fun hc => hbreak (by simp [hc])
      have hreturn : c ≠ '\r' := fun hc => hbreak (by simp [hc])
      rw [splitAtLf_go_cons _ _ _ hc, loneReturn_cons_of_ne hreturn]
      exact ih

theorem splitAtBreaks_eq_iff {s : List Char} : splitAtBreaks s = splitAtLf s ↔ ¬LoneReturn s := by
  constructor
  · intro heq hlone
    have hless := (length_splitAtLf_go_le [] [] s).2 hlone
    exact Nat.ne_of_lt hless (congrArg List.length heq.symm)
  · exact fun hnone => (splitAtLf_go_eq hnone).symm

def IsLfLine (line : List Char) : Prop :=
  ∃ body, '\n' ∉ body ∧ (line = body ∨ line = body ++ ['\n'])

theorem isLfLine_splitAtBreaks_go {done : List (List Char)} {line s : List Char}
    (hdone : ∀ l ∈ done, IsLfLine l) (hline : '\n' ∉ line) :
    ∀ l ∈ splitAtBreaks.go done line s, IsLfLine l := by
  have hopen {line : List Char} (hline : '\n' ∉ line) : IsLfLine line.reverse :=
    ⟨line.reverse, by simpa using hline, .inl rfl⟩
  have hended {line : List Char} (hline : '\n' ∉ line) : IsLfLine ('\n' :: line).reverse :=
    ⟨line.reverse, by simpa using hline, .inr (by simp)⟩
  fun_induction splitAtBreaks.go done line s with
  | case1 done line =>
      split
      case isTrue => simpa using hdone
      case isFalse =>
          intro l hl
          rw [List.mem_reverse] at hl
          obtain rfl | hl := List.mem_cons.mp hl
          · exact hopen hline
          · exact hdone l hl
  | case2 done line rest ih =>
      refine ih (List.forall_mem_cons.mpr ⟨hended ?_, hdone⟩) List.not_mem_nil
      simpa using hline
  | case3 done line c rest hnot hbreak ih =>
      refine ih (List.forall_mem_cons.mpr ⟨?_, hdone⟩) List.not_mem_nil
      by_cases hc : c = '\n'
      · rw [hc]
        exact hended hline
      · refine hopen ?_
        rw [List.mem_cons, not_or]
        exact ⟨Ne.symm hc, hline⟩
  | case4 done line c rest hnot hbreak ih =>
      refine ih hdone ?_
      rw [List.mem_cons, not_or]
      exact ⟨fun hc => hbreak (by simp [← hc]), hline⟩

end Text

namespace Position

theorem line_foldl_of_not_mem {s : List Char} (hnone : '\n' ∉ s) (p : Position) :
    (s.foldl advance p).line = p.line := by
  rw [line_foldl, List.count_eq_zero_of_not_mem hnone, Nat.add_zero]

theorem foldl_lf (body : List Char) (hnone : '\n' ∉ body) (p : Position) :
    (body ++ ['\n']).foldl advance p = ⟨p.line + 1, 0⟩ := by
  rw [List.foldl_append, List.foldl_cons, List.foldl_nil, advance]
  simp [line_foldl_of_not_mem hnone p]

/-- A cursor behind some lines has passed as many as end at LF. -/
theorem line_foldl_flatten {lines : List (List Char)} (hlines : ∀ l ∈ lines, Text.IsLfLine l)
    (p : Position) :
    (lines.flatten.foldl advance p).line =
      p.line + lines.countP fun l => l.getLast? = some '\n' := by
  induction lines generalizing p with
  | nil => rfl
  | cons l lines ih =>
      obtain ⟨⟨body, hnone, hbody⟩, hrest⟩ := List.forall_mem_cons.mp hlines
      rw [List.flatten_cons, List.foldl_append, ih hrest, List.countP_cons]
      obtain rfl | rfl := hbody
      · have hopen : l.getLast? ≠ some '\n' := fun hlast => hnone (List.mem_of_getLast? hlast)
        simp [line_foldl_of_not_mem hnone, hopen]
      · rw [foldl_lf body hnone]
        simp only [List.getLast?_append, List.getLast?_singleton, Option.some_or, decide_true,
          if_true]
        omega

theorem foldl_flatten_eq_iff {lines : List (List Char)} (hlines : ∀ l ∈ lines, Text.IsLfLine l)
    (first : Nat) :
    lines.flatten.foldl advance ⟨first, 0⟩ = ⟨first + lines.length, 0⟩ ↔
      ∀ l ∈ lines, l.getLast? = some '\n' := by
  constructor
  · intro heq
    have hline := line_foldl_flatten hlines ⟨first, 0⟩
    rw [heq] at hline
    have hcount : lines.countP (fun l => l.getLast? = some '\n') = lines.length := by
      simp only at hline
      omega
    simpa using List.countP_eq_length.mp hcount
  · intro hall
    induction lines generalizing first with
    | nil => rfl
    | cons l lines ih =>
        obtain ⟨⟨body, hnone, hbody⟩, hrest⟩ := List.forall_mem_cons.mp hlines
        obtain ⟨hlast, hothers⟩ := List.forall_mem_cons.mp hall
        have hl : l = body ++ ['\n'] := by
          refine hbody.resolve_left ?_
          rintro rfl
          exact hnone (List.mem_of_getLast? hlast)
        rw [List.flatten_cons, List.foldl_append, hl, foldl_lf body hnone, ih hrest _ hothers,
          List.length_cons, Nat.add_assoc, Nat.add_comm 1]

end Position

namespace Edit

theorem settle_lone (t : Texts) (tag : Tag) (fuel left : Nat) (this : Run) :
    settle t tag fuel left [] [this] = [this] := by
  have hup : repeatStep (stepUp t) fuel ⟨[], this, []⟩ = ⟨[], this, []⟩ := by cases fuel <;> rfl
  have hdown : repeatStep (stepDown t) fuel ⟨[], this, []⟩ = ⟨[], this, []⟩ := by cases fuel <;> rfl
  have hend (left : Nat) : settle t tag fuel left [this] [] = [this] := by cases left <;> rfl
  cases left with
  | zero => rfl
  | succ left =>
      simp only [settle, hup, hdown, hend, ite_self]

theorem script_nil {lines : Array String} (hsome : lines.size ≠ 0) :
    script ⟨lines, #[]⟩ = [⟨true, 0, lines.size, 0, 0⟩] := by
  have hconquer : conquer ⟨lines, #[]⟩ (lines.size + 0 + 1) ⟨0, lines.size, 0, 0⟩ =
      [⟨.delete, 0, 0, lines.size⟩] := by
    simp [conquer, Box.height, Box.width, Texts.commonFrom, Texts.commonFrom.go,
      Texts.commonBefore, Texts.commonBefore.go, runIf, hsome]
  change blocks (compact ⟨lines, #[]⟩ (conquer _ (lines.size + 0 + 1) ⟨0, lines.size, 0, 0⟩)) = _
  rw [hconquer, compact, settle_lone, settle_lone]
  rfl

end Edit

namespace LineEdit

/-- The lines of a text as cursors count them, each with its LF. -/
def cursorLines (s : String) : List String := (Text.splitAtLf s.toList).map String.ofList

/-- Applies an edit, if its range lies within the lines. -/
def splice? (e : LineEdit) (lines : List String) : Option (List String) :=
  if e.startLine ≤ e.endLine ∧ e.endLine ≤ lines.length + 1 then some (e.splice lines) else none

/-- Applies edits to the lines that cursors count, the last one first. -/
def applied? (old : String) (edits : List LineEdit) : Option String :=
  (edits.foldr (fun e lines? => lines?.bind e.splice?) (some (cursorLines old))).map concat

variable {bound : Nat} {edits : List LineEdit} {lines : List String} {old : String}

theorem concat_cursorLines (s : String) : concat (cursorLines s) = s := by
  apply String.toList_injective
  rw [concat, String.toList_join, cursorLines, List.flatMap_map]
  simp only [String.toList_ofList]
  rw [List.flatMap_id', Text.splitAtLf, Text.flatten_splitAtLf_go]
  rfl

theorem linesOf_eq_cursorLines_iff :
    linesOf old = cursorLines old ↔ ¬Text.LoneReturn old.toList := by
  rw [← Text.splitAtBreaks_eq_iff]
  have hinjective : Function.Injective String.ofList := fun _ _ => String.ofList_injective
  exact (List.map_injective_iff.mpr hinjective).eq_iff

theorem length_cursorLines_lt (hlone : Text.LoneReturn old.toList) :
    (cursorLines old).length < (linesOf old).length := by
  rw [cursorLines, linesOf, List.length_map, List.length_map]
  exact (Text.length_splitAtLf_go_le [] [] _).2 hlone

theorem Ordered.foldr_splice? (h : Ordered bound edits) (hbound : bound ≤ lines.length + 2) :
    edits.reverse.foldr (fun e lines? => lines?.bind e.splice?) (some lines) =
      some (edits.reverse.foldr splice lines) := by
  simp only [List.foldr_reverse]
  induction h generalizing lines with
  | none => rfl
  | @edit _ e earlier hrange hlt h ih =>
      have hsplice : e.splice? lines = some (e.splice lines) := if_pos ⟨hrange, by omega⟩
      have hlength : e.startLine ≤ (e.splice lines).length + 2 := by
        rw [splice, List.length_append, List.length_take]
        omega
      rw [List.foldl_cons, List.foldl_cons, Option.bind_some, hsplice]
      exact ih hlength

/-- Edits do the same to two texts that begin with the same lines, as far as they reach. -/
theorem Ordered.concat_splice (h : Ordered (bound + 2) edits) {lines' : List String}
    (hbound : bound ≤ lines.length) (hsame : lines'.take bound = lines.take bound)
    (htext : concat lines' = concat lines) :
    concat (edits.reverse.foldr splice lines') = concat (edits.reverse.foldr splice lines) := by
  have hlength : bound + 2 ≤ (lines.take bound).length + 2 := by
    rw [List.length_take]
    omega
  have hrest : concat (lines'.drop bound) = concat (lines.drop bound) := by
    rw [← List.take_append_drop bound lines', ← List.take_append_drop bound lines, hsame,
      concat_append, concat_append] at htext
    exact String.append_right_inj _ |>.mp htext
  rw [← List.take_append_drop bound lines', ← List.take_append_drop bound lines, hsame,
    h.splice_append hlength, h.splice_append hlength, concat_append, concat_append, hrest]

/-- Where both counts agree as far as the edits reach, they are the same in both. -/
theorem Ordered.at_cursorLines (h : Ordered bound edits) (hbound : bound ≤ (linesOf old).length + 2)
    (hreach : ∀ e ∈ edits,
      (linesOf old).take (e.endLine - 1) = (cursorLines old).take (e.endLine - 1)) :
    edits.reverse.foldr (fun e lines? => lines?.bind e.splice?) (some (cursorLines old)) =
        some (edits.reverse.foldr splice (cursorLines old)) ∧
      concat (edits.reverse.foldr splice (cursorLines old)) =
        concat (edits.reverse.foldr splice (linesOf old)) := by
  cases h with
  | none =>
      refine ⟨rfl, ?_⟩
      exact (concat_cursorLines old).trans (concat_linesOf old).symm
  | @edit _ last earlier hrange hlast hearlier =>
      have htight : Ordered (last.endLine - 1 + 2) (last :: earlier) :=
        .edit hrange (by omega) hearlier
      have hsame := hreach last List.mem_cons_self
      have hlines : last.endLine - 1 ≤ (linesOf old).length := by omega
      have hcursor : last.endLine - 1 ≤ (cursorLines old).length := by
        have hlength := congrArg List.length hsame
        rw [List.length_take, List.length_take] at hlength
        omega
      refine ⟨htight.foldr_splice? (by omega), htight.concat_splice hlines hsame.symm ?_⟩
      rw [concat_cursorLines, concat_linesOf]

theorem toList_concat_take (old : String) (n : Nat) :
    (concat ((linesOf old).take n)).toList = ((Text.splitAtBreaks old.toList).take n).flatten := by
  rw [linesOf, ← List.map_take, concat, String.toList_join, List.flatMap_map]
  simp only [String.toList_ofList]
  rw [List.flatMap_id']

theorem at?_concat_take (old : String) (n : Nat) :
    Position.at? old (concat ((linesOf old).take n)).length =
      some (((Text.splitAtBreaks old.toList).take n).flatten.foldl Position.advance ⟨1, 0⟩) := by
  have hparts : old.toList = (concat ((linesOf old).take n)).toList ++
      (concat ((linesOf old).drop n)).toList := by
    rw [← String.toList_append, ← concat_append, List.take_append_drop, concat_linesOf]
  rw [Position.at?, ← toList_concat_take, ← String.length_toList]
  conv_lhs => rw [hparts]
  exact Position.walk_append ..

theorem between_empty (hsome : old ≠ "") :
    between old "" = [⟨1, (linesOf old).length + 1, ""⟩] := by
  have hsize : (linesOf old).toArray.size ≠ 0 := by
    intro hnone
    rw [List.size_toArray, List.length_eq_zero_iff] at hnone
    apply hsome
    rw [← concat_linesOf old, hnone]
    rfl
  have hnew : (linesOf "").toArray = #[] := rfl
  rw [between, hnew]
  simp only [Edit.script_nil hsize]
  simp [ofBlocks, addBlock, concat]

theorem at?_line_iff {n : Nat} (hn : n < (linesOf old).length) :
    Position.at? old (concat ((linesOf old).take n)).length = some ⟨n + 1, 0⟩ ↔
      ∀ line ∈ (linesOf old).take n, line.toList.getLast? = some '\n' := by
  have hlength : ((Text.splitAtBreaks old.toList).take n).length = n := by
    rw [linesOf, List.length_map] at hn
    rw [List.length_take]
    omega
  have hlines : ∀ l ∈ (Text.splitAtBreaks old.toList).take n, Text.IsLfLine l := fun l hl =>
    Text.isLfLine_splitAtBreaks_go (by simp) List.not_mem_nil l (List.mem_of_mem_take hl)
  have hplace := Position.foldl_flatten_eq_iff hlines 1
  rw [hlength, Nat.add_comm 1 n] at hplace
  rw [at?_concat_take, Option.some.injEq, hplace, linesOf, ← List.map_take, List.forall_mem_map]
  simp only [String.toList_ofList]

theorem applied?_between {new : String}
    (hplaced : Edit.Placed 0 (Edit.script ⟨(linesOf old).toArray, (linesOf new).toArray⟩))
    (hreach : ∀ e ∈ between old new,
      (linesOf old).take (e.endLine - 1) = (cursorLines old).take (e.endLine - 1)) :
    applied? old (between old new) = some new := by
  have hturns := Turns.run (Edit.script_divides _) hplaced ⟨.none, rfl⟩
  have hmade := hturns.made
  rw [made, ← Array.length_toList, ← Array.length_toList, List.take_length,
    List.take_length] at hmade
  obtain ⟨hfolds, hsame⟩ := hturns.ordered.at_cursorLines (Nat.le_refl _) fun e he =>
    hreach e (List.mem_reverse.mpr he)
  rw [applied?, between, ofBlocks, hfolds, Option.map_some, hsame]
  exact congrArg some (hmade.trans (concat_linesOf new))

theorem applied?_between_empty (hlone : Text.LoneReturn old.toList) :
    between old "" = [⟨1, (linesOf old).length + 1, ""⟩] ∧
      applied? old (between old "") = none := by
  have hsome : old ≠ "" := by
    rintro rfl
    exact Text.not_loneReturn_nil hlone
  have hless := length_cursorLines_lt hlone
  have hout : splice? ⟨1, (linesOf old).length + 1, ""⟩ (cursorLines old) = none := by
    refine if_neg fun hwithin => ?_
    have hend : (linesOf old).length + 1 ≤ (cursorLines old).length + 1 := hwithin.2
    omega
  refine ⟨between_empty hsome, ?_⟩
  rw [between_empty hsome, applied?, List.foldr_cons, List.foldr_nil, Option.bind_some, hout]
  rfl

/-- A line of a text begins where a cursor has its number and column 0 if and only if all lines
before it end at LF. The edits turn the old text into the new one on the lines that cursors count,
where every block of the script has its place and the two counts agree on the lines that the edits
reach. Both ways to count agree on a text if and only if no CR stands alone in it; and if one does,
there are edits that replace lines which cursors do not have. -/
theorem between_at_cursor_lines (old : String) :
    (∀ n < (linesOf old).length,
      Position.at? old (concat ((linesOf old).take n)).length = some ⟨n + 1, 0⟩ ↔
        ∀ line ∈ (linesOf old).take n, line.toList.getLast? = some '\n') ∧
    (∀ new, Edit.Placed 0 (Edit.script ⟨(linesOf old).toArray, (linesOf new).toArray⟩) →
      (∀ e ∈ between old new,
        (linesOf old).take (e.endLine - 1) = (cursorLines old).take (e.endLine - 1)) →
      applied? old (between old new) = some new) ∧
    (linesOf old = cursorLines old ↔ ¬Text.LoneReturn old.toList) ∧
    (Text.LoneReturn old.toList →
      between old "" = [⟨1, (linesOf old).length + 1, ""⟩] ∧
        applied? old (between old "") = none) :=
  ⟨fun _ hn => at?_line_iff hn, fun _ hplaced hreach => applied?_between hplaced hreach,
    linesOf_eq_cursorLines_iff, applied?_between_empty⟩

/-- A CR that stands alone behind the edits does no harm. In front of them it makes the edit one of
a line that cursors do not have. -/
theorem between_at_cursor_lines_around_return :
    applied? "a=1\r\nb\rc\n" (between "a=1\r\nb\rc\n" "a = 1\r\nb\rc\n") =
        some "a = 1\r\nb\rc\n" ∧
      linesOf "a\rb\n" ≠ cursorLines "a\rb\n" ∧
      applied? "a\rb\n" (between "a\rb\n" "") = none ∧
      between "a\rb\n" "a\rc\n" = [⟨2, 3, "c\n"⟩] ∧
      Position.at? "a\rb\n" 2 = some ⟨1, 2⟩ ∧
      applied? "a\rb\n" (between "a\rb\n" "a\rc\n") = none := by
  obtain ⟨-, happlied, -, -⟩ := between_at_cursor_lines "a=1\r\nb\rc\n"
  obtain ⟨-, -, hagree, hlone⟩ := between_at_cursor_lines "a\rb\n"
  have hreturn : Text.LoneReturn "a\rb\n".toList := ⟨['a'], 'b', ['\n'], rfl, by decide⟩
  refine ⟨happlied _ (by decide +kernel) (by decide +kernel), ?_, (hlone hreturn).2, ?_, ?_, ?_⟩
  · exact fun heq => hagree.mp heq hreturn
  · decide +kernel
  · decide +kernel
  · decide +kernel

end LineEdit

end CodeAssist
