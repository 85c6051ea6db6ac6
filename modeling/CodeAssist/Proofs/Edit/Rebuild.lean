import CodeAssist.Edit.LineEdit
import CodeAssist.Proofs.Edit.Block
import CodeAssist.Router.Basic

namespace CodeAssist

/-! A text is its lines, one after the other, and none of them is empty. -/

theorem Text.flatten_splitAtBreaks_go (done : List (List Char)) (line s : List Char) :
    (splitAtBreaks.go done line s).flatten = done.reverse.flatten ++ line.reverse ++ s := by
  fun_induction splitAtBreaks.go done line s with
  | case1 done line =>
      split
      case isTrue hempty => simp [List.isEmpty_iff.mp hempty]
      case isFalse => simp
  | case2 done line rest ih =>
      rw [ih]
      simp
  | case3 done line c rest _ hbreak ih =>
      rw [ih]
      simp
  | case4 done line c rest _ hbreak ih =>
      rw [ih]
      simp

theorem Text.nil_not_mem_splitAtBreaks_go {done : List (List Char)} (line s : List Char)
    (hdone : [] ∉ done) : [] ∉ splitAtBreaks.go done line s := by
  fun_induction splitAtBreaks.go done line s with
  | case1 done line =>
      split
      case isTrue => simpa using hdone
      case isFalse hsome =>
          rw [List.isEmpty_iff] at hsome
          simp [hdone, hsome]
  | case2 done line rest ih => exact ih (by simp [hdone])
  | case3 done line c rest _ hbreak ih => exact ih (by simp [hdone])
  | case4 done line c rest _ hbreak ih => exact ih hdone

namespace LineEdit

theorem concat_append (xs ys : List String) : concat (xs ++ ys) = concat xs ++ concat ys :=
  String.join_append

theorem concat_singleton (s : String) : concat [s] = s := by
  simp [concat, String.join_cons, String.join_nil]

theorem concat_linesOf (s : String) : concat (linesOf s) = s := by
  apply String.toList_injective
  rw [concat, String.toList_join, linesOf, List.flatMap_map]
  simp only [String.toList_ofList]
  rw [List.flatMap_id', Text.splitAtBreaks, Text.flatten_splitAtBreaks_go]
  rfl

theorem ne_empty_of_mem_linesOf {s line : String} (h : line ∈ linesOf s) : line ≠ "" := by
  intro hempty
  obtain ⟨chars, hchars, hline⟩ := List.mem_map.mp h
  have hnil : chars = [] := by
    apply String.ofList_injective
    exact hline.trans hempty
  rw [hnil] at hchars
  exact Text.nil_not_mem_splitAtBreaks_go [] s.toList List.not_mem_nil hchars

theorem concat_ne_empty {lines : List String} (hsome : lines ≠ []) (hlines : ∀ line ∈ lines, line ≠ "") :
    concat lines ≠ "" := by
  cases lines with
  | nil => exact absurd rfl hsome
  | cons line lines =>
      intro hempty
      rw [concat, String.join_cons, String.append_eq_empty_iff] at hempty
      exact hlines line List.mem_cons_self hempty.1

def splice (e : LineEdit) (lines : List String) : List String :=
  lines.take (e.startLine - 1) ++ e.replacement :: lines.drop (e.endLine - 1)

def applied (old : String) (edits : List LineEdit) : String :=
  concat (edits.foldr splice (linesOf old))

/-- The edits are listed with the latest lines first. They never touch, and all end before line
`bound`. -/
inductive Ordered : Nat → List LineEdit → Prop
  | none {bound : Nat} : Ordered bound []
  | edit {bound : Nat} {e : LineEdit} {earlier : List LineEdit} (hrange : e.startLine ≤ e.endLine)
      (hbound : e.endLine < bound) (h : Ordered e.startLine earlier) : Ordered bound (e :: earlier)

variable {bound count : Nat} {edits earlier : List LineEdit} {e : LineEdit} {lines : List String}

theorem Ordered.endLine_lt (h : Ordered bound edits) : ∀ e ∈ edits, e.endLine < bound := by
  induction h with
  | none => exact fun _ hmem => absurd hmem List.not_mem_nil
  | edit hrange hbound _ ih =>
      intro e hmem
      obtain rfl | hearlier := List.mem_cons.mp hmem
      · exact hbound
      · exact Nat.lt_trans (Nat.lt_of_lt_of_le (ih e hearlier) hrange) hbound

theorem Ordered.pairwise (h : Ordered bound edits) :
    edits.reverse.Pairwise fun a b => a.endLine < b.startLine := by
  rw [List.pairwise_reverse]
  induction h with
  | none => exact .nil
  | edit _ _ h ih => exact .cons h.endLine_lt ih

theorem Ordered.weaken {bound' : Nat} (h : Ordered bound edits) (hle : bound ≤ bound') :
    Ordered bound' edits := by
  cases h with
  | none => exact .none
  | edit hrange hbound h => exact .edit hrange (Nat.lt_of_lt_of_le hbound hle) h

theorem Ordered.lower (h : Ordered (bound + 1) edits)
    (happart : ∀ last ∈ edits.head?, last.endLine ≠ bound) : Ordered bound edits := by
  cases h with
  | none => exact .none
  | @edit _ last earlier hrange hbound h =>
      have hne : last.endLine ≠ bound := happart last rfl
      exact .edit hrange (by omega) h

/-- What comes behind the lines that are edited stays. -/
theorem Ordered.splice_append (h : Ordered bound edits) (hbound : bound ≤ lines.length + 2)
    (more : List String) :
    edits.reverse.foldr splice (lines ++ more) = edits.reverse.foldr splice lines ++ more := by
  simp only [List.foldr_reverse]
  induction h generalizing lines with
  | none => rfl
  | @edit _ e earlier hrange hlt h ih =>
      have hstart : e.startLine - 1 ≤ lines.length := by omega
      have hend : e.endLine - 1 ≤ lines.length := by omega
      have hsplice : e.splice (lines ++ more) = e.splice lines ++ more := by
        rw [splice, splice, List.take_append_of_le_length hstart, List.drop_append_of_le_length hend,
          List.append_assoc, List.cons_append]
      -- The edit may leave fewer lines, but as many as the earlier ones need.
      have hlength : e.startLine ≤ (e.splice lines).length + 2 := by
        rw [splice, List.length_append, List.length_take]
        omega
      rw [List.foldl_cons, List.foldl_cons, hsplice]
      exact ih hlength

/-- The text that edits make of the first `count` lines. -/
def made (lines : List String) (edits : List LineEdit) (count : Nat) : String :=
  concat (edits.reverse.foldr splice (lines.take count))

theorem made_add (h : Ordered (count + 2) edits) (hcount : count ≤ lines.length) (more : Nat) :
    made lines edits (count + more) =
      made lines edits count ++ concat ((lines.drop count).take more) := by
  have hlength : count + 2 ≤ (lines.take count).length + 2 := by
    rw [List.length_take]
    omega
  rw [made, List.take_add, h.splice_append hlength, concat_append]
  rfl

theorem made_cons (h : Ordered e.startLine earlier) (hrange : e.startLine ≤ e.endLine)
    (hend : e.endLine = count + 1) (hcount : count ≤ lines.length) :
    made lines (e :: earlier) count = made lines earlier (e.startLine - 1) ++ e.replacement := by
  have hsplice : e.splice (lines.take count) = lines.take (e.startLine - 1) ++ [e.replacement] := by
    have htake : min (e.startLine - 1) count = e.startLine - 1 := by omega
    have hdrop : (lines.take count).drop (e.endLine - 1) = [] := by
      apply List.drop_of_length_le
      rw [List.length_take]
      omega
    rw [splice, List.take_take, htake, hdrop]
  have hlength : e.startLine ≤ (lines.take (e.startLine - 1)).length + 2 := by
    rw [List.length_take]
    omega
  rw [made, List.reverse_cons, List.foldr_append, List.foldr_cons, List.foldr_nil, hsplice,
    h.splice_append hlength, concat_append, concat_singleton]
  rfl

def join (last e : LineEdit) : LineEdit :=
  ⟨last.startLine, e.endLine, last.replacement ++ e.replacement⟩

/-- An edit is added to those before it, the latest first: apart from them, or joined to the last one
where they touch. -/
inductive Added (e : LineEdit) : List LineEdit → List LineEdit → Prop
  | apart {edits : List LineEdit} (h : ∀ last ∈ edits.head?, last.endLine ≠ e.startLine) :
      Added e edits (e :: edits)
  | joined {last : LineEdit} {earlier : List LineEdit} (h : last.endLine = e.startLine) :
      Added e (last :: earlier) (last.join e :: earlier)

variable {newLines : Array String} {old oldLength new newLength : Nat} {t : Edit.Texts}

theorem addBlock_equal :
    addBlock newLines edits ⟨false, old, oldLength, new, newLength⟩ = edits := rfl

theorem addBlock_change (newLines : Array String) (edits : List LineEdit)
    (old oldLength new newLength : Nat) :
    Added ⟨old + 1, old + oldLength + 1, concat ((newLines.toList.drop new).take newLength)⟩ edits
      (addBlock newLines edits ⟨true, old, oldLength, new, newLength⟩) := by
  have hlines : (newLines.extract new (new + newLength)).toList =
      (newLines.toList.drop new).take newLength := by
    rw [Array.toList_extract, List.extract_eq_take_drop, Nat.add_sub_cancel_left]
  simp only [addBlock, hlines]
  cases edits with
  | nil => exact .apart fun _ hlast => by cases hlast
  | cons last earlier =>
      simp only [Bool.not_true, Bool.false_eq_true, if_false, beq_iff_eq]
      split
      case isTrue htouch => exact .joined htouch
      case isFalse happart =>
          apply Added.apart
          rintro last ⟨⟩
          exact happart

/-- The edits turn the first `old` lines of the old text into the first `new` lines of the new one. -/
structure Turns (t : Edit.Texts) (edits : List LineEdit) (old new : Nat) : Prop where
  ordered : Ordered (old + 2) edits
  made : made t.old.toList edits old = concat (t.new.toList.take new)

theorem Turns.equal {length : Nat} (h : Turns t edits old new) (hold : old ≤ t.old.size)
    (hagree : Edit.Agree t old new length) : Turns t edits (old + length) (new + length) := by
  have hold' : old ≤ t.old.toList.length := by rwa [Array.length_toList]
  constructor
  · exact h.ordered.weaken (by omega)
  · rw [made_add h.ordered hold', h.made, List.take_add, concat_append, hagree.take_drop_eq]

theorem Turns.change {edits' : List LineEdit} (h : Turns t edits old new)
    (hadded : Added e edits edits') (hstart : e.startLine = old + 1)
    (hend : e.endLine = old + oldLength + 1) (hold : old + oldLength ≤ t.old.size)
    (hnew : e.replacement = concat ((t.new.toList.drop new).take newLength)) :
    Turns t edits' (old + oldLength) (new + newLength) := by
  have hold' : old + oldLength ≤ t.old.toList.length := by rwa [Array.length_toList]
  have hlast : e.endLine < old + oldLength + 2 := hend ▸ Nat.lt_succ_self _
  have hrange : e.startLine ≤ e.endLine := by omega
  cases hadded with
  | apart happart =>
      have hordered : Ordered e.startLine edits := by
        rw [hstart] at happart ⊢
        exact h.ordered.lower happart
      constructor
      · exact .edit hrange hlast hordered
      · rw [made_cons hordered hrange hend hold', hstart, Nat.add_sub_cancel, h.made, hnew,
          List.take_add, concat_append]
  | @joined last earlier htouch =>
      cases h.ordered with
      | edit hlastRange hbound hearlier =>
          -- The last edit ended where the block begins, so it has put its replacement at the end.
          have hjoined : last.startLine ≤ e.endLine := Nat.le_trans (htouch ▸ hlastRange) hrange
          have hmade := h.made
          rw [made_cons hearlier hlastRange (htouch.trans hstart) (by omega)] at hmade
          constructor
          · exact .edit hjoined hlast hearlier
          · rw [made_cons (e := last.join e) hearlier hjoined hend hold', join, ← String.append_assoc,
              hmade, hnew, List.take_add, concat_append]

theorem Turns.run {bs : List Edit.Block} (hdivides : Edit.Divides t old new bs)
    (hplaced : Edit.Placed old bs) (h : Turns t edits old new) :
    Turns t (bs.foldl (addBlock t.new) edits) t.old.size t.new.size := by
  induction hdivides generalizing edits with
  | none => exact h
  | equal hpos hagree hrest ih =>
      rw [List.foldl_cons, addBlock_equal]
      apply ih (Edit.placed_cons_iff.mp hplaced).2
      exact h.equal (Nat.le_trans (Nat.le_add_right _ _) hrest.old_le) hagree
  | @change old new oldAt oldLength newAt newLength rest hpos hold hnew hplace hrest ih =>
      obtain ⟨rfl, hrestPlaced⟩ := Edit.placed_cons_iff.mp hplaced
      apply ih hrestPlaced
      apply h.change (addBlock_change t.new edits oldAt oldLength newAt newLength) rfl rfl hplace
      rcases Nat.eq_zero_or_pos newLength with hzero | hsome
      · rw [hzero, List.take_zero, List.take_zero]
      · rw [hnew hsome]

structure Within (size : Nat) (e : LineEdit) : Prop where
  start : 1 ≤ e.startLine
  range : e.startLine ≤ e.endLine
  stop : e.endLine ≤ size + 1
  changes : e.startLine = e.endLine → e.replacement ≠ ""

theorem Added.within {size : Nat} {edits' : List LineEdit} (h : Added e edits edits')
    (he : e.Within size) (hedits : ∀ x ∈ edits, x.Within size) : ∀ x ∈ edits', x.Within size := by
  cases h with
  | apart => exact List.forall_mem_cons.mpr ⟨he, hedits⟩
  | @joined last earlier htouch =>
      obtain ⟨hlast, hearlier⟩ := List.forall_mem_cons.mp hedits
      have hrange : last.startLine ≤ e.startLine := htouch ▸ hlast.range
      refine List.forall_mem_cons.mpr ⟨⟨hlast.start, Nat.le_trans hrange he.range, he.stop, ?_⟩, hearlier⟩
      intro hsame hempty
      have hsame' : last.startLine = e.endLine := hsame
      have hstart : last.startLine = last.endLine := by
        rw [htouch]
        exact Nat.le_antisymm hrange (hsame' ▸ he.range)
      exact hlast.changes hstart (String.append_eq_empty_iff.mp hempty).1

theorem foldl_addBlock_within {bs : List Edit.Block} (hdivides : Edit.Divides t old new bs)
    (hlines : ∀ line ∈ t.new.toList, line ≠ "") (hedits : ∀ e ∈ edits, e.Within t.old.size) :
    ∀ e ∈ bs.foldl (addBlock t.new) edits, e.Within t.old.size := by
  induction hdivides generalizing edits with
  | none => exact hedits
  | equal _ _ _ ih => exact ih hedits
  | @change old new oldAt oldLength newAt newLength rest hpos hold hnew hplace hrest ih =>
      apply ih
      apply (addBlock_change t.new edits oldAt oldLength newAt newLength).within _ hedits
      refine ⟨Nat.succ_pos _, by simp only; omega, Nat.succ_le_succ hplace, ?_⟩
      intro hsame
      simp only at hsame
      have hsome : 0 < newLength := by omega
      have hsize := hrest.new_le
      apply concat_ne_empty
      · intro hnil
        have hlength := congrArg List.length hnil
        rw [hnew hsome, List.length_take, List.length_drop, Array.length_toList,
          List.length_nil] at hlength
        omega
      · intro line hline
        exact hlines line (List.mem_of_mem_drop (List.mem_of_mem_take hline))

theorem Added.ne_nil {edits' : List LineEdit} (h : Added e edits edits') : edits' ≠ [] := by
  cases h with
  | apart => exact List.cons_ne_nil _ _
  | joined => exact List.cons_ne_nil _ _

theorem addBlock_eq_nil_iff {b : Edit.Block} :
    addBlock newLines edits b = [] ↔ edits = [] ∧ b.changed = false := by
  obtain ⟨changed, old, oldLength, new, newLength⟩ := b
  cases changed with
  | false => simp [addBlock_equal]
  | true => simp [(addBlock_change newLines edits old oldLength new newLength).ne_nil]

theorem foldl_addBlock_eq_nil_iff {bs : List Edit.Block} :
    bs.foldl (addBlock newLines) edits = [] ↔ edits = [] ∧ ∀ b ∈ bs, b.changed = false := by
  induction bs generalizing edits with
  | nil => simp
  | cons b bs ih => rw [List.foldl_cons, ih, addBlock_eq_nil_iff, List.forall_mem_cons, and_assoc]

theorem lines_eq_of_unchanged {bs : List Edit.Block} (hdivides : Edit.Divides t old new bs)
    (hsame : ∀ b ∈ bs, b.changed = false) : t.old.toList.drop old = t.new.toList.drop new := by
  induction hdivides with
  | none => rw [← Array.length_toList, ← Array.length_toList, List.drop_length, List.drop_length]
  | @equal old new length rest hpos hagree _ ih =>
      have hrest := ih (List.forall_mem_cons.mp hsame).2
      calc t.old.toList.drop old
        _ = (t.old.toList.drop old).take length ++ t.old.toList.drop (old + length) := by
            rw [← List.drop_drop, List.take_append_drop]
        _ = (t.new.toList.drop new).take length ++ t.new.toList.drop (new + length) := by
            rw [hagree.take_drop_eq, hrest]
        _ = t.new.toList.drop new := by rw [← List.drop_drop, List.take_append_drop]
  | change => exact absurd (List.forall_mem_cons.mp hsame).1 Bool.noConfusion

theorem ofBlocks_eq_nil_iff {bs : List Edit.Block} :
    ofBlocks newLines bs = [] ↔ ∀ b ∈ bs, b.changed = false := by
  rw [ofBlocks, List.reverse_eq_nil_iff, foldl_addBlock_eq_nil_iff]
  exact and_iff_right rfl

/-- Whichever blocks go through two texts, their edits replace lines of the old text and do something,
and there are none only if the texts are the same. Where every block has its place, the edits are in
order, never touch and turn the old text into the new one. -/
theorem ofBlocks_rebuilds {old new : String} {bs : List Edit.Block}
    (hdivides : Edit.Divides ⟨(linesOf old).toArray, (linesOf new).toArray⟩ 0 0 bs) :
    (ofBlocks (linesOf new).toArray bs = [] → old = new) ∧
      (∀ e ∈ ofBlocks (linesOf new).toArray bs, e.Within (linesOf old).length) ∧
      (Edit.Placed 0 bs →
        (ofBlocks (linesOf new).toArray bs).Pairwise (fun a b => a.endLine < b.startLine) ∧
          applied old (ofBlocks (linesOf new).toArray bs) = new) := by
  refine ⟨fun hnone => ?_, fun e he => ?_, fun hplaced => ?_⟩
  · have hlines : linesOf old = linesOf new :=
      lines_eq_of_unchanged hdivides (ofBlocks_eq_nil_iff.mp hnone)
    rw [← concat_linesOf old, hlines, concat_linesOf]
  · exact foldl_addBlock_within hdivides (fun _ => ne_empty_of_mem_linesOf)
      (fun _ hnone => absurd hnone List.not_mem_nil) e (List.mem_reverse.mp he)
  · have hturns := Turns.run hdivides hplaced ⟨.none, rfl⟩
    refine ⟨hturns.ordered.pairwise, ?_⟩
    have hmade := hturns.made
    rw [made, ← Array.length_toList, ← Array.length_toList, List.take_length, List.take_length] at hmade
    exact hmade.trans (concat_linesOf new)

/-- The edits are none exactly when the texts are the same, and each of them replaces lines of the old
text and does something. Where every block of the script has its place they are in order, never touch
and turn the old text into the new one. They are what a request for edits is answered with. -/
theorem between_rebuilds (old new : String) :
    (between old new = [] ↔ old = new) ∧
      (∀ e ∈ between old new, e.Within (linesOf old).length) ∧
      (Edit.Placed 0 (Edit.script ⟨(linesOf old).toArray, (linesOf new).toArray⟩) →
        (between old new).Pairwise (fun a b => a.endLine < b.startLine) ∧
          applied old (between old new) = new) ∧
      ∀ path, Call.answer (.format ⟨path, old, true⟩) (.format new) =
        (⟨new, between old new⟩ : Formatted).toJson := by
  obtain ⟨hsame, hwithin, hplaced⟩ := ofBlocks_rebuilds (Edit.script_divides
    ⟨(linesOf old).toArray, (linesOf new).toArray⟩)
  refine ⟨⟨hsame, ?_⟩, hwithin, hplaced, fun _ => rfl⟩
  rintro rfl
  exact ofBlocks_eq_nil_iff.mpr (Edit.script_self _)

/-- Lines that end in every way there is are rebuilt. When a line moves down past one that is repeated,
the place of what is inserted is lost, and the edit makes another text. -/
theorem between_rebuilds_placed :
    Edit.Placed 0 (Edit.script ⟨(linesOf "x=1\r\ny\n\rz").toArray,
        (linesOf "\nx = 1\r\ny\n\rz\n").toArray⟩) ∧
      applied "x=1\r\ny\n\rz" (between "x=1\r\ny\n\rz" "\nx = 1\r\ny\n\rz\n") =
        "\nx = 1\r\ny\n\rz\n" ∧
      ¬ Edit.Placed 0 (Edit.script ⟨(linesOf "a\nb\n").toArray, (linesOf "b\nb\na\n").toArray⟩) ∧
      between "a\nb\n" "b\nb\na\n" = [⟨1, 2, "b\na\n"⟩] ∧
      applied "a\nb\n" (between "a\nb\n" "b\nb\na\n") = "b\na\nb\n" := by
  have hplaced : Edit.Placed 0 (Edit.script ⟨(linesOf "x=1\r\ny\n\rz").toArray,
      (linesOf "\nx = 1\r\ny\n\rz\n").toArray⟩) := by decide +kernel
  obtain ⟨-, -, hrebuilds, -⟩ := between_rebuilds "x=1\r\ny\n\rz" "\nx = 1\r\ny\n\rz\n"
  refine ⟨hplaced, (hrebuilds hplaced).2, ?_, ?_, ?_⟩
  · decide +kernel
  · decide +kernel
  · decide +kernel

end LineEdit

end CodeAssist
