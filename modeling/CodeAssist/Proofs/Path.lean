import CodeAssist.Path
import Mathlib.Data.String.Basic

namespace CodeAssist

/-! How the text of a path falls into pieces. -/

namespace Text

open String

theorem splitOnAux_slash (done piece rest : List Char) (found : List String) :
    splitOnAux (ofList (done ++ (piece ++ rest))) "/" ⟨utf8Len done⟩
        ⟨utf8Len done + utf8Len piece⟩ 0 found =
      found.reverse ++ (List.splitOnPPrepend (· == '/') rest piece.reverse).map ofList := by
  have hpiece := extract_of_valid done piece rest
  rw [List.append_assoc] at hpiece
  rw [splitOnAux]
  cases rest with
  | nil =>
      have hend : Pos.Raw.atEnd (ofList (done ++ (piece ++ []))) ⟨utf8Len done + utf8Len piece⟩ := by
        simp [atEnd_iff, -ofList_append]
      rw [if_pos hend, hpiece]
      simp
  | cons c rest =>
      have hmore :
          ¬Pos.Raw.atEnd (ofList (done ++ (piece ++ c :: rest))) ⟨utf8Len done + utf8Len piece⟩ := by
        have hsize := Char.utf8Size_pos c
        simp only [atEnd_iff, rawEndPos_ofList, utf8Len_append, utf8Len_cons, Pos.Raw.mk_le_mk]
        omega
      have hget : Pos.Raw.get (ofList (done ++ (piece ++ c :: rest)))
          ⟨utf8Len done + utf8Len piece⟩ = c := by
        simpa [-ofList_append] using get_of_valid (done ++ piece) (c :: rest)
      have hnext : Pos.Raw.next (ofList (done ++ (piece ++ c :: rest)))
          ⟨utf8Len done + utf8Len piece⟩ = ⟨utf8Len done + utf8Len piece + c.utf8Size⟩ := by
        simpa [-ofList_append] using next_of_valid (done ++ piece) c rest
      have hslash : Pos.Raw.get "/" 0 = '/' := rfl
      rw [if_neg hmore, hget, hslash]
      by_cases hc : c = '/'
      · subst hc
        have hlater := splitOnAux_slash (done ++ piece ++ ['/']) [] rest (ofList piece :: found)
        have hback : Pos.Raw.unoffsetBy ⟨utf8Len done + utf8Len piece + '/'.utf8Size⟩
            (Pos.Raw.next "/" 0) = ⟨utf8Len done + utf8Len piece⟩ := rfl
        have hwhole : Pos.Raw.atEnd "/" (Pos.Raw.next "/" 0) := rfl
        rw [if_pos (beq_self_eq_true _), if_pos hwhole, hnext, hback, hpiece]
        simpa [-ofList_append, Nat.add_assoc, List.splitOnPPrepend_cons_eq_if] using hlater
      · have hlater := splitOnAux_slash done (piece ++ [c]) rest found
        have hstay : Pos.Raw.unoffsetBy ⟨utf8Len done + utf8Len piece⟩ 0 =
            ⟨utf8Len done + utf8Len piece⟩ := rfl
        rw [if_neg (by simpa using hc), hstay, hnext]
        simpa [-ofList_append, Nat.add_assoc, List.splitOnPPrepend_cons_eq_if, hc] using hlater

theorem splitOn_slash (s : String) : s.splitOn "/" = (s.toList.splitOn '/').map ofList := by
  simpa [splitOn, List.splitOn] using splitOnAux_slash [] [] s.toList []

theorem startsWith_slash_iff (s : String) : s.startsWith "/" ↔ ['/'] <+: s.toList := by
  rw [startsWith_eq_startsWith_toSlice, Slice.startsWith_string_iff, copy_toSlice]
  rfl

theorem endsWith_slash_iff (s : String) : s.endsWith "/" ↔ ['/'] <:+ s.toList := by
  rw [endsWith_eq_endsWith_toSlice, Slice.endsWith_string_iff, copy_toSlice]
  rfl

end Text

namespace Path

theorem pieces_eq (p : Path) :
    p.pieces = ((p.text.toList.splitOn '/').map String.ofList).filter (· ≠ "") := by
  rw [pieces, Text.splitOn_slash]

theorem pieces_of_name {name : String} (hslash : '/' ∉ name.toList) (hname : name ≠ "") :
    pieces ⟨name⟩ = [name] := by
  rw [pieces_eq, List.splitOn_eq_singleton hslash]
  simp [hname]

theorem components_of_pieces {p : Path} {name : String} (hpieces : p.pieces = [name])
    (hstart : p.isAbsolute = false) (hhere : name ≠ ".") (hup : name ≠ "..") :
    p.components = [.entry name] := by
  simp [components, component, hpieces, hstart, hhere, hup]

end Path

end CodeAssist
