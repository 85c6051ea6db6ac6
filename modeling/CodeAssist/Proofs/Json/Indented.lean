import CodeAssist.Proofs.Json.Scanning

namespace CodeAssist.Json

open Text

/-! Texts that are read as the documents they were written from. -/

theorem read_of_yields {text : Bytes} {j : Json}
    (h : Yields (readValue maxDepth (.start text)) j []) : read text = .ok j :=
  readAll_of_yields h

/-- The members of an object that is written on one line may stand in any order. -/
theorem read_encode_object {members : List (String × Json)}
    (hmembers : ∀ member ∈ members, Regular (maxDepth - 1) member.2) :
    read (Json.object members).encode = .ok (.object members) := by
  refine read_of_yields ?_
  have hread := readNested_object (reads_readValue (maxDepth - 1)) hmembers [] 1 0
  rw [List.append_nil] at hread
  rw [encode_eq]
  rwa [octets_render_object] at hread ⊢

theorem read_encode {j : Json} (hj : Regular maxDepth j) : read j.encode = .ok j := by
  have hread := reads_readValue maxDepth j hj [] nofun 1 0
  rw [List.append_nil, ← encode_eq] at hread
  exact read_of_yields hread

/-- What stands in front of a member: the end of the line before, and two blanks. -/
def indent : Bytes := [10, 32, 32]

/-- A member as it is written on a line of its own. -/
def indentedText (member : String × Json) : Bytes :=
  indent ++ 34 :: (quotation member.1 ++ 58 :: 32 :: octets member.2.render)

theorem renderPretty_scalar {j : Json} (hj : Regular 0 j) (depth : Nat) :
    j.renderPretty depth = j.render := by
  cases j with
  | null | number | text => rfl
  | boolean value => cases value <;> rfl
  | list | object => exact hj.elim

theorem octets_member_pretty (name : String) {value : Json} (hvalue : Regular 0 value) :
    octets (newline 1 ++ renderText name ++ [':', ' '] ++ value.renderPretty 1) =
      indentedText (name, value) := by
  have hnewline : octets (newline 1) = indent := rfl
  have hcolon : octets [':', ' '] = [58, 32] := rfl
  rw [renderPretty_scalar hvalue, octets_append, octets_append, octets_append, hnewline, hcolon,
    octets_renderText, indentedText]
  simp only [List.append_assoc, List.cons_append, List.nil_append]

theorem octets_prettyMembers {members : List (String × Json)}
    (hmembers : ∀ member ∈ members, Regular 0 member.2) :
    octets (prettyMembers 1 members) = joined indentedText false members := by
  induction members with
  | nil => rfl
  | cons member members ih =>
      obtain ⟨hmember, hlater⟩ := List.forall_mem_cons.mp hmembers
      rw [prettyMembers, octets_cons_ascii rfl, octets_append,
        octets_member_pretty member.1 hmember, ih hlater]
      rfl

theorem octets_pretty_object {member : String × Json} {members : List (String × Json)}
    (hmembers : ∀ member' ∈ member :: members, Regular 0 member'.2) :
    octets ((Json.object (member :: members)).renderPretty 0) =
      123 :: (joined indentedText true (member :: members) ++ [10, 125]) := by
  obtain ⟨hmember, hlater⟩ := List.forall_mem_cons.mp hmembers
  have hend : octets (newline 0) = [10] := rfl
  have hclose : octets ['\x7d'] = [125] := rfl
  have hbody := octets_member_pretty member.1 hmember
  rw [renderPretty, octets_cons_ascii rfl, octets_append, octets_append, octets_append, hbody,
    octets_prettyMembers hlater, hend, hclose, List.append_assoc]
  rfl

section

variable {nested : Option (Cursor → Except ReadError (Json × Cursor))}

theorem anotherMember_indented (first : Bool) (rest : Bytes) (line column : Nat) :
    Yields (anotherMember first ⟨divider first ++ (indent ++ 34 :: rest), line, column⟩) true
      (34 :: rest) := by
  cases first with
  | true => exact ⟨line + 1, 2, rfl⟩
  | false => exact ⟨line + 1, 2, rfl⟩

theorem stops_indented (members : List (String × Json)) (rest : Bytes) :
    Stops (joined indentedText false members ++ 10 :: rest) := by
  intro b hb
  cases members with
  | nil =>
      obtain rfl := Option.some.inj hb
      decide
  | cons member members =>
      obtain rfl := Option.some.inj hb
      decide

theorem keepMember_indented {member : String × Json} (hmember : Regular 0 member.2) {rest : Bytes}
    (hrest : Stops rest) (before : List (String × Json)) (line column : Nat) :
    Yields (keepMember (readValueWith nested) member.1
      ⟨58 :: 32 :: (octets member.2.render ++ rest), line, column⟩ before) (member :: before) rest := by
  have hblank (c : Cursor) (text : Bytes) (hc : c.rest = 32 :: text) :
      readValueWith nested c = readValueWith nested c.bump := by
    obtain ⟨_, line, column⟩ := c
    obtain rfl := hc
    rfl
  have hvalue : Yields (readValueWith nested ⟨32 :: (octets member.2.render ++ rest), line,
      column + 1⟩) member.2 rest := by
    rw [hblank _ _ rfl, Cursor.bump_eq (by decide)]
    exact readValueWith_scalar hmember hrest line _
  rw [keepMember, readColon_eq]
  exact hvalue.bind fun line column => .ok ..

theorem readMembers_indented {members : List (String × Json)}
    (hmembers : ∀ member ∈ members, Regular 0 member.2) {fuel : Nat} (hfuel : members.length < fuel)
    (first : Bool) (before : List (String × Json)) (rest : Bytes) (line column : Nat) :
    Yields (readMembers (keepMember (readValueWith nested)) fuel first before
      ⟨joined indentedText first members ++ 10 :: 125 :: rest, line, column⟩)
      (members.reverse ++ before) (125 :: rest) := by
  induction members generalizing fuel first before line column with
  | nil =>
      obtain ⟨fuel, rfl⟩ := Nat.exists_eq_succ_of_ne_zero (Nat.ne_zero_of_lt hfuel)
      exact ⟨line + 1, 0, rfl⟩
  | cons member members ih =>
      obtain ⟨fuel, rfl⟩ := Nat.exists_eq_succ_of_ne_zero (Nat.ne_zero_of_lt hfuel)
      obtain ⟨hmember, hlater⟩ := List.forall_mem_cons.mp hmembers
      rw [readMembers, joined, indentedText]
      simp only [List.append_assoc, List.cons_append]
      refine (anotherMember_indented first _ line column).bind fun line column => ?_
      simp only [if_true]
      rw [Cursor.bump_eq (by decide)]
      refine (readText_quotation member.1 _ line (column + 1)).bind fun line column => ?_
      refine (keepMember_indented hmember (stops_indented members _) before line column).bind
        fun line column => ?_
      have hrest := ih hlater (Nat.lt_of_succ_lt_succ hfuel) false (member :: before) line column
      rwa [List.reverse_cons, List.append_assoc, List.singleton_append]

end

/-- An object that is written with a line for each member is read as it was. -/
theorem read_pretty_object {members : List (String × Json)}
    (hmembers : ∀ member ∈ members, Regular 0 member.2) :
    read (Text.encode (Json.object members).pretty) = .ok (.object members) := by
  rw [pretty, encode_eq_octets]
  cases members with
  | nil => rfl
  | cons member members =>
      refine read_of_yields ?_
      rw [octets_pretty_object hmembers]
      have hne : ∀ member' ∈ member :: members, indentedText member' ≠ [] :=
        fun _ _ => List.cons_ne_nil _ _
      have hlength := length_le_joined hne true
      generalize htext : joined indentedText true (member :: members) ++ [10, 125] = text
      have hfuel : (member :: members).length < Cursor.fuel ⟨123 :: text, 1, 0⟩ := by
        simp only [Cursor.fuel, ← htext, List.length_cons, List.length_append] at hlength ⊢
        omega
      have hblank : (Cursor.start (123 :: text)).skipBlank = ⟨123 :: text, 1, 0⟩ :=
        Cursor.skipBlank_eq rfl _ _ _
      have hread : Yields (readMembers (keepMember (readValue (maxDepth - 1)))
          (Cursor.fuel ⟨123 :: text, 1, 0⟩) true [] ⟨text, 1, 1⟩) _ _ :=
        htext ▸ readMembers_indented hmembers hfuel true [] [] 1 1
      obtain ⟨line, column, hread⟩ := hread
      refine ⟨line, column + 1,
        readValue_object_iff.mpr ⟨maxDepth - 1, text, ⟨[125], line, column⟩, rfl, ?_, ?_, ?_⟩⟩
      · exact congrArg Cursor.rest hblank
      · rw [hblank, Cursor.bump_eq (by decide), hread, List.append_nil]
      · rw [Cursor.bump_eq (by decide)]

end CodeAssist.Json
