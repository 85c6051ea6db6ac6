import CodeAssist.Proofs.Json.RoundTrip
import CodeAssist.Table
import Mathlib.Data.List.Nodup
import Mathlib.Data.String.Basic

namespace CodeAssist.Json

def read (text : Text.Bytes) : Except ReadError Json := readAll (readValue maxDepth) text

theorem parse_eq (text : Text.Bytes) : parse text = (read text).map normalize := by
  unfold parse read
  cases readAll (readValue maxDepth) text <;> rfl

/-! The members of an object, before and after it is normalized. -/

def last? (name : String) : Json → Option Json
  | .object members => members.reverse.lookup name
  | _ => none

section members

variable {name : String} {value : Json} {members : List (String × Json)}

theorem lookup_cons_if (name other : String) (value : Json) (members : List (String × Json)) :
    ((name, value) :: members).lookup other =
      if other = name then some value else members.lookup other := by
  rw [List.lookup_cons]
  by_cases heq : other = name
  · simp [heq]
  · rw [if_neg heq, beq_eq_false_iff_ne.mpr heq]

theorem lookup_insertMember (name other : String) (value : Json) (members : List (String × Json)) :
    (insertMember name value members).lookup other =
      if other = name then some value else members.lookup other := by
  induction members with
  | nil => rw [insertMember, lookup_cons_if]
  | cons member members ih =>
      obtain ⟨first, old⟩ := member
      rw [insertMember]
      split
      · rw [lookup_cons_if]
      · split
        case isTrue heq =>
          subst heq
          rw [lookup_cons_if, lookup_cons_if]
          by_cases hother : other = name <;> simp [hother]
        case isFalse hne =>
          rw [lookup_cons_if, lookup_cons_if, ih]
          by_cases hother : other = name
          · rw [if_pos hother, if_pos hother, if_neg (by rw [hother]; exact hne)]
          · rw [if_neg hother, if_neg hother]

theorem lookup_foldl_insertMember (name : String) (members before : List (String × Json)) :
    (members.foldl (fun sorted (name, value) => insertMember name value sorted) before).lookup name =
      (members.reverse.lookup name).or (before.lookup name) := by
  induction members generalizing before with
  | nil => rfl
  | cons member members ih =>
      obtain ⟨first, value⟩ := member
      rw [List.foldl_cons, ih, lookup_insertMember, List.reverse_cons, List.lookup_append,
        Option.or_assoc, lookup_cons_if, List.lookup_nil]
      by_cases heq : name = first <;> simp [heq]

theorem lookup_sortMembers (name : String) (members : List (String × Json)) :
    (sortMembers members).lookup name = members.reverse.lookup name := by
  rw [sortMembers, lookup_foldl_insertMember, List.lookup_nil, Option.or_none]

theorem mem_insertMember {member : String × Json} (hmem : member ∈ insertMember name value members) :
    member = (name, value) ∨ member ∈ members := by
  induction members with
  | nil => exact .inl (List.mem_singleton.mp hmem)
  | cons first members ih =>
      obtain ⟨other, old⟩ := first
      rw [insertMember] at hmem
      split at hmem
      · exact List.mem_cons.mp hmem
      · split at hmem
        · exact (List.mem_cons.mp hmem).imp_right (List.mem_cons_of_mem _)
        · obtain rfl | hmem := List.mem_cons.mp hmem
          · exact .inr List.mem_cons_self
          · exact (ih hmem).imp_right (List.mem_cons_of_mem _)

theorem pairwise_insertMember (hsorted : members.Pairwise (·.1 < ·.1)) (name : String)
    (value : Json) : (insertMember name value members).Pairwise (·.1 < ·.1) := by
  induction members with
  | nil => exact List.pairwise_singleton ..
  | cons first members ih =>
      obtain ⟨other, old⟩ := first
      obtain ⟨hfirst, hlater⟩ := List.pairwise_cons.mp hsorted
      rw [insertMember]
      split
      case isTrue hless =>
        refine List.pairwise_cons.mpr ⟨fun member hmem => ?_, hsorted⟩
        obtain rfl | hmem := List.mem_cons.mp hmem
        · exact hless
        · exact lt_trans hless (hfirst member hmem)
      case isFalse hnot =>
        split
        case isTrue heq =>
          subst heq
          exact List.pairwise_cons.mpr ⟨hfirst, hlater⟩
        case isFalse hne =>
          refine List.pairwise_cons.mpr ⟨fun member hmem => ?_, ih hlater⟩
          obtain rfl | hmem := mem_insertMember hmem
          · exact lt_of_le_of_ne (not_lt.mp hnot) (Ne.symm hne)
          · exact hfirst member hmem

theorem pairwise_sortMembers (members : List (String × Json)) :
    (sortMembers members).Pairwise (·.1 < ·.1) := by
  suffices hfrom : ∀ before : List (String × Json), before.Pairwise (·.1 < ·.1) →
      (members.foldl (fun sorted (name, value) => insertMember name value sorted) before).Pairwise
        (·.1 < ·.1) from hfrom [] .nil
  induction members with
  | nil => exact fun _ hbefore => hbefore
  | cons member members ih =>
      intro before hbefore
      exact ih _ (pairwise_insertMember hbefore member.1 member.2)

theorem nodup_names_sortMembers (members : List (String × Json)) :
    ((sortMembers members).map Prod.fst).Nodup :=
  List.pairwise_map.mpr ((pairwise_sortMembers members).imp fun hless => ne_of_lt hless)

theorem insertMember_perm (hfresh : name ∉ members.map Prod.fst) (value : Json) :
    (insertMember name value members).Perm ((name, value) :: members) := by
  induction members with
  | nil => exact .refl _
  | cons first members ih =>
      obtain ⟨other, old⟩ := first
      obtain ⟨hne, hlater⟩ := not_or.mp (mt List.mem_cons.mpr hfresh)
      rw [insertMember, if_neg (show name ≠ other from hne)]
      split
      · exact .refl _
      · exact ((ih hlater).cons _).trans (.swap ..)

/-- Members of different names are sorted without loss. -/
theorem sortMembers_perm (hnames : (members.map Prod.fst).Nodup) :
    (sortMembers members).Perm members := by
  suffices hfrom : ∀ before : List (String × Json), ((before ++ members).map Prod.fst).Nodup →
      (members.foldl (fun sorted (name, value) => insertMember name value sorted) before).Perm
        (before ++ members) from hfrom [] hnames
  clear hnames
  induction members with
  | nil =>
      intro before _
      rw [List.append_nil]
      exact .refl _
  | cons member members ih =>
      intro before hnodup
      have hmoved : (before ++ member :: members).Perm (member :: before ++ members) :=
        List.perm_middle
      rw [(hmoved.map _).nodup_iff] at hnodup
      have hfresh : member.1 ∉ before.map Prod.fst := fun hmem =>
        (List.nodup_cons.mp hnodup).1 (List.map_subset _ (List.subset_append_left _ _) hmem)
      have hinsert := (insertMember_perm hfresh member.2).append_right members
      exact (ih _ ((hinsert.map _).nodup_iff.mpr hnodup)).trans (hinsert.trans hmoved.symm)

theorem lookup_eq_of_perm {others : List (String × Json)} (hperm : members.Perm others)
    (hnames : (others.map Prod.fst).Nodup) (name : String) :
    members.lookup name = others.lookup name := by
  have hnames' : (members.map Prod.fst).Nodup := (hperm.map _).nodup_iff.mpr hnames
  have hmem {table : List (String × Json)} {value : Json} (h : table.lookup name = some value) :
      (name, value) ∈ table := by
    obtain ⟨front, back, rfl, -⟩ := List.lookup_eq_some_iff.mp h
    exact List.mem_append_right _ List.mem_cons_self
  refine Option.ext fun value => ⟨fun h => ?_, fun h => ?_⟩
  · exact Table.lookup_of_mem hnames (hperm.mem_iff.mp (hmem h))
  · exact Table.lookup_of_mem hnames' (hperm.mem_iff.mpr (hmem h))

theorem mem_of_mem_sortMembers {member : String × Json} (hmem : member ∈ sortMembers members) :
    member ∈ members := by
  suffices hfrom : ∀ before : List (String × Json),
      member ∈ members.foldl (fun sorted (name, value) => insertMember name value sorted) before →
        member ∈ before ∨ member ∈ members from (hfrom [] hmem).resolve_left List.not_mem_nil
  clear hmem
  induction members with
  | nil => exact fun _ => .inl
  | cons first members ih =>
      intro before hmem
      obtain hmem | hmem := ih _ hmem
      · obtain rfl | hmem := mem_insertMember hmem
        · exact .inr List.mem_cons_self
        · exact .inl hmem
      · exact .inr (List.mem_cons_of_mem _ hmem)

theorem lookup_reverse_normalizeMembers (name : String) (members : List (String × Json)) :
    (normalizeMembers members).reverse.lookup name =
      (members.reverse.lookup name).map normalize := by
  induction members with
  | nil => rfl
  | cons member members ih =>
      obtain ⟨first, value⟩ := member
      rw [normalizeMembers, List.reverse_cons, List.reverse_cons, List.lookup_append,
        List.lookup_append, ih, Option.map_or, lookup_cons_if, lookup_cons_if]
      by_cases heq : name = first <;> simp [heq]

end members

/-- Normalizing an object keeps the last member of each name. -/
theorem get?_normalize (name : String) (j : Json) :
    j.normalize.get? name = (j.last? name).map normalize := by
  cases j with
  | object members =>
      rw [normalize, get?, last?, lookup_sortMembers, lookup_reverse_normalizeMembers]
  | _ => rfl

mutual

theorem normalize_normalize : (j : Json) → j.normalize.normalize = j.normalize
  | .list items => by
      rw [normalize, normalize, normalizeList_eq (normalize_of_mem_normalizeList items)]
  | .object members => by
      have hfixed : normalizeMembers (sortMembers (normalizeMembers members)) =
          sortMembers (normalizeMembers members) :=
        normalizeMembers_eq fun member hmem =>
          normalize_of_mem_normalizeMembers members member (mem_of_mem_sortMembers hmem)
      rw [normalize, normalize, hfixed, sortMembers_eq (pairwise_sortMembers _)]
  | .null | .boolean _ | .number _ | .text _ => rfl

theorem normalize_of_mem_normalizeList : (items : List Json) →
    ∀ item ∈ normalizeList items, item.normalize = item
  | [], _, hmem => nomatch hmem
  | first :: items, item, hmem => by
      obtain rfl | hmem := List.mem_cons.mp hmem
      · exact normalize_normalize first
      · exact normalize_of_mem_normalizeList items item hmem

theorem normalize_of_mem_normalizeMembers : (members : List (String × Json)) →
    ∀ member ∈ normalizeMembers members, member.2.normalize = member.2
  | [], _, hmem => nomatch hmem
  | (_, value) :: members, member, hmem => by
      obtain rfl | hmem := List.mem_cons.mp hmem
      · exact normalize_normalize value
      · exact normalize_of_mem_normalizeMembers members member hmem

end

theorem normalizeList_eq_map (items : List Json) : normalizeList items = items.map normalize := by
  induction items with
  | nil => rfl
  | cons item items ih => rw [normalizeList, ih, List.map_cons]

theorem normalize_eq_text_iff {s : String} {j : Json} : j.normalize = .text s ↔ j = .text s := by
  cases j <;> simp [normalize]

end CodeAssist.Json
