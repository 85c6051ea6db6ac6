namespace CodeAssist.Table

/-! Tables as lists of keys and values, each key once. -/

def without [DecidableEq α] (key : α) (table : List (α × β)) : List (α × β) :=
  table.filter fun (other, _) => other ≠ key

def put [DecidableEq α] (key : α) (value : β) (table : List (α × β)) : List (α × β) :=
  (key, value) :: without key table

section lookup

variable [BEq α] [LawfulBEq α] [DecidableEq α]

@[simp] theorem lookup_without_self (key : α) (table : List (α × β)) :
    (without key table).lookup key = none := by
  rw [List.lookup_eq_none_iff]
  intro entry hmem
  have hne : entry.1 ≠ key := by simpa using (List.mem_filter.mp hmem).2
  simpa using Ne.symm hne

theorem lookup_without_of_ne {key other : α} (hne : other ≠ key)
    (table : List (α × β)) : (without key table).lookup other = table.lookup other := by
  induction table with
  | nil => rfl
  | cons entry table ih =>
      obtain ⟨name, value⟩ := entry
      by_cases heq : name = key
      · have hbeq : (other == name) = false := by simpa [heq] using hne
        rw [List.lookup_cons, hbeq, ← ih]
        simp [without, heq]
      · have hkept : without key ((name, value) :: table) = (name, value) :: without key table := by
          simp [without, heq]
        rw [hkept, List.lookup_cons, List.lookup_cons, ih]

@[simp] theorem lookup_put_self (key : α) (value : β) (table : List (α × β)) :
    (put key value table).lookup key = some value := by
  simp [put]

theorem lookup_put_of_ne {key other : α} (hne : other ≠ key) (value : β)
    (table : List (α × β)) : (put key value table).lookup other = table.lookup other := by
  have hbeq : (other == key) = false := by simpa using hne
  rw [put, List.lookup_cons, hbeq, lookup_without_of_ne hne]

theorem lookup_of_mem {key : α} {value : β} {table : List (α × β)}
    (hnodup : (table.map Prod.fst).Nodup) (hmem : (key, value) ∈ table) :
    table.lookup key = some value := by
  induction table with
  | nil => cases hmem
  | cons entry table ih =>
      obtain ⟨name, found⟩ := entry
      rw [List.map_cons, List.nodup_cons] at hnodup
      rw [List.lookup_cons]
      by_cases heq : key = name
      · subst heq
        obtain hhere | hthere := List.mem_cons.mp hmem
        · cases hhere
          simp
        · exact (hnodup.1 (List.mem_map.mpr ⟨_, hthere, rfl⟩)).elim
      · have hbeq : (key == name) = false := by simpa using heq
        obtain hhere | hthere := List.mem_cons.mp hmem
        · cases hhere
          exact (heq rfl).elim
        · rw [hbeq]
          exact ih hnodup.2 hthere

end lookup

section keys

variable [DecidableEq α] {key other : α} {value : β} {table : List (α × β)}

theorem without_put_self (key : α) (value : β) (table : List (α × β)) :
    without key (put key value table) = without key table := by
  simp [put, without]

theorem mem_keys_iff : key ∈ table.map Prod.fst ↔ (table.lookup key).isSome := by
  simp [List.lookup_isSome_iff]

theorem without_of_lookup_eq_none (hnone : table.lookup key = none) :
    without key table = table := by
  rw [List.lookup_eq_none_iff] at hnone
  refine List.filter_eq_self.mpr fun entry hmem => ?_
  have hne : key ≠ entry.1 := by simpa using hnone entry hmem
  simpa using Ne.symm hne

theorem nodup_keys_put (hnodup : (table.map Prod.fst).Nodup) :
    ((put key value table).map Prod.fst).Nodup := by
  rw [put, List.map_cons, List.nodup_cons]
  constructor
  · rw [mem_keys_iff, lookup_without_self]
    exact Bool.false_ne_true
  · exact hnodup.sublist (List.filter_sublist.map _)

end keys

end CodeAssist.Table
