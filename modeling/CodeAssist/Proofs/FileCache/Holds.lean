import CodeAssist.FileCache

namespace CodeAssist.FileCache

/-! What a cache holds after it was asked, or given a value. -/

section holds

variable {κ ν : Type} [DecidableEq κ]

/-- A cache has a value for the components of a path, a digest and a key. -/
def Holds (cache : FileCache κ ν) (file : List Path.Component) (digest : Digest) (key : κ)
    (value : ν) : Prop :=
  ∃ entry, cache.files.lookup file = some entry ∧ entry.digest = digest ∧
    entry.values.lookup key = some value

def stored (cache : FileCache κ ν) (file : List Path.Component) : Nat :=
  ((cache.files.lookup file).map (·.values.length)).getD 0

variable {cache cache' : FileCache κ ν} {path other : Path} {digest d : Digest} {key k : κ}
  {value v : ν} {file : List Path.Component}

theorem get_eq_some_iff :
    (cache.get path digest key).1 = some value ↔
      cache.Holds path.components digest key value := by
  unfold get entry? Holds
  cases hentry : cache.files.lookup path.components with
  | none => simp
  | some entry =>
      by_cases hdigest : entry.digest = digest
      · simp [hdigest]
      · simp [hdigest]

theorem get_congr (hentry : entry? cache' path = entry? cache path) :
    (cache'.get path digest key).1 = (cache.get path digest key).1 := by
  unfold get
  rw [hentry]
  split
  · rfl
  · split <;> rfl

theorem lookup_get_of_ne (hne : file ≠ path.components) :
    (cache.get path digest key).2.files.lookup file = cache.files.lookup file := by
  unfold get
  split
  · rfl
  · split
    · rfl
    · exact Table.lookup_without_of_ne hne _

theorem lookup_insert_of_ne (hne : file ≠ path.components) :
    (cache.insert path digest key value).files.lookup file = cache.files.lookup file :=
  Table.lookup_put_of_ne hne _ _

/-- A lookup can make a cache forget a file, and nothing else. -/
theorem holds_get_iff :
    (cache.get path digest key).2.Holds file d k v ↔
      cache.Holds file d k v ∧ (file = path.components → d = digest) := by
  by_cases hfile : file = path.components
  · subst hfile
    unfold Holds get entry?
    cases hentry : cache.files.lookup path.components with
    | none => simp [hentry]
    | some entry =>
        by_cases hdigest : entry.digest = digest
        · simp only [if_pos hdigest, hentry, Option.some.injEq, exists_eq_left', true_imp_iff]
          exact ⟨fun h => ⟨h, h.1.symm.trans hdigest⟩, And.left⟩
        · simp only [if_neg hdigest, Table.lookup_without_self, Option.some.injEq, exists_eq_left',
            true_imp_iff]
          constructor
          · rintro ⟨entry', hnone, -⟩
            cases hnone
          · rintro ⟨⟨hd, -⟩, rfl⟩
            exact absurd hd hdigest
  · unfold Holds
    rw [lookup_get_of_ne hfile]
    exact ⟨fun h => ⟨h, fun heq => absurd heq hfile⟩, And.left⟩

/-- The values that are kept when a new one comes are those for the same digest, if there is room
for one more. -/
theorem lookup_kept_iff {entry : FileEntry κ ν} :
    (kept entry digest).lookup k = some v ↔
      entry.digest = digest ∧ entry.values.length < maxValues ∧ entry.values.lookup k = some v := by
  unfold kept
  by_cases hroom : entry.digest = digest ∧ entry.values.length < maxValues
  · rw [if_pos hroom]
    exact ⟨fun h => ⟨hroom.1, hroom.2, h⟩, fun h => h.2.2⟩
  · rw [if_neg hroom]
    constructor
    · intro h
      cases h
    · rintro ⟨hdigest, hlt, -⟩
      exact absurd ⟨hdigest, hlt⟩ hroom

theorem holds_insert_self :
    (cache.insert path digest key value).Holds path.components d k v ↔
      d = digest ∧ (k = key ∧ v = value ∨ k ≠ key ∧ cache.stored path.components < maxValues ∧
        cache.Holds path.components d k v) := by
  unfold Holds insert entry? stored
  simp only [Table.lookup_put_self, Option.some.injEq, exists_eq_left']
  by_cases hkey : k = key
  · subst hkey
    simp only [Table.lookup_put_self, Option.some.injEq, ne_eq, not_true_eq_false, false_and,
      or_false, true_and]
    exact and_congr eq_comm eq_comm
  · rw [Table.lookup_put_of_ne hkey]
    cases hentry : cache.files.lookup path.components with
    | none => simp [hkey]
    | some entry =>
        simp only [lookup_kept_iff, hkey, false_and, false_or, ne_eq, not_false_eq_true, true_and,
          Option.map_some, Option.getD_some, Option.some.injEq, exists_eq_left']
        constructor
        · rintro ⟨rfl, hdigest, hroom, hvalue⟩
          exact ⟨rfl, hroom, hdigest, hvalue⟩
        · rintro ⟨rfl, hroom, hdigest, hvalue⟩
          exact ⟨rfl, hdigest, hroom, hvalue⟩

theorem holds_insert_iff :
    (cache.insert path digest key value).Holds file d k v ↔
      file = path.components ∧ d = digest ∧ k = key ∧ v = value ∨
        cache.Holds file d k v ∧ (file = path.components →
          d = digest ∧ k ≠ key ∧ cache.stored file < maxValues) := by
  by_cases hfile : file = path.components
  · subst hfile
    rw [holds_insert_self]
    simp only [true_and, true_imp_iff]
    constructor
    · rintro ⟨rfl, hnew | ⟨hkey, hroom, hold⟩⟩
      · exact .inl ⟨rfl, hnew⟩
      · exact .inr ⟨hold, rfl, hkey, hroom⟩
    · rintro (⟨rfl, hnew⟩ | ⟨hold, rfl, hkey, hroom⟩)
      · exact ⟨rfl, .inl hnew⟩
      · exact ⟨rfl, .inr ⟨hkey, hroom, hold⟩⟩
  · unfold Holds
    rw [lookup_insert_of_ne hfile]
    simp [hfile]

theorem get_get {d : Digest} (hfile : path.components = other.components) (hdigest : digest = d)
    (hfound : (cache.get path digest key).1 = some value) :
    ((cache.get path digest key).2.get other d key).1 = some value := by
  rw [get_eq_some_iff] at hfound ⊢
  rw [holds_get_iff, ← hfile, ← hdigest]
  exact ⟨hfound, fun _ => rfl⟩

theorem get_insert {d : Digest} (hfile : path.components = other.components)
    (hdigest : digest = d) :
    ((cache.insert path digest key value).get other d key).1 = some value := by
  rw [get_eq_some_iff, holds_insert_iff, ← hfile, ← hdigest]
  exact .inl ⟨rfl, rfl, rfl, rfl⟩

end holds

end CodeAssist.FileCache
