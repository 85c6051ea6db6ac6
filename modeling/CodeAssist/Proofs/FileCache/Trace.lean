import CodeAssist.Proofs.FileCache.Holds
import CodeAssist.Proofs.Path
import Mathlib.Data.List.Induction

namespace CodeAssist

namespace Table

variable [DecidableEq α] {key : α} {value : β} {table : List (α × β)}

theorem nodup_keys_without (hnodup : (table.map Prod.fst).Nodup) :
    ((without key table).map Prod.fst).Nodup :=
  hnodup.sublist (List.filter_sublist.map _)

theorem length_put_le : (put key value table).length ≤ table.length + 1 := by
  rw [put, List.length_cons]
  exact Nat.succ_le_succ (List.length_filter_le _ table)

end Table

namespace FileCache

inductive Operation (κ ν : Type) where
  | get (path : Path) (digest : Digest) (key : κ)
  | insert (path : Path) (digest : Digest) (key : κ) (value : ν)
deriving DecidableEq

namespace Operation

variable {κ ν : Type}

def path : Operation κ ν → Path
  | .get path _ _ => path
  | .insert path _ _ _ => path

def digest : Operation κ ν → Digest
  | .get _ digest _ => digest
  | .insert _ digest _ _ => digest

def isInsert : Operation κ ν → Bool
  | .get _ _ _ => false
  | .insert _ _ _ _ => true

end Operation

section trace

variable {κ ν : Type} [DecidableEq κ]
variable {cache cache' : FileCache κ ν} {path other : Path} {digest d : Digest} {key k : κ}
  {value v : ν} {file : List Path.Component}

namespace Operation

/-- An operation puts in a value for a file. -/
def Stores (op : Operation κ ν) (file : List Path.Component) (digest : Digest) (key : κ)
    (value : ν) : Prop :=
  ∃ path : Path, path.components = file ∧ op = .insert path digest key value

/-- An operation on a cache leaves the value that a file has for a digest and a key: it is about
another file, or about the same digest, and if it puts a value in, then for another key, or the same
value, and there is room for it. -/
def Spares (op : Operation κ ν) (cache : FileCache κ ν) (file : List Path.Component)
    (digest : Digest) (key : κ) (value : ν) : Prop :=
  op.path.components = file → op.digest = digest ∧
    (∀ path d other, op = .insert path d key other → other = value) ∧
    (op.isInsert → cache.stored file < maxValues)

end Operation

def perform (cache : FileCache κ ν) : Operation κ ν → FileCache κ ν
  | .get path digest key => (cache.get path digest key).2
  | .insert path digest key value => cache.insert path digest key value

/-- What is made of an empty cache by operations, the first one first. -/
def after (trace : List (Operation κ ν)) : FileCache κ ν := trace.foldl perform {}

variable {op : Operation κ ν} {trace : List (Operation κ ν)}

@[simp] theorem after_append_singleton :
    after (trace ++ [op]) = (after trace).perform op := by
  unfold after
  rw [List.foldl_append]
  rfl

theorem holds_perform_iff :
    (cache.perform op).Holds file d k v ↔
      op.Stores file d k v ∨ cache.Holds file d k v ∧ op.Spares cache file d k v := by
  cases op with
  | get path digest key =>
      rw [perform, holds_get_iff]
      simp only [Operation.Stores, reduceCtorEq, and_false, exists_false, false_or,
        Operation.Spares, Operation.path, Operation.digest, Operation.isInsert, IsEmpty.forall_iff,
        implies_true, Bool.false_eq_true, and_true]
      exact and_congr_right fun _ => by rw [eq_comm, @eq_comm _ d]
  | insert path digest key value =>
      rw [perform, holds_insert_iff]
      simp only [Operation.Stores, Operation.Spares, Operation.path, Operation.digest,
        Operation.isInsert, Operation.insert.injEq, forall_true_left]
      constructor
      · rintro (⟨rfl, rfl, rfl, rfl⟩ | ⟨hold, hsame⟩)
        · exact .inl ⟨path, rfl, rfl, rfl, rfl, rfl⟩
        · refine .inr ⟨hold, fun hfile => ?_⟩
          obtain ⟨hdigest, hkey, hroom⟩ := hsame hfile.symm
          refine ⟨hdigest.symm, ?_, hroom⟩
          rintro _ _ _ ⟨-, -, heq, -⟩
          exact absurd heq.symm hkey
      · rintro (⟨_, rfl, rfl, rfl, rfl, rfl⟩ | ⟨hold, hspares⟩)
        · exact .inl ⟨rfl, rfl, rfl, rfl⟩
        · by_cases hfile : file = path.components
          · obtain ⟨hdigest, hvalue, hroom⟩ := hspares hfile.symm
            by_cases hkey : k = key
            · have hsame := hvalue path digest value ⟨rfl, rfl, hkey.symm, rfl⟩
              exact .inl ⟨hfile, hdigest.symm, hkey, hsame.symm⟩
            · exact .inr ⟨hold, fun _ => ⟨hdigest.symm, hkey, hroom⟩⟩
          · exact .inr ⟨hold, fun heq => absurd heq hfile⟩

/-- A value was put in for a file, and nothing after that has replaced it or made the cache forget
it. -/
def Lasts (trace : List (Operation κ ν)) (file : List Path.Component) (digest : Digest) (key : κ)
    (value : ν) : Prop :=
  ∃ earlier store later, trace = earlier ++ store :: later ∧ store.Stores file digest key value ∧
    ∀ before op behind, later = before ++ op :: behind →
      op.Spares (after (earlier ++ store :: before)) file digest key value

theorem lasts_concat_iff :
    Lasts (trace ++ [op]) file d k v ↔
      op.Stores file d k v ∨ Lasts trace file d k v ∧ op.Spares (after trace) file d k v := by
  constructor
  · rintro ⟨earlier, store, later, htrace, hstores, hspares⟩
    rcases List.eq_nil_or_concat later with rfl | ⟨later, last, rfl⟩
    · obtain ⟨rfl, heq⟩ := List.append_inj' htrace rfl
      cases heq
      exact .inl hstores
    · rw [List.concat_eq_append, ← List.cons_append, ← List.append_assoc] at htrace
      obtain ⟨rfl, heq⟩ := List.append_inj' htrace rfl
      cases heq
      refine .inr ⟨⟨earlier, store, later, rfl, hstores, fun before next behind heq => ?_⟩,
        hspares later op [] (List.concat_eq_append ..)⟩
      exact hspares before next (behind ++ [op]) (by simp [heq])
  · rintro (hstores | ⟨⟨earlier, store, later, rfl, hstores, hspares⟩, hlast⟩)
    · refine ⟨trace, op, [], rfl, hstores, fun before op behind heq => ?_⟩
      simp at heq
    · refine ⟨earlier, store, later ++ [op], by simp, hstores, fun before next behind heq => ?_⟩
      rcases List.eq_nil_or_concat behind with rfl | ⟨behind, last, rfl⟩
      · obtain ⟨rfl, hop⟩ := List.append_inj' heq rfl
        obtain ⟨rfl, -⟩ := List.cons.inj hop
        exact hlast
      · rw [List.concat_eq_append, ← List.cons_append, ← List.append_assoc] at heq
        obtain ⟨rfl, -⟩ := List.append_inj' heq rfl
        exact hspares before next behind rfl

theorem holds_after_iff : (after trace).Holds file d k v ↔ Lasts trace file d k v := by
  induction trace using List.reverseRecOn with
  | nil =>
      constructor
      · rintro ⟨entry, hentry, -⟩
        cases hentry
      · rintro ⟨earlier, store, later, htrace, -⟩
        simp at htrace
  | append_singleton trace op ih =>
      rw [after_append_singleton, holds_perform_iff, ih, lasts_concat_iff]

/-- An entry has each key once, and as many values as there may be. -/
structure Fits (entry : FileEntry κ ν) : Prop where
  pos : 0 < entry.values.length
  le : entry.values.length ≤ maxValues
  nodup : (entry.values.map Prod.fst).Nodup

structure Tidy (cache : FileCache κ ν) : Prop where
  files : (cache.files.map Prod.fst).Nodup
  entries : ∀ {file entry}, cache.files.lookup file = some entry → Fits entry

omit [DecidableEq κ] in
theorem kept_spec {entry : FileEntry κ ν} (hfits : Fits entry) :
    (kept entry digest).length < maxValues ∧ ((kept entry digest).map Prod.fst).Nodup := by
  unfold kept
  split
  · rename_i hroom
    exact ⟨hroom.2, hfits.nodup⟩
  · exact ⟨Nat.zero_lt_succ 63, List.nodup_nil⟩

theorem fits_put {values : List (κ × ν)} (hroom : values.length < maxValues)
    (hnodup : (values.map Prod.fst).Nodup) (digest : Digest) (key : κ) (value : ν) :
    Fits ⟨digest, Table.put key value values⟩ where
  pos := Nat.succ_pos _
  le := Nat.le_trans Table.length_put_le hroom
  nodup := Table.nodup_keys_put hnodup

theorem Tidy.get (h : Tidy cache) (path : Path) (digest : Digest) (key : κ) :
    Tidy (cache.get path digest key).2 := by
  unfold FileCache.get
  split
  · exact h
  · split
    · exact h
    · refine ⟨Table.nodup_keys_without h.files, fun {file entry} hentry => ?_⟩
      by_cases hfile : file = path.components
      · rw [hfile, Table.lookup_without_self] at hentry
        cases hentry
      · rw [Table.lookup_without_of_ne hfile] at hentry
        exact h.entries hentry

theorem Tidy.insert (h : Tidy cache) (path : Path) (digest : Digest) (key : κ) (value : ν) :
    Tidy (cache.insert path digest key value) := by
  refine ⟨Table.nodup_keys_put h.files, fun {file entry} hentry => ?_⟩
  by_cases hfile : file = path.components
  · subst hfile
    rw [FileCache.insert, Table.lookup_put_self] at hentry
    cases hentry
    split
    · apply fits_put
      · exact Nat.zero_lt_succ 63
      · exact List.nodup_nil
    · rename_i old hold
      obtain ⟨hroom, hnodup⟩ := kept_spec (h.entries hold)
      exact fits_put hroom hnodup ..
  · rw [lookup_insert_of_ne hfile] at hentry
    exact h.entries hentry

theorem Tidy.perform (h : Tidy cache) (op : Operation κ ν) : Tidy (cache.perform op) := by
  cases op with
  | get path digest key => exact h.get path digest key
  | insert path digest key value => exact h.insert path digest key value

theorem tidy_after (trace : List (Operation κ ν)) : Tidy (after trace) := by
  induction trace using List.reverseRecOn with
  | nil => exact ⟨List.nodup_nil, fun hentry => by cases hentry⟩
  | append_singleton trace op ih =>
      rw [after_append_singleton]
      exact ih.perform op

theorem entry_perform_of_ne (hne : path.components ≠ op.path.components) :
    entry? (cache.perform op) path = entry? cache path := by
  cases op with
  | get => exact lookup_get_of_ne hne
  | insert => exact lookup_insert_of_ne hne

theorem lasts_of_mem {entry : FileEntry κ ν} (hentry : (file, entry) ∈ (after trace).files)
    (hvalue : (key, value) ∈ entry.values) : Lasts trace file entry.digest key value := by
  have htidy := tidy_after trace
  have hfound := Table.lookup_of_mem htidy.files hentry
  apply holds_after_iff.mp
  exact ⟨entry, hfound, rfl, Table.lookup_of_mem (htidy.entries hfound).nodup hvalue⟩

/-- After any operations a cache answers with a value exactly if it was put in for the same file,
digest and key, and since then no operation on the file was for another digest, none put another
value in for the key, and none found the file full. Each file has one entry, of between one and
sixty-four values, all put in for the digest of the entry, and an operation changes the answers for
its own file only. -/
theorem get_after_iff (trace : List (Operation κ ν)) :
    (∀ path digest key value, ((after trace).get path digest key).1 = some value ↔
      Lasts trace path.components digest key value) ∧
    ((after trace).files.map Prod.fst).Nodup ∧
    (∀ file entry, (file, entry) ∈ (after trace).files → 0 < entry.values.length ∧
      entry.values.length ≤ 64 ∧ (entry.values.map Prod.fst).Nodup ∧
      ∀ key value, (key, value) ∈ entry.values →
        ∃ op ∈ trace, op.Stores file entry.digest key value) ∧
    ∀ op path, path.components ≠ op.path.components → ∀ digest key,
      ((after (trace ++ [op])).get path digest key).1 = ((after trace).get path digest key).1 := by
  have htidy := tidy_after trace
  refine ⟨fun path digest key value => ?_, htidy.files, fun file entry hentry => ?_,
    fun op path hne digest key => ?_⟩
  · rw [get_eq_some_iff, holds_after_iff]
  · obtain ⟨hpos, hle, hnodup⟩ := htidy.entries (Table.lookup_of_mem htidy.files hentry)
    refine ⟨hpos, hle, hnodup, fun key value hvalue => ?_⟩
    obtain ⟨earlier, store, later, rfl, hstores, -⟩ := lasts_of_mem hentry hvalue
    exact ⟨store, by simp, hstores⟩
  · rw [after_append_singleton]
    exact get_congr (entry_perform_of_ne hne)

end trace

namespace Trial

/-- A file under two spellings of its path, another file in between, and a value replaced. -/
def trace : List (Operation Nat String) :=
  [.insert ⟨"a"⟩ .initial 1 "x", .insert ⟨"a/"⟩ .initial 2 "y", .insert ⟨"q"⟩ default 1 "x",
    .get ⟨"a"⟩ .initial 7, .insert ⟨"a"⟩ .initial 2 "z"]

theorem components_spelled : (Path.mk "a").components = [.entry "a"] ∧
    (Path.mk "a/").components = [.entry "a"] ∧
    (Path.mk "q").components = [.entry "q"] := by
  refine ⟨?_, ?_, ?_⟩ <;>
    exact Path.components_of_pieces (by rw [Path.pieces_eq]; decide) (by simp [Path.isAbsolute])
      (by decide) (by decide)

theorem entries_apart : (Path.Component.entry "q" == .entry "a") = false ∧
    (Path.Component.entry "a" == .entry "q") = false := by
  decide

theorem files_after_trace : (after trace).files =
    [([.entry "a"], ⟨.initial, [(2, "z"), (1, "x")]⟩),
      ([.entry "q"], ⟨default, [(1, "x")]⟩)] := by
  obtain ⟨hone, htwo, hother⟩ := components_spelled
  simp [after, trace, perform, get, insert, entry?, kept, maxValues, Table.put, Table.without,
    List.lookup_cons, hone, htwo, hother, entries_apart]

end Trial

theorem get_after_iff_respelled :
    Lasts Trial.trace [.entry "a"] .initial 1 "x" ∧
    ¬Lasts Trial.trace [.entry "a"] .initial 2 "y" ∧
    (∃ op ∈ Trial.trace, op.Stores [.entry "q"] default 1 "x") ∧
    ((after (Trial.trace ++ [.get ⟨"a"⟩ default 1])).get ⟨"q"⟩ default 1).1 = some "x" := by
  obtain ⟨hfile, -, hother⟩ := Trial.components_spelled
  obtain ⟨hget, -, hentries, hothers⟩ := get_after_iff Trial.trace
  refine ⟨?_, fun hlasts => ?_, ?_, ?_⟩
  · rw [← hfile]
    apply (hget ⟨"a"⟩ .initial 1 "x").mp
    simp [get, entry?, hfile, Trial.files_after_trace, List.lookup_cons]
  · rw [← hfile] at hlasts
    have hfound := (hget ⟨"a"⟩ .initial 2 "y").mpr hlasts
    simp [get, entry?, hfile, Trial.files_after_trace] at hfound
  · obtain ⟨-, -, -, hvalues⟩ :=
      hentries [.entry "q"] ⟨default, [(1, "x")]⟩ (by rw [Trial.files_after_trace]; simp)
    exact hvalues 1 "x" List.mem_cons_self
  · rw [hothers (.get ⟨"a"⟩ default 1) ⟨"q"⟩ (by simp [hother, Operation.path, hfile])]
    simp [get, entry?, hother, Trial.files_after_trace, List.lookup_cons, Trial.entries_apart]

end FileCache

end CodeAssist
