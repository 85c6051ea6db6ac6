import CodeAssist.Host.FileTree
import CodeAssist.Proofs.Path
import CodeAssist.Table
import Mathlib.Data.List.Induction

namespace CodeAssist

namespace FileTree

/-! What stands in a tree after a change, and where paths lead in it. -/

/-- Whatever is in a tree stands in a folder of that tree. -/
def Rooted (t : FileTree) : Prop :=
  ∀ ⦃loc⦄, (t.entry? loc).isSome → t.isFolderAt loc.dropLast

def Place.loc : Place → Location
  | .taken loc _ => loc
  | .free loc => loc

/-- A place is as the tree says. -/
def Stands (t : FileTree) : Place → Prop
  | .taken loc entry => t.entry? loc = some entry
  | .free loc => t.entry? loc = none ∧ t.isFolderAt loc.dropLast

variable {t t' : FileTree} {last : Bool} {links : Nat} {loc here : Location} {todo : List String}
  {place : Place}

theorem isFolderAt_iff : t.isFolderAt loc ↔ ∃ mode, t.entry? loc = some (.folder mode) := by
  unfold isFolderAt
  split <;> simp_all

theorem isSome_of_isFolderAt (hfolder : t.isFolderAt loc) : (t.entry? loc).isSome := by
  obtain ⟨mode, hmode⟩ := isFolderAt_iff.mp hfolder
  rw [hmode]
  rfl

theorem walk_stands (hwalk : t.walk last links loc todo = .ok place) : t.Stands place := by
  fun_induction walk t last links loc todo with
  | case1 links loc entry hentry =>
      cases hwalk
      exact hentry
  | case4 _ _ _ _ _ _ ih | case5 _ _ _ _ _ _ _ ih => exact ih hwalk
  | case12 => rename_i ih; exact ih hwalk
  | case13 => rename_i ih; exact ih hwalk
  | case7 links loc step rest hfolder _ _ _ next hnone =>
      cases hwalk
      exact ⟨hnone, by simpa [next] using hfolder⟩
  | case9 links loc step rest hfolder _ _ _ next target hlink =>
      cases hwalk
      exact hlink
  | _ => cases hwalk

/-- Whether the last link is followed makes a difference only where there is one. -/
theorem walk_last (t : FileTree) (links : Nat) (loc : Location) (todo : List String) :
    t.walk false links loc todo = t.walk true links loc todo ∨
      ∃ own target, t.walk false links loc todo = .ok (.taken own (.link target)) := by
  fun_induction walk t false links loc todo with
  | case12 =>
      rename_i ih
      simpa +zetaDelta [walk, *] using ih
  | _ => simp +zetaDelta [walk, *]

theorem find_stands {path : String} (hfind : t.find here path last = .ok place) :
    t.Stands place := by
  unfold find trace at hfind
  split at hfind
  · cases hfind
  · split at hfind
    · cases hfind
    · split at hfind
      · cases hfind
      · exact walk_stands hfind

theorem find_last (t : FileTree) (here : Location) (path : String) :
    t.find here path false = t.find here path true ∨
      ∃ own target, t.find here path false = .ok (.taken own (.link target)) := by
  unfold find trace
  split
  · exact .inl rfl
  · split
    · exact .inl rfl
    · split
      · exact .inl rfl
      · exact walk_last ..

theorem find_true_of_free {path : String} (hfree : t.find here path false = .ok (.free loc)) :
    t.find here path true = .ok (.free loc) := by
  obtain hsame | ⟨_, target, hlink⟩ := t.find_last here path
  · exact hsame.symm.trans hfree
  · cases hfree.symm.trans hlink

/-- A name that stands for itself where it is a path. -/
structure Plain (name : String) : Prop where
  ne_empty : name ≠ ""
  no_slash : '/' ∉ name.toList
  no_nul : '\x00' ∉ name.toList
  ne_here : name ≠ "."
  ne_up : name ≠ ".."
  short : name.utf8ByteSize ≤ 255

theorem Plain.endsWith_slash {name : String} (hname : Plain name) : name.endsWith "/" = false :=
  Bool.eq_false_iff.mpr fun hends =>
    hname.no_slash (((Text.endsWith_slash_iff name).mp hends).subset (by simp))

theorem Plain.steps {name : String} (hname : Plain name) : steps name = [name] := by
  have hpieces : (name.splitOn "/").filter (· ≠ "") = [name] :=
    Path.pieces_of_name hname.no_slash hname.ne_empty
  rw [FileTree.steps, hpieces, hname.endsWith_slash]
  rfl

/-- A plain name is that of an entry in the folder itself. -/
theorem find_plain {name : String} (hname : Plain name) (hhere : t.isFolderAt here)
    (hlink : ∀ target, t.entry? (here ++ [name]) ≠ some (.link target)) :
    t.find here name last = .ok (match t.entry? (here ++ [name]) with
      | some entry => .taken (here ++ [name]) entry
      | none => .free (here ++ [name])) := by
  have hstart : name.startsWith "/" = false := Bool.eq_false_iff.mpr fun hstart =>
    hname.no_slash (((Text.startsWith_slash_iff name).mp hstart).subset (by simp))
  have hnul : name.contains '\x00' = false := by simpa using hname.no_nul
  have hlength : ¬maxPath < name.utf8ByteSize := by
    have hshort := hname.short
    unfold maxPath
    omega
  have hwalk : t.find here name last = t.walk last maxLinks here [name] := by
    simp [find, trace, hname.steps, hnul, hname.ne_empty, hstart, hlength]
  rw [hwalk]
  cases hentry : t.entry? (here ++ [name]) with
  | none => simp [walk, hhere, hname.ne_here, hname.ne_up, hname.short, hentry]
  | some entry =>
      cases entry with
      | link target => exact (hlink target hentry).elim
      | file | folder => simp [walk, hhere, hname.ne_here, hname.ne_up, hname.short, hentry]

theorem has_iff {path : String} :
    t.has here path ↔ ∃ loc entry, t.find here path true = .ok (.taken loc entry) := by
  unfold has lookup
  cases hfind : t.find here path true with
  | error cause => simp [bind, Except.bind, Except.isOk, Except.toBool]
  | ok place => cases place <;> simp [bind, Except.bind, Except.isOk, Except.toBool]

/-- Where a path does not lead anywhere, there is nothing in its own place but a link. -/
theorem own_of_not_has {path : String} (hhas : t.has here path = false)
    (hown : t.find here path false = .ok place) :
    t.entry? place.loc = none ∨ ∃ target, t.entry? place.loc = some (.link target) := by
  have hstands := find_stands hown
  cases place with
  | free loc => exact .inl hstands.1
  | taken loc entry =>
      obtain hsame | ⟨_, target, hlink⟩ := t.find_last here path
      · have hthere : t.has here path := has_iff.mpr ⟨loc, entry, hsame.symm.trans hown⟩
        rw [hhas] at hthere
        cases hthere
      · cases hown.symm.trans hlink
        exact .inr ⟨target, hstands⟩

theorem isFolderAt_of_not_has {path : String} (hhas : t.has here path = false)
    (hown : t.find here path false = .ok place) : t.isFolderAt place.loc = false := by
  obtain hnone | ⟨target, hlink⟩ := own_of_not_has hhas hown
  · rw [isFolderAt, hnone]
  · rw [isFolderAt, hlink]

theorem ne_nil_of_entry? (hentry : ∀ mode, t.entry? loc ≠ some (.folder mode)) : loc ≠ [] := by
  rintro rfl
  exact hentry _ rfl

theorem entry?_of_ne_nil (hloc : loc ≠ []) : t.entry? loc = t.entries.lookup loc :=
  if_neg (by simpa using hloc)

theorem entry?_put {own : Location} (hown : own ≠ []) (entry : Entry) (loc : Location) :
    entry? (t.put own entry) loc = if loc = own then some entry else t.entry? loc := by
  by_cases hloc : loc = own
  · subst hloc
    rw [entry?_of_ne_nil hown, if_pos rfl]
    exact Table.lookup_put_self loc entry t.entries
  · rw [if_neg hloc]
    by_cases hnil : loc = []
    · rw [hnil]
      rfl
    · rw [entry?_of_ne_nil hnil, entry?_of_ne_nil hnil]
      exact Table.lookup_put_of_ne hloc entry t.entries

theorem lookup_filter_keys {p : Location → Bool} (entries : List (Location × Entry))
    (loc : Location) :
    (entries.filter fun (other, _) => p other).lookup loc =
      if p loc then entries.lookup loc else none := by
  induction entries with
  | nil => simp
  | cons first entries ih =>
      obtain ⟨other, entry⟩ := first
      by_cases heq : loc = other
      · subst heq
        by_cases hp : p loc <;> simp [hp, ih]
      · have hbeq : (loc == other) = false := beq_eq_false_iff_ne.mpr heq
        by_cases hp : p other <;> simp [hp, ih, List.lookup_cons, hbeq]

theorem entry?_remove {own : Location} (hown : own ≠ []) (loc : Location) :
    entry? (t.remove own) loc = if own <+: loc then none else t.entry? loc := by
  by_cases hnil : loc = []
  · subst hnil
    rw [if_neg (by simpa using hown)]
    rfl
  · rw [entry?_of_ne_nil hnil, entry?_of_ne_nil hnil]
    refine (lookup_filter_keys (p := fun other => !own.isPrefixOf other) t.entries loc).trans ?_
    by_cases hbelow : own <+: loc
    · have hbegins : own.isPrefixOf loc := List.isPrefixOf_iff_prefix.mpr hbelow
      rw [if_neg (by simp [hbegins]), if_pos hbelow]
    · have hbegins : own.isPrefixOf loc = false :=
        Bool.eq_false_iff.mpr fun h => hbelow (List.isPrefixOf_iff_prefix.mp h)
      rw [if_pos (by simp [hbegins]), if_neg hbelow]

theorem Rooted.entry?_below (ht : t.Rooted) {own : Location} (hnot : t.isFolderAt own = false)
    {more : List String} (hmore : more ≠ []) : t.entry? (own ++ more) = none := by
  induction more using List.reverseRecOn with
  | nil => exact absurd rfl hmore
  | append_singleton more name ih =>
      rw [← Option.not_isSome_iff_eq_none]
      intro hsome
      have hfolder := ht hsome
      rw [← List.append_assoc, List.dropLast_concat] at hfolder
      by_cases hnil : more = []
      · rw [hnil, List.append_nil, hnot] at hfolder
        cases hfolder
      · have habove := isSome_of_isFolderAt hfolder
        rw [ih hnil] at habove
        cases habove

theorem Rooted.entry?_remove (ht : t.Rooted) {own : Location} (hnot : t.isFolderAt own = false)
    (loc : Location) :
    entry? (t.remove own) loc = if loc = own then none else t.entry? loc := by
  have hown : own ≠ [] := by
    rintro rfl
    cases hnot
  rw [FileTree.entry?_remove hown]
  by_cases hloc : loc = own
  · subst hloc
    rw [if_pos rfl, if_pos (List.prefix_refl loc)]
  · rw [if_neg hloc]
    split
    · rename_i hbelow
      obtain ⟨more, rfl⟩ := hbelow
      exact (ht.entry?_below hnot (by simpa using hloc)).symm
    · rfl

theorem Rooted.isFolderAt_remove (ht : t.Rooted) {own : Location} (hnot : t.isFolderAt own = false)
    (loc : Location) : (t.remove own).isFolderAt loc = t.isFolderAt loc := by
  unfold isFolderAt at hnot ⊢
  rw [ht.entry?_remove hnot]
  by_cases hloc : loc = own
  · rw [if_pos hloc, hloc, hnot]
  · rw [if_neg hloc]

theorem Rooted.remove (ht : t.Rooted) {own : Location} (hnot : t.isFolderAt own = false) :
    (t.remove own).Rooted := by
  intro loc hsome
  rw [ht.isFolderAt_remove hnot]
  rw [ht.entry?_remove hnot] at hsome
  split at hsome
  · cases hsome
  · exact ht hsome

theorem Rooted.put (ht : t.Rooted) {own : Location} (hnot : t.isFolderAt own = false)
    (hparent : t.isFolderAt own.dropLast) (entry : Entry) : (t.put own entry).Rooted := by
  have hown : own ≠ [] := by
    rintro rfl
    cases hnot
  have hkept {loc : Location} (hfolder : t.isFolderAt loc) : (t.put own entry).isFolderAt loc := by
    have hne : loc ≠ own := by
      rintro rfl
      rw [hnot] at hfolder
      cases hfolder
    unfold isFolderAt at hfolder ⊢
    rw [entry?_put hown, if_neg hne]
    exact hfolder
  intro loc hsome
  rw [entry?_put hown] at hsome
  split at hsome
  · rename_i hloc
    rw [hloc]
    exact hkept hparent
  · exact hkept (ht hsome)

theorem Rooted.isFolderAt_parent (ht : t.Rooted) (hstands : t.Stands place) :
    t.isFolderAt place.loc.dropLast := by
  cases place with
  | free loc => exact hstands.2
  | taken loc entry =>
      rw [Stands] at hstands
      exact ht (by rw [Place.loc, hstands]; rfl)

/-- `t'` is `t` with a file in a place that was free, or had another file. -/
structure Fills (t : FileTree) (own : Location) (f : File) (t' : FileTree) : Prop where
  entry? : ∀ loc, t'.entry? loc = if loc = own then some (.file f) else t.entry? loc
  before : t.Stands (.free own) ∨ ∃ old, t.Stands (.taken own (.file old))

/-- A place in the tree once a file is there. -/
def filled (own : Location) (f : File) : Place → Place
  | .taken loc entry => .taken loc (if loc = own then .file f else entry)
  | .free loc => if loc = own then .taken loc (.file f) else .free loc

@[simp]
theorem filled_loc (own : Location) (f : File) (place : Place) :
    (filled own f place).loc = place.loc := by
  cases place with
  | taken => rfl
  | free loc =>
      by_cases hloc : loc = own <;> simp [filled, Place.loc, hloc]

section fills

variable {own : Location} {f : File}

theorem ne_nil_of_stands
    (hbefore : t.Stands (.free own) ∨ ∃ old, t.Stands (.taken own (.file old))) : own ≠ [] := by
  refine ne_nil_of_entry? (t := t) fun mode hmode => ?_
  obtain ⟨hnone, -⟩ | ⟨old, hold⟩ := hbefore
  · cases hnone.symm.trans hmode
  · cases hold.symm.trans hmode

theorem fills_put (hbefore : t.Stands (.free own) ∨ ∃ old, t.Stands (.taken own (.file old)))
    (f : File) : t.Fills own f (t.put own (.file f)) :=
  ⟨entry?_put (ne_nil_of_stands hbefore) _, hbefore⟩

theorem Fills.isFolderAt (h : Fills t own f t') (loc : Location) :
    t'.isFolderAt loc = t.isFolderAt loc := by
  unfold FileTree.isFolderAt
  rw [h.entry?]
  by_cases hloc : loc = own
  · subst hloc
    obtain ⟨hnone, -⟩ | ⟨old, hold⟩ := h.before
    · rw [if_pos rfl, hnone]
    · rw [if_pos rfl, hold]
  · rw [if_neg hloc]

theorem Fills.rooted (h : Fills t own f t') (ht : t.Rooted) : t'.Rooted := by
  intro loc hsome
  rw [h.isFolderAt]
  rw [h.entry?] at hsome
  split at hsome
  · rename_i hloc
    subst hloc
    obtain ⟨-, hparent⟩ | ⟨old, hold⟩ := h.before
    · exact hparent
    · exact ht (by rw [hold]; rfl)
  · exact ht hsome

theorem Fills.ne_of_link (h : Fills t own f t') {target : String}
    (hlink : t.entry? loc = some (.link target)) : loc ≠ own := by
  rintro rfl
  obtain ⟨hnone, -⟩ | ⟨old, hold⟩ := h.before
  · cases hlink.symm.trans hnone
  · cases hlink.symm.trans hold

/-- A path leads in the new tree where it led in the old one: to the file itself if it led there or to
the free place before. -/
theorem Fills.toOption_walk (h : Fills t own f t') (ht : t.Rooted) (hloc : (t.entry? loc).isSome) :
    (t'.walk last links loc todo).toOption =
      (t.walk last links loc todo).toOption.map (filled own f) := by
  fun_induction FileTree.walk t last links loc todo with
  | case1 links loc entry hentry =>
      simp only [FileTree.walk, h.entry?, hentry]
      by_cases hw : loc = own <;> simp [hw, filled, Except.toOption]
  | case2 links loc hnone =>
      rw [hnone] at hloc
      cases hloc
  | case3 | case6 => simp [FileTree.walk, h.isFolderAt, Except.toOption, *]
  | case4 => simp [FileTree.walk, h.isFolderAt, *]
  | case5 links loc step rest _ _ _ ih =>
      simpa [FileTree.walk, h.isFolderAt, *] using ih (isSome_of_isFolderAt (ht hloc))
  | case7 links loc step rest _ _ _ _ next hnone hrest =>
      obtain rfl := List.isEmpty_iff.mp hrest
      by_cases hw : loc ++ [step] = own <;>
        simp +zetaDelta [FileTree.walk, h.isFolderAt, h.entry?, Except.toOption, filled, *]
  | case8 links loc step rest _ _ _ _ next hnone hrest =>
      -- Where there is a file now, the walk goes on, and ends as no folder is there.
      obtain ⟨name, rest, rfl⟩ := List.exists_cons_of_ne_nil (mt List.isEmpty_iff.mpr hrest)
      have hnot : t.isFolderAt (loc ++ [step]) = false := by rw [FileTree.isFolderAt, hnone]
      by_cases hw : loc ++ [step] = own
      · rw [hw] at hnot
        simp +zetaDelta [FileTree.walk, h.isFolderAt, h.entry?, Except.toOption, *]
      · simp +zetaDelta [FileTree.walk, h.isFolderAt, h.entry?, Except.toOption, *]
  | case9 links loc step rest _ _ _ _ next target hlink =>
      have hne := h.ne_of_link hlink
      simp +zetaDelta [FileTree.walk, h.isFolderAt, h.entry?, Except.toOption, filled, *] at hne ⊢
  | case10 loc step rest _ _ _ _ next target hlink | case11 loc step rest _ _ _ _ next target hlink =>
      have hne := h.ne_of_link hlink
      simp +zetaDelta [FileTree.walk, h.isFolderAt, h.entry?, Except.toOption, *] at hne ⊢
  | case12 loc step rest hfolder _ _ _ next target hlink _ links _ start ih =>
      have hne := h.ne_of_link hlink
      have hstart : (t.entry? start).isSome := by
        unfold start
        split
        · rfl
        · exact hloc
      simpa +zetaDelta [FileTree.walk, h.isFolderAt, h.entry?, *] using ih hstart
  | case13 links loc step rest _ _ _ _ next entry hnolink hentry ih =>
      have hlater := ih (by rw [hentry]; rfl)
      cases entry with
      | link target => exact (hnolink target rfl).elim
      | folder | file =>
          by_cases hw : loc ++ [step] = own
          · simpa +zetaDelta [FileTree.walk, h.isFolderAt, h.entry?, *] using hlater
          · simp +zetaDelta [FileTree.walk, h.isFolderAt, h.entry?, *]

theorem Fills.toOption_find (h : Fills t own f t') (ht : t.Rooted) (hhere : t.isFolderAt here)
    (path : String) (last : Bool) :
    (t'.find here path last).toOption = (t.find here path last).toOption.map (filled own f) := by
  have hstart : (t.entry? (if path.startsWith "/" then [] else here)).isSome := by
    split
    · rfl
    · exact isSome_of_isFolderAt hhere
  unfold find trace
  split
  · rfl
  · split
    · rfl
    · split
      · rfl
      · exact h.toOption_walk ht hstart

theorem Fills.find_of_ok (h : Fills t own f t') (ht : t.Rooted) (hhere : t.isFolderAt here)
    {path : String} (hfind : t.find here path last = .ok place) :
    t'.find here path last = .ok (filled own f place) := by
  have hsame := h.toOption_find ht hhere path last
  rw [hfind] at hsame
  cases hfind' : t'.find here path last with
  | error cause =>
      rw [hfind'] at hsame
      cases hsame
  | ok place' =>
      rw [hfind'] at hsame
      exact congrArg Except.ok (Option.some.inj hsame)

theorem Fills.find_of_error (h : Fills t own f t') (ht : t.Rooted) (hhere : t.isFolderAt here)
    {path : String} {cause : SystemError} (hfind : t.find here path last = .error cause) :
    ∃ cause', t'.find here path last = .error cause' := by
  have hsame := h.toOption_find ht hhere path last
  rw [hfind] at hsame
  cases hfind' : t'.find here path last with
  | error cause' => exact ⟨cause', rfl⟩
  | ok place =>
      rw [hfind'] at hsame
      cases hsame

/-- Writing fills the place that the path leads to. -/
theorem write_fills {path : String} {content : Text.Bytes}
    (hwrite : t.write here path content = .ok t') :
    ∃ own f, t.Fills own f t' ∧
      (t.find here path true = .ok (.free own) ∧ f = { content } ∨
        ∃ old, t.find here path true = .ok (.taken own (.file old)) ∧
          f = { old with content, program := .text }) := by
  unfold write at hwrite
  cases hfind : t.find here path true with
  | error cause =>
      rw [hfind] at hwrite
      cases hwrite
  | ok place =>
      have hstands := find_stands hfind
      rw [hfind] at hwrite
      cases place with
      | free own =>
          cases hwrite
          exact ⟨own, { content }, fills_put (.inl hstands) _, .inl ⟨rfl, rfl⟩⟩
      | taken own entry =>
          cases entry with
          | file old =>
              cases hwrite
              exact ⟨own, { old with content, program := .text }, fills_put (.inr ⟨old, hstands⟩) _,
                .inr ⟨old, rfl, rfl⟩⟩
          | folder | link => cases hwrite

/-- What has the name of a file that has been written: the file, in a place that was free, or what had
the name before, which is the file that was there or a link that leads to it. -/
theorem Fills.exists_source (h : Fills t own f t') (ht : t.Rooted) (hhere : t.isFolderAt here)
    {path : String} (hplace : t.find here path true = .ok (.free own) ∨
      ∃ old, t.find here path true = .ok (.taken own (.file old))) :
    ∃ source entry, t'.find here path false = .ok (.taken source entry) ∧
      t'.isFolderAt source = false ∧
      (t.find here path false = .ok (.free own) ∧ source = own ∨
        ∃ old, t.find here path false = .ok (.taken source old)) := by
  obtain hsame | ⟨source, target, hlink⟩ := t.find_last here path
  · have hnot : t'.isFolderAt own = false := by rw [FileTree.isFolderAt, h.entry?, if_pos rfl]
    obtain hfree | ⟨old, hold⟩ := hplace
    · refine ⟨own, .file f, ?_, hnot, .inl ⟨hsame.trans hfree, rfl⟩⟩
      simpa [filled] using h.find_of_ok ht hhere (hsame.trans hfree)
    · refine ⟨own, .file f, ?_, hnot, .inr ⟨_, hsame.trans hold⟩⟩
      simpa [filled] using h.find_of_ok ht hhere (hsame.trans hold)
  · have hstands : t.entry? source = some (.link target) := find_stands hlink
    refine ⟨source, .link target, ?_, ?_, .inr ⟨_, hlink⟩⟩
    · simpa [filled, h.ne_of_link hstands] using h.find_of_ok ht hhere hlink
    · rw [h.isFolderAt, FileTree.isFolderAt, hstands]

end fills

theorem dropSlashes_eq {path : String} (hslash : path.endsWith "/" = false) :
    dropSlashes path = path := by
  have hkept : Text.dropEndWhile (· == '/') path.toList = path.toList := by
    unfold Text.dropEndWhile
    cases hlast : path.toList.reverse with
    | nil => simpa using hlast.symm
    | cons c before =>
      have hc : (c == '/') = false := by
        refine beq_eq_false_iff_ne.mpr ?_
        rintro rfl
        have hends : path.endsWith "/" := (Text.endsWith_slash_iff path).mpr
          ⟨before.reverse, by rw [← List.reverse_cons, ← hlast, List.reverse_reverse]⟩
        rw [hslash] at hends
        cases hends
      rw [List.dropWhile_cons, hc, ← hlast]
      simp
  unfold dropSlashes
  simp [hkept]

theorem findNew_eq {path : String} (hslash : path.endsWith "/" = false) :
    t.findNew here path = t.find here path false := by
  rw [findNew, find, dropSlashes_eq hslash]

section rename

variable {old new : String} {source : Location} {entry : Entry}

theorem rename_slash (t : FileTree) (here : Location) (old : String) (hslash : new.endsWith "/") :
    ∃ cause, t.rename here old new = .error cause := by
  unfold rename
  cases t.find here old false with
  | error cause => exact ⟨cause, rfl⟩
  | ok place =>
      cases place with
      | free => exact ⟨_, rfl⟩
      | taken source entry =>
          cases hnew : t.findNew here new with
          | error cause => exact ⟨cause, by simp [bind, Except.bind]⟩
          | ok place =>
              cases place with
              | free => exact ⟨.notFolder, by simp [bind, Except.bind, hslash]⟩
              | taken target entry =>
                  cases entry with
                  | folder =>
                      simp only [bind, Except.bind]
                      split <;> exact ⟨_, rfl⟩
                  | file | link => exact ⟨.notFolder, by simp [bind, Except.bind, hslash]⟩

theorem rename_error (hslash : new.endsWith "/" = false)
    {cause : SystemError} (hsource : t.find here old false = .ok (.taken source entry))
    (hnew : t.find here new false = .error cause) : t.rename here old new = .error cause := by
  simp [rename, hsource, findNew_eq hslash, hnew, bind, Except.bind]

/-- What gets a name in the place of something else is there then, and no longer in its own place. -/
theorem rename_ok (ht : t.Rooted) (hslash : new.endsWith "/" = false)
    (hsource : t.find here old false = .ok (.taken source entry))
    (hnot : t.isFolderAt source = false) (hnew : t.find here new false = .ok place)
    (hfree : t.isFolderAt place.loc = false) :
    ∃ after, t.rename here old new = .ok after ∧ after.Rooted ∧
      ∀ loc, after.entry? loc =
        if loc = place.loc then some entry else if loc = source then none else t.entry? loc := by
  have hrename : t.rename here old new =
      .ok (if place.loc = source then t else (t.remove source).put place.loc entry) := by
    have hstands := find_stands hnew
    cases place with
    | free target =>
        have hne : target ≠ source := by
          rintro rfl
          cases hstands.1.symm.trans (find_stands hsource)
        simp [rename, hsource, findNew_eq hslash, hnew, bind, Except.bind, hslash, Place.loc, hne]
    | taken target other =>
        cases other with
        | folder mode =>
            rw [Place.loc, isFolderAt_iff.mpr ⟨mode, hstands⟩] at hfree
            cases hfree
        | file | link =>
            by_cases hsame : target = source <;>
              simp [rename, hsource, findNew_eq hslash, hnew, bind, Except.bind, hslash, Place.loc,
                hsame]
  refine ⟨_, hrename, ?_⟩
  by_cases hsame : place.loc = source
  · rw [if_pos hsame, hsame]
    refine ⟨ht, fun loc => ?_⟩
    split
    · rename_i hloc
      exact hloc ▸ find_stands hsource
    · rfl
  · rw [if_neg hsame]
    have htarget : place.loc ≠ [] := by
      intro hnil
      rw [hnil] at hfree
      cases hfree
    refine ⟨(ht.remove hnot).put ?_ ?_ entry, fun loc => ?_⟩
    · rw [ht.isFolderAt_remove hnot, hfree]
    · rw [ht.isFolderAt_remove hnot]
      exact ht.isFolderAt_parent (find_stands hnew)
    · rw [entry?_put htarget, ht.entry?_remove hnot]

end rename

end FileTree

end CodeAssist
