import CodeAssist.Settings
import CodeAssist.Proofs.Host.FileTree
import CodeAssist.Proofs.Text

namespace CodeAssist

namespace Settings

/-! What writing settings to a new path leaves of a tree. The temporary name is made from the path, and
nothing keeps it from being the name of something else. -/

open FileTree

/-- A path under which a file can stand: it has no slash at its end, and its own place, free or taken,
is in a folder. -/
def Nameable (tree : FileTree) (here : Location) (path : String) : Prop :=
  path.endsWith "/" = false ∧ ∃ place, tree.find here path false = .ok place

/-- An attempt to write the content to a new path that has succeeded and done nothing else, or that has
failed and done nothing. -/
def Clean (tree : FileTree) (here : Location) (path : String) (content : Text.Bytes) :
    Except SettingsError Unit × FileTree → Prop
  | (.ok (), after) =>
      tree.has here path = false ∧
        ∃ place, tree.find here path false = .ok place ∧
          ∀ loc, after.entry? loc =
            if loc = place.loc then some (.file { content }) else tree.entry? loc
  | (.error _, after) => ∀ loc, after.entry? loc = tree.entry? loc

variable {tree written after : FileTree} {here own source : Location} {f : File}
  {entry old : Entry} {place : Place} {s : Settings} {path : Path} {name : String}
  {content : Text.Bytes}

/-- From a place that was free it leaves no trace. -/
theorem clean_of_free (hhas : tree.has here name = false)
    (hnew : tree.find here name false = .ok place) (hfills : tree.Fills own { content } written)
    (hfree : tree.entry? own = none)
    (hafter : ∀ loc, after.entry? loc = if loc = place.loc then some (.file { content })
      else if loc = own then none else written.entry? loc) :
    Clean tree here name content (.ok (), after) := by
  refine ⟨hhas, place, hnew, fun loc => ?_⟩
  rw [hafter, hfills.entry?]
  by_cases hloc : loc = own
  · rw [if_pos hloc, hloc, hfree]
  · rw [if_neg hloc, if_neg hloc]

/-- What had its name before is gone. -/
theorem not_clean_of_taken (hhas : tree.has here name = false)
    (hnew : tree.find here name false = .ok place) (hfills : tree.Fills own f written)
    (hentry : written.entry? source = some entry) (hold : tree.entry? source = some old)
    (hafter : ∀ loc, after.entry? loc =
      if loc = place.loc then some entry else if loc = source then none else written.entry? loc) :
    ¬Clean tree here name content (.ok (), after) := by
  rintro ⟨-, place', hnew', hclean⟩
  cases hnew.symm.trans hnew'
  have hsame := (hafter source).symm.trans (hclean source)
  by_cases hloc : source = place.loc
  · -- What has both names is a link, and no file.
    rw [if_pos hloc, if_pos hloc] at hsame
    obtain hnone | ⟨target, hlink⟩ := own_of_not_has hhas hnew
    · cases hold.symm.trans (hloc ▸ hnone)
    · rw [← hloc] at hlink
      rw [hfills.entry?, if_neg (hfills.ne_of_link hlink), hlink] at hentry
      rw [← hentry] at hsame
      cases hsame
  · rw [if_neg hloc, if_pos rfl, if_neg hloc, hold] at hsame
    cases hsame

/-- The temporary file gets its name. That is clean unless something else had the temporary name. -/
theorem writeNew_of_nameable (ht : tree.Rooted) (hhere : tree.isFolderAt here)
    (hhas : tree.has here path.text = false)
    (hwrite : tree.write here (temporaryFile path).text (Text.encode s.toJson.pretty) = .ok written)
    (hname : Nameable tree here path.text) :
    ∃ after, s.writeNew tree here path = (.ok (), after) ∧ after.Rooted ∧
      (Clean tree here path.text (Text.encode s.toJson.pretty) (.ok (), after) ↔
        ∃ loc, tree.find here (temporaryFile path).text false = .ok (.free loc)) := by
  obtain ⟨own, f, hfills, hplace⟩ := write_fills hwrite
  obtain ⟨hslash, place, hnew⟩ := hname
  obtain ⟨source, entry, hsource, hnot, hbefore⟩ :=
    hfills.exists_source ht hhere (hplace.imp And.left fun ⟨old, hold, _⟩ => ⟨old, hold⟩)
  have hfree : written.isFolderAt (filled own f place).loc = false := by
    rw [filled_loc, hfills.isFolderAt, isFolderAt_of_not_has hhas hnew]
  obtain ⟨after, hrename, hrooted, hafter⟩ := rename_ok (hfills.rooted ht) hslash hsource hnot
    (hfills.find_of_ok ht hhere hnew) hfree
  refine ⟨after, by simp only [writeNew, hhas, hwrite, hrename]; rfl, hrooted, ?_⟩
  rw [filled_loc] at hafter
  have hentry : written.entry? source = some entry := find_stands hsource
  obtain ⟨hown, rfl⟩ | ⟨old, hold⟩ := hbefore
  · refine iff_of_true ?_ ⟨source, hown⟩
    rw [hfills.entry?, if_pos rfl, Option.some_inj] at hentry
    obtain ⟨-, rfl⟩ | ⟨old, hold, -⟩ := hplace
    · exact clean_of_free hhas hnew hfills (find_stands hown).1 (hentry ▸ hafter)
    · cases (find_true_of_free hown).symm.trans hold
  · refine iff_of_false
      (not_clean_of_taken hhas hnew hfills hentry (find_stands hold) hafter) ?_
    rintro ⟨loc, hfree⟩
    cases hfree.symm.trans hold

/-- The temporary file does not get its name, and stays. That is clean only if there was such a file
before. -/
theorem writeNew_of_not_nameable (ht : tree.Rooted) (hhere : tree.isFolderAt here)
    (hhas : tree.has here path.text = false)
    (hwrite : tree.write here (temporaryFile path).text (Text.encode s.toJson.pretty) = .ok written)
    (hname : ¬Nameable tree here path.text) :
    ∃ cause, s.writeNew tree here path = (.error (.notRenamed cause), written) ∧ written.Rooted ∧
      (Clean tree here path.text (Text.encode s.toJson.pretty) (.error (.notRenamed cause), written) ↔
        ∃ loc file, tree.find here (temporaryFile path).text true = .ok (.taken loc (.file file)) ∧
          file.content = Text.encode s.toJson.pretty ∧ file.program = .text) := by
  obtain ⟨own, f, hfills, hplace⟩ := write_fills hwrite
  obtain ⟨cause, hrename⟩ :
      ∃ cause, written.rename here (temporaryFile path).text path.text = .error cause := by
    by_cases hslash : path.text.endsWith "/"
    · exact rename_slash written here _ hslash
    · rw [Bool.not_eq_true] at hslash
      obtain ⟨source, entry, hsource, -⟩ :=
        hfills.exists_source ht hhere (hplace.imp And.left fun ⟨old, hold, _⟩ => ⟨old, hold⟩)
      cases hnew : tree.find here path.text false with
      | error cause =>
          obtain ⟨cause', hnew'⟩ := hfills.find_of_error ht hhere hnew
          exact ⟨cause', rename_error hslash hsource hnew'⟩
      | ok place => exact (hname ⟨hslash, place, hnew⟩).elim
  refine ⟨cause, by simp only [writeNew, hhas, hwrite, hrename]; rfl, hfills.rooted ht, ?_⟩
  constructor
  · intro hclean
    have hsame := (hfills.entry? own).symm.trans (hclean own)
    rw [if_pos rfl] at hsame
    obtain ⟨hfree, -⟩ | ⟨old, hold, rfl⟩ := hplace
    · cases hsame.trans (find_stands hfree).1
    · cases old
      cases hsame.trans (find_stands hold)
      exact ⟨own, _, hold, rfl, rfl⟩
  · rintro ⟨loc, file, hfile, hcontent, hprogram⟩ loc'
    obtain ⟨hfree, -⟩ | ⟨old, hold, rfl⟩ := hplace
    · cases hfile.symm.trans hfree
    · cases hfile.symm.trans hold
      rw [hfills.entry?, ← hcontent, ← hprogram]
      split
      · rename_i hloc
        rw [hloc, find_stands hold]
      · rfl

theorem readText_of_clean (ht : tree.Rooted) (hhere : tree.isFolderAt here) {text : String}
    (hclean : Clean tree here name (Text.encode text) (.ok (), after))
    (hfree : tree.find here name false = .ok (.free own)) :
    after.readText here name = .ok text := by
  obtain ⟨-, place, hplace, hafter⟩ := hclean
  cases hfree.symm.trans hplace
  have hfills : tree.Fills own { content := Text.encode text } after :=
    ⟨hafter, .inl (find_stands hfree)⟩
  have hfind := hfills.find_of_ok ht hhere (find_true_of_free hfree)
  simp [readText, lookup, hfind, filled, bind, Except.bind, Text.decode?_eq_some_iff.mpr rfl]

/-- Writing settings to a path in any tree, by what the path and the temporary name are there. It is
refused where something exists, fails where the temporary file cannot be written or cannot get its
name, and succeeds otherwise. It is clean when it is refused, when nothing is written, when the
temporary name was free and the file got its own, and when the file that it left behind was there
before, with the same content; and never else. Where the path's own place was free, reading it gives
what has been written. -/
theorem writeNew_clean_iff (ht : tree.Rooted) (hhere : tree.isFolderAt here) (s : Settings)
    (path : Path) :
    let temporary := (temporaryFile path).text
    let content := Text.encode s.toJson.pretty
    let attempt := s.writeNew tree here path
    attempt.2.Rooted ∧
    (attempt.1 = .ok () ↔ tree.has here path.text = false ∧
      (∃ written, tree.write here temporary content = .ok written) ∧
      Nameable tree here path.text) ∧
    (Clean tree here path.text content attempt ↔
      tree.has here path.text ∨
      (∃ cause, tree.write here temporary content = .error cause) ∨
      (Nameable tree here path.text ∧ ∃ loc, tree.find here temporary false = .ok (.free loc)) ∨
      ¬Nameable tree here path.text ∧ ∃ loc file,
        tree.find here temporary true = .ok (.taken loc (.file file)) ∧
          file.content = content ∧ file.program = .text) ∧
    ∀ loc, attempt.1 = .ok () → Clean tree here path.text content attempt →
      tree.find here path.text false = .ok (.free loc) →
        attempt.2.readText here path.text = .ok s.toJson.pretty := by
  intro temporary content attempt
  have hreads (loc : Location) (hok : attempt.1 = .ok ())
      (hclean : Clean tree here path.text content attempt)
      (hfree : tree.find here path.text false = .ok (.free loc)) :
      attempt.2.readText here path.text = .ok s.toJson.pretty := by
    obtain ⟨result, after⟩ := attempt
    cases hok
    exact readText_of_clean ht hhere hclean hfree
  refine and_assoc.mp (and_assoc.mp ⟨?_, hreads⟩)
  cases hhas : tree.has here path.text with
  | true =>
      have hattempt : attempt = (.error (.alreadyExists path), tree) := by
        simp [attempt, writeNew, hhas]
      rw [hattempt]
      simp [ht, Clean]
  | false =>
      cases hwrite : tree.write here temporary content with
      | error cause =>
          have hattempt : attempt = (.error (.notWritten cause), tree) := by
            simp +zetaDelta [writeNew, hhas] at hwrite ⊢
            rw [hwrite]
          rw [hattempt]
          simp [ht, Clean]
      | ok written =>
          by_cases hname : Nameable tree here path.text
          · obtain ⟨after, hattempt, hrooted, hclean⟩ := writeNew_of_nameable ht hhere hhas hwrite hname
            simp only [attempt, hattempt]
            simp [hname, hrooted, hclean, temporary, content]
          · obtain ⟨cause, hattempt, hrooted, hclean⟩ :=
              writeNew_of_not_nameable ht hhere hhas hwrite hname
            simp only [attempt, hattempt]
            simp [hname, hrooted, hclean, temporary, content]

namespace Trial

/-- The only file has the name that a temporary file is going to get. -/
def occupied : FileTree := ⟨[(["settings.tmp"], .file {})]⟩

theorem occupied_rooted : occupied.Rooted := by
  intro loc hsome
  by_cases hnil : loc = []
  · rw [hnil]
    rfl
  · have hloc : loc = ["settings.tmp"] := by
      by_contra hne
      have hbeq : (loc == ["settings.tmp"]) = false := beq_eq_false_iff_ne.mpr hne
      rw [entry?_of_ne_nil hnil] at hsome
      simp [occupied, List.lookup_cons, hbeq] at hsome
    rw [hloc]
    rfl

theorem plain_settings : Plain "settings.json" ∧ Plain "settings.tmp" := by
  constructor <;> constructor <;> decide

theorem temporaryFile_settings : (temporaryFile ⟨"settings.json"⟩).text = "settings.tmp" := by
  have hname : (Path.mk "settings.json").fileName? = some "settings.json" := by
    have hcomponents : (Path.mk "settings.json").components = [.entry "settings.json"] :=
      Path.components_of_pieces (Path.pieces_of_name plain_settings.1.no_slash (by decide))
        (by simp [Path.isAbsolute]) (by decide) (by decide)
    rw [Path.fileName?, hcomponents]
    rfl
  rw [temporaryFile, Path.withExtension, hname]
  decide

end Trial

/-- The attempt succeeds, and the other file is gone. -/
theorem writeNew_clean_iff_occupied :
    let attempt := (standard 1).writeNew Trial.occupied [] ⟨"settings.json"⟩
    Trial.occupied.Rooted ∧ Trial.occupied.isFolderAt [] ∧ attempt.1 = .ok () ∧
      ¬Clean Trial.occupied [] "settings.json" (Text.encode (standard 1).toJson.pretty) attempt := by
  intro attempt
  obtain ⟨hjson, htmp⟩ := Trial.plain_settings
  have hfree (last : Bool) :
      Trial.occupied.find [] "settings.json" last = .ok (.free ["settings.json"]) :=
    find_plain hjson rfl nofun
  have htaken (last : Bool) :
      Trial.occupied.find [] "settings.tmp" last = .ok (.taken ["settings.tmp"] (.file {})) :=
    find_plain htmp rfl nofun
  obtain ⟨-, hok, hclean, -⟩ :=
    @writeNew_clean_iff _ [] Trial.occupied_rooted rfl (standard 1) ⟨"settings.json"⟩
  rw [Trial.temporaryFile_settings] at hok hclean
  have hnew : Trial.occupied.has [] "settings.json" = false := Bool.eq_false_iff.mpr fun hhas => by
    obtain ⟨loc, entry, hthere⟩ := has_iff.mp hhas
    cases (hfree true).symm.trans hthere
  have hwritten (content : Text.Bytes) :
      ∃ written, Trial.occupied.write [] "settings.tmp" content = .ok written := by
    simp only [write, htaken, bind, Except.bind]
    exact ⟨_, rfl⟩
  have hname : Nameable Trial.occupied [] "settings.json" :=
    ⟨hjson.endsWith_slash, _, hfree false⟩
  refine ⟨Trial.occupied_rooted, rfl, hok.mpr ⟨hnew, hwritten _, hname⟩, fun hdone => ?_⟩
  obtain hhas | ⟨cause, hfails⟩ | ⟨-, loc, hloc⟩ | ⟨hnot, -⟩ := hclean.mp hdone
  · cases hnew.symm.trans hhas
  · obtain ⟨written, hwrite⟩ := hwritten _
    cases hwrite.symm.trans hfails
  · cases (htaken false).symm.trans hloc
  · exact hnot hname

end Settings

end CodeAssist
