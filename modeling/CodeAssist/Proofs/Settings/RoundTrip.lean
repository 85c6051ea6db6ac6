import CodeAssist.Proofs.Json.Indented
import CodeAssist.Proofs.Settings.Stated

namespace CodeAssist

open Json (Defaulted Nullable Regular Unsigned maxDepth)

/-- A selection that its text gives back. -/
def Selection.Kept (selection : Selection) : Prop :=
  selection = .auto ∨ ∃ path, selection = .path path ∧ path.text ≠ "" ∧
    ¬Text.sameIgnoringCase path.text "auto"

namespace Selection

theorem kept_ofText (text : String) : (ofText text).Kept := by
  by_cases h : text = "" ∨ Text.sameIgnoringCase text "auto"
  · exact .inl (ofText_eq_auto h)
  · obtain ⟨hempty, hauto⟩ := not_or.mp h
    exact .inr ⟨_, ofText_eq_path hempty hauto, hempty, hauto⟩

theorem ofText_text_of_kept {selection : Selection} (h : selection.Kept) :
    ofText selection.text = selection := by
  obtain rfl | ⟨path, rfl, hempty, hauto⟩ := h
  · rfl
  · exact ofText_eq_path hempty hauto

theorem kept_of_same {selection : Selection}
    (h : (ofText selection.text).same selection) : selection.Kept := by
  cases selection with
  | auto => exact .inl rfl
  | path path =>
      refine .inr ⟨path, rfl, ?_⟩
      rw [← not_or]
      intro hauto
      have hread : (ofText path.text).same (.path path) := h
      rw [ofText_eq_auto hauto] at hread
      cases hread

end Selection

namespace Settings

/-- Every number is one of its integer type. -/
structure Fits (s : Settings) : Prop where
  port : s.port < 2 ^ 16
  toolTimeoutMs : s.toolTimeoutMs < 2 ^ 64
  drainTimeoutMs : s.drainTimeoutMs < 2 ^ 64
  probeTimeoutMs : s.probeTimeoutMs < 2 ^ 64
  maxWorkers : s.maxWorkers < 2 ^ 64
  lineLength : ∀ n ∈ s.lineLength, n < 2 ^ 32

/-- Equal as settings are compared: paths by their components. -/
structure Same (s t : Settings) : Prop where
  interpreter : s.interpreter.same t.interpreter
  kind : s.kind = t.kind
  root : s.root.same t.root
  host : s.host = t.host
  port : s.port = t.port
  toolTimeoutMs : s.toolTimeoutMs = t.toolTimeoutMs
  drainTimeoutMs : s.drainTimeoutMs = t.drainTimeoutMs
  probeTimeoutMs : s.probeTimeoutMs = t.probeTimeoutMs
  maxWorkers : s.maxWorkers = t.maxWorkers
  lineLength : s.lineLength = t.lineLength

theorem Same.refl (s : Settings) : s.Same s where
  interpreter := by
    cases s.interpreter with
    | auto => rfl
    | path path => exact beq_self_eq_true path.components
  kind := rfl
  root := beq_self_eq_true s.root.components
  host := rfl
  port := rfl
  toolTimeoutMs := rfl
  drainTimeoutMs := rfl
  probeTimeoutMs := rfl
  maxWorkers := rfl
  lineLength := rfl

variable {base s : Settings}

theorem isRecord_toJson (s : Settings) : s.toJson.IsRecord names := by
  cases hk : s.kind <;> cases hl : s.lineLength <;> simp [toJson, hk, hl, Json.IsRecord]

theorem given_toJson (s : Settings) :
    s.toJson.given? names "interpreter" = some (.text s.interpreter.text) ∧
    s.toJson.given? names "kind" = s.kind.map (fun kind => .text kind.name) ∧
    s.toJson.given? names "root" = some (.text s.root.text) ∧
    s.toJson.given? names "host" = some (.text s.host) ∧
    s.toJson.given? names "port" = some (.ofNat s.port) ∧
    s.toJson.given? names "tool_timeout_ms" = some (.ofNat s.toolTimeoutMs) ∧
    s.toJson.given? names "drain_timeout_ms" = some (.ofNat s.drainTimeoutMs) ∧
    s.toJson.given? names "probe_timeout_ms" = some (.ofNat s.probeTimeoutMs) ∧
    s.toJson.given? names "max_workers" = some (.ofNat s.maxWorkers) ∧
    s.toJson.given? names "line_length" = s.lineLength.map .ofNat := by
  cases hk : s.kind <;> cases hl : s.lineLength <;>
    simp [toJson, hk, hl, Json.given?, Json.lookup_cons_if]

/-- What is written of settings stands for them, but that the selection is read from its text. -/
theorem stated_toJson (hs : s.Fits) (hkind : base.kind = none) (hline : base.lineLength = none) :
    base.Stated s.toJson { s with interpreter := .ofText s.interpreter.text } := by
  obtain ⟨hinterpreter, hgivenKind, hroot, hhost, hport, htool, hdrain, hprobe, hworkers,
    hgivenLine⟩ := s.given_toJson
  exact {
    record := s.isRecord_toJson
    interpreter := hinterpreter ▸ .given ((Selection.written_iff _ _).mpr ⟨_, rfl, rfl⟩)
    kind := by
      rw [hgivenKind, hkind]
      cases s.kind with
      | none => exact .absent
      | some kind => exact .given (.given (.name kind))
    root := hroot ▸ .given rfl
    host := hhost ▸ .given rfl
    port := hport ▸ .given (.number hs.port)
    toolTimeoutMs := htool ▸ .given (.number hs.toolTimeoutMs)
    drainTimeoutMs := hdrain ▸ .given (.number hs.drainTimeoutMs)
    probeTimeoutMs := hprobe ▸ .given (.number hs.probeTimeoutMs)
    maxWorkers := hworkers ▸ .given (.number hs.maxWorkers)
    lineLength := by
      rw [hgivenLine, hline]
      cases hl : s.lineLength with
      | none => exact .absent
      | some n => exact .given (.given (.number (hs.lineLength n hl))) }

/-- The settings are written without brackets inside the object, and with integers of 64 bits. -/
theorem regular_toJson (hs : s.Fits) : ∃ members, s.toJson = .object members ∧
    ∀ member ∈ members, ∀ depth, Regular depth member.2 := by
  have htext (text : String) (depth : Nat) : Regular depth (.text text) := by
    cases depth <;> trivial
  have hnumber {n : Nat} (hn : n < 2 ^ 64) (depth : Nat) : Regular depth (.ofNat n) := by
    have hrange : -2 ^ 63 ≤ (n : Int) ∧ (n : Int) < 2 ^ 64 := by omega
    cases depth <;> exact hrange
  have hport : s.port < 2 ^ 64 := Nat.lt_trans hs.port (by decide)
  refine ⟨_, rfl, fun member hmem => ?_⟩
  simp only [List.mem_append, List.mem_cons, List.not_mem_nil, or_false, List.mem_map,
    Option.mem_toList] at hmem
  obtain ((rfl | ⟨kind, -, rfl⟩) | rfl | rfl | rfl | rfl | rfl | rfl | rfl) | ⟨n, hn, rfl⟩ := hmem
  · exact htext _
  · exact htext _
  · exact htext _
  · exact htext _
  · exact hnumber hport
  · exact hnumber hs.toolTimeoutMs
  · exact hnumber hs.drainTimeoutMs
  · exact hnumber hs.probeTimeoutMs
  · exact hnumber hs.maxWorkers
  · exact hnumber (Nat.lt_trans (hs.lineLength n hn) (by decide))

/-- A text that settings are written as. -/
inductive Writes (s : Settings) : String → Prop
  | compact : Writes s s.toJson.compact
  | pretty : Writes s s.toJson.pretty

theorem read_of_writes (hs : s.Fits) {text : String} (h : s.Writes text) :
    Json.read (Text.encode text) = .ok s.toJson := by
  obtain ⟨members, heq, hregular⟩ := regular_toJson hs
  cases h with
  | compact =>
      rw [heq]
      exact Json.read_encode_object fun member hmem => hregular member hmem _
  | pretty =>
      rw [heq]
      exact Json.read_pretty_object fun member hmem => hregular member hmem 0

theorem parse_eq_ok_iff {text : String} :
    base.parse text = .ok s ↔ ∃ given, shape.parse (Text.encode text) = .ok given ∧
      base.overlay given = s := by
  simp only [parse, Json.bind_eq_ok_iff, Except.ok.injEq]

/-- A text that holds a document is read as settings as the document is. -/
theorem parse_iff_of_read {text : String} {j : Json} (h : Json.read (Text.encode text) = .ok j) :
    base.parse text = .ok s ↔ base.Stated j s := by
  rw [parse_eq_ok_iff, ← ofJson_iff, ofJson]
  simp only [Json.parse_iff_of_read h, Json.Shape.decode, Json.bind_eq_ok_iff, Except.ok.injEq]

/-- What is written of settings is read as them, but that the selection is read from its text. -/
theorem parse_of_writes (hs : s.Fits) (hkind : base.kind = none) (hline : base.lineLength = none)
    {text : String} (h : s.Writes text) :
    base.parse text = .ok { s with interpreter := .ofText s.interpreter.text } :=
  (parse_iff_of_read (read_of_writes hs h)).mpr (stated_toJson hs hkind hline)

theorem fits_overlay (hbase : base.Fits) {given : shape.Value} (hgiven : shape.Fits given) :
    (base.overlay given).Fits := by
  obtain ⟨_, _, _, _, port, tool, drain, probe, workers, line, ⟨⟩⟩ := given
  obtain ⟨-, -, -, -, hport, htool, hdrain, hprobe, hworkers, hline, -⟩ := hgiven
  have hnumber {bound n : Nat} {given : Option Nat} (hn : n < bound) (h : ∀ v ∈ given, v < bound) :
      given.getD n < bound := by
    cases given with
    | none => exact hn
    | some v => exact h v rfl
  refine ⟨hnumber hbase.port hport, hnumber hbase.toolTimeoutMs htool,
    hnumber hbase.drainTimeoutMs hdrain, hnumber hbase.probeTimeoutMs hprobe,
    hnumber hbase.maxWorkers hworkers, ?_⟩
  cases line with
  | none => exact hbase.lineLength
  | some line => exact hline line rfl

theorem fits_of_parse (hbase : base.Fits) {text : String} (h : base.parse text = .ok s) :
    s.Fits := by
  obtain ⟨given, hparse, rfl⟩ := parse_eq_ok_iff.mp h
  exact fits_overlay hbase (Json.Shape.fits_of_parse hparse)

theorem kept_of_parse (hbase : base.interpreter.Kept) {text : String}
    (h : base.parse text = .ok s) : s.interpreter.Kept := by
  obtain ⟨⟨interpreter, rest⟩, -, rfl⟩ := parse_eq_ok_iff.mp h
  cases interpreter with
  | none => exact hbase
  | some text => exact Selection.kept_ofText text

/-- A text that starts as an object does is read as the members are that settings have. -/
theorem parse_object_iff {text : String} (hopens : Json.opensObject (Text.encode text)) :
    base.parse text = .ok s ↔ ∃ members,
      Json.knownMembers names (Text.encode text) = .ok members ∧ base.Stated (.object members) s := by
  have hread (given : shape.Value) : shape.parse (Text.encode text) = .ok given ↔ ∃ members,
      Json.knownMembers names (Text.encode text) = .ok members ∧
        shape.ofJson .document (.object members) = .ok given := by
    refine Json.parse_object_iff ?_ hopens
    exact ⟨rfl, rfl, rfl, rfl, rfl, rfl, rfl, rfl, rfl, rfl, trivial⟩
  rw [parse_eq_ok_iff]
  simp only [hread, ← ofJson_iff, ofJson, Json.Shape.decode, Json.bind_eq_ok_iff, Except.ok.injEq]
  constructor
  · rintro ⟨given, ⟨members, hknown, hgiven⟩, heq⟩
    exact ⟨members, hknown, given, hgiven, heq⟩
  · rintro ⟨members, hknown, given, hgiven, heq⟩
    exact ⟨given, ⟨members, hknown, hgiven⟩, heq⟩

theorem ofFile_eq_ok_iff {tree : FileTree} {here : Location} {path : Path} :
    base.ofFile tree here path = .ok s ↔
      ∃ text, tree.readText here path.text = .ok text ∧ base.parse text = .ok s := by
  unfold ofFile
  cases tree.readText here path.text with
  | error => simp
  | ok text => cases hparse : base.parse text <;> simp [hparse]

theorem fits_standard {workers : Nat} (hworkers : workers < 2 ^ 64) : (standard workers).Fits where
  port := (by decide : (9005 : Nat) < 2 ^ 16)
  toolTimeoutMs := (by decide : (10000 : Nat) < 2 ^ 64)
  drainTimeoutMs := (by decide : (5000 : Nat) < 2 ^ 64)
  probeTimeoutMs := (by decide : (5000 : Nat) < 2 ^ 64)
  maxWorkers := hworkers
  lineLength := nofun

/-- Settings that are written are read as equal ones if and only if their selection is kept, and
then as themselves. Every settings file gives settings whose selection is kept, so that what is
written of them is read as them again. The settings of a file that holds an object follow from the
members that settings have: one that is left out takes its value from the standard ones, whatever
the others are, and a member of another name may be anything. -/
theorem parse_round_trip {workers : Nat} (hworkers : workers < 2 ^ 64) :
    (∀ s : Settings, s.Fits → ∀ text, s.Writes text →
      ((standard workers).parse text = .ok s ↔ s.interpreter.Kept) ∧
      ((∃ t, (standard workers).parse text = .ok t ∧ t.Same s) ↔ s.interpreter.Kept)) ∧
    (∀ text s, (standard workers).parse text = .ok s → s.interpreter.Kept ∧ s.Fits ∧
      ∀ text', s.Writes text' → (standard workers).parse text' = .ok s) ∧
    (∀ text, Json.opensObject (Text.encode text) → ∀ s, (standard workers).parse text = .ok s ↔
      ∃ members, Json.knownMembers names (Text.encode text) = .ok members ∧
        (standard workers).Stated (.object members) s) ∧
    (∀ text members, Json.read (Text.encode text) = .ok (.object members) →
      Json.opensObject (Text.encode text) ∧
        Json.knownMembers names (Text.encode text) = .ok (members.filter (·.1 ∈ names))) ∧
    ∀ tree here path s, (standard workers).ofFile tree here path = .ok s ↔
      ∃ text, tree.readText here path.text = .ok text ∧ (standard workers).parse text = .ok s := by
  have hwritten {s : Settings} (hs : s.Fits) {text : String} (htext : s.Writes text) :
      (standard workers).parse text = .ok { s with interpreter := .ofText s.interpreter.text } :=
    parse_of_writes hs rfl rfl htext
  have hkept {s : Settings} (hs : s.Fits) (hkept : s.interpreter.Kept) {text : String}
      (htext : s.Writes text) : (standard workers).parse text = .ok s := by
    rw [hwritten hs htext, Selection.ofText_text_of_kept hkept]
  refine ⟨fun s hs text htext => ⟨⟨fun h => ?_, fun h => hkept hs h htext⟩, ?_, fun h => ?_⟩,
    fun text s h => ?_, fun text hopens s => parse_object_iff hopens, fun text members hread => ?_,
    fun tree here path s => ofFile_eq_ok_iff⟩
  · exact kept_of_parse (.inl rfl) h
  · -- Paths are compared by their components, so that the selection has to be looked at again.
    rintro ⟨t, hparse, hsame⟩
    cases (hwritten hs htext).symm.trans hparse
    exact Selection.kept_of_same hsame.interpreter
  · exact ⟨s, hkept hs h htext, .refl s⟩
  · have hs := fits_of_parse (fits_standard hworkers) h
    have hinterpreter := kept_of_parse (.inl rfl) h
    exact ⟨hinterpreter, hs, fun text' htext => hkept hs hinterpreter htext⟩
  · exact ⟨Json.opensObject_of_read hread, Json.knownMembers_of_read hread⟩

/-- Settings of escaped texts and of the greatest numbers are read back, and those are not whose path
is spelt like the word for detection. -/
theorem parse_round_trip_extreme :
    let s : Settings := {
      interpreter := .path ⟨"\"auto\\\x00é😀"⟩
      kind := some .venv
      root := ⟨""⟩
      host := "\r\n\x1f"
      port := 2 ^ 16 - 1
      toolTimeoutMs := 2 ^ 64 - 1
      drainTimeoutMs := 0
      probeTimeoutMs := 1
      maxWorkers := 2 ^ 64 - 1
      lineLength := some (2 ^ 32 - 1) }
    let lost : Settings := { s with interpreter := .path ⟨"AUTO"⟩ }
    4 < 2 ^ 64 ∧ (standard 4).parse s.toJson.compact = .ok s ∧
      (standard 4).parse s.toJson.pretty = .ok s ∧
      (¬∃ t, (standard 4).parse lost.toJson.compact = .ok t ∧ t.Same lost) ∧
      (standard 4).parse "\x7b\"x\":[\x7b\x7d],\"port\":1\x7d" =
        .ok { standard 4 with port := 1 } := by
  intro s lost
  have hworkers : 4 < 2 ^ 64 := by decide
  obtain ⟨hsame, -, hobject, -⟩ := parse_round_trip hworkers
  have hs : s.Fits := by
    constructor <;> decide
  have hlost : lost.Fits := by
    constructor <;> decide
  have hkept : s.interpreter.Kept := .inr ⟨_, rfl, by decide, by decide⟩
  have hnot : ¬lost.interpreter.Kept := by
    rintro (h | ⟨path, h, -, hauto⟩)
    · cases h
    · cases h
      exact hauto (by decide)
  refine ⟨hworkers, (hsame s hs _ .compact).1.mpr hkept, (hsame s hs _ .pretty).1.mpr hkept,
    fun h => hnot ((hsame lost hlost _ .compact).2.mp h), ?_⟩
  refine (hobject _ (by decide +kernel) _).mpr
    ⟨[("port", .ofNat 1)], by decide +kernel, ?_⟩
  exact {
    record := by decide
    interpreter := .absent
    kind := .absent
    root := .absent
    host := .absent
    port := .given (.number (by decide))
    toolTimeoutMs := .absent
    drainTimeoutMs := .absent
    probeTimeoutMs := .absent
    maxWorkers := .absent
    lineLength := .absent }

end Settings

end CodeAssist
