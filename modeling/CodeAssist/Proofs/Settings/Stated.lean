import CodeAssist.Proofs.Json.Widths
import CodeAssist.Proofs.Message.Params
import CodeAssist.Settings

namespace CodeAssist

open Json (Mismatch Nullable Shape Source)

namespace Json

/-- A member that is left out leaves a value as it is, and one that is given stands for it. -/
inductive Defaulted {α : Type} (Written : Json → α → Prop) (base : α) : Option Json → α → Prop
  | absent : Defaulted Written base none base
  | given {j : Json} {a : α} (hwritten : Written j a) : Defaulted Written base (some j) a

/-- An integer below a bound. -/
inductive Unsigned (bound : Nat) : Json → Nat → Prop
  | number {n : Nat} (hbound : n < bound) : Unsigned bound (.ofNat n) n

section taken

variable {α : Type} {shape : Shape} {given : Option Json}

theorem Defaulted.taken_iff {Written : Json → α → Prop} {f : shape.Value → α}
    (hwritten : ∀ j a, Written j a ↔ ∃ v, shape.ofJson .document j = .ok v ∧ a = f v) {base a : α} :
    (∃ value, shape.Taken .document given value ∧ a = (value.map f).getD base) ↔
      Defaulted Written base given a := by
  constructor
  · rintro ⟨value, htaken, rfl⟩
    cases given with
    | none =>
        cases htaken
        exact .absent
    | some j =>
        obtain ⟨v, hread, rfl⟩ := htaken
        exact .given ((hwritten j _).mpr ⟨v, hread, rfl⟩)
  · intro h
    cases h with
    | absent => exact ⟨none, rfl, rfl⟩
    | given h =>
        obtain ⟨v, hread, rfl⟩ := (hwritten _ _).mp h
        exact ⟨some v, ⟨v, hread, rfl⟩, rfl⟩

theorem Defaulted.taken_self_iff {Written : Json → shape.Value → Prop}
    (hwritten : ∀ j v, Written j v ↔ shape.ofJson .document j = .ok v) {base v : shape.Value} :
    (∃ value, shape.Taken .document given value ∧ v = value.getD base) ↔
      Defaulted Written base given v := by
  rw [← Defaulted.taken_iff (written_self_iff hwritten)]
  simp only [Option.map_id_fun, id_eq]

theorem ofJson_unsigned_iff {width : Width} (j : Json) (n : Nat) :
    Unsigned width.bound j n ↔ (Shape.unsigned width).ofJson .document j = .ok n := by
  constructor
  · rintro ⟨hbound⟩
    exact unsignedOf_iff.mpr ⟨rfl, hbound⟩
  · intro hread
    cases j with
    | number number =>
        obtain ⟨rfl, hbound⟩ := unsignedOf_iff.mp hread
        exact .number hbound
    | _ => cases hread

theorem nullable_iff {Written : Json → α → Prop} {f : shape.Value → α}
    (hwritten : ∀ j a, Written j a ↔ ∃ v, shape.ofJson .document j = .ok v ∧ a = f v)
    (hnull : ∀ a, ¬Written .null a) (j : Json) (a : Option α) :
    Nullable Written (some j) a ↔
      ∃ v, (Shape.optional shape).ofJson .document j = .ok v ∧ a = v.map f := by
  rw [← Nullable.taken_iff hwritten hnull]
  constructor
  · rintro ⟨_, ⟨v, hread, rfl⟩, rfl⟩
    exact ⟨v, hread, rfl⟩
  · rintro ⟨v, hread, rfl⟩
    exact ⟨some v, ⟨v, hread, rfl⟩, rfl⟩

theorem nullable_unsigned_iff {width : Width} (j : Json) (n : Option Nat) :
    Nullable (Unsigned width.bound) (some j) n ↔
      (Shape.optional (.unsigned width)).ofJson .document j = .ok n := by
  have hself := @written_self_iff .document (.unsigned width) _ ofJson_unsigned_iff
  rw [nullable_iff hself nofun]
  constructor
  · rintro ⟨v, hread, rfl⟩
    rwa [Option.map_id]
  · intro hread
    exact ⟨n, hread, (congrFun Option.map_id n).symm⟩

theorem Defaulted.text_iff {expected s base : String} :
    (∃ value, (Shape.text expected).Taken .document given value ∧ s = value.getD base) ↔
      Defaulted (fun j s => j = .text s) base given s :=
  @Defaulted.taken_self_iff (.text expected) given _ ofJson_text_iff base s

theorem Defaulted.unsigned_iff (width : Width) {n base : Nat} :
    (∃ value, (Shape.unsigned width).Taken .document given value ∧ n = value.getD base) ↔
      Defaulted (Unsigned width.bound) base given n :=
  @Defaulted.taken_self_iff (.unsigned width) given _ ofJson_unsigned_iff base n

theorem Defaulted.nullable_unsigned_iff (width : Width) {n base : Option Nat} :
    (∃ value, (Shape.optional (.unsigned width)).Taken .document given value ∧
        n = value.getD base) ↔
      Defaulted (fun j => Nullable (Unsigned width.bound) (some j)) base given n :=
  @Defaulted.taken_self_iff (.optional (.unsigned width)) given _ Json.nullable_unsigned_iff base n

end taken

end Json

/-- The empty text and `auto` in any case of its letters ask for detection. Any other text is a
path. -/
inductive Selection.Written : Json → Selection → Prop
  | auto {text : String} (h : text = "" ∨ Text.sameIgnoringCase text "auto") :
      Written (.text text) .auto
  | path {text : String} (hempty : text ≠ "") (hauto : ¬Text.sameIgnoringCase text "auto") :
      Written (.text text) (.path ⟨text⟩)

theorem Selection.ofText_eq_auto {text : String}
    (h : text = "" ∨ Text.sameIgnoringCase text "auto") : ofText text = .auto :=
  if_pos (Bool.or_eq_true_iff.mpr (h.imp_left beq_iff_eq.mpr))

theorem Selection.ofText_eq_path {text : String} (hempty : text ≠ "")
    (hauto : ¬Text.sameIgnoringCase text "auto") : ofText text = .path ⟨text⟩ := by
  simp [ofText, hempty, hauto]

theorem Selection.written_iff (j : Json) (selection : Selection) : Written j selection ↔
    ∃ v, Shape.string.ofJson .document j = .ok v ∧ selection = ofText v := by
  have htext (v : String) : Shape.string.ofJson .document j = .ok v ↔ j = .text v :=
    (Json.ofJson_text_iff j v).symm
  simp only [htext]
  constructor
  · rintro (h | ⟨hempty, hauto⟩)
    · exact ⟨_, rfl, (ofText_eq_auto h).symm⟩
    · exact ⟨_, rfl, (ofText_eq_path hempty hauto).symm⟩
  · rintro ⟨text, rfl, rfl⟩
    by_cases h : text = "" ∨ Text.sameIgnoringCase text "auto"
    · rw [ofText_eq_auto h]
      exact .auto h
    · obtain ⟨hempty, hauto⟩ := not_or.mp h
      rw [ofText_eq_path hempty hauto]
      exact .path hempty hauto

namespace Settings

abbrev names : List String :=
  ["interpreter", "kind", "root", "host", "port", "tool_timeout_ms", "drain_timeout_ms",
    "probe_timeout_ms", "max_workers", "line_length"]

/-- The settings that a document stands for: each member that is left out takes its value from
`base`, whatever the others are. -/
structure Stated (base : Settings) (document : Json) (s : Settings) : Prop where
  record : document.IsRecord names
  interpreter : Json.Defaulted Selection.Written base.interpreter
    (document.given? names "interpreter") s.interpreter
  kind : Json.Defaulted (fun j => Nullable Kind.Written (some j)) base.kind
    (document.given? names "kind") s.kind
  root : Json.Defaulted (fun j (root : Path) => j = .text root.text) base.root
    (document.given? names "root") s.root
  host : Json.Defaulted (fun j host => j = .text host) base.host
    (document.given? names "host") s.host
  port : Json.Defaulted (Json.Unsigned (2 ^ 16)) base.port (document.given? names "port") s.port
  toolTimeoutMs : Json.Defaulted (Json.Unsigned (2 ^ 64)) base.toolTimeoutMs
    (document.given? names "tool_timeout_ms") s.toolTimeoutMs
  drainTimeoutMs : Json.Defaulted (Json.Unsigned (2 ^ 64)) base.drainTimeoutMs
    (document.given? names "drain_timeout_ms") s.drainTimeoutMs
  probeTimeoutMs : Json.Defaulted (Json.Unsigned (2 ^ 64)) base.probeTimeoutMs
    (document.given? names "probe_timeout_ms") s.probeTimeoutMs
  maxWorkers : Json.Defaulted (Json.Unsigned (2 ^ 64)) base.maxWorkers
    (document.given? names "max_workers") s.maxWorkers
  lineLength : Json.Defaulted (fun j => Nullable (Json.Unsigned (2 ^ 32)) (some j)) base.lineLength
    (document.given? names "line_length") s.lineLength

variable {base s : Settings} {j : Json}

section given

variable {given : Option Json}

theorem interpreter_iff {a b : Selection} :
    (∃ value, Shape.string.Taken .document given value ∧ a = (value.map Selection.ofText).getD b) ↔
      Json.Defaulted Selection.Written b given a :=
  Json.Defaulted.taken_iff Selection.written_iff

theorem kind_iff {a b : Option Kind} :
    (∃ value, (Shape.optional (.choice Kind.names)).Taken .document given value ∧
        a = (value.map (·.map Kind.ofChoice)).getD b) ↔
      Json.Defaulted (fun j => Nullable Kind.Written (some j)) b given a :=
  Json.Defaulted.taken_iff (Json.nullable_iff Kind.written_iff nofun)

theorem root_iff {a b : Path} :
    (∃ value, Shape.path.Taken .document given value ∧ a = (value.map Path.mk).getD b) ↔
      Json.Defaulted (fun j (root : Path) => j = .text root.text) b given a :=
  Json.Defaulted.taken_iff Path.written_iff

end given

theorem ofJson_iff : base.ofJson j = .ok s ↔ base.Stated j s := by
  rw [ofJson, Json.record_bind_iff (by decide) (by decide)]
  constructor
  · rintro ⟨hrecord, ⟨interpreter, kind, root, host, port, tool, drain, probe, workers, line, ⟨⟩⟩,
      ⟨hinterpreter, hkind, hroot, hhost, hport, htool, hdrain, hprobe, hworkers, hline, -⟩, heq⟩
    cases heq
    exact {
      record := hrecord
      interpreter := interpreter_iff.mp ⟨interpreter, hinterpreter, rfl⟩
      kind := kind_iff.mp ⟨kind, hkind, rfl⟩
      root := root_iff.mp ⟨root, hroot, rfl⟩
      host := Json.Defaulted.text_iff.mp ⟨host, hhost, rfl⟩
      port := (Json.Defaulted.unsigned_iff .u16).mp ⟨port, hport, rfl⟩
      toolTimeoutMs := (Json.Defaulted.unsigned_iff .u64).mp ⟨tool, htool, rfl⟩
      drainTimeoutMs := (Json.Defaulted.unsigned_iff .u64).mp ⟨drain, hdrain, rfl⟩
      probeTimeoutMs := (Json.Defaulted.unsigned_iff .u64).mp ⟨probe, hprobe, rfl⟩
      maxWorkers := (Json.Defaulted.unsigned_iff .usize).mp ⟨workers, hworkers, rfl⟩
      lineLength := (Json.Defaulted.nullable_unsigned_iff .u32).mp ⟨line, hline, rfl⟩ }
  · intro h
    obtain ⟨interpreter, hinterpreter, hi⟩ := interpreter_iff.mpr h.interpreter
    obtain ⟨kind, hkind, hk⟩ := kind_iff.mpr h.kind
    obtain ⟨root, hroot, hr⟩ := root_iff.mpr h.root
    obtain ⟨host, hhost, hh⟩ := Json.Defaulted.text_iff.mpr h.host
    obtain ⟨port, hport, hp⟩ := (Json.Defaulted.unsigned_iff .u16).mpr h.port
    obtain ⟨tool, htool, ht⟩ := (Json.Defaulted.unsigned_iff .u64).mpr h.toolTimeoutMs
    obtain ⟨drain, hdrain, hd⟩ := (Json.Defaulted.unsigned_iff .u64).mpr h.drainTimeoutMs
    obtain ⟨probe, hprobe, hb⟩ := (Json.Defaulted.unsigned_iff .u64).mpr h.probeTimeoutMs
    obtain ⟨workers, hworkers, hw⟩ := (Json.Defaulted.unsigned_iff .usize).mpr h.maxWorkers
    obtain ⟨line, hline, hl⟩ := (Json.Defaulted.nullable_unsigned_iff .u32).mpr h.lineLength
    refine ⟨h.record, (interpreter, kind, root, host, port, tool, drain, probe, workers, line, ()),
      ⟨hinterpreter, hkind, hroot, hhost, hport, htool, hdrain, hprobe, hworkers, hline, trivial⟩, ?_⟩
    rw [overlay, ← hi, ← hk, ← hr, ← hh, ← hp, ← ht, ← hd, ← hb, ← hw, ← hl]

end Settings

end CodeAssist
