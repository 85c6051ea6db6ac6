import CodeAssist.Message.Call
import CodeAssist.Proofs.Json.Record

namespace CodeAssist

open Json (Fields Mismatch Shape Source)

/-! What a document that is given for a field stands for. -/

namespace Json

inductive Flag : Option Json → Bool → Prop
  | absent : Flag none false
  | given (b : Bool) : Flag (some (.boolean b)) b

/-- One of several values, given by its name or by an object that has this name for its one
member. -/
inductive Named {α : Type} (name : α → String) : Json → α → Prop
  | name (a : α) : Named name (.text (name a)) a
  | member (a : α) : Named name (.object [(name a, .null)]) a

/-- A value that may be null, or left out, which is the same. -/
inductive Nullable {α : Type} (Written : Json → α → Prop) : Option Json → Option α → Prop
  | absent : Nullable Written none none
  | null : Nullable Written (some .null) none
  | given {j : Json} {a : α} (hwritten : Written j a) : Nullable Written (some j) (some a)

section taken

variable {α : Type} {source : Source} {given : Option Json} {shape : Shape}

theorem Flag.taken_iff {flag : Bool} :
    (∃ value, Shape.flag.Taken source given value ∧ flag = value.getD false) ↔ Flag given flag := by
  simp only [Shape.taken_flag_iff]
  constructor
  · rintro ⟨value, rfl, rfl⟩
    cases value with
    | none => exact .absent
    | some b => exact .given b
  · intro hflag
    cases hflag with
    | absent => exact ⟨none, rfl, rfl⟩
    | given => exact ⟨some flag, rfl, rfl⟩

theorem Nullable.taken_iff {Written : Json → α → Prop} {f : shape.Value → α}
    (hwritten : ∀ j a, Written j a ↔ ∃ v, shape.ofJson source j = .ok v ∧ a = f v)
    (hnull : ∀ a, ¬Written .null a) {a : Option α} :
    (∃ value, (Shape.optional shape).Taken source given value ∧ a = value.join.map f) ↔
      Nullable Written given a := by
  constructor
  · rintro ⟨value, htaken, rfl⟩
    cases given with
    | none => cases htaken; exact .absent
    | some j =>
        obtain ⟨value, hread, rfl⟩ := htaken
        by_cases hj : j = .null
        · subst hj
          cases hread
          exact .null
        · obtain ⟨v, hv, rfl⟩ := (ofJson_optional_iff hj).mp hread
          exact .given ((hwritten j _).mpr ⟨v, hv, rfl⟩)
  · intro hgiven
    cases hgiven with
    | absent => exact ⟨none, rfl, rfl⟩
    | null => exact ⟨some none, ⟨none, rfl, rfl⟩, rfl⟩
    | @given j a h =>
        obtain ⟨v, hv, rfl⟩ := (hwritten j a).mp h
        have hj : j ≠ .null := fun heq => hnull (f v) (heq ▸ h)
        exact ⟨some (some v), ⟨some v, (ofJson_optional_iff hj).mpr ⟨v, hv, rfl⟩, rfl⟩, rfl⟩

/-- A value may be what is read. -/
theorem written_self_iff {Written : Json → shape.Value → Prop}
    (hwritten : ∀ j v, Written j v ↔ shape.ofJson source j = .ok v) (j : Json) (v : shape.Value) :
    Written j v ↔ ∃ w, shape.ofJson source j = .ok w ∧ v = id w := by
  simp only [hwritten, id_eq, exists_eq_right']

end taken

section choice

variable {names : List String} {choice : Fin names.length}

theorem chosen_iff (hnames : names.Nodup) {given : String} :
    chosen names given = .ok choice ↔ given = names[choice] := by
  have hfound : chosen names given = .ok choice ↔ names.finIdxOf? given = some choice := by
    unfold chosen
    cases names.finIdxOf? given <;> simp
  rw [hfound, List.finIdxOf?_eq_some_iff, eq_comm, and_iff_left_iff_imp]
  intro hgiven earlier hless heq
  exact Nat.ne_of_lt hless (hnames.getElem_inj_iff.mp (heq.trans hgiven))

theorem ofJson_choice_iff (hnames : names.Nodup) {j : Json} :
    (Shape.choice names).ofJson .document j = .ok choice ↔
      j = .text names[choice] ∨ j = .object [(names[choice], .null)] := by
  rw [Shape.ofJson, choiceOf_document_iff]
  simp only [chosen_iff hnames, exists_eq_left]

theorem named_iff {α : Type} {name : α → String} {all : List α} (hall : ∀ a, a ∈ all)
    (hnames : (all.map name).Nodup) (j : Json) (a : α) :
    Named name j a ↔ ∃ choice : Fin (all.map name).length,
      (Shape.choice (all.map name)).ofJson .document j = .ok choice ∧
        a = all.get (choice.cast (List.length_map name)) := by
  have hname (choice : Fin (all.map name).length) :
      (all.map name)[choice] = name (all.get (choice.cast (List.length_map name))) :=
    List.getElem_map ..
  simp only [ofJson_choice_iff hnames, hname]
  constructor
  · intro h
    obtain ⟨index, hlt, rfl⟩ := List.getElem_of_mem (hall a)
    refine ⟨⟨index, (List.length_map name).symm ▸ hlt⟩, ?_, rfl⟩
    cases h with
    | name => exact .inl rfl
    | member => exact .inr rfl
  · rintro ⟨choice, rfl | rfl, rfl⟩
    · exact .name _
    · exact .member _

end choice

end Json

theorem Path.written_iff (j : Json) (path : Path) : j = .text path.text ↔
    ∃ v, Shape.path.ofJson .document j = .ok v ∧ path = ⟨v⟩ := by
  have htext (v : String) : Shape.path.ofJson .document j = .ok v ↔ j = .text v :=
    (Json.ofJson_text_iff j v).symm
  simp only [htext]
  constructor
  · rintro rfl
    exact ⟨_, rfl, rfl⟩
  · rintro ⟨text, rfl, rfl⟩
    rfl

/-- A kind is written as its name, or as an object that has this name for its one member. -/
inductive Kind.Written : Json → Kind → Prop
  | name (kind : Kind) : Written (.text kind.name) kind
  | member (kind : Kind) : Written (.object [(kind.name, .null)]) kind

theorem Kind.written_iff_named (j : Json) (kind : Kind) :
    Written j kind ↔ Json.Named name j kind := by
  constructor
  · rintro (_ | _)
    · exact .name kind
    · exact .member kind
  · rintro (_ | _)
    · exact .name kind
    · exact .member kind

theorem Kind.written_iff (j : Json) (kind : Kind) :
    Written j kind ↔ ∃ choice, (Shape.choice names).ofJson .document j = .ok choice ∧
      kind = ofChoice choice :=
  (written_iff_named j kind).trans
    (Json.named_iff (fun kind => by cases kind <;> decide) (by decide) j kind)

namespace PositionParams

abbrev names : List String := ["path", "buffer", "offset"]

structure Stated (params : Json) (p : PositionParams) : Prop where
  record : params.IsRecord names
  path : params.given? names "path" = some (.text p.path.text)
  buffer : params.given? names "buffer" = some (.text p.buffer)
  offset : params.given? names "offset" = some (.ofNat p.offset)
  bound : p.offset < 2 ^ 64

theorem ofJson_iff {params : Json} {p : PositionParams} :
    ofJson params = .ok p ↔ p.Stated params := by
  rw [ofJson, Json.record_bind_iff (by decide) (by decide)]
  constructor
  · rintro ⟨hrecord, ⟨path, buffer, offset, ⟨⟩⟩, ⟨hpath, hbuffer, hoffset, -⟩, heq⟩
    cases heq
    obtain ⟨hoffset, hbound⟩ := Shape.taken_unsigned_iff.mp hoffset
    exact ⟨hrecord, Shape.taken_text_iff.mp hpath, Shape.taken_text_iff.mp hbuffer, hoffset, hbound⟩
  · rintro ⟨hrecord, hpath, hbuffer, hoffset, hbound⟩
    exact ⟨hrecord, (p.path.text, p.buffer, p.offset, ()), ⟨Shape.taken_text_iff.mpr hpath,
      Shape.taken_text_iff.mpr hbuffer, Shape.taken_unsigned_iff.mpr ⟨hoffset, hbound⟩, trivial⟩, rfl⟩

theorem ofJson_filter (members : List (String × Json)) :
    ofJson (.object members) = ofJson (.object (members.filter (·.1 ∈ names))) :=
  congrArg (· >>= _) (Json.ofJson_record_filter members)

end PositionParams

namespace BufferParams

abbrev names : List String := ["path", "buffer"]

structure Stated (params : Json) (p : BufferParams) : Prop where
  record : params.IsRecord names
  path : params.given? names "path" = some (.text p.path.text)
  buffer : params.given? names "buffer" = some (.text p.buffer)

theorem ofJson_iff {params : Json} {p : BufferParams} :
    ofJson params = .ok p ↔ p.Stated params := by
  rw [ofJson, Json.record_bind_iff (by decide) (by decide)]
  constructor
  · rintro ⟨hrecord, ⟨path, buffer, ⟨⟩⟩, ⟨hpath, hbuffer, -⟩, heq⟩
    cases heq
    exact ⟨hrecord, Shape.taken_text_iff.mp hpath, Shape.taken_text_iff.mp hbuffer⟩
  · rintro ⟨hrecord, hpath, hbuffer⟩
    exact ⟨hrecord, (p.path.text, p.buffer, ()), ⟨Shape.taken_text_iff.mpr hpath,
      Shape.taken_text_iff.mpr hbuffer, trivial⟩, rfl⟩

theorem ofJson_filter (members : List (String × Json)) :
    ofJson (.object members) = ofJson (.object (members.filter (·.1 ∈ names))) :=
  congrArg (· >>= _) (Json.ofJson_record_filter members)

end BufferParams

namespace FormatParams

abbrev names : List String := ["path", "buffer", "edits"]

structure Stated (params : Json) (p : FormatParams) : Prop where
  record : params.IsRecord names
  path : params.given? names "path" = some (.text p.path.text)
  buffer : params.given? names "buffer" = some (.text p.buffer)
  edits : Json.Flag (params.given? names "edits") p.edits

theorem ofJson_iff {params : Json} {p : FormatParams} :
    ofJson params = .ok p ↔ p.Stated params := by
  rw [ofJson, Json.record_bind_iff (by decide) (by decide)]
  constructor
  · rintro ⟨hrecord, ⟨path, buffer, edits, ⟨⟩⟩, ⟨hpath, hbuffer, hedits, -⟩, heq⟩
    cases heq
    exact ⟨hrecord, Shape.taken_text_iff.mp hpath, Shape.taken_text_iff.mp hbuffer,
      Json.Flag.taken_iff.mp ⟨edits, hedits, rfl⟩⟩
  · rintro ⟨hrecord, hpath, hbuffer, hedits⟩
    obtain ⟨edits, htaken, heq⟩ := Json.Flag.taken_iff.mpr hedits
    refine ⟨hrecord, (p.path.text, p.buffer, edits, ()), ⟨Shape.taken_text_iff.mpr hpath,
      Shape.taken_text_iff.mpr hbuffer, htaken, trivial⟩, ?_⟩
    change Except.ok (FormatParams.mk p.path p.buffer (edits.getD false)) = .ok p
    rw [← heq]

theorem ofJson_filter (members : List (String × Json)) :
    ofJson (.object members) = ofJson (.object (members.filter (·.1 ∈ names))) :=
  congrArg (· >>= _) (Json.ofJson_record_filter members)

end FormatParams

namespace EnvironmentParams

abbrev names : List String := ["interpreterPath", "auto", "kind"]

structure Stated (params : Json) (p : EnvironmentParams) : Prop where
  record : params.IsRecord names
  interpreter : Json.Nullable (fun j (path : Path) => j = .text path.text)
    (params.given? names "interpreterPath") p.interpreter
  auto : Json.Flag (params.given? names "auto") p.auto
  kind : Json.Nullable Kind.Written (params.given? names "kind") p.kind

theorem ofJson_iff {params : Json} {p : EnvironmentParams} :
    ofJson params = .ok p ↔ p.Stated params := by
  rw [ofJson, Json.record_bind_iff (by decide) (by decide)]
  have hpath {given : Option Json} {path : Option Path} :
      (∃ value, (Shape.optional .path).Taken .document given value ∧
        path = value.join.map Path.mk) ↔
          Json.Nullable (fun j (path : Path) => j = .text path.text) given path :=
    Json.Nullable.taken_iff Path.written_iff nofun
  have hkind {given : Option Json} {kind : Option Kind} :
      (∃ value, (Shape.optional (.choice Kind.names)).Taken .document given value ∧
        kind = value.join.map Kind.ofChoice) ↔ Json.Nullable Kind.Written given kind :=
    Json.Nullable.taken_iff Kind.written_iff nofun
  constructor
  · rintro ⟨hrecord, ⟨interpreter, auto, kind, ⟨⟩⟩, ⟨hinterpreter, hauto, hchoice, -⟩, heq⟩
    cases heq
    exact ⟨hrecord, hpath.mp ⟨interpreter, hinterpreter, rfl⟩,
      Json.Flag.taken_iff.mp ⟨auto, hauto, rfl⟩, hkind.mp ⟨kind, hchoice, rfl⟩⟩
  · rintro ⟨hrecord, hinterpreter, hauto, hchoice⟩
    obtain ⟨interpreter, hselected, hp⟩ := hpath.mpr hinterpreter
    obtain ⟨auto, hflag, ha⟩ := Json.Flag.taken_iff.mpr hauto
    obtain ⟨kind, htaken, hk⟩ := hkind.mpr hchoice
    refine ⟨hrecord, (interpreter, auto, kind, ()), ⟨hselected, hflag, htaken, trivial⟩, ?_⟩
    change Except.ok (EnvironmentParams.mk (interpreter.join.map Path.mk) (auto.getD false)
      (kind.join.map Kind.ofChoice)) = .ok p
    rw [← hp, ← ha, ← hk]

theorem ofJson_filter (members : List (String × Json)) :
    ofJson (.object members) = ofJson (.object (members.filter (·.1 ∈ names))) :=
  congrArg (· >>= _) (Json.ofJson_record_filter members)

end EnvironmentParams

namespace WorkspaceParams

abbrev names : List String := ["root"]

structure Stated (params : Json) (p : WorkspaceParams) : Prop where
  record : params.IsRecord names
  root : params.given? names "root" = some (.text p.root.text)

theorem ofJson_iff {params : Json} {p : WorkspaceParams} :
    ofJson params = .ok p ↔ p.Stated params := by
  rw [ofJson, Json.record_bind_iff (by decide) (by decide)]
  constructor
  · rintro ⟨hrecord, ⟨root, ⟨⟩⟩, ⟨hroot, -⟩, heq⟩
    cases heq
    exact ⟨hrecord, Shape.taken_text_iff.mp hroot⟩
  · rintro ⟨hrecord, hroot⟩
    exact ⟨hrecord, (p.root.text, ()), ⟨Shape.taken_text_iff.mpr hroot, trivial⟩, rfl⟩

theorem ofJson_filter (members : List (String × Json)) :
    ofJson (.object members) = ofJson (.object (members.filter (·.1 ∈ names))) :=
  congrArg (· >>= _) (Json.ofJson_record_filter members)

end WorkspaceParams

namespace Call

def methods : List String :=
  ["ping", "shutdown", "environment.set", "workspace.set", "capabilities", "completion.get",
    "hover.get", "format.run", "diagnostics.run"]

def fieldNames : String → List String
  | "environment.set" => EnvironmentParams.names
  | "workspace.set" => WorkspaceParams.names
  | "completion.get" | "hover.get" => PositionParams.names
  | "format.run" => FormatParams.names
  | "diagnostics.run" => BufferParams.names
  | _ => []

/-- The call that a document stands for as the params of the call's method. -/
inductive Stated (params : Json) : Call → Prop
  | ping : Stated params (.ping params)
  | shutdown : Stated params .shutdown
  | environmentSet {p : EnvironmentParams} (hp : p.Stated params)
      (hselector : p.interpreter.isSome ≠ p.auto) : Stated params (.environmentSet p)
  | workspaceSet {p : WorkspaceParams} (hp : p.Stated params) : Stated params (.workspaceSet p)
  | capabilities : Stated params .capabilities
  | completion {p : PositionParams} (hp : p.Stated params) : Stated params (.completion p)
  | hover {p : PositionParams} (hp : p.Stated params) : Stated params (.hover p)
  | format {p : FormatParams} (hp : p.Stated params) : Stated params (.format p)
  | diagnostics {p : BufferParams} (hp : p.Stated params) : Stated params (.diagnostics p)

section ofRequest

variable {α : Type} {method : String} {params : Json} {call : Call} {failure : Failure}
  {read : Json → Except Mismatch α} {next : α → Except Failure Call}

theorem readParams_ok_iff : readParams method read params >>= next = .ok call ↔
    ∃ p, read params = .ok p ∧ next p = .ok call := by
  unfold readParams
  cases read params <;> simp [bind, Except.bind]

theorem readParams_error (h : readParams method read params >>= next = .error failure) :
    (∃ reason, failure = .invalidParams reason) ∨ ∃ p, next p = .error failure := by
  unfold readParams at h
  cases hread : read params with
  | ok p => rw [hread] at h; exact .inr ⟨p, h⟩
  | error => rw [hread] at h; cases h; exact .inl ⟨_, rfl⟩

theorem readParams_congr {params' : Json} (h : read params = read params') :
    readParams method read params = readParams method read params' := by
  unfold readParams
  rw [h]

theorem environmentCall_ok_iff {p : EnvironmentParams} : environmentCall p = .ok call ↔
    p.interpreter.isSome ≠ p.auto ∧ call = .environmentSet p := by
  unfold environmentCall
  by_cases h : p.interpreter.isSome = p.auto
  · rw [if_pos (beq_iff_eq.mpr h)]
    exact ⟨nofun, fun ⟨hne, _⟩ => absurd h hne⟩
  · rw [if_neg (mt beq_iff_eq.mp h), Except.ok.injEq, eq_comm]
    exact (and_iff_right h).symm

theorem mem_methods (call : Call) : call.method ∈ methods := by
  cases call <;> simp [Call.method, methods]

theorem ofRequest_ok_iff :
    ofRequest method params = .ok call ↔ call.method = method ∧ call.Stated params := by
  constructor
  · intro h
    unfold ofRequest at h
    split at h
    · cases h; exact ⟨rfl, .ping⟩
    · cases h; exact ⟨rfl, .shutdown⟩
    · obtain ⟨p, hread, hnext⟩ := readParams_ok_iff.mp h
      obtain ⟨hselector, rfl⟩ := environmentCall_ok_iff.mp hnext
      exact ⟨rfl, .environmentSet (EnvironmentParams.ofJson_iff.mp hread) hselector⟩
    · obtain ⟨p, hread, hnext⟩ := readParams_ok_iff.mp h
      cases hnext; exact ⟨rfl, .workspaceSet (WorkspaceParams.ofJson_iff.mp hread)⟩
    · cases h; exact ⟨rfl, .capabilities⟩
    · obtain ⟨p, hread, hnext⟩ := readParams_ok_iff.mp h
      cases hnext; exact ⟨rfl, .completion (PositionParams.ofJson_iff.mp hread)⟩
    · obtain ⟨p, hread, hnext⟩ := readParams_ok_iff.mp h
      cases hnext; exact ⟨rfl, .hover (PositionParams.ofJson_iff.mp hread)⟩
    · obtain ⟨p, hread, hnext⟩ := readParams_ok_iff.mp h
      cases hnext; exact ⟨rfl, .format (FormatParams.ofJson_iff.mp hread)⟩
    · obtain ⟨p, hread, hnext⟩ := readParams_ok_iff.mp h
      cases hnext; exact ⟨rfl, .diagnostics (BufferParams.ofJson_iff.mp hread)⟩
    · cases h
  · rintro ⟨rfl, hstated⟩
    cases hstated with
    | ping | shutdown | capabilities => rfl
    | environmentSet hp hselector =>
        exact readParams_ok_iff.mpr ⟨_, EnvironmentParams.ofJson_iff.mpr hp,
          environmentCall_ok_iff.mpr ⟨hselector, rfl⟩⟩
    | workspaceSet hp => exact readParams_ok_iff.mpr ⟨_, WorkspaceParams.ofJson_iff.mpr hp, rfl⟩
    | completion hp => exact readParams_ok_iff.mpr ⟨_, PositionParams.ofJson_iff.mpr hp, rfl⟩
    | hover hp => exact readParams_ok_iff.mpr ⟨_, PositionParams.ofJson_iff.mpr hp, rfl⟩
    | format hp => exact readParams_ok_iff.mpr ⟨_, FormatParams.ofJson_iff.mpr hp, rfl⟩
    | diagnostics hp => exact readParams_ok_iff.mpr ⟨_, BufferParams.ofJson_iff.mpr hp, rfl⟩

theorem ofRequest_error (h : ofRequest method params = .error failure) :
    method ∈ methods ∧ (∃ reason, failure = .invalidParams reason) ∨
      method ∉ methods ∧ failure = .unsupportedMethod method := by
  unfold ofRequest at h
  split at h
  case h_3 =>
    obtain hinvalid | ⟨p, hnext⟩ := readParams_error h
    · exact .inl ⟨by decide, hinvalid⟩
    · unfold environmentCall at hnext
      split at hnext <;> cases hnext
      exact .inl ⟨by decide, _, rfl⟩
  case h_4 | h_6 | h_7 | h_8 | h_9 =>
    obtain hinvalid | ⟨p, hnext⟩ := readParams_error h
    · exact .inl ⟨by decide, hinvalid⟩
    · cases hnext
  case h_10 =>
    cases h
    refine .inr ⟨?_, rfl⟩
    simp only [methods, List.mem_cons, List.not_mem_nil, or_false, not_or]
    refine ⟨?_, ?_, ?_, ?_, ?_, ?_, ?_, ?_, ?_⟩ <;> assumption
  all_goals cases h

/-- Members that are not named after a field of the method's params make no difference, if it is not
one that gives them back. -/
theorem ofRequest_filter (members : List (String × Json)) (h : method ≠ "ping") :
    ofRequest method (.object members) =
      ofRequest method (.object (members.filter (·.1 ∈ fieldNames method))) := by
  unfold ofRequest
  split
  case h_1 => exact absurd rfl h
  case h_3 => exact congrArg (· >>= _) (readParams_congr (EnvironmentParams.ofJson_filter members))
  case h_4 => exact congrArg (· >>= _) (readParams_congr (WorkspaceParams.ofJson_filter members))
  case h_6 | h_7 => exact congrArg (· >>= _) (readParams_congr (PositionParams.ofJson_filter members))
  case h_8 => exact congrArg (· >>= _) (readParams_congr (FormatParams.ofJson_filter members))
  case h_9 => exact congrArg (· >>= _) (readParams_congr (BufferParams.ofJson_filter members))
  all_goals rfl

end ofRequest

/-- A request is refused for its method if and only if there is no such method. Any other makes a
call if and only if its params stand for one of this method, and is refused for its params if they do
not. Members of the params that are not named after a field make no difference, but that a ping gives
them back. -/
theorem ofRequest_grammar (method : String) (params : Json) :
    (ofRequest method params = .error (.unsupportedMethod method) ↔ method ∉ methods) ∧
    (∀ call, ofRequest method params = .ok call ↔ call.method = method ∧ call.Stated params) ∧
    (∀ failure, ofRequest method params = .error failure → method ∈ methods →
      ∃ reason, failure = .invalidParams reason) ∧
    (∀ members, method ≠ "ping" → ofRequest method (.object members) =
      ofRequest method (.object (members.filter (·.1 ∈ fieldNames method)))) := by
  refine ⟨⟨fun h => ?_, fun hnone => ?_⟩, fun call => ofRequest_ok_iff, fun failure h hmem => ?_,
    ofRequest_filter⟩
  · obtain ⟨-, _, hinvalid⟩ | ⟨hnone, -⟩ := ofRequest_error h
    · cases hinvalid
    · exact hnone
  · cases h : ofRequest method params with
    | ok call => exact absurd (mem_methods call) ((ofRequest_ok_iff.mp h).1 ▸ hnone)
    | error failure =>
        obtain ⟨hmem, -⟩ | ⟨-, rfl⟩ := ofRequest_error h
        · exact absurd hmem hnone
        · rfl
  · obtain ⟨-, hinvalid⟩ | ⟨hnone, -⟩ := ofRequest_error h
    · exact hinvalid
    · exact absurd hmem hnone

/-- Detection restricted to one kind, with a member that is not a field's, and an offset that is left
out. -/
theorem ofRequest_grammar_kind :
    ofRequest "environment.set" (.object [("auto", .boolean true),
      ("kind", .object [("venv", .null)]), ("note", .null)]) =
        .ok (.environmentSet ⟨none, true, some .venv⟩) ∧
    ∃ reason, ofRequest "hover.get" (.list [.text "a.py", .text "os"]) =
      .error (.invalidParams reason) := by
  constructor
  · obtain ⟨-, -, -, hfilter⟩ := ofRequest_grammar "environment.set" .null
    rw [hfilter _ (by decide)]
    obtain ⟨-, hok, -⟩ := ofRequest_grammar "environment.set"
      (.object [("auto", .boolean true), ("kind", .object [("venv", .null)])])
    exact (hok _).mpr ⟨rfl, .environmentSet ⟨by decide, .absent, .given true,
      .given (.member .venv)⟩ nofun⟩
  · obtain ⟨-, hok, herror, -⟩ := ofRequest_grammar "hover.get" (.list [.text "a.py", .text "os"])
    cases h : ofRequest "hover.get" (.list [.text "a.py", .text "os"]) with
    | ok call =>
        obtain ⟨hmethod, hstated⟩ := (hok call).mp h
        cases hstated with
        | hover hp => cases hp.offset
        | _ => simp [method] at hmethod
    | error failure =>
        obtain ⟨reason, rfl⟩ := herror failure h (by decide)
        exact ⟨reason, rfl⟩

/-- A ping has no field, and gives back every member. -/
theorem ofRequest_ping_member : "note" ∉ fieldNames "ping" ∧
    ofRequest "ping" (.object [("note", .null)]) ≠ ofRequest "ping" (.object []) :=
  ⟨by decide, fun h => nomatch Call.ping.inj (Except.ok.inj h)⟩

end Call

end CodeAssist
