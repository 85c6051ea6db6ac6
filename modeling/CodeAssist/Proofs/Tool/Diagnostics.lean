import CodeAssist.Proofs.Json.Indented
import CodeAssist.Proofs.Json.Widths
import CodeAssist.Proofs.Message.Params
import CodeAssist.Proofs.Tool.Ending

namespace CodeAssist

open Json (Nullable Regular Shape maxDepth)

/-! The problems that a text lists. -/

namespace Json

theorem mapM_map_eq_ok_iff {α β γ ε : Type} {f : α → Except ε β} {g : β → γ} {as : List α}
    {cs : List γ} : (∃ bs, as.mapM f = .ok bs ∧ cs = bs.map g) ↔
      List.Forall₂ (fun a c => ∃ b, f a = .ok b ∧ c = g b) as cs := by
  induction as generalizing cs with
  | nil => simp [pure, Except.pure]
  | cons a as ih =>
      rw [List.forall₂_cons_left_iff]
      simp only [← ih, List.mapM_cons, bind_eq_ok_iff]
      constructor
      · rintro ⟨_, ⟨b, hb, bs, hbs, heq⟩, rfl⟩
        cases heq
        exact ⟨_, _, ⟨b, hb, rfl⟩, ⟨bs, hbs, rfl⟩, rfl⟩
      · rintro ⟨_, _, ⟨b, hb, rfl⟩, ⟨bs, hbs, rfl⟩, rfl⟩
        exact ⟨b :: bs, ⟨b, hb, bs, hbs, rfl⟩, rfl⟩

end Json

namespace Problem

abbrev names : List String := ["line", "column", "severity", "message", "code"]

/-- The problem that a document stands for. -/
structure Stated (document : Json) (p : Problem) : Prop where
  record : document.IsRecord names
  line : document.given? names "line" = some (.ofNat p.line)
  column : document.given? names "column" = some (.ofNat p.column)
  bounds : p.line < 2 ^ 64 ∧ p.column < 2 ^ 64
  severity : ∃ j ∈ document.given? names "severity", Json.Named Severity.name j p.severity
  message : document.given? names "message" = some (.text p.message)
  code : Nullable (fun j code => j = .text code) (document.given? names "code") p.code

/-- The problems that a text lists, which may have blanks around the list. -/
def Printed (text : String) (problems : List Problem) : Prop :=
  ∃ values, (Shape.list shape).parse (Text.encode (Text.trimmed text)) = .ok values ∧
    problems = values.map ofValue

variable {given : Option Json}

theorem severity_taken_iff {severity : Severity} :
    (∃ choice, (Shape.choice Severity.names).Taken .document given (some choice) ∧
        severity = .ofChoice choice) ↔
      ∃ j ∈ given, Json.Named Severity.name j severity := by
  have hnamed (j : Json) : Json.Named Severity.name j severity ↔ ∃ choice,
      (Shape.choice Severity.names).ofJson .document j = .ok choice ∧ severity = .ofChoice choice :=
    Json.named_iff (fun severity => by cases severity <;> decide) (by decide) j severity
  simp only [hnamed]
  cases given with
  | none => exact ⟨fun ⟨_, htaken, _⟩ => (nomatch htaken), nofun⟩
  | some j =>
      constructor
      · rintro ⟨choice, ⟨_, hread, ⟨⟩⟩, hseverity⟩
        exact ⟨j, rfl, choice, hread, hseverity⟩
      · rintro ⟨_, ⟨⟩, choice, hread, hseverity⟩
        exact ⟨choice, ⟨choice, hread, rfl⟩, hseverity⟩

theorem code_taken_iff {code : Option String} :
    (∃ value, (Shape.optional .string).Taken .document given value ∧ code = value.join) ↔
      Nullable (fun j code => j = .text code) given code := by
  have htext := @Json.written_self_iff .document .string _ Json.ofJson_text_iff
  rw [← Nullable.taken_iff htext nofun]
  simp only [Option.map_id_fun, id_eq]

theorem ofJson_iff {j : Json} {p : Problem} :
    (∃ value, shape.ofJson .document j = .ok value ∧ p = ofValue value) ↔ p.Stated j := by
  have hread (value : shape.Value) : shape.ofJson .document j = .ok value ↔ _ :=
    Json.ofJson_record_iff (by decide) (by decide)
  simp only [hread]
  constructor
  · rintro ⟨⟨line, column, choice, message, code, ⟨⟩⟩,
      ⟨hrecord, hline, hcolumn, hchoice, hmessage, hcode, -⟩, rfl⟩
    obtain ⟨hline, hlineBound⟩ := Json.Shape.taken_unsigned_iff.mp hline
    obtain ⟨hcolumn, hcolumnBound⟩ := Json.Shape.taken_unsigned_iff.mp hcolumn
    exact {
      record := hrecord
      line := hline
      column := hcolumn
      bounds := ⟨hlineBound, hcolumnBound⟩
      severity := severity_taken_iff.mp ⟨choice, hchoice, rfl⟩
      message := Json.Shape.taken_text_iff.mp hmessage
      code := code_taken_iff.mp ⟨code, hcode, rfl⟩ }
  · intro h
    obtain ⟨choice, hchoice, hseverity⟩ := severity_taken_iff.mpr h.severity
    obtain ⟨code, htaken, hcode⟩ := code_taken_iff.mpr h.code
    refine ⟨(p.line, p.column, choice, p.message, code, ()), ⟨h.record,
      Json.Shape.taken_unsigned_iff.mpr ⟨h.line, h.bounds.1⟩,
      Json.Shape.taken_unsigned_iff.mpr ⟨h.column, h.bounds.2⟩, hchoice,
      Json.Shape.taken_text_iff.mpr h.message, htaken, trivial⟩, ?_⟩
    rw [ofValue, ← hseverity, ← hcode]

/-- The documents of a list stand for the problems that its text lists. -/
theorem printed_iff_of_read {text : String} {documents : List Json} {problems : List Problem}
    (h : Json.read (Text.encode (Text.trimmed text)) = .ok (.list documents)) :
    Printed text problems ↔ List.Forall₂ Stated documents problems := by
  have hstated : (Stated : Json → Problem → Prop) =
      fun j p => ∃ value, shape.ofJson .document j = .ok value ∧ p = ofValue value :=
    funext fun j => funext fun p => propext ofJson_iff.symm
  rw [hstated, ← Json.mapM_map_eq_ok_iff]
  simp only [Printed, Json.parse_iff_of_read h]
  rw [Shape.ofJson]

theorem bounds_of_printed {text : String} {problems : List Problem} (h : Printed text problems) :
    ∀ p ∈ problems, p.line < 2 ^ 64 ∧ p.column < 2 ^ 64 := by
  obtain ⟨values, hparse, rfl⟩ := h
  intro p hp
  obtain ⟨⟨line, column, rest⟩, hmem, rfl⟩ := List.mem_map.mp hp
  obtain ⟨hline, hcolumn, -⟩ := Json.Shape.fits_of_parse hparse _ hmem
  exact ⟨hline, hcolumn⟩

end Problem

namespace Diagnostic

def At (line column : Nat) (d : Diagnostic) : Prop := d.line = line ∧ d.column = column

instance (line column : Nat) (d : Diagnostic) : Decidable (d.At line column) :=
  inferInstanceAs (Decidable (_ ∧ _))

/-- The one diagnostic stands before the other or at the same place. -/
def NotAfter (a b : Diagnostic) : Prop := a.line < b.line ∨ a.line = b.line ∧ a.column ≤ b.column

instance (a b : Diagnostic) : Decidable (NotAfter a b) := inferInstanceAs (Decidable (_ ∨ _))

/-- What is found are the raised diagnostics in order of place. Those at one place keep their
order. -/
structure Arranges (raised found : List Diagnostic) : Prop where
  perm : found.Perm raised
  ordered : found.Pairwise NotAfter
  stable : ∀ line column, found.filter (At line column) = raised.filter (At line column)

variable {a b c : Diagnostic} {raised found other : List Diagnostic}

theorem notAfter_iff : notAfter a b ↔ NotAfter a b := by
  simp [notAfter, NotAfter]

theorem NotAfter.trans (hab : NotAfter a b) (hbc : NotAfter b c) : NotAfter a c := by
  unfold NotAfter at *
  omega

theorem NotAfter.refl (a : Diagnostic) : NotAfter a a := .inr ⟨rfl, Nat.le_refl _⟩

theorem notAfter_total (a b : Diagnostic) : NotAfter a b ∨ NotAfter b a := by
  unfold NotAfter
  omega

theorem NotAfter.at_of_notAfter (hab : NotAfter a b) (hba : NotAfter b a) :
    b.At a.line a.column := by
  unfold NotAfter At at *
  omega

theorem arranges_mergeSort (raised : List Diagnostic) :
    Arranges raised (raised.mergeSort notAfter) := by
  have htrans (a b c : Diagnostic) (hab : notAfter a b) (hbc : notAfter b c) : notAfter a c :=
    notAfter_iff.mpr ((notAfter_iff.mp hab).trans (notAfter_iff.mp hbc))
  have htotal (a b : Diagnostic) : notAfter a b || notAfter b a := by
    rw [Bool.or_eq_true, notAfter_iff, notAfter_iff]
    exact notAfter_total a b
  have hperm := List.mergeSort_perm raised notAfter
  refine ⟨hperm, (List.pairwise_mergeSort htrans htotal raised).imp notAfter_iff.mp, ?_⟩
  intro line column
  -- Those at one place stand in order already, so that the sort leaves them a part of its result.
  have hplace : (raised.filter (At line column)).Pairwise (notAfter · ·) := by
    refine List.pairwise_of_forall_mem_list fun a ha b hb => notAfter_iff.mpr (.inr ?_)
    obtain ⟨hline, hcolumn⟩ := of_decide_eq_true (List.mem_filter.mp ha).2
    obtain ⟨hline', hcolumn'⟩ := of_decide_eq_true (List.mem_filter.mp hb).2
    omega
  have hsublist := List.sublist_mergeSort htrans htotal hplace List.filter_sublist
  have hpart := hsublist.filter (At line column)
  rw [List.filter_filter] at hpart
  simp only [Bool.and_self] at hpart
  exact (hpart.eq_of_length (hperm.filter _).length_eq.symm).symm

theorem head_notAfter (h : (a :: found).Pairwise NotAfter) (hb : b ∈ a :: found) :
    NotAfter a b := by
  obtain rfl | hmem := List.mem_cons.mp hb
  · exact .refl b
  · exact List.rel_of_pairwise_cons h hmem

theorem mem_of_filter_eq (h : ∀ line column, found.filter (At line column) =
    other.filter (At line column)) {d : Diagnostic} (hd : d ∈ found) : d ∈ other := by
  have hplace : d ∈ found.filter (At d.line d.column) :=
    List.mem_filter.mpr ⟨hd, decide_eq_true ⟨rfl, rfl⟩⟩
  rw [h] at hplace
  exact List.mem_of_mem_filter hplace

/-- Two lists in order are the same if they are so at every place. -/
theorem eq_of_ordered (h : found.Pairwise NotAfter) (h' : other.Pairwise NotAfter)
    (heq : ∀ line column, found.filter (At line column) = other.filter (At line column)) :
    found = other := by
  induction found generalizing other with
  | nil =>
      refine (List.eq_nil_iff_forall_not_mem.mpr fun d hd => ?_).symm
      exact List.not_mem_nil (mem_of_filter_eq (fun line column => (heq line column).symm) hd)
  | cons a found ih =>
      cases other with
      | nil => exact absurd (mem_of_filter_eq heq List.mem_cons_self) List.not_mem_nil
      | cons b other =>
          -- Each list holds the first item of the other, so that both stand at one place.
          have hback (line column : Nat) := (heq line column).symm
          have hab : NotAfter a b := head_notAfter h (mem_of_filter_eq hback List.mem_cons_self)
          have hba : NotAfter b a := head_notAfter h' (mem_of_filter_eq heq List.mem_cons_self)
          have hself : a.At a.line a.column := ⟨rfl, rfl⟩
          have hsame : b.At a.line a.column := hab.at_of_notAfter hba
          have hhead := heq a.line a.column
          simp only [List.filter_cons, hself, hsame, decide_true, if_true] at hhead
          obtain ⟨rfl, hrest⟩ := List.cons_eq_cons.mp hhead
          refine congrArg (a :: ·) (ih h.of_cons h'.of_cons fun line column => ?_)
          by_cases ha : a.At line column
          · obtain ⟨rfl, rfl⟩ := ha
            exact hrest
          · simpa only [List.filter_cons, ha, decide_false, Bool.false_eq_true, if_false]
              using heq line column

/-- Diagnostics can be arranged in one way only. -/
theorem Arranges.unique (h : Arranges raised found) (h' : Arranges raised other) : other = found :=
  eq_of_ordered h'.ordered h.ordered fun line column =>
    (h'.stable line column).trans (h.stable line column).symm

/-- Diagnostics that stand in order are arranged already. -/
theorem arranges_self (h : found.Pairwise NotAfter) : Arranges found found :=
  ⟨.refl _, h, fun _ _ => rfl⟩

/-- What is written of a diagnostic. -/
def members (d : Diagnostic) : List (String × Json) :=
  [("line", .ofNat d.line), ("column", .ofNat d.column), ("severity", .text d.severity.name),
    ("message", .text d.message), ("source", .text d.source)] ++
    d.code.toList.map (fun code => ("code", .text code))

/-- A document is the object of what is written of a diagnostic, in any order. -/
def Written (document : Json) (d : Diagnostic) : Prop :=
  ∃ members, document = .object members ∧ members.Perm d.members

/-- A text lists what is written of diagnostics, and may have blanks around the list. -/
def Lists (text : String) (found : List Diagnostic) : Prop :=
  ∃ documents, Json.read (Text.encode (Text.trimmed text)) = .ok (.list documents) ∧
    List.Forall₂ Written documents found

/-- The problem that is read from what is written of a diagnostic. -/
def problem (d : Diagnostic) : Problem where
  line := d.line
  column := d.column
  severity := d.severity
  message := d.message
  code := d.code

def Bounded (d : Diagnostic) : Prop := d.line < 2 ^ 64 ∧ d.column < 2 ^ 64

variable {d : Diagnostic}

theorem nodup_names_members (d : Diagnostic) : (d.members.map Prod.fst).Nodup := by
  cases hcode : d.code <;> simp [members, hcode]

theorem written_toJson (d : Diagnostic) : Written d.toJson d :=
  ⟨_, rfl, Json.sortMembers_perm (nodup_names_members d)⟩

theorem regular_toJson (hd : d.Bounded) (depth : Nat) : Regular (depth + 1) d.toJson := by
  have hnumber {n : Nat} (hn : n < 2 ^ 64) : Regular depth (.ofNat n) := by
    have hrange : -2 ^ 63 ≤ (n : Int) ∧ (n : Int) < 2 ^ 64 := by omega
    cases depth <;> exact hrange
  have htext (text : String) : Regular depth (.text text) := by
    cases depth <;> trivial
  refine ⟨Json.pairwise_sortMembers _, fun member hmem => ?_⟩
  have hmember : member ∈ d.members := Json.mem_of_mem_sortMembers hmem
  simp only [members, List.mem_append, List.mem_cons, List.not_mem_nil, or_false, List.mem_map,
    Option.mem_toList] at hmember
  obtain (rfl | rfl | rfl | rfl | rfl) | ⟨code, -, rfl⟩ := hmember
  · exact hnumber hd.1
  · exact hnumber hd.2
  · exact htext _
  · exact htext _
  · exact htext _
  · exact htext _

theorem trimmed_compact_list (items : List Json) :
    Text.trimmed (Json.list items).compact = (Json.list items).compact := by
  have hends : Text.trim (Json.list items).render = (Json.list items).render := by
    cases items with
    | nil => decide
    | cons item items =>
        refine Text.trim_eq_self_of_ends (fun c hc => ?_) fun c hc => ?_
        · rw [Json.render] at hc
          cases hc
          decide
        · rw [Json.render, ← List.cons_append, List.getLast?_concat] at hc
          cases hc
          decide
  rw [Text.trimmed, Json.compact, String.toList_ofList, hends]

theorem lists_compact (h : ∀ d ∈ found, d.Bounded) :
    Lists (Json.list (found.map toJson)).compact found := by
  have hregular : Regular maxDepth (.list (found.map toJson)) :=
    List.forall_mem_map.mpr fun d hd => regular_toJson (h d hd) _
  refine ⟨found.map toJson, ?_, ?_⟩
  · rw [trimmed_compact_list]
    exact Json.read_encode hregular
  · rw [List.forall₂_map_left_iff, List.forall₂_same]
    exact fun d _ => written_toJson d

theorem stated_of_written {document : Json} (h : Written document d) (hd : d.Bounded) :
    d.problem.Stated document := by
  obtain ⟨found, rfl, hperm⟩ := h
  have hgiven (name : String) : (Json.object found).given? Problem.names name =
      d.members.lookup name := Json.lookup_eq_of_perm hperm (nodup_names_members d) name
  have hrecord : ((found.map Prod.fst).filter (· ∈ Problem.names)).Nodup :=
    ((hperm.map _).nodup_iff.mpr (nodup_names_members d)).filter _
  refine ⟨hrecord, hgiven _, hgiven _, hd, ⟨_, hgiven _, .name d.severity⟩, hgiven _, ?_⟩
  have hcode : d.members.lookup "code" = d.code.map .text := by
    cases hcode : d.code <;> simp [members, hcode, Json.lookup_cons_if]
  rw [hgiven, hcode]
  change Nullable _ _ d.code
  cases d.code with
  | none => exact .absent
  | some code => exact .given rfl

theorem printed_of_lists {text : String} (h : Lists text found) (hfound : ∀ d ∈ found, d.Bounded) :
    Problem.Printed text (found.map problem) := by
  obtain ⟨documents, hread, hwritten⟩ := h
  rw [Problem.printed_iff_of_read hread, List.forall₂_map_right_iff]
  refine (((List.forall₂_and_left ..).mpr ⟨hfound, hwritten.flip⟩).flip).imp ?_
  exact fun document d hd => stated_of_written hd.2 hd.1

theorem ofProblems_map_problem (hordered : found.Pairwise NotAfter)
    (hfound : ∀ d ∈ found, ofProblem d.problem = d) : ofProblems (found.map problem) = found := by
  have hmap : (found.map problem).map ofProblem = found := by
    rw [List.map_map]
    exact (List.map_congr_left hfound).trans (List.map_id found)
  rw [ofProblems, hmap]
  exact (arranges_self hordered).unique (arranges_mergeSort found)

/-- What is found of problems that were read can be read, and is what is found of it. -/
theorem bounded_of_arranges {problems : List Problem}
    (hproblems : ∀ p ∈ problems, p.line < 2 ^ 64 ∧ p.column < 2 ^ 64)
    (h : Arranges (problems.map ofProblem) found) :
    ∀ d ∈ found, d.Bounded ∧ ofProblem d.problem = d := by
  intro d hd
  obtain ⟨p, hp, rfl⟩ := List.mem_map.mp (h.perm.mem_iff.mp hd)
  obtain ⟨hline, hcolumn⟩ := hproblems p hp
  refine ⟨⟨max_lt hline (by decide), max_lt hcolumn (by decide)⟩, ?_⟩
  simp [ofProblem, problem]

end Diagnostic

namespace Query

variable {path : Path} {buffer : String} {o : ProcessOutput}

theorem ofEnd_diagnostics_iff {answer : Answer} :
    (Query.diagnostics path buffer).ofEnd (.ok o) = .ok answer ↔ o.status.code? = some 0 ∧
      ∃ problems, Problem.Printed o.stdout problems ∧
        answer = .diagnostics path (Diagnostic.ofProblems problems) := by
  rw [ofEnd, ofOutput_eq_ok_iff]
  refine and_congr_right fun _ => ⟨fun h => ?_, ?_⟩
  · cases h with
    | diagnostics hparse => exact ⟨_, ⟨_, hparse, rfl⟩, rfl⟩
  · rintro ⟨_, ⟨values, hparse, rfl⟩, rfl⟩
    exact .diagnostics hparse

/-- A run of the tool gives diagnostics if and only if it succeeds and prints a list of problems.
They are these problems, with lines and columns raised to 1 at least and under the name of the tool,
in order of place and at each place in the order in which they were printed, and no other list is so.
The same text gives them again, and so does what is written of them. -/
theorem diagnostics_arranged (path : Path) (buffer : String) (o : ProcessOutput) :
    (∀ answer, (Query.diagnostics path buffer).ofEnd (.ok o) = .ok answer →
      o.status.code? = some 0 ∧ ∃ problems, Problem.Printed o.stdout problems) ∧
    (∀ documents, Json.read (Text.encode (Text.trimmed o.stdout)) = .ok (.list documents) →
      ∀ problems, Problem.Printed o.stdout problems ↔
        List.Forall₂ Problem.Stated documents problems) ∧
    ∀ problems, o.status.code? = some 0 → Problem.Printed o.stdout problems →
      let raised := problems.map fun p => {
        line := max p.line 1
        column := max p.column 1
        severity := p.severity
        message := p.message
        source := "pyflakes"
        code := p.code : Diagnostic }
      ∃ found, (Query.diagnostics path buffer).ofEnd (.ok o) = .ok (.diagnostics path found) ∧
        Diagnostic.Arranges raised found ∧
        (∀ other, Diagnostic.Arranges raised other → other = found) ∧
        Diagnostic.Lists (Json.list (found.map Diagnostic.toJson)).compact found ∧
        ∀ buffer' o', o'.status.code? = some 0 →
          o'.stdout = o.stdout ∨ Diagnostic.Lists o'.stdout found →
          (Query.diagnostics path buffer').ofEnd (.ok o') = .ok (.diagnostics path found) := by
  refine ⟨fun answer h => ?_, fun documents hread problems => Problem.printed_iff_of_read hread, ?_⟩
  · obtain ⟨hsuccess, problems, hprinted, -⟩ := ofEnd_diagnostics_iff.mp h
    exact ⟨hsuccess, problems, hprinted⟩
  · intro problems hsuccess hprinted raised
    have harranges : Diagnostic.Arranges raised (Diagnostic.ofProblems problems) :=
      Diagnostic.arranges_mergeSort raised
    obtain ⟨hbounded, hsame⟩ := forall₂_and.mp
      (Diagnostic.bounded_of_arranges (Problem.bounds_of_printed hprinted) harranges)
    refine ⟨_, ofEnd_diagnostics_iff.mpr ⟨hsuccess, problems, hprinted, rfl⟩, harranges,
      fun other => harranges.unique, Diagnostic.lists_compact hbounded, ?_⟩
    rintro buffer' o' hsuccess' (heq | hlists)
    · exact ofEnd_diagnostics_iff.mpr ⟨hsuccess', problems, heq ▸ hprinted, rfl⟩
    · refine ofEnd_diagnostics_iff.mpr
        ⟨hsuccess', _, Diagnostic.printed_of_lists hlists hbounded, ?_⟩
      rw [Diagnostic.ofProblems_map_problem harranges.ordered hsame]

/-- Two problems come to stand at one place only by being raised, and keep their order. -/
theorem diagnostics_arranged_tied :
    let o : ProcessOutput := ⟨.exited 0,
      "\n[[2,1,\"warning\",\"b\"],\x7b\"column\":1,\"line\":1,\"severity\":\"error\"," ++
        "\"message\":\"c\",\"code\":\"X\"\x7d,[0,0,\x7b\"notice\":null\x7d,\"a\"]] ", ""⟩
    let found : List Diagnostic :=
      [⟨1, 1, .error, "c", "pyflakes", some "X"⟩, ⟨1, 1, .notice, "a", "pyflakes", none⟩,
        ⟨2, 1, .warning, "b", "pyflakes", none⟩]
    o.status.code? = some 0 ∧
      Problem.Printed o.stdout [⟨2, 1, .warning, "b", none⟩, ⟨1, 1, .error, "c", some "X"⟩,
        ⟨0, 0, .notice, "a", none⟩] ∧
      (Query.diagnostics ⟨"m.py"⟩ "x").ofEnd (.ok o) = .ok (.diagnostics ⟨"m.py"⟩ found) ∧
      (Query.diagnostics ⟨"m.py"⟩ "x").ofEnd
        (.ok { o with stdout := (Json.list (found.map Diagnostic.toJson)).compact }) =
          .ok (.diagnostics ⟨"m.py"⟩ found) := by
  intro o found
  obtain ⟨-, hprinted, harranged⟩ := diagnostics_arranged ⟨"m.py"⟩ "x" o
  have hread : Json.read (Text.encode (Text.trimmed o.stdout)) = .ok (.list
      [.list [.ofNat 2, .ofNat 1, .text "warning", .text "b"],
        .object [("column", .ofNat 1), ("line", .ofNat 1), ("severity", .text "error"),
          ("message", .text "c"), ("code", .text "X")],
        .list [.ofNat 0, .ofNat 0, .object [("notice", .null)], .text "a"]]) := by
    decide +kernel
  have hproblems : Problem.Printed o.stdout [⟨2, 1, .warning, "b", none⟩,
      ⟨1, 1, .error, "c", some "X"⟩, ⟨0, 0, .notice, "a", none⟩] := by
    refine (hprinted _ hread _).mpr (.cons ?_ (.cons ?_ (.cons ?_ .nil)))
    · exact ⟨by decide, rfl, rfl, by decide, ⟨_, rfl, .name Severity.warning⟩, rfl, .absent⟩
    · exact ⟨by decide, rfl, rfl, by decide, ⟨_, rfl, .name Severity.error⟩, rfl, .given rfl⟩
    · exact ⟨by decide, rfl, rfl, by decide, ⟨_, rfl, .member Severity.notice⟩, rfl, .absent⟩
  have hsuccess : (ExitStatus.exited 0).code? = some 0 := by decide
  obtain ⟨arranged, hend, -, hunique, hlists, hagain⟩ := harranged _ hsuccess hproblems
  have hfound : found = arranged := by
    refine hunique found ⟨by decide, by decide, fun line column => ?_⟩
    by_cases hline : 2 = line
    · simp [found, Diagnostic.At, List.filter_cons, ← hline]
    · simp [found, Diagnostic.At, List.filter_cons, hline]
  subst hfound
  exact ⟨hsuccess, hproblems, hend, hagain "x" _ hsuccess (.inr hlists)⟩

end Query

end CodeAssist
