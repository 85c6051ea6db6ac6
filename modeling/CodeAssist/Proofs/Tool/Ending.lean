import CodeAssist.Tool.Query

namespace CodeAssist

open Json (Shape)
open Text (Bytes)

/-- How a tool ends that was not stopped: with an exit or a signal and what it has printed by then,
or without any output. -/
inductive ToolEnd where
  | notStarted (reason : String)
  | unreadable (reason : String)
  | timedOut (budget : Duration)
  | ended (status : ExitStatus) (out err : Bytes)

namespace ToolEnd

def result : ToolEnd → ProcessEnd
  | .notStarted reason => .error (.notStarted reason)
  | .unreadable reason => .error (.unreadable reason)
  | .timedOut budget => .error (.timedOut budget)
  | .ended status out err => .ok ⟨status, Text.decodeLossy out, Text.decodeLossy err⟩

theorem result_ne_cancelled (e : ToolEnd) : e.result ≠ .error .cancelled := by
  cases e <;> exact nofun

end ToolEnd

theorem ExitStatus.success_iff {status : ExitStatus} : status.success ↔ status.code? = some 0 :=
  beq_iff_eq

namespace Query

/-- A text that a tool has printed is an answer to the query: a formatted buffer as it stands, and
else a document of the type that is expected, with blanks around it. -/
inductive Prints (text : String) : Query → Answer → Prop
  | completion {path : Path} {buffer : String} {offset : Nat}
      {items : List CompletionItem.shape.Value}
      (hparse : (Shape.list CompletionItem.shape).parse (Text.encode (Text.trimmed text)) = .ok items) :
      Prints text (.completion path buffer offset) (.completion (items.map .ofValue))
  | hover {path : Path} {buffer : String} {offset : Nat} {info : Option HoverInfo.shape.Value}
      (hparse : (Shape.optional HoverInfo.shape).parse (Text.encode (Text.trimmed text)) = .ok info) :
      Prints text (.hover path buffer offset) (.hover (info.map .ofValue))
  | format {path : Path} {buffer : String} : Prints text (.format path buffer) (.format text)
  | diagnostics {path : Path} {buffer : String} {problems : List Problem.shape.Value}
      (hparse : (Shape.list Problem.shape).parse (Text.encode (Text.trimmed text)) = .ok problems) :
      Prints text (.diagnostics path buffer)
        (.diagnostics path (Diagnostic.ofProblems (problems.map .ofValue)))

/-- The result of a call as it follows from the end of the tool. -/
structure Verdict (q : Query) (e : ToolEnd) (result : Except Failure Answer) : Prop where
  answered : ∀ a, result = .ok a ↔ ∃ status out err, e = .ended status out err ∧
    status.code? = some 0 ∧ Prints (Text.decodeLossy out) q a
  refused : ∀ text, result = .error (.tool (.cannotFormat text)) ↔
    ∃ path buffer status out err, q = .format path buffer ∧ e = .ended status out err ∧
      status.code? = some 123 ∧ text = Text.trimmed (Text.decodeLossy err)
  timedOut : ∀ budget, e = .timedOut budget →
    ∃ failure, result = .error failure ∧ failure.kind = .toolTimeout
  failed : ∀ failure, result = .error failure →
    failure.kind = .format ∧ (∃ text, failure = .tool (.cannotFormat text)) ∨
    failure.kind = .toolTimeout ∧ (∃ budget, e = .timedOut budget) ∨
    failure.kind = .tool ∧ ∃ reason, failure.message = q.capability.name ++ ": " ++ reason

variable {q : Query} {e : ToolEnd} {o : ProcessOutput} {a : Answer} {cause : ToolFailure}

theorem parsed_bind_eq_ok_iff {shape : Shape} {f : shape.Value → Answer} :
    (do let value ← q.parsed shape o; .ok (f value)) = .ok a ↔ ∃ value,
      shape.parse (Text.encode (Text.trimmed o.stdout)) = .ok value ∧ a = f value := by
  unfold parsed
  cases shape.parse (Text.encode (Text.trimmed o.stdout)) <;> simp [bind, Except.bind, eq_comm]

theorem printed_eq_ok_iff : q.printed o = .ok a ↔ Prints o.stdout q a := by
  cases q with
  | completion =>
      rw [printed, parsed_bind_eq_ok_iff]
      constructor
      · rintro ⟨items, hparse, rfl⟩
        exact .completion hparse
      · intro hprints
        cases hprints with
        | completion hparse => exact ⟨_, hparse, rfl⟩
  | hover =>
      rw [printed, parsed_bind_eq_ok_iff]
      constructor
      · rintro ⟨info, hparse, rfl⟩
        exact .hover hparse
      · intro hprints
        cases hprints with
        | hover hparse => exact ⟨_, hparse, rfl⟩
  | format =>
      constructor
      · intro hprinted
        cases hprinted
        exact .format
      · intro hprints
        cases hprints
        rfl
  | diagnostics =>
      rw [printed, parsed_bind_eq_ok_iff]
      constructor
      · rintro ⟨problems, hparse, rfl⟩
        exact .diagnostics hparse
      · intro hprints
        cases hprints with
        | diagnostics hparse => exact ⟨_, hparse, rfl⟩

theorem ofOutput_eq_ok_iff :
    q.ofOutput o = .ok a ↔ o.status.code? = some 0 ∧ Prints o.stdout q a := by
  unfold ofOutput
  by_cases hcode : o.status.code? = some 0
  · rw [if_pos (ExitStatus.success_iff.mpr hcode), printed_eq_ok_iff, and_iff_right hcode]
  · rw [if_neg (mt ExitStatus.success_iff.mp hcode)]
    exact ⟨nofun, fun h => absurd h.1 hcode⟩

theorem ofEnd_eq_ok_iff : q.ofEnd e.result = .ok a ↔ ∃ status out err, e = .ended status out err ∧
    status.code? = some 0 ∧ Prints (Text.decodeLossy out) q a := by
  cases e with
  | ended status out err =>
      rw [ToolEnd.result, ofEnd, ofOutput_eq_ok_iff]
      constructor
      · rintro ⟨hcode, hprints⟩
        exact ⟨status, out, err, rfl, hcode, hprints⟩
      · rintro ⟨_, _, _, ⟨⟩, hcode, hprints⟩
        exact ⟨hcode, hprints⟩
  | _ => exact ⟨nofun, fun ⟨_, _, _, heq, _⟩ => nomatch heq⟩

/-- The failure is that of a tool that did not work, and names the capability. -/
def Blames (q : Query) (cause : ToolFailure) : Prop :=
  (Failure.tool cause).kind = .tool ∧ ∃ reason, cause.message = q.capability.name ++ ": " ++ reason

theorem message_split (c : Capability) (text what : String) (htext : text = ": " ++ what)
    (rest : String) : c.name ++ text ++ rest = c.name ++ ": " ++ (what ++ rest) := by
  rw [htext]
  simp only [String.append_assoc]

theorem blames_notStarted (reason : String) : q.Blames (.notStarted q.capability reason) :=
  ⟨rfl, _, message_split q.capability _ "failed to start tool: " (by decide) reason⟩

theorem blames_malformedOutput (reason : String) :
    q.Blames (.malformedOutput q.capability reason) :=
  ⟨rfl, _, message_split q.capability _ "malformed tool output: " (by decide) reason⟩

theorem blames_exited (status stderr : String) : q.Blames (.exited q.capability status stderr) := by
  have hsplit := message_split q.capability ": tool exited with " "tool exited with " (by decide)
    (status ++ (": " ++ stderr))
  refine ⟨rfl, _, Eq.trans ?_ hsplit⟩
  change q.capability.name ++ ": tool exited with " ++ status ++ ": " ++ stderr = _
  rw [String.append_assoc, String.append_assoc]

/-- What was printed is refused only because it is not of the wanted shape. -/
theorem printed_eq_error (h : q.printed o = .error cause) :
    ∃ reason, cause = .malformedOutput q.capability reason := by
  have hparsed {shape : Shape} {f : shape.Value → Answer}
      (h : (do let value ← q.parsed shape o; .ok (f value)) = .error cause) :
      ∃ reason, cause = .malformedOutput q.capability reason := by
    unfold parsed at h
    cases hparse : shape.parse (Text.encode (Text.trimmed o.stdout)) with
    | ok => simp [hparse, bind, Except.bind] at h
    | error e =>
        simp only [hparse, bind, Except.bind, Except.error.injEq] at h
        exact ⟨e.message, h.symm⟩
  cases q with
  | completion | hover | diagnostics => exact hparsed h
  | format => cases h

theorem printed_blames (h : q.printed o = .error cause) : q.Blames cause := by
  obtain ⟨reason, rfl⟩ := printed_eq_error h
  exact blames_malformedOutput reason

theorem refused_eq_some_iff : q.refused o = some cause ↔ ∃ path buffer, q = .format path buffer ∧
    o.status.code? = some 123 ∧ cause = .cannotFormat (Text.trimmed o.stderr) := by
  cases q with
  | format path buffer =>
      unfold refused
      by_cases hcode : o.status.code? = some 123
      · simp [hcode, refusedCode, eq_comm]
      · simp [hcode, refusedCode]
  | _ => exact ⟨nofun, fun ⟨_, _, heq, _⟩ => nomatch heq⟩

/-- What makes a run fail: it took too long, the formatter refuses the buffer, or the tool did not
work. -/
theorem ofEnd_eq_error (h : q.ofEnd e.result = .error cause) :
    (∃ budget, e = .timedOut budget ∧ cause = .timedOut q.capability budget) ∨
    (∃ path buffer status out err, q = .format path buffer ∧ e = .ended status out err ∧
      status.code? = some 123 ∧ cause = .cannotFormat (Text.trimmed (Text.decodeLossy err))) ∨
    (∀ budget, e ≠ .timedOut budget) ∧ q.Blames cause ∧
      ∀ path buffer status out err, q = .format path buffer → e = .ended status out err →
        status.code? ≠ some 123 := by
  cases e with
  | timedOut budget =>
      cases h
      exact .inl ⟨budget, rfl, rfl⟩
  | notStarted reason =>
      cases h
      exact .inr (.inr ⟨nofun, blames_notStarted reason, nofun⟩)
  | unreadable reason =>
      cases h
      exact .inr (.inr ⟨nofun, blames_malformedOutput _, nofun⟩)
  | ended status out err =>
      rw [ToolEnd.result, ofEnd, ofOutput] at h
      by_cases hsuccess : status.success
      · rw [if_pos hsuccess] at h
        refine .inr (.inr ⟨nofun, printed_blames h, ?_⟩)
        rintro _ _ _ _ _ _ ⟨⟩ hcode
        cases hcode.symm.trans (ExitStatus.success_iff.mp hsuccess)
      · rw [if_neg hsuccess] at h
        cases hrefused : q.refused ⟨status, Text.decodeLossy out, Text.decodeLossy err⟩ with
        | some refusal =>
            obtain ⟨path, buffer, hq, hcode, rfl⟩ := refused_eq_some_iff.mp hrefused
            rw [hrefused] at h
            cases h
            exact .inr (.inl ⟨path, buffer, status, out, err, hq, rfl, hcode, rfl⟩)
        | none =>
            rw [hrefused] at h
            cases h
            refine .inr (.inr ⟨nofun, blames_exited _ _, ?_⟩)
            rintro path buffer _ _ _ hq ⟨⟩ hcode
            cases hrefused.symm.trans (refused_eq_some_iff.mpr ⟨path, buffer, hq, hcode, rfl⟩)

theorem ofEnd_eq_cannotFormat_iff {text : String} : q.ofEnd e.result = .error (.cannotFormat text) ↔
    ∃ path buffer status out err, q = .format path buffer ∧ e = .ended status out err ∧
      status.code? = some 123 ∧ text = Text.trimmed (Text.decodeLossy err) := by
  cases hend : q.ofEnd e.result with
  | ok a =>
      obtain ⟨status, out, err, rfl, hcode, -⟩ := ofEnd_eq_ok_iff.mp hend
      refine ⟨nofun, ?_⟩
      rintro ⟨_, _, _, _, _, _, ⟨⟩, hrefused, _⟩
      cases hcode.symm.trans hrefused
  | error cause =>
      rw [Except.error.injEq]
      obtain ⟨budget, rfl, rfl⟩ | ⟨path, buffer, status, out, err, hq, rfl, hcode, rfl⟩ |
        ⟨-, ⟨hkind, -⟩, hother⟩ := ofEnd_eq_error hend
      · exact ⟨nofun, fun ⟨_, _, _, _, _, _, heq, _⟩ => nomatch heq⟩
      · constructor
        · rintro ⟨⟩
          exact ⟨path, buffer, status, out, err, hq, rfl, hcode, rfl⟩
        · rintro ⟨_, _, _, _, _, _, ⟨⟩, _, rfl⟩
          rfl
      · constructor
        · rintro rfl
          cases hkind
        · rintro ⟨path, buffer, status, out, err, hq, heq, hcode, _⟩
          exact absurd hcode (hother path buffer status out err hq heq)

theorem mapError_eq_ok_iff {result : Except ToolFailure Answer} :
    result.mapError Failure.tool = .ok a ↔ result = .ok a := by
  cases result with
  | ok answer =>
      change Except.ok answer = .ok a ↔ _
      rw [Except.ok.injEq, Except.ok.injEq]
  | error => exact ⟨nofun, nofun⟩

theorem mapError_eq_error_iff {result : Except ToolFailure Answer} {failure : Failure} :
    result.mapError .tool = .error failure ↔
      ∃ cause, result = .error cause ∧ failure = .tool cause := by
  cases result with
  | ok => exact ⟨nofun, fun ⟨_, heq, _⟩ => nomatch heq⟩
  | error cause =>
      constructor
      · rintro ⟨⟩
        exact ⟨cause, rfl, rfl⟩
      · rintro ⟨_, ⟨⟩, rfl⟩
        rfl

theorem verdict (q : Query) (e : ToolEnd) : q.Verdict e ((q.ofEnd e.result).mapError .tool) where
  answered a := mapError_eq_ok_iff.trans ofEnd_eq_ok_iff
  refused text := by
    rw [← ofEnd_eq_cannotFormat_iff, mapError_eq_error_iff]
    constructor
    · rintro ⟨cause, hend, ⟨⟩⟩
      exact hend
    · intro hend
      exact ⟨_, hend, rfl⟩
  timedOut budget he := by
    cases he
    exact ⟨_, rfl, rfl⟩
  failed failure h := by
    obtain ⟨cause, hend, rfl⟩ := mapError_eq_error_iff.mp h
    obtain ⟨budget, rfl, rfl⟩ | ⟨_, _, _, _, _, _, _, _, rfl⟩ | ⟨-, ⟨hkind, hmessage⟩, -⟩ :=
      ofEnd_eq_error hend
    · exact .inr (.inl ⟨rfl, budget, rfl⟩)
    · exact .inl ⟨rfl, _, rfl⟩
    · exact .inr (.inr ⟨hkind, hmessage⟩)

end Query

end CodeAssist
