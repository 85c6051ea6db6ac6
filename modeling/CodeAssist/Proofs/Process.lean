import CodeAssist.Proofs.Text
import CodeAssist.Proofs.Tool.Ending
import CodeAssist.Resolver

namespace CodeAssist

namespace Text

/-! The last line of a text that is trimmed. -/

/-- What stands behind the last LF of a text, or all of it if it has none. -/
def IsLastLine (s line : List Char) : Prop :=
  '\n' ∉ line ∧ ∃ before, s = before ++ line ∧ ∀ c ∈ before.getLast?, c = '\n'

section lines

variable {s line : List Char}

theorem exists_isLastLine (s : List Char) : ∃ line, IsLastLine s line := by
  refine ⟨s.rtakeWhile (· ≠ '\n'), fun hmem => ?_, s.rdropWhile (· ≠ '\n'),
    List.rdropWhile_append_rtakeWhile.symm, fun c hc => ?_⟩
  · simpa using List.mem_rtakeWhile_imp hmem
  · obtain ⟨hne, rfl⟩ := List.mem_getLast?_eq_getLast hc
    simpa using List.rdropWhile_last_not (fun c => decide (c ≠ '\n')) s hne

theorem splitAtLf_go_line {line : List Char} (hline : '\n' ∉ line) (done : List (List Char))
    (front : List Char) :
    splitAtLf.go done front line = splitAtLf.go done (line.reverse ++ front) [] := by
  induction line generalizing front with
  | nil => rfl
  | cons c line ih =>
      have hc : c ≠ '\n' := (List.ne_of_not_mem_cons hline).symm
      have hstep : splitAtLf.go done front (c :: line) = splitAtLf.go done (c :: front) line := by
        rw [splitAtLf.go]
        exact hc
      rw [hstep, ih (List.not_mem_of_not_mem_cons hline), List.reverse_cons, List.append_assoc,
        List.singleton_append]

/-- Behind an LF a new line is begun. -/
theorem exists_splitAtLf_go (before rest : List Char) (done : List (List Char)) (front : List Char) :
    ∃ done', splitAtLf.go done front (before ++ '\n' :: rest) = splitAtLf.go done' [] rest := by
  induction before generalizing done front with
  | nil => exact ⟨_, rfl⟩
  | cons c before ih =>
      by_cases hc : c = '\n'
      · rw [hc, List.cons_append, splitAtLf.go]
        exact ih _ _
      · rw [List.cons_append, splitAtLf.go]
        · exact ih _ _
        · exact hc

theorem withoutLf_of_not_mem (hline : '\n' ∉ line) : withoutLf line = line := by
  unfold withoutLf
  split
  case h_1 heq | h_2 heq =>
    exact absurd (List.mem_reverse.mp (heq ▸ List.mem_cons_self)) hline
  case h_3 => rfl

theorem getLast?_splitAtLf_go (hline : '\n' ∉ line) (hne : line ≠ []) (done : List (List Char)) :
    (splitAtLf.go done [] line).getLast? = some line := by
  rw [splitAtLf_go_line hline, splitAtLf.go]
  simp [hne]

/-- A last line that is not empty is the last of the lines. -/
theorem IsLastLine.eq_lastLine (h : IsLastLine s line) (hne : line ≠ []) : lastLine s = line := by
  obtain ⟨hline, before, rfl, hbefore⟩ := h
  have hlast : (splitAtLf (before ++ line)).getLast? = some line := by
    obtain rfl | ⟨front, c, rfl⟩ := before.eq_nil_or_concat'
    · exact getLast?_splitAtLf_go hline hne []
    · obtain rfl := hbefore c List.getLast?_concat
      obtain ⟨done, hgo⟩ := exists_splitAtLf_go front line [] []
      rw [splitAtLf, List.append_assoc, List.singleton_append, hgo]
      exact getLast?_splitAtLf_go hline hne done
  rw [lastLine, lines, List.getLast?_map, hlast, Option.map_some, Option.getD_some,
    withoutLf_of_not_mem hline]

/-- The last line of a text that is trimmed is empty only if that is. -/
theorem IsTrimmed.line_ne_nil {t : List Char} (ht : IsTrimmed s t) (hline : IsLastLine t line)
    (hne : t ≠ []) : line ≠ [] := by
  rintro rfl
  obtain ⟨-, before, rfl, hbefore⟩ := hline
  rw [List.append_nil] at ht hne
  have hlast := List.getLast?_eq_some_getLast hne
  have hlf := ht.last _ hlast
  rw [hbefore _ hlast] at hlf
  exact absurd hlf (by decide)

end lines

end Text

namespace ExitStatus

theorem lf_not_mem_toDigits {base : Nat} (hbase : 1 < base) (n : Nat) :
    '\n' ∉ Nat.toDigits base n := by
  have hdigit (m : Nat) : '\n' ≠ Nat.digitChar m := by
    fun_cases Nat.digitChar m <;> decide
  induction n using Nat.base_induction base hbase with
  | single m hm =>
      rw [Nat.toDigits_of_lt_base hm, List.mem_singleton]
      exact hdigit m
  | digit m k hk hm ih =>
      rw [← Nat.toDigits_append_toDigits hbase hm hk, Nat.toDigits_of_lt_base hk, List.mem_append,
        List.mem_singleton, not_or]
      exact ⟨ih, hdigit k⟩

theorem lf_not_mem_decimal (n : Nat) : '\n' ∉ Text.decimal n := lf_not_mem_toDigits (by decide) n

theorem lf_not_mem_signalText (n : Nat) : '\n' ∉ (signalText n).toList := by
  have hname {name : String} (hmem : name ∈ signalNames) : '\n' ∉ name.toList := by
    revert name
    decide
  unfold signalText
  rw [String.toList_append, List.mem_append, String.toList_ofList, not_or]
  refine ⟨lf_not_mem_decimal n, ?_⟩
  split
  case h_1 name heq =>
    have hmem : name ∈ signalNames := by
      split at heq
      · cases heq
      · exact List.mem_of_getElem? heq
    simp [hname hmem]
  case h_2 => exact List.not_mem_nil

theorem lf_not_mem_display (s : ExitStatus) : '\n' ∉ s.display.toList := by
  have hsigned : '\n' ∉ (signedText s.raw).toList := by
    unfold signedText
    split <;> simp [lf_not_mem_decimal]
  have hhex : '\n' ∉ (hexText s.raw).toList := by
    simp [hexText, lf_not_mem_toDigits]
  unfold display
  repeat' split
  all_goals simp [lf_not_mem_decimal, lf_not_mem_signalText, hsigned, hhex]

end ExitStatus

namespace ProcessOutput

section quoted

variable {stderr : String} {text line : List Char}

theorem lastError_eq (htext : Text.IsTrimmed stderr.toList text) (hline : Text.IsLastLine text line) :
    lastError stderr = String.ofList
      (if line.length ≤ maxQuoted then line else line.take maxQuoted ++ ['.', '.', '.']) := by
  have hlast : Text.lastLine text = line := by
    by_cases hne : text = []
    · obtain ⟨-, before, heq, -⟩ := hline
      rw [hne] at heq ⊢
      exact (List.append_eq_nil_iff.mp heq.symm).2.symm
    · exact hline.eq_lastLine (htext.line_ne_nil hline hne)
  rw [lastError, ← htext.eq_trim, hlast]
  by_cases hlong : line.length ≤ maxQuoted
  · rw [if_neg (Nat.not_lt.mpr hlong), if_pos hlong]
  · rw [if_pos (Nat.lt_of_not_le hlong), if_neg hlong]

theorem lf_not_mem_lastError (stderr : String) : '\n' ∉ (lastError stderr).toList := by
  obtain ⟨line, hline⟩ := Text.exists_isLastLine (Text.trim stderr.toList)
  rw [lastError_eq (Text.isTrimmed_trim _) hline, String.toList_ofList]
  split
  · exact hline.1
  · rw [List.mem_append, not_or]
    exact ⟨fun hmem => hline.1 (List.mem_of_mem_take hmem), by decide⟩

theorem length_lastError_le (stderr : String) : (lastError stderr).length ≤ 515 := by
  obtain ⟨line, hline⟩ := Text.exists_isLastLine (Text.trim stderr.toList)
  rw [lastError_eq (Text.isTrimmed_trim _) hline, String.length_ofList]
  split <;> simp only [List.length_append, List.length_take, List.length_cons, List.length_nil,
    maxQuoted] at * <;> omega

theorem lastError_eq_empty_iff :
    lastError stderr = "" ↔ ∀ c ∈ stderr.toList, Text.isBlank c := by
  have htrimmed := Text.isTrimmed_trim stderr.toList
  obtain ⟨line, hline⟩ := Text.exists_isLastLine (Text.trim stderr.toList)
  have hempty : lastError stderr = "" ↔ line = [] := by
    rw [lastError_eq htrimmed hline, ← String.toList_eq_nil_iff, String.toList_ofList]
    split
    case isTrue => exact Iff.rfl
    case isFalse hlong =>
      refine ⟨fun h => absurd h (by simp), ?_⟩
      rintro rfl
      exact absurd (Nat.zero_le _) hlong
  rw [hempty, ← Text.trim_eq_nil_iff]
  constructor
  · exact fun h => by_contra fun hne => htrimmed.line_ne_nil hline hne h
  · intro h
    obtain ⟨-, before, heq, -⟩ := hline
    rw [h] at heq
    exact (List.append_eq_nil_iff.mp heq.symm).2

end quoted

end ProcessOutput

section messages

variable {status quoted : String}

theorem lf_not_mem_exitedWith (hstatus : '\n' ∉ status.toList) (hquoted : '\n' ∉ quoted.toList) :
    '\n' ∉ ("exited with " ++ status ++ ": " ++ quoted).toList := by
  have hbefore : '\n' ∉ "exited with ".toList := by decide
  have hbetween : '\n' ∉ ": ".toList := by decide
  simp only [String.toList_append, List.mem_append, not_or]
  exact ⟨⟨⟨hbefore, hstatus⟩, hbetween⟩, hquoted⟩

theorem ToolFailure.lf_not_mem_exited (c : Capability) (hstatus : '\n' ∉ status.toList)
    (hquoted : '\n' ∉ quoted.toList) : '\n' ∉ (exited c status quoted).message.toList := by
  have hname : '\n' ∉ (c.name ++ ": tool ").toList := by cases c <;> decide
  have hsplit : (exited c status quoted).message =
      c.name ++ ": tool " ++ ("exited with " ++ status ++ ": " ++ quoted) := by
    have hwords : ": tool exited with " = ": tool " ++ "exited with " := by decide
    change c.name ++ ": tool exited with " ++ status ++ ": " ++ quoted = _
    simp only [hwords, String.append_assoc]
  rw [hsplit, String.toList_append, List.mem_append, not_or]
  exact ⟨hname, lf_not_mem_exitedWith hstatus hquoted⟩

theorem EnvironmentFailure.count_lf_probeFailed (path : Path) {reason : String}
    (hreason : '\n' ∉ reason.toList) :
    (probeFailed path reason).message.toList.count '\n' = path.text.toList.count '\n' := by
  have hbefore : "failed to probe interpreter ".toList.count '\n' = 0 := by decide
  have hbetween : ": ".toList.count '\n' = 0 := by decide
  change ("failed to probe interpreter " ++ path.text ++ ": " ++ reason).toList.count '\n' = _
  simp only [String.toList_append, List.count_append, hbefore, hbetween,
    List.count_eq_zero.mpr hreason, Nat.add_zero, Nat.zero_add]

end messages

/-- Of a tool that has exited, the failure quotes the status and the last line of its errors. -/
theorem Query.ofEnd_eq_exited {q : Query} {result : ProcessEnd} {c : Capability}
    {status quoted : String} (h : q.ofEnd result = .error (.exited c status quoted)) :
    ∃ o, result = .ok o ∧ c = q.capability ∧ status = o.status.display ∧ quoted = o.shortStderr := by
  cases result with
  | error failure => cases failure <;> cases h
  | ok o =>
      refine ⟨o, rfl, ?_⟩
      rw [ofEnd, ofOutput] at h
      split at h
      · obtain ⟨reason, hcause⟩ := printed_eq_error h
        cases hcause
      · cases hrefused : q.refused o with
        | some refusal =>
            obtain ⟨_, _, -, -, rfl⟩ := refused_eq_some_iff.mp hrefused
            rw [hrefused] at h
            cases h
        | none =>
            rw [hrefused] at h
            cases h
            exact ⟨rfl, rfl, rfl⟩

namespace ProcessOutput

/-- Of an error output one line is quoted, which is short: the last of what is left when the blanks
at its ends are removed, or 512 characters of that and three dots. It is empty if and only if the
output is blank. The message of a tool that has exited, and that of a failed probe, so has no line
break but those of the interpreter's path. -/
theorem lastError_one_line :
    (∀ stderr, '\n' ∉ (lastError stderr).toList ∧ (lastError stderr).length ≤ 515 ∧
      (lastError stderr = "" ↔ ∀ c ∈ stderr.toList, Text.isBlank c) ∧
      (∃ text line, Text.IsTrimmed stderr.toList text ∧ Text.IsLastLine text line) ∧
      ∀ text line, Text.IsTrimmed stderr.toList text → Text.IsLastLine text line →
        (line.length ≤ 512 → (lastError stderr).toList = line) ∧
        (512 < line.length → (lastError stderr).toList = line.take 512 ++ ['.', '.', '.'])) ∧
    (∀ (q : Query) result c status quoted, q.ofEnd result = .error (.exited c status quoted) →
      (∃ o, result = .ok o ∧ quoted = lastError o.stderr) ∧
        '\n' ∉ (ToolFailure.exited c status quoted).message.toList) ∧
    ∀ (interpreter : Path) (o : ProcessOutput), o.status.success = false →
      ∃ failure, Probe.ofEnd interpreter (.ok o) = .error failure ∧
        failure.message.toList.count '\n' = interpreter.text.toList.count '\n' := by
  refine ⟨fun stderr => ⟨lf_not_mem_lastError stderr, length_lastError_le stderr,
    lastError_eq_empty_iff, ?_, fun text line htext hline => ?_⟩, ?_, ?_⟩
  · obtain ⟨line, hline⟩ := Text.exists_isLastLine (Text.trim stderr.toList)
    exact ⟨_, line, Text.isTrimmed_trim _, hline⟩
  · rw [lastError_eq htext hline, String.toList_ofList]
    exact ⟨fun hshort => if_pos hshort, fun hlong => if_neg (Nat.not_le_of_lt hlong)⟩
  · intro q result c status quoted h
    obtain ⟨o, rfl, rfl, rfl, rfl⟩ := Query.ofEnd_eq_exited h
    refine ⟨⟨o, rfl, rfl⟩, ?_⟩
    exact ToolFailure.lf_not_mem_exited _ o.status.lf_not_mem_display (lf_not_mem_lastError o.stderr)
  · intro interpreter o hstatus
    refine ⟨.probeFailed interpreter ("exited with " ++ o.status.display ++ ": " ++ o.shortStderr),
      ?_, EnvironmentFailure.count_lf_probeFailed _ (lf_not_mem_exitedWith
        o.status.lf_not_mem_display (lf_not_mem_lastError o.stderr))⟩
    simp [Probe.ofEnd, Probe.ofOutput, hstatus, Except.mapError]

/-- The last line starts with blanks and has a CR inside, and the output ends with CR, LF and other
blanks. -/
theorem lastError_one_line_return :
    let o : ProcessOutput := ⟨.exited 1, "", "Traceback\r\n  a\rb \r\n\t\n"⟩
    (lastError o.stderr).toList = "  a\rb".toList ∧
      '\n' ∉ (ToolFailure.exited .hover "exit status: 1" "  a\rb").message.toList ∧
      ∃ failure, Probe.ofEnd ⟨"/py"⟩ (.ok o) = .error failure ∧
        failure.message.toList.count '\n' = 0 := by
  intro o
  obtain ⟨hline, hexited, hprobe⟩ := lastError_one_line
  have htext : Text.IsTrimmed o.stderr.toList "Traceback\r\n  a\rb".toList := by
    refine ⟨⟨[], " \r\n\t\n".toList, by decide, nofun, List.all_eq_true.mp (by decide)⟩, ?_, ?_⟩
    · rintro _ ⟨⟩
      decide
    · rintro _ ⟨⟩
      decide
  have hlast : Text.IsLastLine "Traceback\r\n  a\rb".toList "  a\rb".toList := by
    refine ⟨by decide, "Traceback\r\n".toList, by decide, ?_⟩
    rintro _ ⟨⟩
    rfl
  have hquoted := ((hline o.stderr).2.2.2.2 _ _ htext hlast).1 (by decide)
  obtain ⟨failure, hfailed, hcount⟩ := hprobe ⟨"/py"⟩ o (by decide)
  exact ⟨hquoted, (hexited (.hover ⟨"a.py"⟩ "os" 1) (.ok o) _ _ _ (by decide)).2, failure, hfailed,
    hcount.trans (by decide)⟩

end ProcessOutput

end CodeAssist
