import CodeAssist.Proofs.Session.Run

namespace CodeAssist

theorem Stage.rank_of_inRegistry {stage : Stage} (hin : stage.inRegistry = true) :
    stage.rank ≤ 7 := by
  cases stage <;> simp [Stage.inRegistry, Stage.rank] at hin ⊢

namespace Session

/-! What a history says of the runs for a file. -/

def Moment.registered? (m : Moment) (file : List Path.Component) : Option Nat :=
  match m.event with
  | .move _ k .register =>
      if m.before.invocations[k]?.bind (·.query.supersedes?) = some file then some k else none
  | _ => none

/-- The run that was registered last for a file. -/
def last? (history : List Moment) (file : List Path.Component) : Option Nat :=
  history.findSome? (·.registered? file)

/-- Another run for a file was registered while the registration of run `k` had not ended. -/
def Overtaken (history : List Moment) (k : Nat) (file : List Path.Component) : Prop :=
  ∃ m ∈ history, ∃ j u, m.registered? file = some j ∧ j ≠ k ∧ m.before.invocations[k]? = some u ∧
    u.stage.inRegistry = true

section registry

variable {start s s' : Session} {history : List Moment} {m : Moment} {e : Event} {j k n : Nat}
  {u v : Invocation} {file other : List Path.Component} {pool : Pool}

theorem last?_cons (m : Moment) (history : List Moment) (file : List Path.Component) :
    last? (m :: history) file = (m.registered? file).or (last? history file) := by
  unfold last?
  rw [List.findSome?_cons]
  cases m.registered? file <;> rfl

theorem overtaken_cons : Overtaken (m :: history) k file ↔
    (∃ j u, m.registered? file = some j ∧ j ≠ k ∧ m.before.invocations[k]? = some u ∧
      u.stage.inRegistry = true) ∨ Overtaken history k file := by
  simp only [Overtaken, List.mem_cons, exists_eq_or_imp]

theorem registered?_register (hv : s.invocations[k]? = some v)
    (hfile : v.query.supersedes? = some file) (s' : Session) (other : List Path.Component) :
    Moment.registered? ⟨s, .move pool k .register, s'⟩ other =
      if file = other then some k else none := by
  simp [Moment.registered?, hv, hfile]

/-- What the number of a run and the mark that it is superseded have to do with what has been
registered. -/
structure Recorded (history : List Moment) (s : Session) (k : Nat) (v : Invocation) : Prop where
  number_le : ∀ {n : Nat}, v.number = some n → n ≤ s.registered
  early : 7 < v.stage.rank → v.superseded = false
  numbered : ∀ {file : List Path.Component}, v.query.supersedes? = some file →
    v.stage.inRegistry = true → v.number.isSome
  current : ∀ {file : List Path.Component}, v.query.supersedes? = some file →
    v.stage.inRegistry = true → v.superseded = false → last? history file = some k
  overtaken : ∀ {file : List Path.Component}, v.query.supersedes? = some file →
    (v.superseded = true ↔ Overtaken history k file)

/-- Runs have numbers of their own, and the table has that of the last run for each file until its
registration ends. -/
structure Registry (history : List Moment) (s : Session) : Prop where
  recorded : ∀ {k : Nat} {v : Invocation}, s.invocations[k]? = some v → Recorded history s k v
  distinct : ∀ {j k : Nat} {u v : Invocation} {n : Nat}, s.invocations[j]? = some u →
    s.invocations[k]? = some v → u.number = some n → v.number = some n → j = k
  last : ∀ {file : List Path.Component} {k : Nat}, last? history file = some k →
    ∃ v : Invocation, s.invocations[k]? = some v ∧ v.query.supersedes? = some file ∧
      v.superseded = false
  pending : ∀ {file : List Path.Component} {n : Nat}, s.pending.lookup file = some n ↔
    ∃ (k : Nat) (v : Invocation), last? history file = some k ∧ s.invocations[k]? = some v ∧
      v.stage.inRegistry = true ∧ v.number = some n

namespace Registry

theorem new {id : Nat} {interpreter : Interpreter} {settings : ToolSettings} :
    Registry [] { id, interpreter, settings } where
  recorded hv := by cases hv
  distinct hu := by cases hu
  last hlast := by cases hlast
  pending := ⟨nofun, fun ⟨_, _, hlast, _⟩ => by cases hlast⟩

theorem of_last (h : Registry history s) (hv : s.invocations[k]? = some v)
    (hlast : last? history file = some k) :
    v.query.supersedes? = some file ∧ v.superseded = false := by
  obtain ⟨w, hw, hof⟩ := h.last hlast
  cases Option.some.inj (hv.symm.trans hw)
  exact hof

theorem told_iff (h : Registry history s) (hu : s.invocations[j]? = some u) :
    u.number.isSome ∧ u.number = s.pending.lookup file ↔
      last? history file = some j ∧ u.stage.inRegistry = true := by
  constructor
  · rintro ⟨hsome, hnumber⟩
    obtain ⟨n, hn⟩ := Option.isSome_iff_exists.mp hsome
    obtain ⟨k, v, hlast, hv, hin, hvn⟩ := h.pending.mp (hnumber.symm.trans hn)
    obtain rfl := h.distinct hu hv hn hvn
    cases Option.some.inj (hu.symm.trans hv)
    exact ⟨hlast, hin⟩
  · rintro ⟨hlast, hin⟩
    have hsome := (h.recorded hu).numbered (h.of_last hu hlast).1 hin
    obtain ⟨n, hn⟩ := Option.isSome_iff_exists.mp hsome
    exact ⟨hsome, hn.trans (h.pending.mpr ⟨j, u, hlast, hu, hin, hn⟩).symm⟩

/-- A run is told to stop exactly if it has been the last one, and is registered still. -/
theorem superseded_told (h : Registry history s) (hu : s.invocations[j]? = some u) :
    (u.told (s.pending.lookup file)).superseded = true ↔
      u.superseded = true ∨ last? history file = some j ∧ u.stage.inRegistry = true := by
  rw [Invocation.superseded_told, h.told_iff hu]

end Registry

def Quiet (m : Moment) : Prop := ∀ file, m.registered? file = none

theorem Quiet.last (hquiet : Quiet m) : last? (m :: history) file = last? history file := by
  rw [last?_cons, hquiet]
  rfl

theorem Quiet.overtaken (hquiet : Quiet m) :
    Overtaken (m :: history) k file ↔ Overtaken history k file := by
  simp [overtaken_cons, hquiet _]

/-- What a step that registers nothing makes of an invocation. -/
structure Advanced (v v' : Invocation) : Prop where
  query : v'.query = v.query
  number : v'.number = v.number
  superseded : v'.superseded = v.superseded
  rank : v'.stage.rank ≤ v.stage.rank
  inRegistry : v.query.supersedes?.isSome → v'.stage.inRegistry = true → v.stage.inRegistry = true

theorem advanced_self (v : Invocation) : Advanced v v :=
  ⟨rfl, rfl, rfl, le_rfl, fun _ hin => hin⟩

/-- The invocations of a session have advanced at most, or are new. -/
structure Follows (s s' : Session) : Prop where
  registered : s'.registered = s.registered
  kept : ∀ {k : Nat} {v : Invocation}, s.invocations[k]? = some v →
    ∃ v', s'.invocations[k]? = some v' ∧ Advanced v v'
  new : ∀ {k : Nat} {v : Invocation}, s.invocations[k]? = none → s'.invocations[k]? = some v →
    v = { query := v.query }

theorem follows_start (s : Session) (q : Query) : Follows s (s.start q) where
  registered := rfl
  kept hv := by
    have hlt := (List.getElem?_eq_some_iff.mp hv).1
    exact ⟨_, (List.getElem?_append_left hlt).trans hv, advanced_self _⟩
  new hnone hv := by
    obtain hold | ⟨-, rfl⟩ := getElem?_start hv
    · cases hnone.symm.trans hold
    · rfl

theorem follows_put {stage : Stage} (hv : s.invocations[k]? = some v)
    (hsame : s'.invocations = s.invocations) (hregistered : s'.registered = s.registered)
    (hrank : stage.rank < v.stage.rank)
    (hin : v.query.supersedes?.isSome → stage.inRegistry = true → v.stage.inRegistry = true) :
    Follows s (s'.put k { v with stage }) where
  registered := hregistered
  kept {j u} hu := by
    by_cases hj : j = k
    · subst hj
      cases Option.some.inj (hu.symm.trans hv)
      rw [← hsame] at hv
      exact ⟨_, getElem?_put_self hv _, ⟨rfl, rfl, rfl, Nat.le_of_lt hrank, hin⟩⟩
    · rw [← hsame] at hu
      exact ⟨u, (getElem?_put_of_ne hj _ _).trans hu, advanced_self u⟩
  new {j u} hnone hu := by
    by_cases hj : j = k
    · subst hj
      cases hnone.symm.trans hv
    · rw [getElem?_put_of_ne hj, hsame] at hu
      cases hnone.symm.trans hu

theorem Follows.origin (hfollows : Follows s s') (hv : s'.invocations[k]? = some v) :
    (∃ u, s.invocations[k]? = some u ∧ Advanced u v) ∨
      s.invocations[k]? = none ∧ v = { query := v.query } := by
  cases hu : s.invocations[k]? with
  | none => exact .inr ⟨rfl, hfollows.new hu hv⟩
  | some u =>
      obtain ⟨v', hv', hadvanced⟩ := hfollows.kept hu
      cases Option.some.inj (hv.symm.trans hv')
      exact .inl ⟨u, rfl, hadvanced⟩

theorem Recorded.advanced {v' : Invocation} (h : Recorded history s k v) (hquiet : Quiet m)
    (hregistered : s'.registered = s.registered) (hadvanced : Advanced v v') :
    Recorded (m :: history) s' k v' where
  number_le hn := by
    rw [hregistered]
    exact h.number_le (hadvanced.number.symm.trans hn)
  early hrank := hadvanced.superseded.trans (h.early (Nat.lt_of_lt_of_le hrank hadvanced.rank))
  numbered hfile hin := by
    rw [hadvanced.query] at hfile
    rw [hadvanced.number]
    exact h.numbered hfile (hadvanced.inRegistry (by rw [hfile]; rfl) hin)
  current hfile hin hgoes := by
    rw [hadvanced.query] at hfile
    rw [hquiet.last]
    exact h.current hfile (hadvanced.inRegistry (by rw [hfile]; rfl) hin)
      (hadvanced.superseded.symm.trans hgoes)
  overtaken hfile := by
    rw [hadvanced.superseded, hquiet.overtaken]
    exact h.overtaken (hadvanced.query ▸ hfile)

theorem recorded_new (q : Query) (hover : ∀ file, ¬Overtaken history k file) :
    Recorded history s k { query := q } where
  number_le hn := by cases hn
  early _ := rfl
  numbered _ hin := by cases hin
  current _ hin := by cases hin
  overtaken {file} _ := by
    simp [hover file]

theorem not_overtaken (hrun : start.Run history s) (hnone : s.invocations[k]? = none) :
    ¬Overtaken history k file := by
  rintro ⟨m, hm, j, u, -, -, hu, -⟩
  obtain ⟨v, hv, -⟩ := hrun.kept hm hu
  cases hnone.symm.trans hv

namespace Registry

/-- Without a registration, the books stay right if the table does. -/
theorem follow (h : Registry history s) (hrun : start.Run history s) (hfollows : Follows s s')
    (hquiet : Quiet m)
    (hpending : ∀ {file n}, s'.pending.lookup file = some n ↔
      ∃ k v, last? history file = some k ∧ s'.invocations[k]? = some v ∧
        v.stage.inRegistry = true ∧ v.number = some n) : Registry (m :: history) s' where
  recorded {k v} hv := by
    obtain ⟨u, hu, hadvanced⟩ | ⟨hnone, hnew⟩ := hfollows.origin hv
    · exact (h.recorded hu).advanced hquiet hfollows.registered hadvanced
    · rw [hnew]
      exact recorded_new _ fun file hover => not_overtaken hrun hnone (hquiet.overtaken.mp hover)
  distinct {j k u v n} hu hv hun hvn := by
    obtain ⟨w, hw, hadvanced⟩ | ⟨-, hnew⟩ := hfollows.origin hu
    · obtain ⟨x, hx, hother⟩ | ⟨-, hnew⟩ := hfollows.origin hv
      · exact h.distinct hw hx (hadvanced.number.symm.trans hun) (hother.number.symm.trans hvn)
      · rw [hnew] at hvn
        cases hvn
    · rw [hnew] at hun
      cases hun
  last hlast := by
    obtain ⟨v, hv, hfile, hgoes⟩ := h.last (hquiet.last.symm.trans hlast)
    obtain ⟨v', hv', hadvanced⟩ := hfollows.kept hv
    exact ⟨v', hv', by rw [hadvanced.query, hfile], hadvanced.superseded.trans hgoes⟩
  pending {file n} := by
    rw [hquiet.last]
    exact hpending

/-- The table stays right if the last run for each file stays registered, or not. -/
theorem pending_of_eq (h : Registry history s) (hfollows : Follows s s')
    (heq : s'.pending.lookup file = s.pending.lookup file)
    (hin : ∀ {k v v'}, last? history file = some k → s.invocations[k]? = some v →
      s'.invocations[k]? = some v' → v'.stage.inRegistry = v.stage.inRegistry) :
    s'.pending.lookup file = some n ↔ ∃ k v, last? history file = some k ∧
      s'.invocations[k]? = some v ∧ v.stage.inRegistry = true ∧ v.number = some n := by
  rw [heq, h.pending]
  constructor
  · rintro ⟨k, v, hlast, hv, hon, hn⟩
    obtain ⟨v', hv', hadvanced⟩ := hfollows.kept hv
    exact ⟨k, v', hlast, hv', (hin hlast hv hv').trans hon, hadvanced.number.trans hn⟩
  · rintro ⟨k, v', hlast, hv', hon, hn⟩
    obtain ⟨v, hv, -⟩ := h.last hlast
    obtain ⟨w, hw, hadvanced⟩ := hfollows.kept hv
    cases Option.some.inj (hv'.symm.trans hw)
    exact ⟨k, v, hlast, hv, (hin hlast hv hv').symm.trans hon, hadvanced.number.symm.trans hn⟩

theorem started (h : Registry history s) (hrun : Run start history s) (hquiet : Quiet m)
    (q : Query) : Registry (m :: history) (s.start q) := by
  refine h.follow hrun (follows_start s q) hquiet fun {file n} =>
    h.pending_of_eq (follows_start s q) rfl fun {k v v'} _ hv hv' => ?_
  obtain hold | ⟨rfl, -⟩ := getElem?_start hv'
  · rw [Option.some.inj (hv.symm.trans hold)]
  · exact absurd (List.getElem?_eq_some_iff.mp hv).1 (Nat.lt_irrefl _)

theorem goneOn {stage : Stage} (h : Registry history s) (caches : Caches)
    (hrun : Run start history s) (hquiet : Quiet m) (hv : s.invocations[k]? = some v)
    (hrank : stage.rank < v.stage.rank)
    (hregistry : v.query.supersedes?.isSome → stage.inRegistry = v.stage.inRegistry) :
    Registry (m :: history) ({ s with caches }.put k { v with stage }) := by
  have hfollows : Follows s ({ s with caches }.put k { v with stage }) :=
    follows_put hv rfl rfl hrank fun hkind hin => (hregistry hkind).symm.trans hin
  refine h.follow hrun hfollows hquiet fun {file n} =>
    h.pending_of_eq hfollows rfl fun {j u u'} hlast hu hu' => ?_
  by_cases hj : j = k
  · subst hj
    cases Option.some.inj (hu.symm.trans hv)
    have hfile := (h.of_last hv hlast).1
    rw [eq_of_getElem?_put (s := { s with caches := _ }) hv hu']
    exact hregistry (by rw [hfile]; rfl)
  · rw [getElem?_put_of_ne hj] at hu'
    rw [Option.some.inj (hu.symm.trans hu')]

theorem lookup_unregister (hfile : v.query.supersedes? = some file) (other : List Path.Component) :
    (s.unregister v).pending.lookup other =
      if other = file ∧ (s.pending.lookup file).isSome ∧ s.pending.lookup file = v.number then none
      else s.pending.lookup other := by
  unfold unregister
  simp only [hfile, Bool.and_eq_true, beq_iff_eq]
  split
  case isTrue hcurrent =>
    by_cases hother : other = file
    · rw [if_pos ⟨hother, hcurrent⟩, hother]
      exact Table.lookup_without_self ..
    · rw [if_neg fun h => hother h.1]
      exact Table.lookup_without_of_ne hother _
  case isFalse hstale => rw [if_neg fun h => hstale h.2]

theorem registered_unregister (s : Session) (v : Invocation) :
    (s.unregister v).registered = s.registered := by
  unfold unregister
  split
  · rfl
  · split <;> rfl

theorem finished {result : Except Failure Answer} (h : Registry history s)
    (hrun : Run start history s) (hquiet : Quiet m) (hv : s.invocations[k]? = some v)
    (hfile : v.query.supersedes? = some file) (hstage : v.stage = .closing result) :
    Registry (m :: history) ((s.unregister v).put k { v with stage := .reporting result }) := by
  have hfollows : Follows s ((s.unregister v).put k { v with stage := .reporting result }) :=
    follows_put hv (invocations_unregister s v) (registered_unregister s v)
      (by simp [hstage, Stage.rank]) fun _ hin => by cases hin
  have hput (w : Invocation) :
      ((s.unregister v).put k w).invocations[k]? = some w :=
    getElem?_put_self (by rw [invocations_unregister, hv]) w
  refine h.follow hrun hfollows hquiet fun {other n} => ?_
  by_cases hlast : last? history other = some k
  · -- The table had the run that ends, and has no other.
    cases (h.of_last hv hlast).1.symm.trans hfile
    obtain ⟨hsome, hnumber⟩ := (h.told_iff hv).mpr ⟨hlast, by rw [hstage]; rfl⟩
    constructor
    · intro hlookup
      have hnone := lookup_unregister (s := s) hfile file
      rw [if_pos ⟨rfl, hnumber ▸ hsome, hnumber.symm⟩] at hnone
      cases hlookup.symm.trans hnone
    · rintro ⟨j, u, hj, hu, hin, -⟩
      cases hlast.symm.trans hj
      cases (hput _).symm.trans hu
      cases hin
  · refine h.pending_of_eq hfollows ?_ fun {j u u'} hj hu hu' => ?_
    · refine (lookup_unregister (s := s) hfile other).trans (if_neg ?_)
      rintro ⟨rfl, hsome, hnumber⟩
      exact hlast ((h.told_iff hv).mp ⟨hnumber ▸ hsome, hnumber.symm⟩).1
    · have hne : j ≠ k := by
        rintro rfl
        exact hlast hj
      rw [getElem?_put_of_ne hne, invocations_unregister] at hu'
      rw [Option.some.inj (hu.symm.trans hu')]

end Registry

theorem registered_register (s : Session) (k : Nat) (v : Invocation) (file : List Path.Component) :
    (s.register k v file).registered = s.registered + 1 := by
  unfold register
  simp only
  split <;> rfl

theorem lookup_register (s : Session) (k : Nat) (v : Invocation)
    (file other : List Path.Component) :
    (s.register k v file).pending.lookup other =
      if file = other then some (s.registered + 1) else s.pending.lookup other := by
  have hpending : (s.register k v file).pending = Table.put file (s.registered + 1) s.pending := by
    unfold register
    simp only
    split <;> rfl
  rw [hpending]
  split
  case isTrue heq => rw [heq, Table.lookup_put_self]
  case isFalse hne => exact Table.lookup_put_of_ne (Ne.symm hne) _ _

section registers

variable (hv : s.invocations[k]? = some v) (hfile : v.query.supersedes? = some file)

include hv hfile

theorem last?_register : last? (⟨s, .move pool k .register, s'⟩ :: history) other =
    if file = other then some k else last? history other := by
  rw [last?_cons, registered?_register hv hfile]
  split <;> rfl

theorem overtaken_register : Overtaken (⟨s, .move pool k .register, s'⟩ :: history) j other ↔
    (file = other ∧ k ≠ j ∧ ∃ u, s.invocations[j]? = some u ∧ u.stage.inRegistry = true) ∨
      Overtaken history j other := by
  rw [overtaken_cons, registered?_register hv hfile]
  refine or_congr ⟨?_, ?_⟩ Iff.rfl
  · rintro ⟨i, u, hi, hne, hu, hin⟩
    split at hi
    · rename_i hother
      cases hi
      exact ⟨hother, hne, u, hu, hin⟩
    · cases hi
  · rintro ⟨hother, hne, u, hu, hin⟩
    exact ⟨k, u, if_pos hother, hne, hu, hin⟩

theorem Registry.recorded_self (h : Registry history s) :
    Recorded (⟨s, .move pool k .register, s'⟩ :: history) (s.register k v file) k
      { v with number := some (s.registered + 1), stage := .registered } where
  number_le hn := by
    cases hn
    exact le_of_eq (registered_register s k v file).symm
  early hrank := absurd hrank (Nat.lt_irrefl _)
  numbered _ _ := rfl
  current {other} hother _ _ := by
    rw [last?_register hv hfile, if_pos (Option.some.inj (hfile.symm.trans hother))]
  overtaken {other} hother := by
    rw [overtaken_register hv hfile]
    exact ((h.recorded hv).overtaken hother).trans ⟨.inr, fun hor =>
      hor.resolve_left fun hnew => hnew.2.1 rfl⟩

theorem Registry.recorded_other (h : Registry history s) (hne : k ≠ j)
    (hu : s.invocations[j]? = some u) :
    Recorded (⟨s, .move pool k .register, s'⟩ :: history) (s.register k v file) j
      (u.told (s.pending.lookup file)) where
  number_le {n} hn := by
    rw [registered_register]
    exact Nat.le_succ_of_le ((h.recorded hu).number_le (u.told_number _ ▸ hn))
  early hrank := by
    rw [Invocation.told_stage] at hrank
    refine Bool.eq_false_iff.mpr fun hsuperseded => ?_
    obtain hbefore | ⟨-, hin⟩ := (h.superseded_told hu).mp hsuperseded
    · cases hbefore.symm.trans ((h.recorded hu).early hrank)
    · exact absurd hrank (Nat.not_lt_of_le (Stage.rank_of_inRegistry hin))
  numbered hother hin := by
    rw [Invocation.told_query] at hother
    rw [Invocation.told_stage] at hin
    rw [Invocation.told_number]
    exact (h.recorded hu).numbered hother hin
  current {other} hother hin hgoes := by
    rw [Invocation.told_query] at hother
    rw [Invocation.told_stage] at hin
    have hnot := fun hor => Bool.eq_false_iff.mp hgoes ((h.superseded_told hu).mpr hor)
    have hgoes := Bool.eq_false_iff.mpr fun hbefore => hnot (.inl hbefore)
    have hlast := (h.recorded hu).current hother hin hgoes
    rw [last?_register hv hfile, if_neg, hlast]
    rintro rfl
    exact hnot (.inr ⟨hlast, hin⟩)
  overtaken {other} hother := by
    rw [Invocation.told_query] at hother
    rw [h.superseded_told hu, overtaken_register hv hfile, ← (h.recorded hu).overtaken hother]
    constructor
    · rintro (hbefore | ⟨hlast, hin⟩)
      · exact .inr hbefore
      · have hsame := (h.of_last hu hlast).1
        exact .inl ⟨Option.some.inj (hsame.symm.trans hother), hne, u, hu, hin⟩
    · rintro (⟨rfl, -, w, hw, hin⟩ | hbefore)
      · cases Option.some.inj (hu.symm.trans hw)
        by_cases hbefore : u.superseded = true
        · exact .inl hbefore
        · exact .inr ⟨(h.recorded hu).current hother hin (Bool.eq_false_iff.mpr hbefore), hin⟩
      · exact .inl hbefore

theorem Registry.bystander (h : Registry history s) (hne : file ≠ other)
    (hlast : last? history other = some j) :
    k ≠ j ∧ ∃ u, s.invocations[j]? = some u ∧ u.query.supersedes? = some other ∧
      (u.told (s.pending.lookup file)).superseded = false := by
  obtain ⟨u, hu, hother, hgoes⟩ := h.last hlast
  refine ⟨?_, u, hu, hother, Bool.eq_false_iff.mpr fun htold => ?_⟩
  · rintro rfl
    cases Option.some.inj (hu.symm.trans hv)
    exact hne (Option.some.inj (hfile.symm.trans hother))
  · obtain hbefore | ⟨hmine, -⟩ := (h.superseded_told hu).mp htold
    · cases hbefore.symm.trans hgoes
    · have hsame := (h.of_last hu hmine).1
      exact hne (Option.some.inj (hsame.symm.trans hother))

omit hv hfile in
theorem Registry.number_ne (h : Registry history s) (hu : s.invocations[j]? = some u) :
    (u.told (s.pending.lookup file)).number ≠ some (s.registered + 1) := by
  rw [Invocation.told_number]
  exact fun hn => absurd ((h.recorded hu).number_le hn) (Nat.not_succ_le_self _)

theorem Registry.register (h : Registry history s) (hstage : v.stage = .admitted) :
    Registry (⟨s, .move pool k .register, s'⟩ :: history) (s.register k v file) := by
  have hself := getElem?_register_self hv file
  have hothers {j : Nat} (hne : k ≠ j) := getElem?_register_of_ne (Ne.symm hne) s v file
  have horigin {j : Nat} {u' : Invocation} (hne : k ≠ j)
      (hu' : (s.register k v file).invocations[j]? = some u') :
      ∃ u, s.invocations[j]? = some u ∧ u' = u.told (s.pending.lookup file) := by
    rw [hothers hne] at hu'
    obtain ⟨u, hu, rfl⟩ := Option.map_eq_some_iff.mp hu'
    exact ⟨u, hu, rfl⟩
  refine ⟨fun {j u'} hu' => ?_, fun {i j u' w' n} hu' hw' hun hwn => ?_, fun {other j} hlast => ?_,
    fun {other n} => ?_⟩
  · by_cases hj : k = j
    · subst hj
      cases Option.some.inj (hself.symm.trans hu')
      exact h.recorded_self hv hfile
    · obtain ⟨u, hu, rfl⟩ := horigin hj hu'
      exact h.recorded_other hv hfile hj hu
  · -- The new number is higher than all that have been given.
    by_cases hi : k = i <;> by_cases hj : k = j
    · exact hi.symm.trans hj
    · subst hi
      cases Option.some.inj (hself.symm.trans hu')
      cases hun
      obtain ⟨w, hw, rfl⟩ := horigin hj hw'
      exact (h.number_ne hw hwn).elim
    · subst hj
      cases Option.some.inj (hself.symm.trans hw')
      cases hwn
      obtain ⟨u, hu, rfl⟩ := horigin hi hu'
      exact (h.number_ne hu hun).elim
    · obtain ⟨u, hu, rfl⟩ := horigin hi hu'
      obtain ⟨w, hw, rfl⟩ := horigin hj hw'
      exact h.distinct hu hw (u.told_number _ ▸ hun) (w.told_number _ ▸ hwn)
  · rw [last?_register hv hfile] at hlast
    split at hlast
    · rename_i hother
      cases hlast
      exact ⟨_, hself, hother ▸ hfile, (h.recorded hv).early (by simp [hstage, Stage.rank])⟩
    · rename_i hother
      obtain ⟨hne, u, hu, hsame, hgoes⟩ := h.bystander hv hfile hother hlast
      exact ⟨_, (hothers hne).trans (by rw [hu]; rfl), (u.told_query _).symm ▸ hsame, hgoes⟩
  · -- The entry for the file is that of the new run; those for others are as they were.
    rw [lookup_register, last?_register hv hfile]
    split
    · constructor
      · exact fun hn => ⟨k, _, rfl, hself, rfl, hn⟩
      · rintro ⟨j, u', hj, hu', -, hn⟩
        cases hj
        cases Option.some.inj (hself.symm.trans hu')
        exact hn
    · rename_i hother
      rw [h.pending]
      constructor
      · rintro ⟨j, u, hlast, hu, hin, hn⟩
        have hj := (h.bystander hv hfile hother hlast).1
        refine ⟨j, u.told _, hlast, (hothers hj).trans (by rw [hu]; rfl), ?_, ?_⟩
        · rwa [Invocation.told_stage]
        · rwa [Invocation.told_number]
      · rintro ⟨j, u', hlast, hu', hin, hn⟩
        obtain ⟨u, hu, rfl⟩ := horigin (h.bystander hv hfile hother hlast).1 hu'
        rw [Invocation.told_stage] at hin
        rw [Invocation.told_number] at hn
        exact ⟨j, u, hlast, hu, hin, hn⟩

end registers

theorem quiet_move {step : Move} (hv : s.invocations[k]? = some v)
    (hnot : v.query.supersedes?.isSome → step ≠ .register) (pool : Pool) (s' : Session) :
    Quiet ⟨s, .move pool k step, s'⟩ := by
  intro file
  cases step with
  | register =>
      unfold Moment.registered?
      simp only [hv, Option.bind_some]
      refine if_neg fun hfile => hnot ?_ rfl
      rw [hfile]
      rfl
  | _ => rfl

variable {id : Nat} {interpreter : Interpreter} {settings : ToolSettings}

theorem Run.registry (hrun : Run { id, interpreter, settings } history s) : Registry history s := by
  refine hrun.invariant (P := Registry) .new ?_
  intro history s e s' hrun h hhappens
  cases hhappens with
  | started q => exact h.started hrun (fun _ => rfl) q
  | @moved pool _ k _ v _ hv hadvance =>
      cases hadvance.change with
      | registers hstage hfile => exact h.register hv hfile hstage
      | goesOn hrank hregistry =>
          exact h.goneOn _ hrun (quiet_move hv (fun hkind => (hregistry hkind).1) _ _) hv hrank
            fun hkind => (hregistry hkind).2
      | finishes hstage =>
          have hquiet (s' : Session) : Quiet ⟨s, .move pool k .unregister, s'⟩ :=
            quiet_move hv (fun _ hmove => by cases hmove) pool s'
          cases hfile : v.query.supersedes? with
          | none =>
              have hsame : s.unregister v = s := by rw [unregister, hfile]
              rw [hsame]
              refine h.goneOn s.caches hrun (hquiet _) hv (by simp [hstage, Stage.rank]) ?_
              rw [hfile]
              intro hkind
              cases hkind
          | some file => exact h.finished hrun (hquiet _) hv hfile hstage
  | retired reason =>
      have hfollows : Follows s (s.retire reason) :=
        ⟨rfl, fun hv => ⟨_, hv, advanced_self _⟩, fun hnone hv => by cases hnone.symm.trans hv⟩
      exact h.follow hrun hfollows (fun _ => rfl) fun {file n} =>
        h.pending_of_eq hfollows rfl fun _ hv hv' => by rw [Option.some.inj (hv.symm.trans hv')]

/-- The end of a registration that another has followed leaves the table as it is. -/
theorem Registry.pending_of_stale (h : Registry history s) (hv : s.invocations[k]? = some v)
    (hfile : v.query.supersedes? = some file) (hstale : last? history file ≠ some k)
    (hnext : s.next? (.move pool k .unregister) = some s') : s'.pending = s.pending := by
  have hsame : s.unregister v = s := by
    unfold unregister
    simp only [hfile, Bool.and_eq_true, beq_iff_eq]
    refine if_neg ?_
    rintro ⟨hsome, hnumber⟩
    exact hstale ((h.told_iff hv).mp ⟨hnumber ▸ hsome, hnumber.symm⟩).1
  cases next?_happens hnext with
  | moved hw hadvance =>
      cases Option.some.inj (hv.symm.trans hw)
      cases hadvance with
      | unregistered =>
          rw [hsame]
          rfl

theorem Registry.pending_isSome (h : Registry history s) :
    (s.pending.lookup file).isSome ↔ ∃ k v, last? history file = some k ∧
      s.invocations[k]? = some v ∧ v.stage.inRegistry = true := by
  rw [Option.isSome_iff_exists]
  constructor
  · rintro ⟨n, hn⟩
    obtain ⟨k, v, hlast, hv, hin, -⟩ := h.pending.mp hn
    exact ⟨k, v, hlast, hv, hin⟩
  · rintro ⟨k, v, hlast, hv, hin⟩
    obtain ⟨hsome, hnumber⟩ := (h.told_iff hv).mpr ⟨hlast, hin⟩
    obtain ⟨n, hn⟩ := Option.isSome_iff_exists.mp hsome
    exact ⟨n, hnumber.symm.trans hn⟩

theorem Registry.pending_eq_nil (h : Registry history s)
    (hdone : ∀ v ∈ s.invocations, v.stage.inRegistry = false) : s.pending = [] := by
  cases hpending : s.pending with
  | nil => rfl
  | cons entry rest =>
      obtain ⟨file, n⟩ := entry
      have hsome : (s.pending.lookup file).isSome := by simp [hpending]
      obtain ⟨k, v, -, hv, hin⟩ := h.pending_isSome.mp hsome
      cases hin.symm.trans (hdone v (List.mem_of_getElem? hv))

end registry

end Session

end CodeAssist
