import CodeAssist.Proofs.Session.Alone

namespace CodeAssist

/-! What a session keeps shows only in how often its tools run: queries are answered as by a session
that has kept nothing. -/

/-- Alike queries that have a place are both about completions, or both about diagnostics. -/
theorem Query.Alike.of_place {p q : Query} (halike : p.Alike q) (hplace : p.place?.isSome) :
    (∃ path buffer path' buffer' offset, p = .completion path buffer offset ∧
      q = .completion path' buffer' offset ∧ path.components = path'.components ∧
      Digest.ofText buffer = Digest.ofText buffer') ∨
    ∃ path buffer path' buffer', p = .diagnostics path buffer ∧ q = .diagnostics path' buffer' ∧
      path.components = path'.components ∧ Digest.ofText buffer = Digest.ofText buffer' := by
  cases halike with
  | same =>
      cases p with
      | completion => exact .inl ⟨_, _, _, _, _, rfl, rfl, rfl, rfl⟩
      | diagnostics => exact .inr ⟨_, _, _, _, rfl, rfl, rfl, rfl⟩
      | hover | format => cases hplace
  | completion hfile hdigest => exact .inl ⟨_, _, _, _, _, rfl, rfl, hfile, hdigest⟩
  | diagnostics hfile hdigest => exact .inr ⟨_, _, _, _, rfl, rfl, hfile, hdigest⟩

namespace Caches

variable {caches : Caches} {p q : Query} {a : Answer}

theorem lookup_of_lookup (hlookup : ((caches.lookup p).2.lookup q).1 = some a) :
    (caches.lookup q).1 = some a := by
  by_cases hplace : q.place? = p.place?
  · cases p with
    | completion =>
        cases q with
        | completion =>
            obtain ⟨items, hitems, rfl⟩ := Option.map_eq_some_iff.mp hlookup
            have hholds := (FileCache.holds_get_iff.mp (FileCache.get_eq_some_iff.mp hitems)).1
            exact congrArg (Option.map _) (FileCache.get_eq_some_iff.mpr hholds)
        | diagnostics | hover | format => cases hplace
    | diagnostics =>
        cases q with
        | diagnostics =>
            obtain ⟨found, hfound, rfl⟩ := Option.map_eq_some_iff.mp hlookup
            have hholds := (FileCache.holds_get_iff.mp (FileCache.get_eq_some_iff.mp hfound)).1
            exact congrArg (Option.map _) (FileCache.get_eq_some_iff.mpr hholds)
        | completion | hover | format => cases hplace
    | hover | format => exact hlookup
  · rwa [lookup_lookup_of_ne hplace] at hlookup

theorem lookup_again (halike : p.Alike q) (hfound : (caches.lookup p).1.isSome) :
    ((caches.lookup p).2.lookup q).1.isSome := by
  have hplace : p.place?.isSome := by
    cases p with
    | completion | diagnostics => rfl
    | hover | format => cases hfound
  obtain ⟨answer, hanswer⟩ := Option.isSome_iff_exists.mp hfound
  obtain ⟨path, buffer, path', buffer', offset, rfl, rfl, hfile, hdigest⟩ |
    ⟨path, buffer, path', buffer', rfl, rfl, hfile, hdigest⟩ := halike.of_place hplace
  · obtain ⟨items, hitems, -⟩ := Option.map_eq_some_iff.mp hanswer
    exact Option.isSome_map.trans (Option.isSome_iff_exists.mpr
      ⟨items, FileCache.get_get hfile hdigest hitems⟩)
  · obtain ⟨found, hfound, -⟩ := Option.map_eq_some_iff.mp hanswer
    exact Option.isSome_map.trans (Option.isSome_iff_exists.mpr
      ⟨found, FileCache.get_get hfile hdigest hfound⟩)

theorem lookup_store {o : ProcessOutput} (halike : p.Alike q) (hplace : p.place?.isSome)
    (hread : p.ofOutput o = .ok a) : ((caches.store p a).lookup q).1.isSome := by
  obtain ⟨path, buffer, path', buffer', offset, rfl, rfl, hfile, hdigest⟩ |
    ⟨path, buffer, path', buffer', rfl, rfl, hfile, hdigest⟩ := halike.of_place hplace
  · obtain ⟨items, rfl⟩ := Query.ofOutput_completion hread
    exact Option.isSome_map.trans (Option.isSome_iff_exists.mpr
      ⟨items, FileCache.get_insert hfile hdigest⟩)
  · obtain ⟨found, rfl⟩ := Session.ofOutput_diagnostics hread
    exact Option.isSome_map.trans (Option.isSome_iff_exists.mpr
      ⟨found, FileCache.get_insert hfile hdigest⟩)

end Caches

/-- Whether a step may look an answer up or store one. -/
def Move.usesCaches : Move → Bool
  | .begin | .finish _ => true
  | _ => false

def Stage.isRunning : Stage → Bool
  | .running _ => true
  | _ => false

namespace Session

section run

variable {start s s' : Session} {history : List Moment} {m : Moment} {j k : Nat}
  {u v v' : Invocation} {tool : ToolRequest → ProcessEnd} {id : Nat} {interpreter : Interpreter}
  {settings : ToolSettings}

theorem Run.caches_of_failed {pool : Pool} {result : ProcessEnd} {cause : ToolFailure}
    (hrun : start.Run history s) (hm : m ∈ history)
    (hevent : m.event = .move pool k (.finish result)) (hv : m.before.invocations[k]? = some v)
    (hend : v.query.ofEnd result = .error cause) : m.after.caches = m.before.caches := by
  obtain ⟨u, pool', hu, hadvance⟩ := hrun.advance hm hevent
  cases Option.some.inj (hv.symm.trans hu)
  generalize m.after = s' at hadvance
  cases hadvance with
  | answered _ hanswer => cases hend.symm.trans hanswer
  | failed => rfl

/-- Only a run that has succeeded makes something to be found that was not found before. -/
theorem Happens.found_or_answered {e : Event} {q : Query} {a : Answer} (hhappens : Happens s e s')
    (hfound : (s'.caches.lookup q).1 = some a) :
    (s.caches.lookup q).1 = some a ∨
      ∃ pool k result v answer, e = .move pool k (.finish result) ∧
        s.invocations[k]? = some v ∧ v.query.ofEnd result = .ok answer := by
  cases hhappens with
  | started | retired => exact .inl hfound
  | moved hv hadvance =>
      cases hadvance with
      | answered _ hend => exact .inr ⟨_, _, _, _, _, rfl, hv, hend⟩
      | registered =>
          rw [caches_register] at hfound
          exact .inl hfound
      | @unregistered result =>
          rw [← caches_unregister s _]
          exact .inl hfound
      | recalled | began => exact .inl (Caches.lookup_of_lookup hfound)
      | _ => exact .inl hfound

/-- The invocation that looks an answer up or stores one with a step, if its place is that one. -/
def Moment.user? (m : Moment) (place : Capability × List Path.Component) : Option Nat :=
  match m.event with
  | .move _ k step =>
      if step.usesCaches && m.before.invocations[k]?.any (·.query.place? = some place) then some k
      else none
  | .start _ | .retire _ => none

/-- The last invocation that looked up or stored an answer in a place. -/
def lastUser? (history : List Moment) (place : Capability × List Path.Component) : Option Nat :=
  history.findSome? (·.user? place)

def Moment.begins (m : Moment) (k : Nat) : Bool :=
  match m.event with
  | .move _ j .begin => j == k
  | _ => false

/-- Whether invocation `k` begins to run its tool. -/
def Moment.runsTool (m : Moment) (k : Nat) : Bool :=
  m.begins k && m.after.invocations[k]?.any (·.stage.isRunning)

/-- Invocation `k` begins when invocation `j` has an answer, and nothing was looked up or stored in
a place since that one did. -/
inductive InTurn (j k : Nat) (place : Capability × List Path.Component) : List Moment → Prop
  | now {m : Moment} {earlier : List Moment} {pool : Pool} {u : Invocation} {a : Answer}
      (hevent : m.event = .move pool k .begin) (hlast : lastUser? earlier place = some j)
      (hu : m.before.invocations[j]? = some u) (ha : u.stage.outcome? = some (.ok a)) :
      InTurn j k place (m :: earlier)
  | later {m : Moment} {history : List Moment} (hturn : InTurn j k place history) :
      InTurn j k place (m :: history)

theorem Moment.user?_move {pool : Pool} {step : Move} (hv : s.invocations[k]? = some v)
    (place : Capability × List Path.Component) :
    Moment.user? ⟨s, .move pool k step, s'⟩ place =
      if step.usesCaches = true ∧ v.query.place? = some place then some k else .none := by
  simp [Moment.user?, hv]

theorem Advance.lookup_kept {pool pool' : Pool} {step : Move} {q : Query}
    (hadvance : s.Advance pool k v step pool' s')
    (hidle : step.usesCaches = true → q.place? ≠ v.query.place?) :
    (s'.caches.lookup q).1 = (s.caches.lookup q).1 := by
  cases hadvance with
  | registered => rw [caches_register]
  | unregistered =>
      exact congrArg (fun caches => (caches.lookup q).1) (caches_unregister s v)
  | recalled | began => exact Caches.lookup_lookup_of_ne (hidle rfl)
  | answered => exact Caches.lookup_store_of_ne (hidle rfl) _
  | _ => rfl

/-- An answer that an invocation has come to with a step is kept, unless it was there before. -/
theorem Advance.keeps {pool pool' : Pool} {step : Move} {q : Query} {a : Answer}
    (hadvance : s.Advance pool k v step pool' s') (hv : s.invocations[k]? = some v)
    (hv' : s'.invocations[k]? = some v') (halike : v.query.Alike q)
    (hplace : v.query.place?.isSome) (hneeds : v.query.needsTool = true)
    (ha : v'.stage.outcome? = some (.ok a)) :
    (s'.caches.lookup q).1.isSome ∨
      v.stage.outcome? = some (.ok a) ∧ step.usesCaches = false := by
  cases hadvance with
  | trivial _ hno => cases hneeds.symm.trans hno
  | recalled hstage _ hcache =>
      exact .inl (Caches.lookup_again halike (by rw [hcache]; rfl))
  | @answered _ result answer _ hend =>
      cases result with
      | ok o => exact .inl (Caches.lookup_store halike hplace hend)
      | error => cases hend
  | settled hstage =>
      obtain rfl := eq_of_getElem?_put hv hv'
      simp only [Query.outcome?_settled, Option.some.injEq] at ha
      rw [hstage]
      exact .inr ⟨congrArg some (settle_eq_ok ha), rfl⟩
  | unregistered hstage =>
      rw [← invocations_unregister s v] at hv
      obtain rfl := eq_of_getElem?_put hv hv'
      rw [hstage]
      exact .inr ⟨ha, rfl⟩
  | reported hstage =>
      obtain rfl := eq_of_getElem?_put hv hv'
      rw [hstage]
      exact .inr ⟨congrArg some (report_eq_ok (Option.some.inj ha)), rfl⟩
  | turnedAway =>
      obtain rfl := eq_of_getElem?_put hv hv'
      simp at ha
  | registered =>
      cases Option.some.inj ((getElem?_register_self hv _).symm.trans hv')
      cases ha
  | _ =>
      obtain rfl := eq_of_getElem?_put (s := { s with caches := _ }) hv hv'
      cases ha

theorem Run.keeps {q : Query} {place : Capability × List Path.Component} {a : Answer}
    (hrun : start.Run history s) (hplace : q.place? = some place)
    (hlast : lastUser? history place = some j) (hu : s.invocations[j]? = some u)
    (halike : u.query.Alike q) (hneeds : u.query.needsTool = true)
    (ha : u.stage.outcome? = some (.ok a)) : (s.caches.lookup q).1.isSome := by
  refine hrun.invariant (P := fun history s => ∀ u, lastUser? history place = some j →
    s.invocations[j]? = some u → u.query.Alike q → u.query.needsTool = true →
    u.stage.outcome? = some (.ok a) → (s.caches.lookup q).1.isSome)
    (fun _ hlast => by cases hlast) ?_ u hlast hu halike hneeds ha
  intro history s e s' hrun h hhappens u hlast hu halike hneeds ha
  unfold lastUser? at hlast
  rw [List.findSome?_cons] at hlast
  cases hhappens with
  | started q' =>
      obtain hold | ⟨-, rfl⟩ := getElem?_start hu
      · exact h u hlast hold halike hneeds ha
      · cases ha
  | retired => exact h u hlast hu halike hneeds ha
  | @moved pool pool' k step v _ hv hadvance =>
      rw [Moment.user?_move hv] at hlast
      by_cases hj : j = k
      · subst hj
        obtain ⟨u', hu', hquery, -⟩ := hadvance.change.own hv
        cases Option.some.inj (hu.symm.trans hu')
        rw [hquery] at halike hneeds
        have hsame : v.query.place? = some place := halike.place?.trans hplace
        obtain hkept | ⟨hbefore, hidle⟩ :=
          hadvance.keeps hv hu halike (by rw [hsame]; rfl) hneeds ha
        · exact hkept
        · rw [hadvance.lookup_kept fun huses => by cases hidle.symm.trans huses]
          rw [hidle] at hlast
          exact h v hlast hv halike hneeds hbefore
      · have hidle : ¬(step.usesCaches = true ∧ v.query.place? = some place) := by
          intro huses
          rw [if_pos huses] at hlast
          exact hj (Option.some.inj hlast).symm
        rw [if_neg hidle] at hlast
        obtain ⟨number, hother⟩ := hadvance.change.other hj
        rw [hu] at hother
        obtain ⟨w, hw, rfl⟩ := Option.map_eq_some_iff.mp hother.symm
        rw [Invocation.told_query] at halike hneeds
        rw [Invocation.told_stage] at ha
        rw [hadvance.lookup_kept fun huses heq => hidle ⟨huses, heq.symm.trans hplace⟩]
        exact h w hlast hw halike hneeds ha

theorem Advance.working_of_begin {pool pool' : Pool}
    (hadvance : s.Advance pool k v .begin pool' s') : v.stage = .working := by
  cases hadvance with
  | trivial hstage | recalled hstage | began hstage => exact hstage

theorem Moment.moves_of_begins (hbegins : m.begins k = true) : m.moves k = true := by
  unfold Moment.begins at hbegins
  unfold Moment.moves
  split at hbegins
  · rename_i hmove
    rw [hmove]
    exact hbegins
  · cases hbegins

theorem Run.countP_begins (hrun : start.Run history s) (hnew : start.invocations = [])
    (hv : s.invocations[k]? = some v) :
    history.countP (·.begins k) ≤ 1 ∧
      (5 ≤ v.stage.rank → history.countP (·.begins k) = 0) := by
  refine hrun.each (P := fun history _ k v => history.countP (·.begins k) ≤ 1 ∧
    (5 ≤ v.stage.rank → history.countP (·.begins k) = 0)) hnew ?_ ?_ ?_ hv
  · intro history s q hrun
    have hnone : (⟨s, .start q, s.start q⟩ :: history).countP (·.begins s.invocations.length) = 0 := by
      refine List.countP_eq_zero.mpr fun m hm hbegins => ?_
      obtain rfl | hm := List.mem_cons.mp hm
      · cases hbegins
      · exact Nat.lt_irrefl _ (hrun.lt_length_of_moves hm (Moment.moves_of_begins hbegins))
    rw [hnone]
    exact ⟨Nat.zero_le _, fun _ => rfl⟩
  · intro history s s' pool pool' k step u v _ hu h hadvance hv
    obtain ⟨v', hv', -, -, hrank, -⟩ := hadvance.change.own hu
    cases Option.some.inj (hv.symm.trans hv')
    obtain ⟨hone, hnone⟩ := h
    rw [List.countP_cons]
    by_cases hbegin : step = .begin
    · subst hbegin
      have hfive : u.stage.rank = 5 := by rw [hadvance.working_of_begin]; rfl
      have hzero := hnone (by omega)
      have hbegins : Moment.begins ⟨s, .move pool k .begin, s'⟩ k = true := beq_self_eq_true k
      rw [hzero, hbegins]
      exact ⟨Nat.le_refl _, fun hrank' => by omega⟩
    · have hbegins : Moment.begins ⟨s, .move pool k step, s'⟩ k = false := by
        cases step with
        | begin => exact absurd rfl hbegin
        | _ => rfl
      rw [hbegins]
      exact ⟨hone, fun hrank' => hnone (by omega)⟩
  · intro history s s' e k u number _ h _ hidle
    have hbegins : Moment.begins ⟨s, e, s'⟩ k = false := by
      refine Bool.eq_false_iff.mpr fun hbegins => ?_
      cases (Moment.moves_eq_false hidle).symm.trans (Moment.moves_of_begins hbegins)
    rw [List.countP_cons, hbegins, Invocation.told_stage]
    exact h

theorem Moment.begins_of_runsTool (hruns : m.runsTool k = true) : m.begins k = true :=
  (Bool.and_eq_true_iff.mp hruns).1

/-- A tool is run only for a query that needs it and for which nothing is found. -/
theorem Run.lookup_of_runsTool (hrun : start.Run history s) (hm : m ∈ history)
    (hruns : m.runsTool k = true) :
    ∃ v, m.before.invocations[k]? = some v ∧ v.query.needsTool = true ∧
      (m.before.caches.lookup v.query).1 = .none := by
  obtain ⟨hbegins, hrunning⟩ := Bool.and_eq_true_iff.mp hruns
  have hhappens := hrun.happens hm
  obtain ⟨before, event, after⟩ := m
  unfold Moment.begins at hbegins
  dsimp only at hbegins hrunning hhappens ⊢
  split at hbegins
  · cases beq_iff_eq.mp hbegins
    cases hhappens with
    | moved hv hadvance =>
        obtain ⟨v', hv', -⟩ := hadvance.change.own hv
        rw [hv'] at hrunning
        cases hadvance with
        | trivial | recalled =>
            obtain rfl := eq_of_getElem?_put (s := { before with caches := _ }) hv hv'
            cases hrunning
        | began _ hneeds hcache => exact ⟨_, hv, hneeds, hcache⟩
  · cases hbegins

theorem Run.countP_runsTool (hrun : start.Run history s) (hnew : start.invocations = [])
    (hv : s.invocations[k]? = some v) : history.countP (·.runsTool k) ≤ 1 :=
  Nat.le_trans (List.countP_mono_left fun _ _ hruns => Moment.begins_of_runsTool hruns)
    (hrun.countP_begins hnew hv).1

theorem inTurn_cons {place : Capability × List Path.Component} :
    InTurn j k place (m :: history) ↔
      (∃ pool, m.event = .move pool k .begin) ∧ lastUser? history place = some j ∧
        (∃ u, m.before.invocations[j]? = some u ∧ ∃ a, u.stage.outcome? = some (.ok a)) ∨
      InTurn j k place history := by
  constructor
  · intro hturn
    cases hturn with
    | now hevent hlast hu ha => exact .inl ⟨⟨_, hevent⟩, hlast, _, hu, _, ha⟩
    | later hturn => exact .inr hturn
  · rintro (⟨⟨_, hevent⟩, hlast, _, hu, _, ha⟩ | hturn)
    · exact .now hevent hlast hu ha
    · exact .later hturn

theorem InTurn.exists_append {place : Capability × List Path.Component}
    (hturn : InTurn j k place history) :
    ∃ later m earlier pool u a, history = later ++ m :: earlier ∧
      m.event = .move pool k .begin ∧ lastUser? earlier place = some j ∧
      m.before.invocations[j]? = some u ∧ u.stage.outcome? = some (.ok a) := by
  induction hturn with
  | now hevent hlast hu ha => exact ⟨[], _, _, _, _, _, rfl, hevent, hlast, hu, ha⟩
  | later _ ih =>
      obtain ⟨later, m, earlier, pool, u, a, rfl, hrest⟩ := ih
      exact ⟨_ :: later, m, earlier, pool, u, a, rfl, hrest⟩

/-- Of two alike calls in a row the first of which is answered, one at most runs its tool. -/
theorem Run.runs_once {place : Capability × List Path.Component}
    (hrun : start.Run history s) (hnew : start.invocations = [])
    (hu : s.invocations[j]? = some u) (hv : s.invocations[k]? = some v)
    (halike : u.query.Alike v.query) (hplace : v.query.place? = some place)
    (hturn : InTurn j k place history) :
    history.countP (·.runsTool j) + history.countP (·.runsTool k) ≤ 1 := by
  have hfirst := hrun.countP_runsTool hnew hu
  have hsecond := hrun.countP_runsTool hnew hv
  cases hneeds : u.query.needsTool with
  | false =>
      have hnone : history.countP (·.runsTool j) = 0 := by
        refine List.countP_eq_zero.mpr fun m hm hruns => ?_
        obtain ⟨w, hw, hneeded, -⟩ := hrun.lookup_of_runsTool hm hruns
        rw [hrun.query_eq hm hw hu] at hneeded
        cases hneeds.symm.trans hneeded
      omega
  | true =>
      obtain ⟨later, m, earlier, pool, w, a, rfl, hevent, hlast, hw, ha⟩ := hturn.exists_append
      have hm : m ∈ later ++ m :: earlier := List.mem_append_right _ List.mem_cons_self
      have hidle : m.runsTool k = false := by
        refine Bool.eq_false_iff.mpr fun hruns => ?_
        obtain ⟨w', hw', -, hnothing⟩ := hrun.lookup_of_runsTool hm hruns
        rw [← hrun.query_eq hm hw hu] at halike hneeds
        have hfound := hrun.of_append.keeps hplace hlast hw halike hneeds ha
        rw [← hrun.query_eq hm hw' hv, hnothing] at hfound
        cases hfound
      have hbegins : m.begins k = true := by
        unfold Moment.begins
        rw [hevent]
        exact beq_self_eq_true k
      have hone := (hrun.countP_begins hnew hv).1
      have hmono (l : List Moment) : l.countP (·.runsTool k) ≤ l.countP (·.begins k) :=
        List.countP_mono_left fun _ _ hruns => Moment.begins_of_runsTool hruns
      have hlater := hmono later
      have hearlier := hmono earlier
      rw [List.countP_append, List.countP_cons, hbegins, if_pos rfl] at hone
      have hzero : (later ++ m :: earlier).countP (·.runsTool k) = 0 := by
        rw [List.countP_append, List.countP_cons, hidle]
        simp only [Bool.false_eq_true, if_false]
        omega
      omega

/-- If the buffers that a session has been asked about have digests of their own, and its tools come
to the same whenever they are asked the same, every query is answered, or fails, as it does on a new
session, unless it was stopped. Nothing is found that was not found before but after a run that has
succeeded, and one that has not leaves the caches as they are. Of two alike calls in a row, the first
of which is answered, one at most runs its tool. -/
theorem caching_invisible (hrun : Run { id, interpreter, settings } history s)
    (hdigests : ∀ u ∈ s.invocations, ∀ v ∈ s.invocations,
      Digest.ofText u.query.buffer = Digest.ofText v.query.buffer →
        u.query.buffer = v.query.buffer)
    (hsteady : Steady tool settings.root history s) :
    (∀ {k v result}, s.invocations[k]? = some v → v.stage.result? = some result →
      alone tool v.query { id, interpreter, settings } = some result ∨
        ∃ failure, result = .error failure ∧ Stopped history s k v failure) ∧
    (∀ m ∈ history, ∀ {q a}, (m.after.caches.lookup q).1 = some a →
      (m.before.caches.lookup q).1 = some a ∨
        ∃ pool k result v answer, m.event = .move pool k (.finish result) ∧
          m.before.invocations[k]? = some v ∧ v.query.ofEnd result = .ok answer) ∧
    (∀ m ∈ history, ∀ {pool k result v cause}, m.event = .move pool k (.finish result) →
      m.before.invocations[k]? = some v → v.query.ofEnd result = .error cause →
        m.after.caches = m.before.caches) ∧
    (∀ {j k u v place}, s.invocations[j]? = some u → s.invocations[k]? = some v →
      u.query.Alike v.query → v.query.place? = some place → InTurn j k place history →
        history.countP (·.runsTool j) + history.countP (·.runsTool k) ≤ 1) := by
  refine ⟨fun {k v result} hv hresult => ?_,
    fun m hm _ _ hfound => (hrun.happens hm).found_or_answered hfound,
    fun m hm _ _ _ _ _ hevent hv hend => hrun.caches_of_failed hm hevent hv hend,
    fun hu hv halike hplace hturn => hrun.runs_once rfl hu hv halike hplace hturn⟩
  · rw [alone_eq tool v.query hsteady.goes, Option.some.injEq]
    have hmem := List.mem_of_getElem? hv
    exact hrun.outcome_or_stopped (fun u hu => hdigests u hu v hmem) hsteady hv hresult

end run

namespace Trial

/-- A tool that takes too long over one buffer, and finds nothing in any other. -/
def tool (request : ToolRequest) : ProcessEnd :=
  match request.document with
  | .object ((_, .text "y") :: _) => .error (.timedOut ⟨1⟩)
  | _ => .ok nothingFound

/-- While a run for a file goes on, the file's buffer changes and the run for that fails. The first
one stores what it has found, and a third one finds it. -/
def slow : List Event :=
  [lint "x"] ++ moves 0 opening ++ [lint "y"] ++
    moves 1 (opening ++ .finish (.error (.timedOut ⟨1⟩)) :: ending) ++
    moves 0 (.finish (.ok nothingFound) :: ending) ++ [lint "x"] ++ moves 2 (opening ++ ending)

def slowEnds : List Invocation :=
  [⟨.diagnostics path "x", some 1, true, .done (.ok (.diagnostics path []))⟩,
    ⟨.diagnostics path "y", some 2, false, .done (.error (.tool (.timedOut .diagnostics ⟨1⟩)))⟩,
    ⟨.diagnostics path "x", some 3, false, .done (.ok (.diagnostics path []))⟩]

theorem ofEnd_timedOut : (Query.diagnostics path "y").ofEnd (.error (.timedOut ⟨1⟩)) =
    .error (.timedOut .diagnostics ⟨1⟩) := rfl

theorem invocations_slow : (start.play slow).2.invocations = slowEnds := by
  simp [ofEnd_nothingFound, ofEnd_timedOut, slow, slowEnds, lint, moves, opening, ending, start,
    play, playFrom, next?, step?, Session.start, put, register, supersede, unregister, begin,
    finish, canEnd, settle, report, Query.lacks, Query.supersedes?, Query.capability,
    Query.needsTool, Query.settled, Interpreter.supports, Capability.all, Caches.lookup,
    Caches.store, FileCache.get, FileCache.insert, FileCache.entry?, Table.put, Table.without]

theorem inTurn_slow :
    InTurn 0 2 (.diagnostics, path.components) (start.play slow).1 := by
  simp [inTurn_cons, lastUser?, Moment.user?, Move.usesCaches, Query.place?, Stage.outcome?,
    ofEnd_nothingFound, ofEnd_timedOut, slow, lint, moves, opening, ending, start, play,
    playFrom, next?, step?, Session.start, put, register, supersede, unregister, begin, finish,
    canEnd, settle, report, Query.lacks, Query.supersedes?, Query.capability, Query.needsTool,
    Query.settled, Interpreter.supports, Capability.all, Caches.lookup, Caches.store,
    FileCache.get, FileCache.insert, FileCache.entry?, Table.put, Table.without]

theorem steady_slow : Steady tool ⟨"/"⟩ (start.play slow).1 (start.play slow).2 where
  goes request := by
    unfold tool
    split <;> exact nofun
  runs {m pool k result v} hm hevent hv hgoes := by
    obtain hm | hm := event_mem_playFrom hm
    · cases hm
    · rw [invocations_slow] at hv
      rw [hevent] at hm
      simp only [slow, lint, moves, opening, ending, List.map_cons, List.map_nil,
        List.cons_append, List.nil_append, List.mem_cons, List.not_mem_nil, Event.move.injEq,
        Move.finish.injEq, reduceCtorEq, and_false, false_or, or_false] at hm
      obtain ⟨-, rfl, rfl⟩ | ⟨-, rfl, rfl⟩ := hm
      · cases hv
        rfl
      · cases hv
        rfl

end Trial

theorem caching_invisible_slow :
    ∃ history s, Trial.start.Run history s ∧ s.invocations = Trial.slowEnds ∧
      alone Trial.tool (.diagnostics Trial.path "x") Trial.start =
        some (.ok (.diagnostics Trial.path [])) ∧
      alone Trial.tool (.diagnostics Trial.path "y") Trial.start =
        some (.error (.tool (.timedOut .diagnostics ⟨1⟩))) ∧
      history.countP (·.runsTool 0) + history.countP (·.runsTool 2) ≤ 1 := by
  have hrun := run_play Trial.start Trial.slow
  have hinvocations := Trial.invocations_slow
  have hnth (k : Nat) : (Trial.start.play Trial.slow).2.invocations[k]? = Trial.slowEnds[k]? := by
    rw [hinvocations]
  have hdigest : Digest.ofText "x" ≠ Digest.ofText "y" := by decide +kernel
  have hdigests : ∀ u ∈ (Trial.start.play Trial.slow).2.invocations,
      ∀ v ∈ (Trial.start.play Trial.slow).2.invocations,
        Digest.ofText u.query.buffer = Digest.ofText v.query.buffer →
          u.query.buffer = v.query.buffer := by
    rw [hinvocations]
    simp [Trial.slowEnds, Query.buffer, hdigest, hdigest.symm]
  obtain ⟨hanswers, -, -, hturns⟩ := caching_invisible hrun hdigests Trial.steady_slow
  refine ⟨_, _, hrun, hinvocations, ?_, ?_,
    hturns (hnth 0) (hnth 2) (.same _) rfl Trial.inTurn_slow⟩
  · obtain hsame | ⟨_, hfailed, -⟩ := hanswers (hnth 2) rfl
    · exact hsame
    · cases hfailed
  · obtain hsame | ⟨_, hfailed, hstopped⟩ := hanswers (hnth 1) rfl
    · exact hsame
    · cases hfailed
      obtain hkind | hkind | hfailure := hstopped.kind
      · cases hkind
      · cases hkind
      · cases hfailure

end Session

end CodeAssist
