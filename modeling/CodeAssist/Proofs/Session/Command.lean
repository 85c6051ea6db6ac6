import CodeAssist.Proofs.Session.Advance

namespace CodeAssist

/-! What a session runs for its queries. -/

/-- The command runs the script for a query with an interpreter, in the root of the settings. It
feeds the script the buffer, or a document with the buffer, the path, the root and the place. -/
structure Command.Asks (c : Command) (q : Query) (interpreter : Interpreter)
    (settings : ToolSettings) : Prop where
  program : c.program = interpreter.path
  folder : c.folder = some settings.root
  args : c.args = "-c" :: Script.program q.script :: q.args settings
  budget : c.budget = settings.budget
  buffer : q.capability = .format → c.stdin = Text.encode q.buffer
  document : q.capability ≠ .format → ∃ document : Json, c.stdin = document.encode ∧
    document.get? "source" = some (.text q.buffer) ∧
    document.get? "path" = some (.text q.path.text) ∧
    document.get? "root" = some (.text settings.root.text) ∧
    document.get? "line" = q.position?.map (Json.ofNat ·.line) ∧
    document.get? "column" = q.position?.map (Json.ofNat ·.column)

namespace Query

variable (q : Query) (interpreter : Interpreter) (settings : ToolSettings)

theorem document_get? (root : Path) :
    (q.document root).get? "source" = some (.text q.buffer) ∧
      (q.document root).get? "path" = some (.text q.path.text) ∧
      (q.document root).get? "root" = some (.text root.text) ∧
      (q.document root).get? "line" = q.position?.map (Json.ofNat ·.line) ∧
      (q.document root).get? "column" = q.position?.map (Json.ofNat ·.column) := by
  unfold document
  cases q.position? <;> simp [Json.get?, List.lookup_cons]

theorem command_asks : (q.command interpreter settings).Asks q interpreter settings where
  program := rfl
  folder := rfl
  args := rfl
  budget := rfl
  buffer hformat := by
    cases q with
    | format => rfl
    | _ => cases hformat
  document hother := by
    cases q with
    | format => exact absurd rfl hother
    | completion path buffer offset => exact ⟨_, rfl, document_get? _ _⟩
    | hover path buffer offset => exact ⟨_, rfl, document_get? _ _⟩
    | diagnostics path buffer => exact ⟨_, rfl, document_get? _ _⟩

end Query

namespace Session

variable {s s' : Session} {k : Nat} {v : Invocation}

theorem command_of_face (hface : s'.face = s.face) (q : Query) :
    q.command s'.interpreter s'.settings = q.command s.interpreter s.settings := by
  have hinterpreter : s'.interpreter = s.interpreter := congrArg Face.interpreter hface
  have hsettings : s'.settings = s.settings := congrArg Face.settings hface
  rw [hinterpreter, hsettings]

/-- Whatever the session runs asks the query that it is run for, with the interpreter of the session
and in its root. -/
def Commands (s : Session) : Prop :=
  ∀ ⦃k : Nat⦄ ⦃v : Invocation⦄ ⦃command : Command⦄, s.invocations[k]? = some v →
    v.stage = .running command → command.Asks v.query s.interpreter s.settings

theorem Commands.new {id : Nat} {interpreter : Interpreter} {settings : ToolSettings} :
    Commands { id, interpreter, settings } := fun _ _ _ hv => by cases hv

theorem Commands.put (h : s.Commands)
    (hv : ∀ command, v.stage = .running command →
      command.Asks v.query s.interpreter s.settings) : (s.put k v).Commands := by
  intro j w command hw hstage
  rw [Session.put, List.getElem?_set] at hw
  split at hw
  · split at hw
    · cases hw
      exact hv command hstage
    · cases hw
  · exact h hw hstage

theorem Commands.start (h : s.Commands) (q : Query) : (s.start q).Commands := by
  intro j w command hw hstage
  rw [Session.start, List.getElem?_append] at hw
  split at hw
  · exact h hw hstage
  · rw [List.getElem?_singleton] at hw
    split at hw <;> cases hw
    cases hstage

theorem Commands.retire (h : s.Commands) (reason : Reason) : (s.retire reason).Commands := h

theorem Commands.supersede (h : s.Commands) (number : Nat) : (s.supersede number).Commands := by
  intro j w command hw hstage
  rw [Session.supersede, List.getElem?_map] at hw
  obtain ⟨u, hu, rfl⟩ := Option.map_eq_some_iff.mp hw
  -- Whether it is the one told to stop or another, its query and its stage are as they were.
  split at hstage
  · rename_i hnumber
    have hasks := h hu hstage
    rwa [if_pos hnumber]
  · rename_i hnumber
    rw [if_neg hnumber]
    exact h hu hstage

theorem Commands.register (h : s.Commands) (file : List Path.Component) :
    (s.register k v file).Commands := by
  unfold Session.register
  simp only
  split
  · rename_i previous _
    exact Commands.put (s := { s.supersede previous with registered := _, pending := _ })
      (h.supersede previous) nofun
  · exact Commands.put (s := { s with registered := _, pending := _ }) h nofun

theorem Commands.unregister (h : s.Commands) (v : Invocation) : (s.unregister v).Commands := by
  unfold Session.unregister
  split
  · exact h
  · split <;> exact h

theorem Advance.running_of_finish {pool pool' : Pool} {result : ProcessEnd}
    (hadvance : s.Advance pool k v (.finish result) pool' s') :
    ∃ command, v.stage = .running command := by
  cases hadvance with
  | answered hstage | failed hstage => exact ⟨_, hstage⟩

theorem settled_ne_running (q : Query) (result : Except Failure Answer) (command : Command) :
    q.settled result ≠ .running command := by
  unfold Query.settled
  split <;> exact nofun

theorem Commands.advance {pool pool' : Pool} {m : Move} (h : s.Commands)
    (hadvance : s.Advance pool k v m pool' s') : s'.Commands := by
  cases hadvance with
  | began =>
      refine Commands.put (s := { s with caches := _ }) h fun command hstage => ?_
      cases hstage
      exact v.query.command_asks ..
  | registered => exact h.register _
  | turnedAway | settled =>
      exact h.put fun command hstage => absurd hstage (settled_ne_running _ _ command)
  | unregistered => exact (h.unregister v).put nofun
  | recalled | trivial | answered => exact Commands.put (s := { s with caches := _ }) h nofun
  | _ => exact h.put nofun

end Session

end CodeAssist
