import CodeAssist.Proofs.Router.Attribution
import CodeAssist.Proofs.Session.Run

namespace CodeAssist

/-! What an engine does to one of its sessions is a run of that session by itself. -/

namespace Session

/-- A session has come to be what it is by a run of its own. -/
def Lived (s : Session) : Prop :=
  ∃ history, Run { id := s.id, interpreter := s.interpreter, settings := s.settings } history s

theorem Lived.happens {s s' : Session} {e : Event} (h : s.Lived) (hhappens : Happens s e s') :
    s'.Lived := by
  obtain ⟨history, hrun⟩ := h
  obtain ⟨hid, hinterpreter, hsettings⟩ : s'.id = s.id ∧ s'.interpreter = s.interpreter ∧
      s'.settings = s.settings := by
    cases hhappens with
    | started | retired => exact ⟨rfl, rfl, rfl⟩
    | moved _ hadvance =>
        exact ⟨congrArg Face.id hadvance.face, congrArg Face.interpreter hadvance.face,
          congrArg Face.settings hadvance.face⟩
  unfold Lived
  rw [hid, hinterpreter, hsettings]
  exact ⟨_, .step hrun hhappens.next?⟩

end Session

namespace Router

theorem Becomes.lived {r : Router} {e : Event} {id : Nat} {s : Session}
    (h : ∀ {s}, r.sessions.get? id = some s → s.Lived) (hbecomes : Becomes r e id s) : s.Lived := by
  induction hbecomes with
  | stays hs => exact h hs
  | new => exact ⟨[], .none⟩
  | starts _ q ih => exact ih.happens (.started q)
  | retires hs reason => exact (h hs).happens (.retired reason)
  | works _ hs hv hadvance => exact (h hs).happens (.moved hv hadvance)

/-- What holds after every run of a session holds of every session of an engine, whatever happens to
that. -/
theorem Run.lived {settings : Settings} {resolver : Resolver} {lifecycle : Lifecycle}
    {history : List Moment} {r : Router} {id : Nat} {s : Session}
    (hrun : (Router.ofSettings settings resolver lifecycle).Run history r)
    (hs : r.sessions.get? id = some s) : s.Lived := by
  refine hrun.invariant (P := fun _ r => ∀ id s, r.sessions.get? id = some s → s.Lived)
    (fun _ _ hs => by cases hs) (fun hrun h hhappens id s hs => ?_) id s hs
  exact (becomes_happens hrun.succession hhappens hs).lived fun hs => h id _ hs

end Router

end CodeAssist
