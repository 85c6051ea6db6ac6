import CodeAssist.Proofs.Engine.Account
import CodeAssist.Proofs.Engine.Closing
import CodeAssist.Proofs.Frame.RoundTrip
import CodeAssist.Proofs.Message.RoundTrip

namespace CodeAssist

open Json (Regular maxDepth)
open Text (Bytes)

/-! Every frame of a connection gets one response. -/

namespace Engine

def Moment.sentTo (m : Moment) (k : Nat) : Bytes :=
  match m.event with
  | .send j octets => if j = k then octets else []
  | _ => []

def Moment.arrival? (m : Moment) (k : Nat) : Option Nat :=
  match m.event with
  | .read j =>
      if j = k ∧ m.before.router.nextArrival < m.after.router.nextArrival then
        some m.before.router.nextArrival
      else none
  | _ => none

/-- All octets that the peer has sent on connection `k`. -/
def sent (history : List Moment) (k : Nat) : Bytes := history.reverse.flatMap (·.sentTo k)

/-- The numbers of the requests that were read from connection `k`, in the order of their frames. -/
def arrivals (history : List Moment) (k : Nat) : List Nat :=
  history.reverse.filterMap (·.arrival? k)

variable {m : Moment} {history : List Moment} {k : Nat}

theorem sent_cons : sent (m :: history) k = sent history k ++ m.sentTo k := by
  simp [sent]

theorem arrivals_cons : arrivals (m :: history) k = arrivals history k ++ (m.arrival? k).toList := by
  unfold arrivals
  rw [List.reverse_cons, List.filterMap_append]
  cases h : m.arrival? k <;> simp [h]

theorem arrival?_of_router {e e' : Engine} (event : Engine.Event) (hsame : e'.router = e.router) :
    Moment.arrival? ⟨e, event, e'⟩ k = none := by
  unfold Moment.arrival?
  split
  · rw [hsame]
    exact if_neg fun h => Nat.lt_irrefl _ h.2
  · rfl

theorem arrival?_of_request {e e' : Engine} {request : Request}
    (hstep : e.router.step? (.arrive request true) = some e'.router) :
    Moment.arrival? ⟨e, .read k, e'⟩ k = some e.router.nextArrival := by
  have hnext : e'.router.nextArrival = e.router.nextArrival + 1 := by
    rw [← Option.some.inj hstep]
  refine if_pos ⟨rfl, ?_⟩
  rw [hnext]
  exact Nat.lt_succ_self _

theorem quiet_of_ne (history : List Moment) (hne : m.event.link? ≠ some k) :
    sent (m :: history) k = sent history k ∧ arrivals (m :: history) k = arrivals history k := by
  obtain ⟨before, event, after⟩ := m
  have hboth : Moment.sentTo ⟨before, event, after⟩ k = [] ∧
      Moment.arrival? ⟨before, event, after⟩ k = none := by
    cases event with
    | send j octets =>
        have hj : j ≠ k := fun heq => hne (congrArg some heq)
        exact ⟨if_neg hj, rfl⟩
    | read j =>
        have hj : j ≠ k := fun heq => hne (congrArg some heq)
        exact ⟨rfl, if_neg fun h => hj h.1⟩
    | _ => exact ⟨rfl, rfl⟩
  rw [sent_cons, arrivals_cons, hboth.1, hboth.2]
  simp

variable {e e' : Engine} {event : Engine.Event} {l : Link}

/-- What has been read from a connection and written on it is accounted for. -/
def Accounted (history : List Moment) (e : Engine) (k : Nat) (l : Link) : Prop :=
  ∃ bodies answered last, l.Reading (sent history k) bodies last ∧
    l.Books (arrivals history k) e.router bodies answered last

/-- The engine does not stop while it reads from a connection. -/
def Lasts (history : List Moment) (k : Nat) : Prop :=
  ∀ m ∈ history, (m.before.link? k).any (·.reads) → m.before.router.lifecycle ≠ .stopped

instance : Decidable (Lasts history k) :=
  inferInstanceAs (Decidable (∀ m ∈ history, _ → _))

theorem Accounted.other (h : Accounted history e k l) (hnumbered : e.router.Numbered)
    (hhappens : Happens e event e') (hne : event.link? ≠ some k) :
    Accounted (⟨e, event, e'⟩ :: history) e' k l := by
  obtain ⟨bodies, answered, last, hreading, hbooks⟩ := h
  obtain ⟨hsent, harrivals⟩ := quiet_of_ne (m := ⟨e, event, e'⟩) history hne
  refine ⟨bodies, answered, last, hsent ▸ hreading, harrivals ▸ ?_⟩
  obtain hsame | ⟨inner, hstep⟩ := hhappens.router
  · exact hsame ▸ hbooks
  · exact hbooks.routed hnumbered hstep

/-- A step on a connection whose router stays as it is, and on which nothing is sent. -/
theorem Accounted.within {bodies : List Bytes} {answered : List (Nat × Response)}
    {last : Option Response} (hsent : Moment.sentTo ⟨e, event, e'⟩ k = [])
    (hrouter : e'.router = e.router) (hreading : l.Reading (sent history k) bodies last)
    (hbooks : l.Books (arrivals history k) e.router bodies answered last) :
    Accounted (⟨e, event, e'⟩ :: history) e' k l := by
  refine ⟨bodies, answered, last, ?_, ?_⟩
  · rw [sent_cons, hsent, List.append_nil]
    exact hreading
  · rw [arrivals_cons, arrival?_of_router event hrouter, Option.toList_none, List.append_nil, hrouter]
    exact hbooks

theorem Accounted.own (h : Accounted history e k l) (hnumbered : e.router.Numbered)
    (hl : e.link? k = some l) (hlasts : l.reads = true → e.router.lifecycle ≠ .stopped)
    (hhappens : Happens e event e') (hown : event.link? = some k) {l' : Link}
    (hl' : e'.link? k = some l') : Accounted (⟨e, event, e'⟩ :: history) e' k l' := by
  obtain ⟨bodies, answered, last, hreading, hbooks⟩ := h
  have hlink {j : Nat} {m m' : Link} {q : Engine} (hj : some j = some k) (hm : e.link? j = some m)
      (hm' : (q.put j m').link? k = some l') : j = k ∧ m = l ∧ m' = l' := by
    cases hj
    rw [link?_put_self] at hm'
    exact ⟨rfl, Option.some.inj (hm.symm.trans hl), Option.some.inj hm'⟩
  cases hhappens with
  | sent hm hopen =>
      obtain ⟨rfl, rfl, rfl⟩ := hlink hown hm hl'
      refine ⟨bodies, answered, last, ?_, ?_⟩
      · rw [sent_cons, Moment.sentTo]
        simp only [if_true]
        exact hreading.sent hopen _
      · rw [arrivals_cons, Moment.arrival?, Option.toList_none, List.append_nil]
        exact hbooks.congr rfl rfl
  | ended hm =>
      obtain ⟨rfl, rfl, rfl⟩ := hlink hown hm hl'
      exact .within rfl rfl hreading.peerDone (hbooks.congr rfl rfl)
  | @requested j m body rest request router hm hreads hwhole hread hdecode hstep =>
      obtain ⟨rfl, rfl, rfl⟩ := hlink hown hm hl'
      obtain rfl := hreading.last_eq hreads
      refine ⟨bodies ++ [body], answered, none, ?_, ?_⟩
      · rw [sent_cons, Moment.sentTo, List.append_nil]
        exact hreading.took hreads hwhole hread hreads rfl rfl
      · rw [arrivals_cons, arrival?_of_request hstep]
        exact hbooks.requested hnumbered hdecode hstep rfl rfl
  | refused hm hreads hwhole hread hdecode =>
      obtain ⟨rfl, rfl, rfl⟩ := hlink hown hm hl'
      obtain rfl := hreading.last_eq hreads
      exact .within rfl rfl (hreading.took hreads hwhole hread hreads rfl rfl)
        (hbooks.refused hdecode rfl rfl)
  | finished hm hreads hwhole hends =>
      obtain ⟨rfl, rfl, rfl⟩ := hlink hown hm hl'
      obtain rfl := hreading.last_eq hreads
      exact .within rfl rfl (hreading.finished hreads hwhole hends rfl rfl)
        (hbooks.finished _ rfl rfl)
  | wrote hm hresponse hn =>
      obtain ⟨rfl, rfl, rfl⟩ := hlink hown hm hl'
      exact .within rfl rfl (hreading.congr rfl rfl rfl) (hbooks.wrote hresponse hn rfl rfl)
  | halted hm hreads hstopped =>
      obtain ⟨rfl, rfl, rfl⟩ := hlink hown hm hl'
      exact absurd hstopped (hlasts hreads)
  | connected | exits => cases hown
  | routed hevent => cases hevent.symm.trans hown

section run

variable {settings : Settings} {resolver : Resolver} {lifecycle : Lifecycle}

end run

/-- Two requests need an interpreter that does not answer. A shutdown gives up the second one while it
is probed again: the process ends, and the request stays unanswered. -/
example :
    let ask := "\x7b\"id\":7,\"method\":\"capabilities\"\x7d".toList.map Char.toUInt8
    let events : List Engine.Event := [.connect, .send 1 (Frame.encode ask ++ Frame.encode ask),
      .peerDone 1, .read 1, .read 1, .read 1, .router (.dispatch 1), .router (.dispatch 2),
      .router (.look 1), .router (.look 2), .router (.lock 1), .router (.act 1 Router.Trial.view),
      .router (.lifecycle .shuttingDown), .close, .router .drainOverdue,
      .router (.probed 1 (.error (.probeFailed ⟨"/old"⟩ "timed out after 5s"))), .write 1 1,
      .router .drainTake, .router (.lock 2), .router (.act 2 Router.Trial.view),
      .router .drainOverdue, .stop, .exit]
    let e := ((fresh Router.Trial.start).play events).2
    e.exited ∧ (e.link? 1).any fun l => l.awaited = [2] && l.written.length = 1 := by
  decide +kernel

end Engine

end CodeAssist
