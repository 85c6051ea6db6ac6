import CodeAssist.Proofs.Engine.Run
import Mathlib.Data.List.Forall2

namespace CodeAssist

open Text (Bytes)

/-! The accounts of a connection: which frames have been read from it, and which responses have been
written on it. -/

namespace Incoming

def requests (bodies : List Bytes) : List Request :=
  bodies.filterMap fun body => (Request.decode body).toOption

def refusal? (body : Bytes) : Option Response :=
  match Request.decode body with
  | .ok _ => none
  | .error (id, cause) => some (.failure id .transport cause.message)

def refusals (bodies : List Bytes) : List Response := bodies.filterMap refusal?

variable {body : Bytes}

theorem requests_append_ok {request : Request} (hdecode : Request.decode body = .ok request)
    (bodies : List Bytes) :
    requests (bodies ++ [body]) = requests bodies ++ [request] ∧
      refusals (bodies ++ [body]) = refusals bodies := by
  simp [requests, refusals, refusal?, hdecode, Except.toOption]

theorem requests_append_error {id : Json} {cause : TransportFailure}
    (hdecode : Request.decode body = .error (id, cause)) (bodies : List Bytes) :
    requests (bodies ++ [body]) = requests bodies ∧
      refusals (bodies ++ [body]) = refusals bodies ++ [.failure id .transport cause.message] := by
  simp [requests, refusals, refusal?, hdecode, Except.toOption]

end Incoming

namespace Router

variable {r r' : Router} {e : Event} {n : Nat} {response : Response}

theorem response?_eq_some : r.response? n = some response ↔
    ∃ v result, r.received? n = some v ∧ v.task = .done result ∧
      response = .ofResult v.request.id result := by
  have hresult (t : Task) (result : Except Failure Json) :
      t.result? = some result ↔ t = .done result := by
    cases t <;> simp [Task.result?]
  simp only [response?, Option.bind_eq_bind, Option.bind_eq_some_iff, hresult]
  constructor
  · rintro ⟨v, hv, result, hdone, heq⟩
    exact ⟨v, result, hv, hdone, (Option.some.inj heq).symm⟩
  · rintro ⟨v, result, hv, hdone, rfl⟩
    exact ⟨v, hv, result, hdone, rfl⟩

theorem response?_step (hnumbered : Numbered r) (hstep : r.step? e = some r')
    (hresponse : r.response? n = some response) : r'.response? n = some response := by
  obtain ⟨v, result, hv, hdone, rfl⟩ := response?_eq_some.mp hresponse
  obtain ⟨t, ht, ⟨_, rfl⟩ | ⟨_, rest, hadvance, _⟩⟩ := received?_step hnumbered hstep hv
  · exact response?_eq_some.mpr ⟨_, result, ht, hdone, rfl⟩
  · rw [hdone] at hadvance
    cases hadvance

theorem nextArrival_le (hhappens : Happens r e r') : r.nextArrival ≤ r'.nextArrival := by
  cases hhappens with
  | arrived => exact Nat.le_succ _
  | advanced _ _ hadvance => rw [put_nextArrival, hadvance.nextArrival]
  | _ => exact Nat.le_refl _

def Holds (r : Router) (request : Request) (n : Nat) : Prop :=
  ∃ v, r.received? n = some v ∧ v.request = request

theorem Holds.step {request : Request} (h : Holds r request n) (hnumbered : Numbered r)
    (hstep : r.step? e = some r') : Holds r' request n := by
  obtain ⟨v, hv, rfl⟩ := h
  obtain ⟨t, ht, _⟩ := received?_step hnumbered hstep hv
  exact ⟨_, ht, rfl⟩

end Router

/-- Whether octets may still come on a connection. -/
def Link.MayCome (l : Link) (more : Bytes) : Prop := l.peerDone = true → more = []

theorem Link.MayCome.congr {l l' : Link} {more : Bytes} (hmore : l'.MayCome more)
    (hdone : l'.peerDone = l.peerDone) : l.MayCome more := fun hpeer => hmore (hdone.trans hpeer)

/-- The frames that have been read from a connection, and how it was ended. Whatever may still come
behind what the peer has sent does not make a difference to them. -/
inductive Link.Reading (s : Bytes) (l : Link) (bodies : List Bytes) : Option Response → Prop
  | going (hreads : l.reads = true)
      (htakes : ∀ more, l.MayCome more → Frame.Takes (s ++ more) bodies (l.unread ++ more)) :
      Reading s l bodies none
  | ended {failure : Option TransportFailure} (hreads : l.reads = false)
      (hstream : ∀ more, l.MayCome more → Frame.Reads (s ++ more) bodies failure) :
      Reading s l bodies (Incoming.farewell failure)

namespace Link.Reading

variable {s : Bytes} {l l' : Link} {bodies : List Bytes} {last : Option Response}

theorem start : Reading [] {} [] none := .going rfl fun more _ => .none more

theorem congr (h : Reading s l bodies last) (hreads : l'.reads = l.reads)
    (hdone : l'.peerDone = l.peerDone) (hunread : l'.unread = l.unread) :
    Reading s l' bodies last := by
  cases h with
  | going hgoing htakes =>
      refine .going (hreads.trans hgoing) fun more hmore => ?_
      rw [hunread]
      exact htakes more (hmore.congr hdone)
  | ended hends hstream =>
      exact .ended (hreads.trans hends) fun more hmore => hstream more (hmore.congr hdone)

theorem sent (h : Reading s l bodies last) (hopen : l.peerDone = false) (octets : Bytes) :
    Reading (s ++ octets) { l with unread := l.unread ++ octets } bodies last := by
  have hmay (more : Bytes) : l.MayCome more := fun hdone => by
    rw [hopen] at hdone
    cases hdone
  cases h with
  | going hgoing htakes =>
      refine .going hgoing fun more _ => ?_
      rw [List.append_assoc, List.append_assoc]
      exact htakes _ (hmay _)
  | ended hends hstream =>
      refine .ended hends fun more _ => ?_
      rw [List.append_assoc]
      exact hstream _ (hmay _)

theorem peerDone (h : Reading s l bodies last) :
    Reading s { l with peerDone := true } bodies last := by
  have hmay {more : Bytes} (hmore : Link.MayCome { l with peerDone := true } more) :
      l.MayCome more := fun _ => hmore rfl
  cases h with
  | going hgoing htakes => exact .going hgoing fun more hmore => htakes more (hmay hmore)
  | ended hends hstream => exact .ended hends fun more hmore => hstream more (hmay hmore)

theorem last_eq (h : Reading s l bodies last) (hreads : l.reads = true) : last = none := by
  cases h with
  | going => rfl
  | ended hends => cases hreads.symm.trans hends

theorem took (h : Reading s l bodies last) (hreads : l.reads = true)
    (hwhole : l.peerDone = false → Frame.isPartial l.unread = false) {body rest : Bytes}
    (hread : Frame.read l.unread = .body body rest) (hreads' : l'.reads = true)
    (hdone : l'.peerDone = l.peerDone) (hunread : l'.unread = rest) :
    Reading s l' (bodies ++ [body]) none := by
  cases h with
  | ended hends => cases hreads.symm.trans hends
  | going hgoing htakes =>
      refine .going hreads' fun more hmore => ?_
      have hmore' : l.MayCome more := hmore.congr hdone
      refine (htakes more hmore').append ?_
      rw [hunread]
      cases hpeer : l.peerDone with
      | true =>
          rw [hmore' hpeer, List.append_nil, List.append_nil]
          exact hread
      | false => exact Frame.read_body_kept hread (hwhole hpeer) more

theorem finished (h : Reading s l bodies last) (hreads : l.reads = true)
    (hwhole : l.peerDone = false → Frame.isPartial l.unread = false)
    {failure : Option TransportFailure} (hends : Frame.Reads l.unread [] failure)
    (hreads' : l'.reads = false) (hdone : l'.peerDone = l.peerDone) :
    Reading s l' bodies (Incoming.farewell failure) := by
  cases h with
  | ended hended => cases hreads.symm.trans hended
  | going hgoing htakes =>
      refine .ended hreads' fun more hmore => ?_
      have hmore' : l.MayCome more := hmore.congr hdone
      refine (htakes more hmore').reads ?_
      cases hpeer : l.peerDone with
      | true =>
          rw [hmore' hpeer, List.append_nil]
          exact hends
      | false => exact hends.kept (hwhole hpeer) more

theorem reads (h : Reading s l bodies last) (hends : l.reads = false) :
    ∃ failure, Frame.Reads s bodies failure ∧ last = Incoming.farewell failure := by
  cases h with
  | going hgoing => cases hends.symm.trans hgoing
  | ended _ hstream =>
      have hnow := hstream [] fun _ => rfl
      rw [List.append_nil] at hnow
      exact ⟨_, hnow, rfl⟩

end Link.Reading

/-- The responses on a connection: those of requests that the router has answered, those of frames
that hold no request, and the last one. The requests that have been read are answered or awaited. -/
structure Link.Books (numbers : List Nat) (r : Router) (l : Link) (bodies : List Bytes)
    (answered : List (Nat × Response)) (last : Option Response) : Prop where
  held : List.Forall₂ r.Holds (Incoming.requests bodies) numbers
  ordered : numbers.Pairwise (· < ·)
  below : ∀ n ∈ numbers, n < r.nextArrival
  due : numbers.Perm (answered.map Prod.fst ++ l.awaited)
  answers : ∀ n response, (n, response) ∈ answered → r.response? n = some response
  written : l.written.Perm
    (answered.map Prod.snd ++ Incoming.refusals bodies ++ last.toList)

namespace Link.Books

variable {numbers : List Nat} {r r' : Router} {l l' : Link} {bodies : List Bytes}
  {answered : List (Nat × Response)} {last : Option Response} {body : Bytes}

theorem start (r : Router) : Books [] r {} [] [] none where
  held := .nil
  ordered := .nil
  below n hn := by cases hn
  due := .nil
  answers n response hmem := by cases hmem
  written := .nil

theorem congr (h : Books numbers r l bodies answered last) (hawaited : l'.awaited = l.awaited)
    (hwritten : l'.written = l.written) : Books numbers r l' bodies answered last where
  held := h.held
  ordered := h.ordered
  below := h.below
  due := hawaited ▸ h.due
  answers := h.answers
  written := hwritten ▸ h.written

theorem routed (h : Books numbers r l bodies answered last) (hnumbered : r.Numbered)
    {e : Event} (hstep : r.step? e = some r') : Books numbers r' l bodies answered last where
  held := h.held.imp fun _ _ hheld => hheld.step hnumbered hstep
  ordered := h.ordered
  below n hn := Nat.lt_of_lt_of_le (h.below n hn) (Router.nextArrival_le (Router.step?_happens hstep))
  due := h.due
  answers n response hmem := Router.response?_step hnumbered hstep (h.answers n response hmem)
  written := h.written

theorem requested (h : Books numbers r l bodies answered last) (hnumbered : r.Numbered)
    {request : Request} (hdecode : Request.decode body = .ok request)
    (hstep : r.step? (.arrive request true) = some r')
    (hawaited : l'.awaited = l.awaited ++ [r.nextArrival]) (hwritten : l'.written = l.written) :
    Books (numbers ++ [r.nextArrival]) r' l' (bodies ++ [body]) answered last := by
  obtain ⟨hrequests, hrefusals⟩ := Incoming.requests_append_ok hdecode bodies
  have hlater := h.routed hnumbered hstep
  have hnew : r'.Holds request r.nextArrival := by
    cases hstep
    exact ⟨_, Table.lookup_put_self .., rfl⟩
  have hnext : r'.nextArrival = r.nextArrival + 1 := by
    cases hstep
    rfl
  constructor
  case held =>
    rw [hrequests]
    exact List.rel_append hlater.held (.cons hnew .nil)
  case ordered =>
    refine List.pairwise_append.mpr ⟨h.ordered, List.pairwise_singleton _ _, fun n hn m hm => ?_⟩
    rw [List.mem_singleton.mp hm]
    exact h.below n hn
  case below =>
    intro n hn
    rw [hnext]
    obtain hn | hn := List.mem_append.mp hn
    · exact Nat.lt_succ_of_lt (h.below n hn)
    · rw [List.mem_singleton.mp hn]
      exact Nat.lt_succ_self _
  case due =>
    rw [hawaited, ← List.append_assoc]
    exact h.due.append_right _
  case answers => exact hlater.answers
  case written =>
    rw [hwritten, hrefusals]
    exact h.written

theorem refused (h : Books numbers r l bodies answered none) {id : Json}
    {cause : TransportFailure} (hdecode : Request.decode body = .error (id, cause))
    (hawaited : l'.awaited = l.awaited)
    (hwritten : l'.written = l.written ++ [.failure id .transport cause.message]) :
    Books numbers r l' (bodies ++ [body]) answered none := by
  obtain ⟨hrequests, hrefusals⟩ := Incoming.requests_append_error hdecode bodies
  have hbefore : l.written.Perm (answered.map Prod.snd ++ Incoming.refusals bodies) := by
    simpa using h.written
  constructor
  case held => rw [hrequests]; exact h.held
  case ordered => exact h.ordered
  case below => exact h.below
  case due => rw [hawaited]; exact h.due
  case answers => exact h.answers
  case written =>
    rw [hwritten, hrefusals, Option.toList_none, List.append_nil, ← List.append_assoc]
    exact hbefore.append_right _

theorem finished (h : Books numbers r l bodies answered none) (last : Option Response)
    (hawaited : l'.awaited = l.awaited) (hwritten : l'.written = l.written ++ last.toList) :
    Books numbers r l' bodies answered last where
  held := h.held
  ordered := h.ordered
  below := h.below
  due := hawaited ▸ h.due
  answers := h.answers
  written := by
    have hbefore : l.written.Perm (answered.map Prod.snd ++ Incoming.refusals bodies) := by
      simpa using h.written
    rw [hwritten]
    exact hbefore.append_right _

theorem wrote (h : Books numbers r l bodies answered last) {n : Nat} {response : Response}
    (hresponse : r.response? n = some response) (hn : n ∈ l.awaited)
    (hawaited : l'.awaited = l.awaited.erase n) (hwritten : l'.written = l.written ++ [response]) :
    Books numbers r l' bodies ((n, response) :: answered) last where
  held := h.held
  ordered := h.ordered
  below := h.below
  due := by
    rw [hawaited]
    refine h.due.trans ?_
    have hfirst : (answered.map Prod.fst ++ l.awaited).Perm
        (answered.map Prod.fst ++ n :: l.awaited.erase n) :=
      (List.perm_cons_erase hn).append_left _
    exact hfirst.trans List.perm_middle
  answers m other hmem := by
    obtain heq | hmem := List.mem_cons.mp hmem
    · cases heq
      exact hresponse
    · exact h.answers m other hmem
  written := by
    rw [hwritten]
    exact (h.written.append_right _).trans (List.perm_append_singleton response _)

end Link.Books

/-- The response that a router has given to a request under a number, with the id of the request. -/
def Router.Answers (r : Router) (request : Request) (answer : Nat × Response) : Prop :=
  r.Holds request answer.1 ∧ r.response? answer.1 = some answer.2 ∧ answer.2.id = request.id

theorem Router.Holds.answers {r : Router} {request : Request} {n : Nat} {response : Response}
    (h : r.Holds request n) (hresponse : r.response? n = some response) :
    r.Answers request (n, response) := by
  refine ⟨h, hresponse, ?_⟩
  obtain ⟨v, hv, rfl⟩ := h
  obtain ⟨v', result, hv', _, rfl⟩ := response?_eq_some.mp hresponse
  cases Option.some.inj (hv.symm.trans hv')
  cases result <;> rfl

namespace Link.Books

variable {numbers : List Nat} {r : Router} {l : Link} {bodies : List Bytes}
  {answered : List (Nat × Response)} {last : Option Response}

theorem answers_of_held {requests : List Request} {reply : Nat → Response}
    (hheld : List.Forall₂ r.Holds requests numbers)
    (hreply : ∀ n ∈ numbers, r.response? n = some (reply n)) :
    List.Forall₂ r.Answers requests (numbers.map fun n => (n, reply n)) := by
  induction hheld with
  | nil => exact .nil
  | cons hfirst _ ih =>
      obtain ⟨hnow, hlater⟩ := List.forall_mem_cons.mp hreply
      exact .cons (hfirst.answers hnow) (ih hlater)

/-- When nothing is awaited, each request has been answered once. -/
theorem settled (h : Books numbers r l bodies answered last) (hnone : l.awaited = []) :
    ∃ answers, answers.map Prod.fst = numbers ∧
      List.Forall₂ r.Answers (Incoming.requests bodies) answers ∧
      l.written.Perm (answers.map Prod.snd ++ Incoming.refusals bodies ++ last.toList) := by
  have hdue : numbers.Perm (answered.map Prod.fst) := by simpa [hnone] using h.due
  let reply (n : Nat) : Response := (r.response? n).getD default
  have hreply : ∀ n ∈ numbers, r.response? n = some (reply n) := by
    intro n hn
    obtain ⟨⟨m, response⟩, hmem, rfl⟩ := List.mem_map.mp (hdue.mem_iff.mp hn)
    have hresponse := h.answers m response hmem
    simp only [reply, hresponse, Option.getD_some]
  have hsnd : answered.map Prod.snd = (answered.map Prod.fst).map reply := by
    rw [List.map_map]
    refine List.map_congr_left fun p hp => ?_
    simp only [Function.comp, reply, h.answers p.1 p.2 hp, Option.getD_some]
  refine ⟨numbers.map fun n => (n, reply n), by simp [Function.comp_def],
    answers_of_held h.held hreply, ?_⟩
  have hanswers : (numbers.map fun n => (n, reply n)).map Prod.snd = numbers.map reply := by
    rw [List.map_map]
    rfl
  rw [hanswers]
  refine h.written.trans (((?_ : List.Perm _ _).append_right _).append_right _)
  rw [hsnd]
  exact (hdue.map reply).symm

end Link.Books

end CodeAssist
