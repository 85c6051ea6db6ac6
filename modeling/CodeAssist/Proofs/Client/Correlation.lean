import CodeAssist.Client
import CodeAssist.Proofs.Frame.RoundTrip
import CodeAssist.Proofs.Message.RoundTrip
import Mathlib.Data.List.Nodup

namespace CodeAssist

open Text (Bytes)

/-- A response, with what was unread when it was read. -/
structure Arrival where
  unread : Bytes
  response : Response
deriving DecidableEq, Repr

/-- The responses that come first on a stream, and the failure to read one behind them: the stream
ends there, a frame is broken, or the body of one is something else. -/
inductive Arrives : Bytes → List Arrival → TransportFailure → Prop
  | response {s body rest : Bytes} {r : Response} {later : List Arrival} {cause : TransportFailure}
      (hread : Frame.read s = .body body rest) (hparse : Response.parse body = .ok r)
      (hlater : Arrives rest later cause) : Arrives s (⟨s, r⟩ :: later) cause
  | closed {s : Bytes} (hread : Frame.read s = .finished) : Arrives s [] .connectionClosed
  | broken {s rest : Bytes} {cause : TransportFailure} (hread : Frame.read s = .failed cause rest) :
      Arrives s [] cause
  | undecodable {s body rest : Bytes} {e : Json.ReadError}
      (hread : Frame.read s = .body body rest) (hparse : Response.parse body = .error e) :
      Arrives s [] (.undecodable e.message)

theorem exists_arrives (s : Bytes) : ∃ arrivals cause, Arrives s arrivals cause := by
  induction hlength : s.length using Nat.strong_induction_on generalizing s with
  | _ size ih =>
      cases hread : Frame.read s with
      | finished => exact ⟨[], _, .closed hread⟩
      | failed cause rest => exact ⟨[], _, .broken hread⟩
      | body body rest =>
          cases hparse : Response.parse body with
          | error e => exact ⟨[], _, .undecodable hread hparse⟩
          | ok r =>
              have hlt : rest.length < size := hlength ▸ Frame.read_rest_lt hread
              obtain ⟨later, cause, hlater⟩ := ih rest.length hlt rest rfl
              exact ⟨⟨s, r⟩ :: later, cause, .response hread hparse hlater⟩

namespace Client

inductive Operation where
  | send (method : String) (params : Json)
  | receive
  | call (method : String) (params : Json)
deriving DecidableEq, Repr

/-- A request is sent, or no more than a part of it; or what comes next is read, as a response or with
a failure. -/
inductive Event where
  | sent (id : Json)
  | unsent (id : Json) (cause : TransportFailure)
  | read (unread : Bytes) (result : Except TransportFailure Response)

def perform (c : Client) : Operation → Client
  | .send method params => (c.send method params).2
  | .receive => c.receive.2
  | .call method params => (c.call method params).2

def awaitEvents (c : Client) (id : Json) : List Event :=
  match _found : c.receive with
  | (.error cause, _) => [.read c.unread (.error cause)]
  | (.ok response, after) =>
      .read c.unread (.ok response) :: if response.id = id then [] else after.awaitEvents id
termination_by c.unread.length
decreasing_by exact receive_unread_lt _found

def submission (c : Client) (method : String) (params : Json) : Event :=
  match (c.submit method params).1 with
  | .ok id => .sent id
  | .error cause => .unsent (.ofNat c.nextId) cause

def events (c : Client) : Operation → List Event
  | .send method params => [c.submission method params]
  | .receive => [.read c.unread c.receive.1]
  | .call method params =>
      c.submission method params ::
        match c.submit method params with
        | (.error _, _) => []
        | (.ok id, after) => after.awaitEvents id

def performAll (c : Client) (operations : List Operation) : Client := operations.foldl perform c

def history (c : Client) : List Operation → List Event
  | [] => []
  | operation :: later => c.events operation ++ (c.perform operation).history later

def Event.sent? : Event → Option Json
  | .sent id => some id
  | .unsent _ _ | .read _ _ => none

def Event.assigned? : Event → Option Json
  | .sent id | .unsent id _ => some id
  | .read _ _ => none

/-- The ids of the requests that are sent, in order. -/
def requests (history : List Event) : List Json := history.filterMap Event.sent?

/-- The ids of all requests, in order, with those that could not be sent. -/
def assigned (history : List Event) : List Json := history.filterMap Event.assigned?

/-- Where `about` has a number for what is unread, the response that is read there answers the
request with that number, counted from zero: one that was sent before, and whose id it bears. Where
it has none the id is null. No use is made of a request being answered at most once. -/
def Honest (about : Bytes → Option Nat) (history : List Event) : Prop :=
  ∀ n unread response, history[n]? = some (.read unread (.ok response)) →
    match about unread with
    | some number => (requests (history.take n))[number]? = some response.id
    | none => response.id = .null

variable {c after : Client} {id : Json} {r : Response} {cause : TransportFailure}
  {arrivals : List Arrival} {operations : List Operation}

theorem write_eq (c : Client) (body : Bytes) :
    ∃ outcome part breakage,
      c.write body = (outcome, { c with sent := c.sent ++ part, breakage }) ∧
      part <+: Frame.encode body ∧
      (outcome = .ok () ∧ part = Frame.encode body ∨
        ∃ cause, outcome = .error cause ∧ part ≠ Frame.encode body) := by
  obtain ⟨nextId, unread, sent, breakage⟩ := c
  cases breakage with
  | none => exact ⟨_, _, _, rfl, List.prefix_rfl, .inl ⟨rfl, rfl⟩⟩
  | some b =>
      obtain ⟨room, cause⟩ := b
      refine ⟨_, _, _, rfl, List.take_prefix .., ?_⟩
      by_cases hfits : (Frame.encode body).length ≤ room
      · exact .inl ⟨if_pos hfits, List.take_of_length_le hfits⟩
      · refine .inr ⟨cause, if_neg hfits, fun hwhole => hfits ?_⟩
        rw [← hwhole]
        exact List.length_take_le ..

/-- A request gets the next number as its id. All of it is sent, or a part of it and the submission
fails. -/
theorem submit_eq (c : Client) (method : String) (params : Json) :
    let id := Json.ofNat c.nextId
    let frame := Frame.encode (Request.encode { id, method, params })
    ∃ outcome part breakage,
      c.submit method params =
        (outcome, { c with nextId := c.nextId + 1, sent := c.sent ++ part, breakage }) ∧
      part <+: frame ∧
      (outcome = .ok id ∧ part = frame ∨ ∃ cause, outcome = .error cause ∧ part ≠ frame) := by
  intro id frame
  obtain ⟨outcome, part, breakage, hwrite, hpart, hends⟩ :=
    write_eq { c with nextId := c.nextId + 1 } (Request.encode { id, method, params })
  refine ⟨_, part, breakage, by rw [submit, hwrite], hpart, ?_⟩
  obtain ⟨rfl, hwhole⟩ | ⟨cause, rfl, hnot⟩ := hends
  · exact .inl ⟨rfl, hwhole⟩
  · exact .inr ⟨cause, rfl, hnot⟩

def Event.ofArrival (a : Arrival) : Event := .read a.unread (.ok a.response)

theorem receive_of_arrives {a : Arrival} {later : List Arrival}
    (harrives : Arrives c.unread (a :: later) cause) :
    a.unread = c.unread ∧ ∃ rest, c.receive = (.ok a.response, { c with unread := rest }) ∧
      Arrives rest later cause := by
  cases harrives with
  | response hread hparse hlater =>
      refine ⟨rfl, _, ?_, hlater⟩
      simp only [receive, hread, hparse]

theorem receive_of_arrives_nil (harrives : Arrives c.unread [] cause) :
    ∃ rest, c.receive = (.error cause, { c with unread := rest }) := by
  cases harrives with
  | closed hread | broken hread => exact ⟨_, by simp only [receive, hread]; rfl⟩
  | undecodable hread hparse => exact ⟨_, by simp only [receive, hread, hparse]; rfl⟩

theorem await_of_error (id : Json) (hreceive : c.receive = (.error cause, after)) :
    c.await id = (.error cause, after) ∧ c.awaitEvents id = [.read c.unread (.error cause)] := by
  constructor
  · rw [await]
    split
    · rename_i hfound
      exact hfound ▸ hreceive
    · rename_i hfound
      cases hfound.symm.trans hreceive
  · rw [awaitEvents]
    split
    · rename_i hfound
      cases hfound.symm.trans hreceive
      rfl
    · rename_i hfound
      cases hfound.symm.trans hreceive

theorem await_of_ok (id : Json) (hreceive : c.receive = (.ok r, after)) :
    c.await id = (if r.id = id then (.ok r, after) else after.await id) ∧
      c.awaitEvents id =
        .read c.unread (.ok r) :: if r.id = id then [] else after.awaitEvents id := by
  constructor
  · rw [await]
    split
    · rename_i hfound
      cases hfound.symm.trans hreceive
    · rename_i hfound
      cases hfound.symm.trans hreceive
      rfl
  · rw [awaitEvents]
    split
    · rename_i hfound
      cases hfound.symm.trans hreceive
    · rename_i hfound
      cases hfound.symm.trans hreceive
      rfl

/-- A wait passes over responses with other ids. The first with the id ends it, or else the failure
behind all of them does. -/
theorem await_cases (harrives : Arrives c.unread arrivals cause) (id : Json) :
    ∃ passed unread, c.awaitEvents id =
        passed.map Event.ofArrival ++ [.read unread (c.await id).1] ∧
      (∀ a ∈ passed, a.response.id ≠ id) ∧
      ((∃ response later, arrivals = passed ++ ⟨unread, response⟩ :: later ∧ response.id = id ∧
          (c.await id).1 = .ok response) ∨
        arrivals = passed ∧ (c.await id).1 = .error cause) := by
  induction arrivals generalizing c with
  | nil =>
      obtain ⟨rest, hreceive⟩ := receive_of_arrives_nil harrives
      obtain ⟨hawait, hevents⟩ := await_of_error id hreceive
      rw [hevents, hawait]
      exact ⟨[], _, rfl, List.forall_mem_nil _, .inr ⟨rfl, rfl⟩⟩
  | cons a arrivals ih =>
      obtain ⟨hunread, rest, hreceive, hlater⟩ := receive_of_arrives harrives
      obtain ⟨hawait, hevents⟩ := await_of_ok id hreceive
      rw [hawait, hevents, ← hunread]
      by_cases hid : a.response.id = id
      · rw [if_pos hid, if_pos hid]
        exact ⟨[], _, rfl, List.forall_mem_nil _, .inl ⟨a.response, arrivals, rfl, hid, rfl⟩⟩
      · rw [if_neg hid, if_neg hid]
        obtain ⟨passed, unread, hseen, hpassed, hends⟩ := ih (c := { c with unread := rest }) hlater
        refine ⟨a :: passed, unread, ?_, List.forall_mem_cons.mpr ⟨hid, hpassed⟩, ?_⟩
        · rw [hseen]
          rfl
        · rcases hends with ⟨response, later, rfl, hends⟩ | ⟨rfl, hends⟩
          · exact .inl ⟨response, later, rfl, hends⟩
          · exact .inr ⟨rfl, hends⟩

theorem await_eq_find (harrives : Arrives c.unread arrivals cause) (id : Json) :
    (c.await id).1 = match arrivals.find? (·.response.id = id) with
      | some a => .ok a.response
      | none => .error cause := by
  obtain ⟨passed, unread, -, hpassed, hends⟩ := await_cases harrives id
  rcases hends with ⟨response, later, rfl, hid, hresult⟩ | ⟨rfl, hresult⟩
  · have hfirst : (passed ++ ⟨unread, response⟩ :: later).find? (·.response.id = id) =
        some ⟨unread, response⟩ := by
      refine List.find?_eq_some_iff_append.mpr ⟨decide_eq_true hid, passed, later, rfl, ?_⟩
      intro a ha
      simpa using hpassed a ha
    rw [hfirst]
    exact hresult
  · have hnone : arrivals.find? (·.response.id = id) = none := by
      refine List.find?_eq_none.mpr ?_
      intro a ha
      simpa using hpassed a ha
    rw [hnone]
    exact hresult

theorem requests_append (earlier later : List Event) :
    requests (earlier ++ later) = requests earlier ++ requests later :=
  List.filterMap_append

theorem assigned_append (earlier later : List Event) :
    assigned (earlier ++ later) = assigned earlier ++ assigned later :=
  List.filterMap_append

theorem requests_ofArrival (arrivals : List Arrival) :
    requests (arrivals.map Event.ofArrival) = [] := by
  refine List.filterMap_eq_nil_iff.mpr fun e he => ?_
  obtain ⟨a, -, rfl⟩ := List.mem_map.mp he
  rfl

theorem read_of_mem_awaitEvents {e : Event} (he : e ∈ c.awaitEvents id) :
    ∃ unread result, e = .read unread result := by
  obtain ⟨arrivals, cause, harrives⟩ := exists_arrives c.unread
  obtain ⟨passed, unread, hseen, -⟩ := await_cases harrives id
  rw [hseen] at he
  obtain harrived | hlast := List.mem_append.mp he
  · obtain ⟨a, -, rfl⟩ := List.mem_map.mp harrived
    exact ⟨_, _, rfl⟩
  · exact ⟨_, _, List.mem_singleton.mp hlast⟩

theorem requests_awaitEvents (c : Client) (id : Json) : requests (c.awaitEvents id) = [] := by
  refine List.filterMap_eq_nil_iff.mpr fun e he => ?_
  obtain ⟨unread, result, rfl⟩ := read_of_mem_awaitEvents he
  rfl

theorem assigned_awaitEvents (c : Client) (id : Json) : assigned (c.awaitEvents id) = [] := by
  refine List.filterMap_eq_nil_iff.mpr fun e he => ?_
  obtain ⟨unread, result, rfl⟩ := read_of_mem_awaitEvents he
  rfl

theorem requests_sublist (history : List Event) :
    (requests history).Sublist (assigned history) := by
  induction history with
  | nil => exact .slnil
  | cons e history ih =>
      cases e with
      | sent id => exact ih.cons_cons id
      | unsent id cause => exact ih.cons id
      | read unread result => exact ih

theorem receive_eq_unread (c : Client) : ∃ unread, c.receive.2 = { c with unread } := by
  unfold receive
  split
  · exact ⟨_, rfl⟩
  · exact ⟨_, rfl⟩
  · split <;> exact ⟨_, rfl⟩

theorem await_eq_unread (c : Client) (id : Json) : ∃ unread, (c.await id).2 = { c with unread } := by
  fun_induction await c id with
  | case1 c cause after hfound | case2 c response after hfound =>
      obtain ⟨unread, hunread⟩ := receive_eq_unread c
      exact ⟨unread, by rw [← hunread, hfound]⟩
  | case3 c response after hfound _ ih =>
      obtain ⟨unread, hunread⟩ := receive_eq_unread c
      obtain ⟨last, hlast⟩ := ih
      have hafter : after = { c with unread } := (congrArg Prod.snd hfound).symm.trans hunread
      exact ⟨last, by rw [hlast, hafter]⟩

theorem call_of_ok {method : String} {params : Json}
    (hsubmit : c.submit method params = (.ok id, after)) :
    c.call method params = after.await id ∧
      c.events (.call method params) = .sent id :: after.awaitEvents id := by
  simp only [call, events, submission, hsubmit, and_self]

theorem call_of_error {method : String} {params : Json}
    (hsubmit : c.submit method params = (.error cause, after)) :
    c.call method params = (.error cause, after) ∧
      c.events (.call method params) = [.unsent (.ofNat c.nextId) cause] := by
  simp only [call, events, submission, hsubmit, and_self]

theorem assigned_submission (c : Client) (method : String) (params : Json) :
    (c.submission method params).assigned? = some (.ofNat c.nextId) := by
  obtain ⟨outcome, part, breakage, hsubmit, -, ⟨rfl, -⟩ | ⟨cause, rfl, -⟩⟩ :=
    submit_eq c method params
  · rw [submission, hsubmit]
    rfl
  · rw [submission, hsubmit]
    rfl

theorem assigned_send (c : Client) (method : String) (params : Json) :
    assigned (c.events (.send method params)) = [.ofNat c.nextId] :=
  List.filterMap_cons_some (assigned_submission c method params)

theorem assigned_call (c : Client) (method : String) (params : Json) :
    assigned (c.events (.call method params)) = [.ofNat c.nextId] := by
  rw [events, assigned, List.filterMap_cons_some (assigned_submission c method params)]
  refine congrArg (List.cons _) ?_
  split
  · rfl
  · exact assigned_awaitEvents ..

theorem nextId_submit (c : Client) (method : String) (params : Json) :
    (c.submit method params).2.nextId = c.nextId + 1 := by
  obtain ⟨outcome, part, breakage, hsubmit, -⟩ := submit_eq c method params
  rw [hsubmit]

theorem nextId_call (c : Client) (method : String) (params : Json) :
    (c.call method params).2.nextId = c.nextId + 1 := by
  have hnext := nextId_submit c method params
  match hsubmit : c.submit method params with
  | (.error cause, after) =>
      rw [(call_of_error hsubmit).1]
      rwa [hsubmit] at hnext
  | (.ok id, after) =>
      obtain ⟨unread, hawait⟩ := await_eq_unread after id
      rw [(call_of_ok hsubmit).1, hawait]
      rwa [hsubmit] at hnext

/-- An operation sends one request at most, with the next number as its id. -/
theorem assigned_events (c : Client) (operation : Operation) :
    ∃ n, (c.perform operation).nextId = c.nextId + n ∧
      assigned (c.events operation) = (List.range' c.nextId n).map Json.ofNat := by
  cases operation with
  | receive =>
      obtain ⟨unread, hreceive⟩ := receive_eq_unread c
      exact ⟨0, by rw [perform, hreceive]; rfl, rfl⟩
  | send method params => exact ⟨1, nextId_submit c method params, assigned_send c method params⟩
  | call method params => exact ⟨1, nextId_call c method params, assigned_call c method params⟩

theorem assigned_history (c : Client) (operations : List Operation) :
    ∃ n, (c.performAll operations).nextId = c.nextId + n ∧
      assigned (c.history operations) = (List.range' c.nextId n).map Json.ofNat := by
  induction operations generalizing c with
  | nil => exact ⟨0, rfl, rfl⟩
  | cons operation later ih =>
      obtain ⟨m, hnext, hassigned⟩ := assigned_events c operation
      obtain ⟨n, hlast, hlater⟩ := ih (c.perform operation)
      refine ⟨m + n, ?_, ?_⟩
      · rw [performAll, List.foldl_cons, ← performAll, hlast, hnext, Nat.add_assoc]
      · rw [history, assigned_append, hassigned, hlater, hnext, ← List.map_append,
          List.range'_append_1]

theorem ofNat_injective : Function.Injective Json.ofNat := by
  intro m n heq
  injection heq with heq
  injection heq with heq
  exact Int.ofNat.inj heq

theorem nodup_assigned (c : Client) (operations : List Operation) :
    (assigned (c.history operations)).Nodup := by
  obtain ⟨n, -, hassigned⟩ := assigned_history c operations
  rw [hassigned]
  exact List.Nodup.map ofNat_injective List.nodup_range'

theorem history_append (c : Client) (earlier later : List Operation) :
    c.history (earlier ++ later) = c.history earlier ++ (c.performAll earlier).history later := by
  induction earlier generalizing c with
  | nil => rfl
  | cons operation earlier ih =>
      rw [List.cons_append, history, ih, history, List.append_assoc]
      rfl

section honest

variable {about : Bytes → Option Nat} {earlier later : List Event} {unread : Bytes}

theorem Honest.at (hhonest : Honest about (earlier ++ .read unread (.ok r) :: later)) :
    match about unread with
    | some number => (requests earlier)[number]? = some r.id
    | none => r.id = .null := by
  have hread : (earlier ++ .read unread (.ok r) :: later)[earlier.length]? =
      some (.read unread (.ok r)) := by simp
  have hat := hhonest earlier.length unread r hread
  rwa [List.take_left] at hat

/-- What was read before a request was sent does not answer it. -/
theorem Honest.about_ne (hhonest : Honest about (earlier ++ later))
    (hread : .read unread (.ok r) ∈ earlier) : about unread ≠ some (requests earlier).length := by
  obtain ⟨past, rest, rfl⟩ := List.append_of_mem hread
  rw [List.append_assoc, List.cons_append] at hhonest
  have hat := hhonest.at
  intro habout
  rw [habout] at hat
  have hlt := (List.getElem?_eq_some_iff.mp hat).choose
  rw [requests_append, List.length_append] at hlt
  omega

/-- What is read after a request was sent, with no other behind it, answers it if it has its id. -/
theorem Honest.about_iff {passed : List Arrival}
    (hhonest : Honest about
      (earlier ++ .sent id :: (passed.map Event.ofArrival ++ .read unread (.ok r) :: later)))
    (hnodup : (requests earlier ++ [id]).Nodup) (hnull : id ≠ .null) :
    about unread = some (requests earlier).length ↔ r.id = id := by
  have hsent : requests (earlier ++ .sent id :: passed.map Event.ofArrival) =
      requests earlier ++ [id] := by
    rw [requests_append]
    exact congrArg (requests earlier ++ id :: ·) (requests_ofArrival passed)
  rw [← List.cons_append, ← List.append_assoc] at hhonest
  have hat := hhonest.at
  rw [hsent] at hat
  have hlast : (requests earlier ++ [id])[(requests earlier).length]? = some id :=
    List.getElem?_concat_length
  cases habout : about unread with
  | none =>
      rw [habout] at hat
      have hne : r.id ≠ id := fun heq => hnull (heq.symm.trans hat)
      exact iff_of_false (fun hsome => nomatch hsome) hne
  | some other =>
      rw [habout] at hat
      dsimp only at hat
      constructor
      · intro hsame
        cases hsame
        exact Option.some.inj (hat.symm.trans hlast)
      · intro hsame
        rw [hsame, ← hlast] at hat
        have hlt := (List.getElem?_eq_some_iff.mp (hat.trans hlast)).choose
        rw [(List.getElem?_inj hlt hnodup).mp hat]

/-- What is read last while an honest peer is waited for is the answer to the request, and nothing
that was read before is one; or there is none in front of the failure. -/
theorem Honest.await (hhonest : Honest about (earlier ++ .sent id :: c.awaitEvents id))
    (hnodup : (requests earlier ++ [id]).Nodup) (hnull : id ≠ .null)
    (harrives : Arrives c.unread arrivals cause) :
    ∃ passed unread,
      earlier ++ .sent id :: c.awaitEvents id = passed ++ [.read unread (c.await id).1] ∧
      (∀ seen r, .read seen (.ok r) ∈ passed → about seen ≠ some (requests earlier).length) ∧
      (∀ r, (c.await id).1 = .ok r → about unread = some (requests earlier).length) ∧
      ∀ failure, (c.await id).1 = .error failure ↔
        failure = cause ∧ ∀ a ∈ arrivals, about a.unread ≠ some (requests earlier).length := by
  obtain ⟨passed, unread, hseen, hpassed, hends⟩ := await_cases harrives id
  rw [hseen] at hhonest ⊢
  have hother : ∀ a ∈ passed, about a.unread ≠ some (requests earlier).length := by
    intro a ha habout
    obtain ⟨before, behind, rfl⟩ := List.append_of_mem ha
    rw [List.map_append, List.map_cons, List.append_assoc, List.cons_append] at hhonest
    exact hpassed a ha ((hhonest.about_iff hnodup hnull).mp habout)
  have hown : ∀ r, (c.await id).1 = .ok r → about unread = some (requests earlier).length := by
    intro r hresult
    rw [hresult] at hhonest
    refine (hhonest.about_iff hnodup hnull).mpr ?_
    rcases hends with ⟨response, later, -, hid, hok⟩ | ⟨-, herror⟩
    · cases hok.symm.trans hresult
      exact hid
    · cases herror.symm.trans hresult
  refine ⟨earlier ++ .sent id :: passed.map Event.ofArrival, unread, by simp, ?_, hown, ?_⟩
  · intro seen r hread
    rcases List.mem_append.mp hread with hearlier | hread
    · exact hhonest.about_ne hearlier
    · cases hread with
      | tail _ hread =>
          obtain ⟨a, ha, heq⟩ := List.mem_map.mp hread
          cases heq
          exact hother a ha
  · intro failure
    rcases hends with ⟨response, later, rfl, -, hok⟩ | ⟨rfl, herror⟩
    · constructor
      · intro hfails
        cases hok.symm.trans hfails
      · rintro ⟨-, hnone⟩
        have hlast : (⟨unread, response⟩ : Arrival) ∈ passed ++ ⟨unread, response⟩ :: later :=
          List.mem_append_right passed List.mem_cons_self
        exact absurd (hown response hok) (hnone _ hlast)
    · constructor
      · intro hfails
        cases herror.symm.trans hfails
        exact ⟨rfl, hother⟩
      · rintro ⟨rfl, -⟩
        exact herror

end honest

theorem history_concat (c : Client) (operations : List Operation) (operation : Operation) :
    c.history (operations ++ [operation]) =
      c.history operations ++ (c.performAll operations).events operation := by
  rw [history_append, history, history, List.append_nil]

theorem submit_of_unbroken (hbreaks : c.breakage = none) (method : String) (params : Json) :
    (c.submit method params).1 = .ok (.ofNat c.nextId) ∧
      (c.submit method params).2.breakage = none := by
  obtain ⟨nextId, unread, sent, breakage⟩ := c
  cases hbreaks
  exact ⟨rfl, rfl⟩

theorem breakage_perform (hbreaks : c.breakage = none) (operation : Operation) :
    (c.perform operation).breakage = none := by
  cases operation with
  | send method params => exact (submit_of_unbroken hbreaks method params).2
  | receive =>
      obtain ⟨unread, hreceive⟩ := receive_eq_unread c
      exact (congrArg Client.breakage hreceive).trans hbreaks
  | call method params =>
      obtain ⟨hsent, hafter⟩ := submit_of_unbroken hbreaks method params
      obtain ⟨hcall, -⟩ := call_of_ok (Prod.ext hsent rfl)
      obtain ⟨unread, hawait⟩ := await_eq_unread (c.submit method params).2 (.ofNat c.nextId)
      rw [perform, hcall, hawait]
      exact hafter

theorem breakage_performAll (hbreaks : c.breakage = none) (operations : List Operation) :
    (c.performAll operations).breakage = none := by
  induction operations generalizing c with
  | nil => exact hbreaks
  | cons operation later ih => exact ih (breakage_perform hbreaks operation)

/-- The ids that a client gives to its requests are all different. A call whose request cannot be
sent fails at once, with no more than a part of the request sent. Any other is answered with the
first response with its id that is read after its request. Without one it fails, with what the
stream has behind its responses. So with a peer that is honest, what is read last is what comes of
the call: its answer, and no other is read before, or else the failure, when it comes first. -/
theorem call_correlates (c : Client) (operations : List Operation) :
    (assigned (c.history operations)).Nodup ∧
    ∀ method params,
      let caller := c.performAll operations
      let id := Json.ofNat caller.nextId
      let frame := Frame.encode (Request.encode { id, method, params })
      let submitted := caller.submit method params
      let result := (caller.call method params).1
      let history := c.history (operations ++ [.call method params])
      let number := (requests (c.history operations)).length
      assigned history = assigned (c.history operations) ++ [id] ∧
      (c.breakage = none → submitted.1 = .ok id) ∧
      (∀ cause, submitted.1 = .error cause → result = .error cause ∧
        history = c.history operations ++ [.unsent id cause] ∧
        ∃ part, part <+: frame ∧ part ≠ frame ∧ submitted.2.sent = caller.sent ++ part) ∧
      ∀ sent, submitted.1 = .ok sent → sent = id ∧ submitted.2.sent = caller.sent ++ frame ∧
        (requests history)[number]? = some id ∧
        ∃ arrivals cause, Arrives caller.unread arrivals cause ∧
          (result = match arrivals.find? (·.response.id = id) with
            | some a => .ok a.response
            | none => .error cause) ∧
          ∀ about, Honest about history →
            ∃ passed unread, history = passed ++ [.read unread result] ∧
              (∀ seen r, .read seen (.ok r) ∈ passed → about seen ≠ some number) ∧
              (∀ r, result = .ok r → about unread = some number) ∧
              ∀ failure, result = .error failure ↔
                failure = cause ∧ ∀ a ∈ arrivals, about a.unread ≠ some number := by
  refine ⟨nodup_assigned c operations, ?_⟩
  intro method params caller id frame submitted result history number
  have hhistory : history = c.history operations ++ caller.events (.call method params) :=
    history_concat c operations _
  have hassigned : assigned history = assigned (c.history operations) ++ [id] := by
    rw [hhistory, assigned_append, assigned_call]
  have hunbroken (hbreaks : c.breakage = none) : submitted.1 = .ok id :=
    (submit_of_unbroken (breakage_performAll hbreaks operations) method params).1
  obtain ⟨outcome, part, breakage, hsubmit, hpart, ⟨rfl, rfl⟩ | ⟨cause, rfl, hnot⟩⟩ :=
    submit_eq caller method params
  · obtain ⟨hcall, hevents⟩ := call_of_ok hsubmit
    rw [hevents] at hhistory
    have hrequests : requests history = requests (c.history operations) ++ [id] := by
      rw [hhistory, requests_append]
      exact congrArg (requests (c.history operations) ++ id :: ·) (requests_awaitEvents ..)
    have hnodup : (requests history).Nodup :=
      (nodup_assigned c (operations ++ [.call method params])).sublist (requests_sublist _)
    refine ⟨hassigned, hunbroken, fun cause herror => ?_, fun sent hsent => ?_⟩
    · cases (congrArg Prod.fst hsubmit).symm.trans herror
    · obtain rfl := Except.ok.inj ((congrArg Prod.fst hsubmit).symm.trans hsent)
      generalize hafter : { caller with
        nextId := caller.nextId + 1, sent := caller.sent ++ frame, breakage } = after at *
      obtain ⟨arrivals, cause, harrives⟩ := exists_arrives after.unread
      have hresult : result = (after.await id).1 := congrArg Prod.fst hcall
      have hunread : after.unread = caller.unread := by rw [← hafter]
      refine ⟨rfl, ?_, hrequests ▸ List.getElem?_concat_length, arrivals, cause,
        hunread ▸ harrives, hresult.trans (await_eq_find harrives id), fun about hhonest => ?_⟩
      · exact (congrArg (·.2.sent) hsubmit).trans (by rw [← hafter])
      · rw [hhistory] at hhonest ⊢
        rw [hresult]
        exact hhonest.await (hrequests ▸ hnodup) (fun heq => nomatch heq) harrives
  · obtain ⟨hcall, hevents⟩ := call_of_error hsubmit
    rw [hevents] at hhistory
    refine ⟨hassigned, hunbroken, fun cause' herror => ?_, fun sent hsent => ?_⟩
    · obtain rfl := Except.error.inj ((congrArg Prod.fst hsubmit).symm.trans herror)
      exact ⟨congrArg Prod.fst hcall, hhistory, part, hpart, hnot, congrArg (·.2.sent) hsubmit⟩
    · cases (congrArg Prod.fst hsubmit).symm.trans hsent

example : ({ breakage := some ⟨8, .connectionClosed⟩ } : Client).submission "ping" .null =
    .unsent (.ofNat 1) .connectionClosed := by cbv

theorem receive_encode {rest : Bytes} (hid : Json.Regular (Json.maxDepth - 1) r.id)
    (hresult : ∀ value, r.outcome = .result value → Json.Regular (Json.maxDepth - 1) value)
    (hsize : r.encode.length ≤ 16 * 1024 * 1024) :
    ({ c with unread := Frame.encode r.encode ++ rest } : Client).receive =
      (.ok r, { c with unread := rest }) := by
  have hread := Frame.read_encode hsize rest
  have hparse := Response.parse_encode hid hresult
  simp only [receive, hread, hparse]

namespace Trial

/-- The answers to the second and the third request, and in between a failure to decode one. -/
def second : Response := ⟨.ofNat 2, .result .null⟩

def complaint : Response := .failure .null .transport "?"

def third : Response := ⟨.ofNat 3, .result (.boolean true)⟩

def tail : Bytes := Frame.encode third.encode

def middle : Bytes := Frame.encode complaint.encode ++ tail

def stream : Bytes := Frame.encode second.encode ++ middle

def client : Client := { unread := stream }

def sends : List Operation := [.send "ping" .null, .send "capabilities.get" .null]

def about (unread : Bytes) : Option Nat :=
  if unread = tail then some 2 else if unread = stream then some 1 else none

theorem history_call_eq : client.history (sends ++ [.call "shutdown" .null]) =
    [.sent (.ofNat 1), .sent (.ofNat 2), .sent (.ofNat 3), .read stream (.ok second),
      .read middle (.ok complaint), .read tail (.ok third)] := by
  have hwait (c : Client) (hunread : c.unread = stream) : c.awaitEvents (.ofNat 3) =
      [.read stream (.ok second), .read middle (.ok complaint), .read tail (.ok third)] := by
    have hsecond : c.receive = (.ok second, { c with unread := middle }) := by
      rw [show c = { c with unread := stream } from hunread ▸ rfl]
      refine receive_encode (by decide) (fun value h => ?_) (by decide +kernel)
      cases h
      decide
    have hcomplaint : ({ c with unread := middle } : Client).receive =
        (.ok complaint, { c with unread := tail }) :=
      receive_encode (by decide) (fun value h => nomatch h) (by decide +kernel)
    have hthird : ({ c with unread := tail } : Client).receive =
        (.ok third, { c with unread := [] }) := by
      rw [← List.append_nil tail]
      refine receive_encode (by decide) (fun value h => ?_) (by decide +kernel)
      cases h
      decide
    rw [(await_of_ok _ hsecond).2, if_neg (by decide), (await_of_ok _ hcomplaint).2,
      if_neg (by decide), (await_of_ok _ hthird).2, if_pos (by decide), hunread]
  have hsubmit : (client.performAll sends).submit "shutdown" .null =
      (.ok (.ofNat 3), ((client.performAll sends).send "shutdown" .null).2) := rfl
  rw [history_concat, (call_of_ok hsubmit).2]
  exact congrArg ([.sent (.ofNat 1), .sent (.ofNat 2), .sent (.ofNat 3)] ++ ·)
    (hwait ((client.performAll sends).send "shutdown" .null).2 rfl)

theorem honest_about : Honest about (client.history (sends ++ [.call "shutdown" .null])) := by
  have hmiddle : middle ≠ tail := by decide +kernel
  have hstream : middle ≠ stream := by decide +kernel
  have htail : stream ≠ tail := by decide +kernel
  rw [history_call_eq]
  intro n unread response hread
  match n with
  | 0 | 1 | 2 => cases hread
  | 3 =>
      cases hread
      rw [about, if_neg htail, if_pos rfl]
      rfl
  | 4 =>
      cases hread
      rw [about, if_neg hmiddle, if_neg hstream]
      rfl
  | 5 =>
      cases hread
      rw [about, if_pos rfl]
      rfl
  | _ + 6 => cases hread

end Trial

/-- A call passes over the answer to an earlier request, and over an error without an id. The answer
to the first request never comes. -/
theorem call_correlates_passes :
    let history := Trial.client.history (Trial.sends ++ [.call "shutdown" .null])
    let result := ((Trial.client.performAll Trial.sends).call "shutdown" .null).1
    Honest Trial.about history ∧ result = .ok Trial.third ∧
      ∃ passed unread, history = passed ++ [.read unread result] ∧ passed.length = 5 ∧
        Trial.about unread = some 2 := by
  intro history result
  obtain ⟨-, -, -, hsent⟩ := (call_correlates Trial.client Trial.sends).2 "shutdown" .null
  obtain ⟨-, -, -, arrivals, cause, -, -, hhonest⟩ := hsent _ rfl
  obtain ⟨passed, unread, hhistory, -, hown, -⟩ := hhonest Trial.about Trial.honest_about
  have hsame : passed ++ [.read unread result] = [_, _, _, _, _] ++ [_] :=
    hhistory.symm.trans Trial.history_call_eq
  obtain ⟨rfl, hlast⟩ := List.append_inj' hsame rfl
  have hresult : result = .ok Trial.third := by
    injection hlast with hlast
    injection hlast
  exact ⟨Trial.honest_about, hresult, _, unread, hhistory, rfl, hown _ hresult⟩

end Client

end CodeAssist
