import CodeAssist.Client
import CodeAssist.Proofs.Engine.OneResponse
import CodeAssist.Proofs.Frame.RoundTrip
import CodeAssist.Proofs.Message.RoundTrip

namespace CodeAssist

open Json (Regular joined maxDepth memberText quotation)
open Text (Bytes octets)

/-! Frames that are written and too long to be read. -/

namespace Frame

variable {line rest body : Bytes} {length : Option Nat} {inFrame : Bool}

theorem isPartialFrame_line (h : IsLine line rest) (hends : line.getLast? = some lf) :
    isPartialFrame inFrame length (line ++ rest) =
      isPartialBehind inFrame length rest (readHeader line) := by
  obtain ⟨b, tail, heq⟩ := exists_cons_of_isLine h
  have hsplit := splitLine_of_isLine h
  have hwhole : isPartialLine line = false := by simp [isPartialLine, hends]
  have hpartial := isPartialFrame.eq_2 inFrame length b tail
  rw [← heq, hsplit] at hpartial
  simp only [hwhole] at hpartial
  exact hpartial

theorem isPartial_encode (hbody : body.length ≤ 16 * 1024 * 1024) :
    isPartial (encode body) = false := by
  have hheader : (headerLine body.length).getLast? = some lf := by
    rw [headerLine_eq, List.getLast?_append]
    rfl
  have hsays := headerLine_means_length (lt_size_of_le hbody)
  rw [isPartial, encode_eq_lines, isPartialFrame_line (isLine_headerLine _ _) hheader,
    readHeader_eq_ok_iff.mpr hsays]
  have hbreak : isPartialFrame true (some body.length) (Break.crlf.octets ++ body) =
      isPartialBody (some body.length) body := by
    rw [isPartialFrame_line (Break.crlf.isLine body) rfl,
      readHeader_eq_ok_iff.mpr Break.crlf.isBlank]
    rfl
  simp [isPartialBehind, hbreak, isPartialBody]

theorem read_encode_of_long (hlong : 16 * 1024 * 1024 < body.length)
    (hsize : body.length < UInt64.size) (rest : Bytes) :
    read (encode body ++ rest) = .failed (.frameTooLarge body.length) (body ++ rest) := by
  rw [read_encode_eq hsize, takeBody]
  exact if_pos hlong

/-- Where a long line without an end is left over, no frame can be told. -/
theorem read_of_long_line (hlong : 1024 < body.length) (hline : lf ∉ body) (rest : Bytes) :
    ∃ behind, read (body ++ rest) =
      .failed (.invalidHeader "header line longer than 1024 bytes") behind := by
  have hne : body ≠ [] := by
    rintro rfl
    exact absurd hlong (by decide)
  obtain ⟨line, behind, hline', heq, hle⟩ := (IsLine.last hne hline).lengthen rest
  refine ⟨behindLine (line ++ behind), ?_⟩
  rw [List.append_nil] at heq
  rw [heq, read_line hline', readHeader_of_long (Nat.lt_of_lt_of_le hlong hle)]
  rfl

end Frame

theorem Json.length_quotation_append (s t : String) :
    (quotation (s ++ t)).length + 1 = (quotation s).length + (quotation t).length := by
  simp only [quotation, String.toList_append, List.flatMap_append, Text.octets_append,
    List.length_append, List.length_cons, List.length_nil]
  omega

def Request.unsupported (r : Request) : Response :=
  .failure r.id .unsupportedMethod ("unsupported method: " ++ r.method)

theorem Json.length_member (name : String) (j : Json) :
    (memberText (name, j)).length = (quotation name).length + (octets j.render).length + 2 := by
  simp only [memberText, List.length_cons, List.length_append]
  omega

theorem Json.length_pair (a b : String × Json) :
    (octets (render (.object [a, b]))).length = (memberText a).length + (memberText b).length + 3 := by
  simp only [octets_render_object, joined, divider, List.length_cons, List.length_append,
    List.length_nil, if_true, List.nil_append, List.append_nil]
  simp
  omega

theorem Json.length_text (s : String) :
    (octets (render (.text s))).length = (quotation s).length + 1 := by
  rw [render, octets_renderText, List.length_cons]

theorem Request.length_unsupported (r : Request) :
    r.unsupported.encode.length = (encode { r with params := .null }).length + 58 := by
  have hrequest : encode { r with params := .null } =
      octets (Json.render (.object [("id", r.id), ("method", .text r.method)])) := by
    rw [encode, toJson_of_null rfl, Json.encode_eq]
  have hresponse : r.unsupported.encode = octets (Json.render (.object [("id", r.id), ("error",
      .object [("kind", .text "UnsupportedMethod"),
        ("message", .text ("unsupported method: " ++ r.method))])])) := Json.encode_eq _
  have hmessage := Json.length_quotation_append "unsupported method: " r.method
  have hid : (quotation "id").length = 3 := by decide
  have hmethod : (quotation "method").length = 7 := by decide
  have herror : (quotation "error").length = 6 := by decide
  have hkind : (quotation "kind").length = 5 := by decide
  have hname : (quotation "UnsupportedMethod").length = 18 := by decide
  have htext : (quotation "message").length = 8 := by decide
  have hwords : (quotation "unsupported method: ").length = 21 := by decide
  simp only [hrequest, hresponse, Json.length_pair, Json.length_member, Json.length_text]
  omega

theorem Call.ofRequest_unknown {method : String} (h : ∀ call : Call, call.method ≠ method)
    (params : Json) : ofRequest method params = .error (.unsupportedMethod method) := by
  unfold ofRequest
  split
  · exact absurd rfl (h (.ping .null))
  · exact absurd rfl (h .shutdown)
  · exact absurd rfl (h (.environmentSet ⟨none, false, none⟩))
  · exact absurd rfl (h (.workspaceSet ⟨⟨""⟩⟩))
  · exact absurd rfl (h .capabilities)
  · exact absurd rfl (h (.completion ⟨⟨""⟩, "", 0⟩))
  · exact absurd rfl (h (.hover ⟨⟨""⟩, "", 0⟩))
  · exact absurd rfl (h (.format ⟨⟨""⟩, "", false⟩))
  · exact absurd rfl (h (.diagnostics ⟨⟨""⟩, ""⟩))
  · rfl

namespace Engine

variable {e : Engine} {k : Nat} {l : Link} {r : Request}

theorem exists_sent (halive : e.exited = false) (hl : e.link? k = some l)
    (hopen : l.peerDone = false) (octets : Bytes) :
    ∃ e', e.step? (.send k octets) = some e' ∧ e'.exited = false ∧ e'.router = e.router ∧
      e'.link? k = some { l with unread := l.unread ++ octets } := by
  refine ⟨e.put k { l with unread := l.unread ++ octets }, ?_, halive, rfl, link?_put_self ..⟩
  simp [step?, stepAlive?, halive, hl, hopen]

theorem exists_request_read (halive : e.exited = false) (hl : e.link? k = some l)
    (hreads : l.reads = true) (hsize : r.encode.length ≤ 16 * 1024 * 1024)
    (hunread : l.unread = Frame.encode r.encode) (hdecode : Request.decode r.encode = .ok r) :
    ∃ e', e.step? (.read k) = some e' ∧ e'.exited = false ∧
      e.router.step? (.arrive r true) = some e'.router ∧ e'.link? k =
        some { l with unread := [], awaited := l.awaited ++ [e.router.nextArrival] } := by
  have hread : Frame.read (Frame.encode r.encode) = .body r.encode [] := by
    have hread := Frame.read_encode hsize []
    rwa [List.append_nil] at hread
  have hnext : Incoming.next l.unread = .frame (.request r) [] := by
    simp only [hunread, Incoming.next, hread, Incoming.ofBody, hdecode]
  have hpartial : Frame.isPartial l.unread = false := hunread ▸ Frame.isPartial_encode hsize
  obtain ⟨router, harrive⟩ : ∃ router, e.router.step? (.arrive r true) = some router := ⟨_, rfl⟩
  refine ⟨{ e with router }.put k
    { l with unread := [], awaited := l.awaited ++ [e.router.nextArrival] }, ?_, halive, harrive,
    link?_put_self ..⟩
  simp [step?, stepAlive?, halive, hl, hreads, readFrom, hpartial, hnext, harrive]

theorem exists_routed {event : CodeAssist.Event} {router : Router} (halive : e.exited = false)
    (hstep : e.router.step? event = some router) :
    ∃ e', e.step? (.router event) = some e' ∧ e'.exited = false ∧ e'.router = router ∧
      e'.link? k = e.link? k := by
  refine ⟨{ e with router }, ?_, halive, rfl, rfl⟩
  simp [step?, stepAlive?, halive, hstep]

theorem exists_written {n : Nat} {response : Response} (halive : e.exited = false)
    (hl : e.link? k = some l) (hresponse : e.router.response? n = some response)
    (hn : n ∈ l.awaited) :
    ∃ e', e.step? (.write k n) = some e' ∧ e'.link? k =
      some { l with awaited := l.awaited.erase n, written := l.written ++ [response] } := by
  refine ⟨e.put k { l with awaited := l.awaited.erase n, written := l.written ++ [response] }, ?_,
    link?_put_self ..⟩
  simp [step?, stepAlive?, halive, hl, hresponse, hn]

/-- A request for something unknown ends as soon as it is looked at. -/
theorem response?_unknown {router arrived : Router} (hready : router.lifecycle.isReady)
    (hmethod : ∀ call : Call, call.method ≠ r.method)
    (harrive : router.step? (.arrive r true) = some arrived) :
    ∃ dispatched, arrived.step? (.dispatch router.nextArrival) = some dispatched ∧
      dispatched.response? router.nextArrival = some r.unsupported := by
  have hreceived : arrived.received? router.nextArrival = some { request := r, tracked := true } := by
    cases harrive
    exact Table.lookup_put_self ..
  have hlifecycle : arrived.lifecycle.isReady := by
    cases harrive
    exact hready
  have hdispatch : arrived.dispatch router.nextArrival r =
      arrived.finish router.nextArrival (.error (.unsupportedMethod r.method)) := by
    simp [Router.dispatch, hlifecycle, Call.ofRequest_unknown hmethod]
  refine ⟨_, by rw [Router.step?, hreceived], ?_⟩
  rw [hdispatch, Router.response?, Router.finish, Router.received?_put_self hreceived]
  rfl

theorem exists_run_unknown (halive : e.exited = false) (hl : e.link? k = some l)
    (hreads : l.reads = true) (hopen : l.peerDone = false) (hunread : l.unread = [])
    (hready : e.router.lifecycle.isReady) (hid : Regular (maxDepth - 1) r.id)
    (hparams : Regular (maxDepth - 1) r.params) (hmethod : ∀ call : Call, call.method ≠ r.method)
    (hsize : r.encode.length ≤ 16 * 1024 * 1024) :
    ∃ history e' l', e.Run history e' ∧ sent history k = Frame.encode r.encode ∧
      e'.link? k = some l' ∧ l'.written = l.written ++ [r.unsupported] := by
  have hdecode : Request.decode r.encode = .ok r := Request.decode_encode hid hparams
  obtain ⟨e₁, hsend, halive₁, hrouter₁, hl₁⟩ := exists_sent halive hl hopen (Frame.encode r.encode)
  obtain ⟨e₂, hread, halive₂, harrive, hl₂⟩ := exists_request_read halive₁ hl₁ hreads hsize
    (by rw [hunread, List.nil_append]) hdecode
  rw [hrouter₁] at harrive hl₂
  obtain ⟨router, hdispatch, hresponse⟩ := response?_unknown hready hmethod harrive
  obtain ⟨e₃, hroute, halive₃, rfl, hl₃⟩ := exists_routed (k := k) halive₂ hdispatch
  obtain ⟨e₄, hwrite, hl₄⟩ := exists_written halive₃ (hl₃.trans hl₂) hresponse (by simp)
  refine ⟨_, e₄, _, .step (.step (.step (.step .none hsend) hread) hroute) hwrite, ?_, hl₄, rfl⟩
  simp [sent, Moment.sentTo]

end Engine

namespace Client

variable {c : Client} {response : Response} {rest : Bytes}

theorem receive_eq (hunread : c.unread = Frame.encode response.encode ++ rest)
    (hsize : response.encode.length ≤ 16 * 1024 * 1024)
    (hparse : Response.parse response.encode = .ok response) :
    c.receive = (.ok response, { c with unread := rest }) := by
  simp only [receive, hunread, Frame.read_encode hsize rest, hparse]

/-- A response that is too long is not read, and nothing behind it is. -/
theorem receive_of_long (hunread : c.unread = Frame.encode response.encode ++ rest)
    (hlong : 16 * 1024 * 1024 < response.encode.length)
    (hsize : response.encode.length < UInt64.size) (hline : 10 ∉ response.encode) :
    ∃ c', c.receive = (.error (.frameTooLarge response.encode.length), c') ∧
      c'.receive.1 = .error (.invalidHeader "header line longer than 1024 bytes") := by
  refine ⟨{ c with unread := response.encode ++ rest }, ?_, ?_⟩
  · simp only [receive, hunread, Frame.read_encode_of_long hlong hsize rest]
  · have hfar : 1024 < response.encode.length := Nat.lt_trans (by decide) hlong
    obtain ⟨behind, hread⟩ := Frame.read_of_long_line hfar hline rest
    simp only [receive, hread]

end Client

namespace Engine

theorem lf_not_mem_response {response : Response} (hid : Regular (maxDepth - 1) response.id)
    (hresult : ∀ value, response.outcome = .result value → Regular (maxDepth - 1) value) :
    10 ∉ response.encode := by
  have hvalue : Regular (maxDepth - 1) (Response.outcomeMember response.outcome).2 :=
    Response.regular_outcomeMember hresult
  rw [Response.encode, Response.toJson_eq, Json.encode_eq]
  refine Json.lf_not_mem_object fun member hmember => ?_
  obtain rfl | hlast := List.mem_cons.mp hmember
  · exact hid.lf_not_mem
  · rw [List.mem_singleton.mp hlast]
    exact hvalue.lf_not_mem

theorem length_encode_letters (n : Nat) :
    (Request.encode ⟨.null, String.ofList (List.replicate n 'a'), .null⟩).length = n + 23 := by
  have hletters : ((List.replicate n 'a').flatMap Json.escape) = List.replicate n 'a' := by
    induction n with
    | zero => rfl
    | succ n ih =>
        rw [List.replicate_succ, List.flatMap_cons, ih]
        rfl
  have hoctets : (octets (List.replicate n 'a')).length = n := by
    rw [Text.octets_ascii fun c hc => List.eq_of_mem_replicate hc ▸ rfl, List.length_map,
      List.length_replicate]
  have hmethod : (quotation (String.ofList (List.replicate n 'a'))).length = n + 1 := by
    rw [quotation, String.toList_ofList, hletters, List.length_append, hoctets]
    rfl
  have hid : (quotation "id").length = 3 := by decide
  have hname : (quotation "method").length = 7 := by decide
  have hnull : (octets (Json.render .null)).length = 4 := by decide
  rw [Request.encode, Request.toJson_of_null rfl, Json.encode_eq, Json.length_pair,
    Json.length_member, Json.length_member, Json.length_text, hmethod, hid, hname, hnull]
  omega

/-- An engine that is ready answers every request for something unknown with a response that is 58
octets longer than the request without its params. A client gets a response, whatever it answers, if
that is no longer than a frame may be. Else it gets neither this response nor any behind it. -/
theorem unsupported_outgrows_frame (e : Engine) {k : Nat} {l : Link} (halive : e.exited = false)
    (hl : e.link? k = some l) (hreads : l.reads = true) (hopen : l.peerDone = false)
    (hunread : l.unread = []) (hready : e.router.lifecycle.isReady) {r : Request}
    (hid : Regular (maxDepth - 1) r.id) (hparams : Regular (maxDepth - 1) r.params)
    (hmethod : ∀ call : Call, call.method ≠ r.method) (hsize : r.encode.length ≤ 16 * 1024 * 1024) :
    (∃ history e' l', e.Run history e' ∧ sent history k = Frame.encode r.encode ∧
      e'.link? k = some l' ∧ l'.written = l.written ++ [r.unsupported]) ∧
    r.unsupported.encode.length = (Request.encode { r with params := .null }).length + 58 ∧
    ∀ response : Response, Regular (maxDepth - 1) response.id →
      (∀ value, response.outcome = .result value → Regular (maxDepth - 1) value) →
      ∀ (c : Client) (rest : Bytes), c.unread = Frame.encode response.encode ++ rest →
        (response.encode.length ≤ 16 * 1024 * 1024 →
          c.receive = (.ok response, { c with unread := rest })) ∧
        (16 * 1024 * 1024 < response.encode.length → response.encode.length < UInt64.size →
          ∃ c', c.receive = (.error (.frameTooLarge response.encode.length), c') ∧
            c'.receive.1 = .error (.invalidHeader "header line longer than 1024 bytes")) := by
  refine ⟨exists_run_unknown halive hl hreads hopen hunread hready hid hparams hmethod hsize,
    r.length_unsupported, fun response hid' hresult c rest hc =>
      ⟨fun hfits => ?_, fun hlong hbound => ?_⟩⟩
  · exact Client.receive_eq hc hfits (Response.parse_encode hid' hresult)
  · exact Client.receive_of_long hc hlong hbound (lf_not_mem_response hid' hresult)

/-- The longest request that can be read, on the first connection of an engine. -/
theorem unsupported_outgrows_frame_longest :
    let r : Request := ⟨.null, String.ofList (List.replicate 16777193 'a'), .null⟩
    let e := ((fresh Router.Trial.start).play [.connect]).2
    r.encode.length = 16 * 1024 * 1024 ∧ ∃ history e' l', e.Run history e' ∧
      sent history 1 = Frame.encode r.encode ∧ e'.link? 1 = some l' ∧
      ({ unread := l'.output } : Client).receive.1 = .error (.frameTooLarge 16777274) := by
  intro r e
  have hsize : r.encode.length = 16 * 1024 * 1024 := length_encode_letters 16777193
  have hmethod (call : Call) : call.method ≠ r.method := by
    intro heq
    have hlong : r.method.length = 16777193 := by
      rw [String.length_ofList, List.length_replicate]
    have hshort : call.method.length ≤ 15 := by cases call <;> (rw [Call.method]; decide)
    rw [heq, hlong] at hshort
    exact absurd hshort (by decide)
  obtain ⟨⟨history, e', l', hrun, hsent, hl', hwritten⟩, hlength, hreceive⟩ :=
    unsupported_outgrows_frame e (k := 1) (l := {}) rfl rfl rfl rfl rfl rfl (r := r) (by decide)
      (by decide) hmethod (Nat.le_of_eq hsize)
  refine ⟨hsize, history, e', l', hrun, hsent, hl', ?_⟩
  have houtput : l'.output = Frame.encode r.unsupported.encode ++ [] := by
    rw [Link.output, hwritten]
    rfl
  have hexact : r.unsupported.encode.length = 16777274 := hlength.trans (congrArg (· + 58) hsize)
  have hnone (value : Json) (h : r.unsupported.outcome = .result value) :
      Json.Regular (Json.maxDepth - 1) value := by cases h
  obtain ⟨c, hfirst, -⟩ := (hreceive r.unsupported (by decide) hnone
    { unread := l'.output } [] houtput).2 (by rw [hexact]; decide) (by rw [hexact]; decide)
  rw [hfirst, hexact]

end Engine

end CodeAssist
