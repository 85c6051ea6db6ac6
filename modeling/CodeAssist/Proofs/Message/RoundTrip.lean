import CodeAssist.Message.Request
import CodeAssist.Message.Response
import CodeAssist.Proofs.Json.RoundTrip

namespace CodeAssist

open Json (Cursor Ends Regular Yields joined maxDepth memberText)
open Text (Bytes octets)

/-! Requests. -/

namespace Request

theorem toJson_of_null {r : Request} (h : r.params = .null) :
    r.toJson = .object [("id", r.id), ("method", .text r.method)] := by
  rw [toJson, h]
  rfl

theorem toJson_of_params {r : Request} (h : r.params ≠ .null) :
    r.toJson = .object [("id", r.id), ("method", .text r.method), ("params", r.params)] := by
  have hnull : r.params.isNull = false := by
    cases hparams : r.params with
    | null => exact absurd hparams h
    | _ => rfl
  simp [toJson, hnull]

theorem regular_toJson {depth : Nat} {r : Request} (hid : Regular depth r.id)
    (hparams : Regular depth r.params) : Regular (depth + 1) r.toJson := by
  have hmethod : Regular depth (.text r.method) := by cases depth <;> trivial
  by_cases hnull : r.params = .null
  · rw [toJson_of_null hnull]
    have hnames : ["id", "method"].Pairwise (· < ·) := by decide
    exact ⟨List.pairwise_map.mp hnames, by simp [hid, hmethod]⟩
  · rw [toJson_of_params hnull]
    have hnames : ["id", "method", "params"].Pairwise (· < ·) := by decide
    exact ⟨List.pairwise_map.mp hnames, by simp [hid, hmethod, hparams]⟩

theorem ofJson_toJson {r : Request} (hid : r.id.normalize = r.id)
    (hparams : r.params.normalize = r.params) : ofJson r.toJson = .ok r := by
  by_cases hnull : r.params = .null
  · have hread : ofJson (.object [("id", r.id), ("method", .text r.method)]) =
        .ok ⟨r.id.normalize, r.method, .null⟩ := rfl
    rw [toJson_of_null hnull, hread, hid, ← hnull]
  · have hread : ofJson (.object [("id", r.id), ("method", .text r.method), ("params", r.params)]) =
        .ok ⟨r.id.normalize, r.method, r.params.normalize⟩ := rfl
    rw [toJson_of_params hnull, hread, hid, hparams]

theorem decode_encode {r : Request} (hid : Regular (maxDepth - 1) r.id)
    (hparams : Regular (maxDepth - 1) r.params) : decode r.encode = .ok r := by
  have hparse := Json.parse_encode (regular_toJson hid hparams)
  have htext : Text.decode? r.encode = some r.toJson.compact := Text.decode?_eq_some_iff.mpr rfl
  rw [decode, htext]
  simp only [encode, hparse, ofJson_toJson hid.normalize_eq hparams.normalize_eq]

end Request

namespace Response

def outcomeMember : Outcome → String × Json
  | .result value => ("result", value)
  | .failure kind message =>
      ("error", .object [("kind", .text kind.name), ("message", .text message)])

theorem toJson_eq (r : Response) : r.toJson = .object [("id", r.id), outcomeMember r.outcome] := by
  rw [toJson]
  cases r.outcome <;> rfl

theorem regular_outcomeMember {depth : Nat} {outcome : Outcome}
    (h : ∀ value, outcome = .result value → Regular (depth + 1) value) :
    Regular (depth + 1) (outcomeMember outcome).2 := by
  cases outcome with
  | result value => exact h value rfl
  | failure kind message =>
      have htext (s : String) : Regular depth (.text s) := by cases depth <;> trivial
      have hnames : ["kind", "message"].Pairwise (· < ·) := by decide
      exact ⟨List.pairwise_map.mp hnames, by simp [htext]⟩

theorem failureShape_ofJson (kind : FailureKind) (message : String) :
    ∃ choice, FailureKind.ofChoice choice = kind ∧
      failureShape.ofJson .part (.object [("kind", .text kind.name), ("message", .text message)]) =
        .ok (choice, message, ()) := by
  cases kind <;> exact ⟨_, rfl, rfl⟩

theorem outcomeOf_outcomeMember {outcome : Outcome}
    (h : ∀ value, outcome = .result value → value.normalize = value) :
    outcomeOf [outcomeMember outcome] = .ok outcome := by
  cases outcome with
  | result value => simp [outcomeOf, outcomeMember, h value rfl]
  | failure kind message =>
      obtain ⟨choice, hchoice, hshape⟩ := failureShape_ofJson kind message
      simp [outcomeOf, outcomeMember, hshape, hchoice, bind, Except.bind]

variable {outcome : Outcome} {j : Json} {rest : Bytes}

theorem readPart_id (hj : Regular (maxDepth - 1) j) (hrest : Ends rest) (line column : Nat) :
    Yields (readPart "id" ⟨58 :: (octets j.render ++ rest), line, column⟩ {})
      { id := some j } rest := by
  rw [readPart, Json.readColon_eq]
  refine (Json.reads_readValue _ j hj rest hrest line (column + 1)).bind fun line column => ?_
  simp only [hj.normalize_eq]
  exact .ok ..

theorem readPart_outcome (parts : Parts) (hj : Regular (maxDepth - 1) (outcomeMember outcome).2)
    (hrest : Ends rest) (line column : Nat) :
    Yields (readPart (outcomeMember outcome).1
        ⟨58 :: (octets (outcomeMember outcome).2.render ++ rest), line, column⟩ parts)
      { parts with members := outcomeMember outcome :: parts.members } rest := by
  have hname : ((outcomeMember outcome).1 == "id") = false := by cases outcome <;> rfl
  simp only [readPart, hname, Json.readColon_eq, Bool.false_and]
  refine (Json.reads_readValue _ _ hj rest hrest line (column + 1)).bind fun line column => ?_
  exact .ok ..

theorem readMembers_readPart {r : Response} (hid : Regular (maxDepth - 1) r.id)
    (houtcome : Regular (maxDepth - 1) (outcomeMember r.outcome).2) (fuel line column : Nat) :
    Yields (Json.readMembers readPart (fuel + 3) true {}
        ⟨joined memberText true [("id", r.id), outcomeMember r.outcome] ++ [125], line, column⟩)
      { id := some r.id, members := [outcomeMember r.outcome] } [125] := by
  have hbehind : Ends (joined memberText false [outcomeMember r.outcome] ++ [125]) :=
    fun _ h => .inl (Option.some.inj h).symm
  have hclose : Ends [125] := fun _ h => .inr (.inr (Option.some.inj h).symm)
  have hlast (line column : Nat) : Yields (Json.readMembers readPart (fuel + 2) false
      { id := some r.id } ⟨joined memberText false [outcomeMember r.outcome] ++ [125], line, column⟩)
      { id := some r.id, members := [outcomeMember r.outcome] } [125] := by
    have hread := Json.readMembers_cons (readPart_outcome { id := some r.id } houtcome hclose)
      (Json.readMembers_end fuel false _) false line column
    simpa only [joined, memberText, List.append_assoc, List.cons_append, List.nil_append] using hread
  have hread := Json.readMembers_cons (readPart_id hid hbehind) hlast true line column
  simpa only [joined, memberText, List.append_assoc, List.cons_append, List.nil_append] using hread

theorem parse_encode {r : Response} (hid : Regular (maxDepth - 1) r.id)
    (hresult : ∀ value, r.outcome = .result value → Regular (maxDepth - 1) value) :
    parse r.encode = .ok r := by
  have houtcome : Regular (maxDepth - 1) (outcomeMember r.outcome).2 := regular_outcomeMember hresult
  have htext : r.encode =
      123 :: (joined memberText true [("id", r.id), outcomeMember r.outcome] ++ [125]) := by
    rw [encode, toJson_eq, Json.encode_eq, Json.octets_render_object]
  have hstart : Cursor.start r.encode =
      ⟨123 :: (joined memberText true [("id", r.id), outcomeMember r.outcome] ++ [125]), 1, 0⟩ := by
    rw [htext]
    rfl
  have hlook : Json.lookAhead (.start r.encode) = .ok (123, .start r.encode) := by
    rw [hstart]
    rfl
  obtain ⟨fuel, hfuel⟩ : ∃ fuel, Cursor.fuel (.start r.encode) = fuel + 3 := by
    have hlength := Json.length_le_members [("id", r.id), outcomeMember r.outcome]
    refine ⟨_, (Nat.sub_add_cancel ?_).symm⟩
    simp only [hstart, Cursor.fuel, List.length_cons, List.length_append, List.length_nil] at hlength ⊢
    omega
  have hparts : ofParts { id := some r.id, members := [outcomeMember r.outcome] } = .ok r := by
    have hnormal := outcomeOf_outcomeMember fun value h => (hresult value h).normalize_eq
    simp [ofParts, hnormal, bind, Except.bind]
  refine Json.readAll_of_yields ?_
  rw [scan, hlook]
  change Yields (Json.readMembers readPart (Cursor.fuel (.start r.encode)) true {}
    (Cursor.start r.encode).bump >>= _) r []
  rw [hfuel, hstart, Cursor.bump_eq (by decide)]
  refine (readMembers_readPart hid houtcome fuel 1 1).bind fun line column => ?_
  simp only [hparts, Cursor.bump_eq (show (125 : UInt8) ≠ 10 by decide)]
  exact .ok ..

end Response

/-- Whatever is sent is received: a request and a response come back from their texts as they were.
Null params are left out of the text. -/
theorem messages_round_trip :
    (∀ r : Request, Regular (maxDepth - 1) r.id → Regular (maxDepth - 1) r.params →
      Request.decode r.encode = .ok r ∧
        (r.params = .null → r.toJson = .object [("id", r.id), ("method", .text r.method)])) ∧
    ∀ r : Response, Regular (maxDepth - 1) r.id →
      (∀ value, r.outcome = .result value → Regular (maxDepth - 1) value) →
      Response.parse r.encode = .ok r := by
  constructor
  · intro r hid hparams
    exact ⟨Request.decode_encode hid hparams, Request.toJson_of_null⟩
  · intro r hid hresult
    exact Response.parse_encode hid hresult

theorem messages_round_trip_hard :
    let params : Json := .object
      [("\x00\"\\", .list [.number (.integer (-2 ^ 63)), .number (.integer (2 ^ 64 - 1)), .null]),
        ("é😀", .object [("", .text "\x1f\r\n\x7f"), ("a", .list [])])]
    Regular (maxDepth - 1) params ∧
      Request.decode (Request.encode ⟨.text "7", "echo", params⟩) = .ok ⟨.text "7", "echo", params⟩ ∧
      Response.parse (Response.encode ⟨params, .result .null⟩) = .ok ⟨params, .result .null⟩ := by
  intro params
  have hparams : Regular (maxDepth - 1) params := by decide +kernel
  have hid : Regular (maxDepth - 1) (.text "7") := by decide
  refine ⟨hparams, (messages_round_trip.1 _ hid hparams).1,
    messages_round_trip.2 _ hparams fun value h => ?_⟩
  cases h
  decide

end CodeAssist
