import CodeAssist.Message.Request
import CodeAssist.Proofs.Json.Record

namespace CodeAssist

open Json (Fields Shape Source)
open Text (Bytes)

namespace Json

/-- The value of an object's member, the last one of its name, and null if there is none. -/
def member (name : String) (j : Json) : Json := ((j.last? name).map normalize).getD .null

theorem member_eq (name : String) (j : Json) : j.member name = (j.normalize.get? name).getD .null := by
  rw [member, get?_normalize]

end Json

namespace Request

/-- The body is a JSON document in UTF-8. -/
structure Holds (body : Bytes) (document : Json) : Prop where
  utf8 : (Text.decode? body).isSome
  read : Json.read body = .ok document

/-- The request that a document stands for: an object with a method, or a list of the id, the method
and the params, which may be left out. -/
inductive Stated : Json → Request → Prop
  | object {members : List (String × Json)} {method : String}
      (hmethod : (Json.object members).last? "method" = some (.text method)) :
      Stated (.object members)
        ⟨(Json.object members).member "id", method, (Json.object members).member "params"⟩
  | pair (id : Json) (method : String) : Stated (.list [id, .text method]) ⟨id.normalize, method, .null⟩
  | triple (id : Json) (method : String) (params : Json) :
      Stated (.list [id, .text method, params]) ⟨id.normalize, method, params.normalize⟩

def carriedId : Except (Json × TransportFailure) Request → Json
  | .ok request => request.id
  | .error (id, _) => id

abbrev names : List String := ["id", "method", "params"]

theorem ofJson_iff {j : Json} {r : Request} :
    ofJson j = .ok r ↔ j.IsRecord names ∧ j.given? names "method" = some (.text r.method) ∧
      r.id = ((j.given? names "id").map Json.normalize).getD .null ∧
      r.params = ((j.given? names "params").map Json.normalize).getD .null := by
  rw [ofJson, Json.record_bind_iff (by decide) (by decide)]
  refine and_congr_right fun _ => ⟨?_, ?_⟩
  · rintro ⟨⟨id, method, params, ⟨⟩⟩, ⟨hid, hmethod, hparams, -⟩, heq⟩
    cases heq
    exact ⟨Shape.taken_text_iff.mp hmethod, congrArg (·.getD .null) (Shape.taken_any_iff.mp hid),
      congrArg (·.getD .null) (Shape.taken_any_iff.mp hparams)⟩
  · obtain ⟨id, method, params⟩ := r
    rintro ⟨hmethod, rfl, rfl⟩
    exact ⟨(_, method, _, ()), ⟨Shape.taken_any_iff.mpr rfl, Shape.taken_text_iff.mpr hmethod,
      Shape.taken_any_iff.mpr rfl, trivial⟩, rfl⟩

theorem isRecord_normalize_object (members : List (String × Json)) :
    (Json.object members).normalize.IsRecord names :=
  (Json.nodup_names_sortMembers (Json.normalizeMembers members)).filter _

theorem given?_normalize_object (name : String) (members : List (String × Json)) :
    (Json.object members).normalize.given? names name =
      ((Json.object members).last? name).map Json.normalize :=
  Json.get?_normalize name (.object members)

theorem given?_normalize_list (name : String) (items : List Json) :
    (Json.list items).normalize.given? names name =
      items[names.idxOf name]?.map Json.normalize := by
  rw [Json.normalize, Json.given?, Json.normalizeList_eq_map, List.getElem?_map]

theorem map_normalize_eq_text_iff {given : Option Json} {s : String} :
    given.map Json.normalize = some (.text s) ↔ given = some (.text s) := by
  cases given <;> simp [Json.normalize_eq_text_iff]

theorem map_normalize_normalize (given : Option Json) :
    (given.map Json.normalize).map Json.normalize = given.map Json.normalize := by
  cases given <;> simp [Json.normalize_normalize]

/-- A document is decoded to the request that it stands for. -/
theorem ofJson_normalize_iff {document : Json} {r : Request} :
    ofJson document.normalize = .ok r ↔ Stated document r := by
  rw [ofJson_iff]
  obtain ⟨id, method, params⟩ := r
  cases document with
  | object members =>
      simp only [given?_normalize_object, map_normalize_eq_text_iff, map_normalize_normalize]
      constructor
      · rintro ⟨-, hmethod, rfl, rfl⟩
        exact .object hmethod
      · rintro ⟨hmethod⟩
        exact ⟨isRecord_normalize_object members, hmethod, rfl, rfl⟩
  | list items =>
      simp only [given?_normalize_list, map_normalize_eq_text_iff, map_normalize_normalize]
      constructor
      · rintro ⟨hlength, hmethod, rfl, rfl⟩
        match items, hlength, hmethod with
        | [id, _], _, hmethod =>
            cases hmethod
            exact .pair id method
        | [id, _, params], _, hmethod =>
            cases hmethod
            exact .triple id method params
      · intro hstated
        cases hstated with
        | pair => exact ⟨Nat.le_succ 2, rfl, rfl, rfl⟩
        | triple => exact ⟨Nat.le_refl 3, rfl, rfl, rfl⟩
  | _ =>
      constructor
      · rintro ⟨hrecord, -⟩
        exact hrecord.elim
      · nofun

section decode

variable {body : Bytes} {document : Json}

theorem decode_of_not_utf8 (h : Text.decode? body = none) :
    decode body = .error (.null, .invalidUtf8) := by
  unfold decode
  rw [h]

theorem decode_of_fault {e : Json.ReadError} (hutf8 : (Text.decode? body).isSome)
    (hread : Json.read body = .error e) :
    decode body = .error (.null, .undecodable e.message) := by
  obtain ⟨text, htext⟩ := Option.isSome_iff_exists.mp hutf8
  unfold decode
  simp only [htext, Json.parse_eq, hread]
  rfl

theorem decode_of_holds (h : Holds body document) :
    decode body = (ofJson document.normalize).mapError fun cause =>
      (document.member "id", .undecodable cause.message) := by
  obtain ⟨text, htext⟩ := Option.isSome_iff_exists.mp h.utf8
  unfold decode
  simp only [htext, Json.parse_eq, h.read, Json.member_eq, Except.map]
  cases ofJson document.normalize <;> rfl

theorem Holds.unique {other : Json} (h : Holds body document) (hother : Holds body other) :
    other = document := Except.ok.inj (hother.read.symm.trans h.read)

theorem not_utf8_or_fault_or_holds (body : Bytes) : Text.decode? body = none ∨
    (∃ e, (Text.decode? body).isSome ∧ Json.read body = .error e) ∨
      ∃ document, Holds body document := by
  cases htext : Text.decode? body with
  | none => exact .inl rfl
  | some text =>
      right
      cases hread : Json.read body with
      | error e => exact .inl ⟨e, rfl, rfl⟩
      | ok document => exact .inr ⟨document, by rw [htext]; rfl, hread⟩

theorem decode_eq_ok_iff {r : Request} :
    decode body = .ok r ↔ ∃ document, Holds body document ∧ Stated document r := by
  obtain hutf8 | ⟨e, hutf8, hread⟩ | ⟨document, hholds⟩ := not_utf8_or_fault_or_holds body
  · rw [decode_of_not_utf8 hutf8]
    refine ⟨nofun, fun ⟨_, hholds, _⟩ => ?_⟩
    exact absurd hholds.utf8 (by rw [hutf8]; nofun)
  · rw [decode_of_fault hutf8 hread]
    exact ⟨nofun, fun ⟨_, hholds, _⟩ => nomatch hread.symm.trans hholds.read⟩
  · rw [decode_of_holds hholds]
    constructor
    · intro h
      refine ⟨document, hholds, ofJson_normalize_iff.mp ?_⟩
      cases hjson : ofJson document.normalize with
      | error => rw [hjson] at h; cases h
      | ok request => rw [hjson] at h; cases h; rfl
    · rintro ⟨other, hother, hstated⟩
      rw [hholds.unique hother] at hstated
      rw [ofJson_normalize_iff.mpr hstated]
      rfl

theorem decode_eq_error {id : Json} {cause : TransportFailure}
    (h : decode body = .error (id, cause)) :
    cause = .invalidUtf8 ∧ id = .null ∧ Text.decode? body = none ∨
      (∃ reason, cause = .undecodable reason) ∧ (Text.decode? body).isSome ∧
        (id = .null ∧ (∀ document, ¬Holds body document) ∨
          ∃ document, Holds body document ∧ id = document.member "id") := by
  obtain hutf8 | ⟨e, hutf8, hread⟩ | ⟨document, hholds⟩ := not_utf8_or_fault_or_holds body
  · cases (decode_of_not_utf8 hutf8).symm.trans h
    exact .inl ⟨rfl, rfl, hutf8⟩
  · cases (decode_of_fault hutf8 hread).symm.trans h
    refine .inr ⟨⟨_, rfl⟩, hutf8, .inl ⟨rfl, fun _ hholds => ?_⟩⟩
    cases hread.symm.trans hholds.read
  · rw [decode_of_holds hholds] at h
    cases hjson : ofJson document.normalize with
    | ok request => rw [hjson] at h; cases h
    | error mismatch =>
        rw [hjson] at h
        cases h
        exact .inr ⟨⟨_, rfl⟩, hholds.utf8, .inr ⟨document, hholds, rfl⟩⟩

end decode

/-- A body is decoded if and only if it is a JSON document in UTF-8 that stands for a request: an
object with a method that is a text, or a list of an id, such a method and perhaps params. It is
refused as not being UTF-8 if and only if it is not. If it holds an object, the outcome carries the id
of that, the last one if there are several, whether it is decoded or not. A body that is refused and
holds no object carries null. -/
theorem decode_exact (body : Bytes) :
    (∀ r, decode body = .ok r ↔ ∃ document, Holds body document ∧ Stated document r) ∧
    ((∃ id, decode body = .error (id, .invalidUtf8)) ↔ Text.decode? body = none) ∧
    (∀ id cause, decode body = .error (id, cause) →
      cause = .invalidUtf8 ∨ ∃ reason, cause = .undecodable reason) ∧
    (∀ members, Holds body (.object members) →
      carriedId (decode body) = (Json.object members).member "id") ∧
    (∀ id cause, decode body = .error (id, cause) → (∀ members, ¬Holds body (.object members)) →
      id = .null) := by
  refine ⟨fun r => decode_eq_ok_iff, ⟨fun ⟨id, h⟩ => ?_, fun h => ⟨_, decode_of_not_utf8 h⟩⟩,
    fun id cause h => ?_, fun members hholds => ?_, fun id cause h hnone => ?_⟩
  · obtain ⟨-, -, hutf8⟩ | ⟨⟨_, hcause⟩, -⟩ := decode_eq_error h
    · exact hutf8
    · cases hcause
  · obtain ⟨hcause, -⟩ | ⟨hcause, -⟩ := decode_eq_error h
    · exact .inl hcause
    · exact .inr hcause
  · cases hdecode : decode body with
    | ok r =>
        obtain ⟨other, hother, hstated⟩ := decode_eq_ok_iff.mp hdecode
        rw [hholds.unique hother] at hstated
        cases hstated
        rfl
    | error failure =>
        obtain ⟨id, cause⟩ := failure
        obtain ⟨-, -, hutf8⟩ | ⟨-, -, ⟨-, hnone⟩ | ⟨other, hother, hid⟩⟩ := decode_eq_error hdecode
        · exact absurd hholds.utf8 (by rw [hutf8]; nofun)
        · exact absurd hholds (hnone _)
        · rw [carriedId, hid, hholds.unique hother]
  · obtain ⟨-, hid, -⟩ | ⟨-, -, ⟨hid, -⟩ | ⟨document, hholds, hid⟩⟩ := decode_eq_error h
    · exact hid
    · exact hid
    · cases document with
      | object members => exact absurd hholds (hnone members)
      | _ => exact hid

/-- The method is no text, and the id is given twice. -/
theorem decode_exact_repeated_id :
    let body := Text.encode "\x7b\"id\":1,\"method\":[],\"id\":\x7b\"b\":2,\"a\":null\x7d\x7d"
    let members : List (String × Json) := [("id", .ofNat 1), ("method", .list []),
      ("id", .object [("b", .ofNat 2), ("a", .null)])]
    Holds body (.object members) ∧
      carriedId (decode body) = .object [("a", .null), ("b", .ofNat 2)] ∧
      ∃ cause, decode body = .error (.object [("a", .null), ("b", .ofNat 2)], .undecodable cause) := by
  intro body members
  have hholds : Holds body (.object members) := ⟨by decide +kernel, by decide +kernel⟩
  obtain ⟨hok, hutf8, hcause, hid, -⟩ := decode_exact body
  have hcarried : carriedId (decode body) = .object [("a", .null), ("b", .ofNat 2)] := hid _ hholds
  refine ⟨hholds, hcarried, ?_⟩
  cases hdecode : decode body with
  | ok r =>
      obtain ⟨other, hother, hstated⟩ := (hok r).mp hdecode
      rw [hholds.unique hother] at hstated
      cases hstated with
      | object hmethod => cases hmethod
  | error failure =>
      obtain ⟨id, cause⟩ := failure
      rw [hdecode] at hcarried
      cases hcarried
      obtain rfl | ⟨reason, rfl⟩ := hcause _ _ hdecode
      · exact absurd hholds.utf8 (by rw [hutf8.mp ⟨_, hdecode⟩]; nofun)
      · exact ⟨reason, rfl⟩

end Request

end CodeAssist
