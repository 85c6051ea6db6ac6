namespace CodeAssist

/-- A number is an integer of 64 bits, signed or unsigned, or a double given by its bits. -/
inductive Number where
  | integer (value : Int)
  | double (bits : UInt64)
deriving DecidableEq, Repr, Inhabited

/-- A JSON document. The members of an object stand in the order they were written or built. -/
inductive Json where
  | null
  | boolean (value : Bool)
  | number (value : Number)
  | text (value : String)
  | list (items : List Json)
  | object (members : List (String × Json))
deriving Repr, Inhabited

namespace Json

mutual

def decEq : (a b : Json) → Decidable (a = b)
  | .null, .null => isTrue rfl
  | .boolean a, .boolean b =>
      if h : a = b then isTrue (by rw [h]) else isFalse (by intro e; injection e; contradiction)
  | .number a, .number b =>
      if h : a = b then isTrue (by rw [h]) else isFalse (by intro e; injection e; contradiction)
  | .text a, .text b =>
      if h : a = b then isTrue (by rw [h]) else isFalse (by intro e; injection e; contradiction)
  | .list a, .list b =>
      match decEqList a b with
      | isTrue h => isTrue (by rw [h])
      | isFalse h => isFalse (by intro e; injection e; contradiction)
  | .object a, .object b =>
      match decEqMembers a b with
      | isTrue h => isTrue (by rw [h])
      | isFalse h => isFalse (by intro e; injection e; contradiction)
  | .null, .boolean _ | .null, .number _ | .null, .text _ | .null, .list _ | .null, .object _
  | .boolean _, .null | .boolean _, .number _ | .boolean _, .text _ | .boolean _, .list _
  | .boolean _, .object _
  | .number _, .null | .number _, .boolean _ | .number _, .text _ | .number _, .list _
  | .number _, .object _
  | .text _, .null | .text _, .boolean _ | .text _, .number _ | .text _, .list _
  | .text _, .object _
  | .list _, .null | .list _, .boolean _ | .list _, .number _ | .list _, .text _
  | .list _, .object _
  | .object _, .null | .object _, .boolean _ | .object _, .number _ | .object _, .text _
  | .object _, .list _ => isFalse (by intro e; cases e)

def decEqList : (a b : List Json) → Decidable (a = b)
  | [], [] => isTrue rfl
  | [], _ :: _ | _ :: _, [] => isFalse (by intro e; cases e)
  | a :: as, b :: bs =>
      match decEq a b, decEqList as bs with
      | isTrue h, isTrue t => isTrue (by rw [h, t])
      | isFalse h, _ => isFalse (by intro e; injection e; contradiction)
      | _, isFalse t => isFalse (by intro e; injection e; contradiction)

def decEqMembers : (a b : List (String × Json)) → Decidable (a = b)
  | [], [] => isTrue rfl
  | [], _ :: _ | _ :: _, [] => isFalse (by intro e; cases e)
  | (k, a) :: as, (l, b) :: bs =>
      if hk : k = l then
        match decEq a b, decEqMembers as bs with
        | isTrue h, isTrue t => isTrue (by rw [hk, h, t])
        | isFalse h, _ => isFalse (by
            intro e
            injection e with head _
            injection head
            contradiction)
        | _, isFalse t => isFalse (by intro e; injection e; contradiction)
      else isFalse (by
        intro e
        injection e with head _
        injection head
        contradiction)

end

instance : DecidableEq Json := decEq

def ofNat (n : Nat) : Json := .number (.integer n)

def isNull : Json → Bool
  | .null => true
  | _ => false

/-! Objects read as maps: the last of several members with one name counts, and the members are
kept in the order of their names. -/

def insertMember (name : String) (value : Json) :
    List (String × Json) → List (String × Json)
  | [] => [(name, value)]
  | (other, old) :: rest =>
      if name < other then (name, value) :: (other, old) :: rest
      else if name = other then (name, value) :: rest
      else (other, old) :: insertMember name value rest

def sortMembers (members : List (String × Json)) : List (String × Json) :=
  members.foldl (fun sorted (name, value) => insertMember name value sorted) []

mutual

/-- The document with every object sorted and free of repeated names. -/
def normalize : Json → Json
  | .list items => .list (normalizeList items)
  | .object members => .object (sortMembers (normalizeMembers members))
  | scalar => scalar

def normalizeList : List Json → List Json
  | [] => []
  | item :: rest => item.normalize :: normalizeList rest

def normalizeMembers : List (String × Json) → List (String × Json)
  | [] => []
  | (name, value) :: rest => (name, value.normalize) :: normalizeMembers rest

end

def ofMembers (members : List (String × Json)) : Json := .object (sortMembers members)

/-- The member `name` of a normalized object. -/
def get? (name : String) : Json → Option Json
  | .object members => members.lookup name
  | _ => none

end Json

end CodeAssist
