import Tariff.Binary64.Shortest

/-!
# JSON values

Setting values of an open shape, snapshots in the audit log and everything that
is read from or written to a document are JSON values. A number is an integer
of at most 64 bits, signed or unsigned, or else a binary floating-point number;
the two are kept apart, because `100` and `100.0` are different texts. An object
lists its members in the order of their keys, each key once.
-/

namespace Tariff

/-- **A number in a document.** -/
inductive Json.Number where
  /-- An integer that fits in 64 bits with or without a sign. -/
  | int (value : Int) (inRange : -2 ^ 63 ≤ value ∧ value < 2 ^ 64)
  /-- Any other number, to the precision of the binary format. -/
  | double (value : Binary64)
deriving DecidableEq

/-- **A JSON value.** -/
inductive Json where
  | null
  | bool (value : Bool)
  | number (value : Json.Number)
  | string (value : String)
  | array (items : List Json)
  | object (members : List (String × Json))
deriving Inhabited

namespace Json

/-- Puts a member into a list ordered by key, in place of one with the same
key. -/
def insertMember (key : String) (value : Json) : List (String × Json) → List (String × Json)
  | [] => [(key, value)]
  | (k, v) :: rest =>
    if key < k then (key, value) :: (k, v) :: rest
    else if key = k then (key, value) :: rest
    else (k, v) :: insertMember key value rest

/-- **The object with these members**, ordered by key; of members with one key
the last counts. -/
def ofMembers (members : List (String × Json)) : Json :=
  .object (members.foldl (fun sorted (k, v) => insertMember k v sorted) [])

/-- The member of an object under a key. -/
def member? (key : String) : Json → Option Json
  | .object members => members.lookup key
  | _ => none

/-- Whether the value is `null`. -/
def isNull : Json → Bool
  | .null => true
  | _ => false

/-- The integer as a number of a document; one beyond 64 bits as the nearest
binary number, which an integer of moderate size always has. -/
def Number.ofInt (n : Int) : Number :=
  if h : -2 ^ 63 ≤ n ∧ n < 2 ^ 64 then .int n h
  else .double ((Binary64.ofDigits? (decide (n < 0)) n.natAbs 0).getD (.zero false))

/-- An integer as a value. -/
def ofInt (n : Int) : Json := .number (.ofInt n)

/-- A count as a value. -/
def ofNat (n : Nat) : Json := ofInt n

/-- What is there or `null`. -/
def ofOption {α : Type} (toJson : α → Json) : Option α → Json
  | some a => toJson a
  | none => .null

/-- A list of values. -/
def ofList {α : Type} (toJson : α → Json) (items : List α) : Json := .array (items.map toJson)

end Json

end Tariff
