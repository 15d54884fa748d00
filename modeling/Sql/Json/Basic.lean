/-! JSON documents. -/
namespace Sql

inductive Json where
  | null
  | boolean (value : Bool)
  /-- A number written without point or exponent, of at most 64 bits. -/
  | integer (value : Int)
  /-- Any other number, as it is written. -/
  | real (text : String)
  | string (text : String)
  /-- A string, or an object with a key, that escapes half of a surrogate pair. It stands for no
  text and can only be passed over. -/
  | textless
  | array (items : List Json)
  /-- The members in order, repeated keys included. -/
  | object (members : List (String × Json))
deriving Inhabited

namespace Json

def asString? : Json → Option String
  | string text => some text
  | _ => none

def asBool? : Json → Option Bool
  | boolean b => some b
  | _ => none

/-- A whole number from zero up to `largest`. -/
def asNat? (largest : Nat) : Json → Option Nat
  | integer n => if 0 ≤ n ∧ n ≤ largest then some n.toNat else none
  | _ => none

def asArray? : Json → Option (List Json)
  | array items => some items
  | _ => none

/-- The value of the only member with this key. The outer option fails for a repeated key, the inner
one is absent for a missing key. -/
def member? (members : List (String × Json)) (key : String) : Option (Option Json) :=
  match members.filter (·.1 == key) with
  | [] => some none
  | [(_, value)] => some (some value)
  | _ => none

/-- The values under the given keys. Other keys are ignored. -/
def keyed? (keys : List String) : Json → Option (List (Option Json))
  | object members => keys.mapM (member? members)
  | _ => none

/-- The values under the given keys. A record may also be written as an array of its first values,
in the order of the keys. -/
def record? (keys : List String) : Json → Option (List (Option Json))
  | array items =>
    if items.length ≤ keys.length then
      some (items.map some ++ List.replicate (keys.length - items.length) none)
    else none
  | value => value.keyed? keys

/-- Decodes a value if there is one, and takes a default if not. -/
def decodeOr? {α : Type} (default : α) (decode : Json → Option α) : Option Json → Option α
  | none => some default
  | some value => decode value

end Json

end Sql
