import SocialGraph.Decimal.Double

/-!
# JSON values

A JSON value as this library reads and writes it. Object members keep the order in which they
were written, and a number keeps the class a reader gives it: an integer that fits in 64 bits
is exact (`unsigned` when it is non-negative, `signed` when it is negative), and every other
number is a double. JSON writes no NaN and no infinity: a double read from text is finite, and
a double written from a record becomes null when it is not finite (`Json.ofDouble`), as
serde_json's conversion from `f64` does.
-/

namespace SocialGraph

/-- A JSON number: an exact 64-bit integer or a finite double. -/
inductive Json.Number where
  /-- A non-negative integer below `2^64`. -/
  | unsigned (n : Nat)
  /-- A negative integer not below `-2^63`. -/
  | signed (n : Int)
  | float (x : Float)

/-- A JSON value whose objects keep their members in order. -/
inductive Json where
  | null
  | bool (b : Bool)
  | num (n : Json.Number)
  | str (s : String)
  | arr (items : List Json)
  | obj (members : List (String × Json))

namespace Json

instance : Inhabited Json := ⟨.null⟩

/-- The value of a double: the number when it is finite, and null for NaN and the infinities. -/
def ofDouble (x : Float) : Json := if x.isFinite then .num (.float x) else .null

/-- The largest value of a signed 64-bit integer. -/
def int64Max : Nat := Nat.pow 2 63 - 1

namespace Number

/-- The number as a double; a large integer is rounded to the nearest one. -/
def toFloat : Number → Float
  | .unsigned n => Decimal.ofNat n
  | .signed n => -(Decimal.ofNat n.natAbs)
  | .float x => x

/-- The number as a signed 64-bit integer, when it is an integer in that range. -/
def toInt64? : Number → Option Int
  | .unsigned n => if n ≤ int64Max then some n else none
  | .signed n => some n
  | .float _ => none

/-- The number of an integer in the signed 64-bit range. -/
def ofInt (n : Int) : Number := if n < 0 then .signed n else .unsigned n.toNat

end Number

/-- The value of the first member named `key`, if this is an object that has one. -/
def get? (j : Json) (key : String) : Option Json :=
  match j with
  | .obj members => members.lookup key
  | _ => none

/-- Sets a member of an object's member list: an existing member keeps its place and takes
the new value, a new one goes to the end. -/
def setMember (members : List (String × Json)) (key : String) (value : Json) :
    List (String × Json) :=
  if members.any (·.1 == key) then
    members.map fun (k, v) => if k == key then (k, value) else (k, v)
  else members ++ [(key, value)]

/-- A JSON string, or nothing. -/
def getStr? : Json → Option String
  | .str s => some s
  | _ => none

/-- A JSON boolean, or nothing. -/
def getBool? : Json → Option Bool
  | .bool b => some b
  | _ => none

/-- A JSON number as a double, or nothing. -/
def getFloat? : Json → Option Float
  | .num n => some n.toFloat
  | _ => none

/-- A JSON integer, or nothing. -/
def getInt? : Json → Option Int
  | .num (.unsigned n) => some n
  | .num (.signed n) => some n
  | _ => none

/-- A JSON array's items, or nothing. -/
def getArr? : Json → Option (List Json)
  | .arr xs => some xs
  | _ => none

end Json

end SocialGraph
