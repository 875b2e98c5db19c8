import SocialGraph.Json.Read

/-!
# Decoding JSON by expected shape

An `Expect` describes what a decoder wants at one place: a string (with a check that may
refuse it), a double, a 32-bit integer, a boolean, a list of one shape, a record of named
fields, an optional value, an object of arbitrary values, or anything. Decoding gives back the
value normalised to that shape: a record becomes an object holding exactly its fields in their
declared order, defaults filled in; a double field holds a double even when an integer was
written.

Records are read from an object or, positionally, from an array. An object may not name a
field twice; a closed record refuses a member it does not declare, an open one skips it; a
missing field takes its default or is refused. A positional record takes its fields in order
and refuses extra items.

`Expect.decodeValue` decodes a value already read, and its refusals have no place.
`Expect.decodeText` decodes text as it reads it, so the first fault in reading order wins.
A refusal from a check, a type mismatch or a record rule is placed where the innermost value
being read stopped; a record first reads its closing bracket or brace (and the blanks before
it) even after such a refusal, so the place given is after that bracket when it follows.
-/

namespace SocialGraph.Json

/-- A field of a record: its name, its shape, and its default when it may be left out. -/
abbrev FieldShape (α : Type) := String × α × Option Json

/-- The shape a decoder expects at one place. -/
inductive Expect where
  /-- A string, refused with the message the check returns, if any. -/
  | string (check : String → Option String)
  /-- One of the unit variants of an enumeration called `name`: a string naming it, or an
  object with the name as its one key and `null` as its value. -/
  | variant (name : String) (variants : List String)
  /-- A double; any number is accepted. -/
  | float
  /-- An integer from `0` to `2^32 - 1`. -/
  | unsigned32
  /-- An integer from `-2^31` to `2^31 - 1`. -/
  | signed32
  | boolean
  | list (item : Expect)
  /-- A record called `name`; a `closed` record refuses undeclared members. -/
  | record (name : String) (fields : List (String × Expect × Option Json)) (closed : Bool)
  /-- `null`, or a value of the inner shape. -/
  | optional (inner : Expect)
  /-- An object whose members may hold any values. -/
  | object
  | anything

namespace Expect

/-- A string with no check. -/
def text : Expect := .string fun _ => none

/-- How a shape is named in a refusal. -/
def expecting : Expect → String
  | .string _ => "a string"
  | .variant name _ => "enum " ++ name
  | .float => "f64"
  | .unsigned32 => "u32"
  | .signed32 => "i32"
  | .boolean => "a boolean"
  | .list _ => "a sequence"
  | .record name _ _ => "struct " ++ name
  | .optional _ => "option"
  | .object => "a map"
  | .anything => "any valid JSON value"

/-- How a positional record is named when it has too few items. -/
def positionalExpecting (name : String) (count : Nat) : String :=
  "struct " ++ name ++ " with " ++ toString count ++ " elements"

/-- The fields left when a positional record's items run out: each takes its default, and the
first without one is refused with the number of items there were. -/
def positionalDefaults {α : Type} (name : String) (count : Nat) :
    List (FieldShape α) → Except Fault (List (String × Json))
  | [] => .ok []
  | (fname, _, some d) :: more => ((fname, d) :: ·) <$> positionalDefaults name count more
  | (_, _, none) :: more =>
    .error (.invalidLength (count - more.length - 1) (positionalExpecting name count))

/-- The value a number gives at a numeric shape. -/
def ofNumber (e : Expect) (n : Number) : Except Fault Json :=
  match e, n with
  | .float, n => .ok (.num (.float n.toFloat))
  | .unsigned32, .unsigned k =>
    if k < Nat.pow 2 32 then .ok (.num (.unsigned k)) else .error (.invalidValue (.unsigned k) "u32")
  | .unsigned32, .signed k => .error (.invalidValue (.signed k) "u32")
  | .signed32, .unsigned k =>
    if k < Nat.pow 2 31 then .ok (.num (.unsigned k)) else .error (.invalidValue (.unsigned k) "i32")
  | .signed32, .signed k =>
    if -(Nat.pow 2 31 : Int) ≤ k then .ok (.num (.signed k)) else .error (.invalidValue (.signed k) "i32")
  | .anything, n => .ok (.num n)
  | e, n => .error (.invalidType (.ofNumber n) e.expecting)

/-- The first field with the given name, with its index. -/
def findField {α : Type} (fields : List (FieldShape α)) (key : String) :
    Option (Nat × FieldShape α) :=
  (fields.zipIdx.find? fun (f, _) => f.1 == key).map fun (f, i) => (i, f)

/-- The members of a decoded record in field order, or the first missing field. -/
def complete {α : Type} (fields : List (FieldShape α)) (found : List (Nat × Json)) :
    Except Fault (List (String × Json)) :=
  fields.zipIdx.mapM fun ((name, _, default), i) =>
    match found.lookup i, default with
    | some v, _ => .ok (name, v)
    | none, some d => .ok (name, d)
    | none, none => .error (.missingField name)

/-! ### Values already read -/

mutual

/-- Decodes a value at a shape. -/
def decodeValue : Expect → Json → Except Fault Json
  | .string check, .str s =>
    match check s with
    | some msg => .error (.custom msg)
    | none => .ok (.str s)
  | .variant _ names, .str s =>
    if names.contains s then .ok (.str s) else .error (.unknownVariant s names)
  | .variant _ names, .obj [(k, v)] =>
    if names.contains k then
      match v with
      | .null => .ok (.str k)
      | v => .error (.invalidType (.ofJson v) "unit")
    else .error (.unknownVariant k names)
  | .variant _ _, .obj _ => .error (.invalidValue .map "map with a single key")
  | .variant _ _, v => .error (.invalidType (.ofJson v) "string or map")
  | .float, .num n => ofNumber .float n
  | .unsigned32, .num n => ofNumber .unsigned32 n
  | .signed32, .num n => ofNumber .signed32 n
  | .boolean, .bool b => .ok (.bool b)
  | .list item, .arr xs => return .arr (← decodeItems item xs)
  | .record _ fields closed, .obj ms => do
    let found ← decodeMembers fields closed ms []
    return .obj (← complete fields found)
  | .record name fields _, .arr xs => do
    let vs ← decodePositional name fields.length fields xs
    if fields.length < xs.length then
      throw (.invalidLength xs.length "fewer elements in array")
    return .obj vs
  | .optional _, .null => .ok .null
  | .optional inner, v => decodeValue inner v
  | .object, .obj ms => .ok (.obj ms)
  | .anything, v => .ok v
  | e, v => .error (.invalidType (.ofJson v) e.expecting)
termination_by e j => (sizeOf j, sizeOf e)

/-- Decodes the items of a list. -/
def decodeItems (item : Expect) : List Json → Except Fault (List Json)
  | [] => .ok []
  | x :: xs => return (← decodeValue item x) :: (← decodeItems item xs)
termination_by xs => (sizeOf xs, 0)

/-- Decodes the members of an object as fields of a record, by field index. -/
def decodeMembers (fields : List (FieldShape Expect)) (closed : Bool) :
    List (String × Json) → List (Nat × Json) → Except Fault (List (Nat × Json))
  | [], found => .ok found
  | (key, v) :: rest, found =>
    match findField fields key with
    | some (i, (_, shape, _)) => do
      let d ← decodeValue shape v
      decodeMembers fields closed rest ((i, d) :: found)
    | none =>
      if closed then .error (.unknownField key (fields.map (·.1)))
      else decodeMembers fields closed rest found
termination_by ms _ => (sizeOf ms, 0)

/-- Decodes the items of an array as the fields of a record, in order. -/
def decodePositional (name : String) (count : Nat) :
    List (FieldShape Expect) → List Json → Except Fault (List (String × Json))
  | [], _ => .ok []
  | (fname, shape, _) :: more, x :: xs => do
    let d ← decodeValue shape x
    return (fname, d) :: (← decodePositional name count more xs)
  | (fname, _, default) :: more, [] =>
    match default with
    | some d => return (fname, d) :: (← decodePositional name count more [])
    | none => .error (.invalidLength (count - more.length - 1) (positionalExpecting name count))

termination_by fs xs => (sizeOf xs, fs.length)
end

/-! ### Text -/

/-- Refuses a value that does not have the expected shape, naming what it is; the value's
text is read first (unless it is an array or object), so the refusal is placed after it. -/
def wrongType {α : Type} (e : Expect) : Reader α := do
  let found ← match ← Reader.peek with
    | some 'n' => do Reader.bump; Reader.literal ['u', 'l', 'l']; pure Found.null
    | some 't' => do Reader.bump; Reader.literal ['r', 'u', 'e']; pure (Found.bool true)
    | some 'f' => do Reader.bump; Reader.literal ['a', 'l', 's', 'e']; pure (Found.bool false)
    | some '"' => do Reader.bump; pure (Found.str (← Reader.string))
    | some '[' => pure Found.seq
    | some '{' => pure Found.map
    | some ch =>
      if Reader.startsNumber ch then pure (Found.ofNumber (← Reader.signedNumber)) else Reader.failPeek .expectedValue
    | none => Reader.failPeek .expectedValue
  Reader.fail (.invalidType found e.expecting)

/-- Lifts a decision on a value into a reading step, without a place. -/
def decided {α : Type} : Except Fault α → Reader α
  | .ok a => pure a
  | .error f => Reader.refuse f

mutual

/-- Reads and decodes a value at a shape, with at most `depth - 1` more arrays and objects
open. -/
def decodeText (depth : Nat) : Expect → Nat → Reader Json
  | _, 0 => Reader.fail .endInValue
  | e, fuel + 1 =>
    match e with
    | .string check => do
      let s ← Reader.placed do
        match ← Reader.peekAfterBlank with
        | none => Reader.failPeek .endInValue
        | some '"' => do Reader.bump; Reader.string
        | some _ => wrongType e
      decided (decodeValue (.string check) (.str s))
    | .variant _ names => Reader.placed do
      match ← Reader.peekAfterBlank with
      | none => Reader.failPeek .endInValue
      | some '"' => do
        Reader.bump
        let s ← Reader.string
        if names.contains s then return .str s else Reader.refuse (.unknownVariant s names)
      | some _ => wrongType e
    | .float | .unsigned32 | .signed32 => Reader.placed do
      match ← Reader.peekAfterBlank with
      | none => Reader.failPeek .endInValue
      | some ch =>
        if Reader.startsNumber ch then decided (ofNumber e (← Reader.signedNumber)) else wrongType e
    | .boolean => Reader.placed do
      match ← Reader.peekAfterBlank with
      | none => Reader.failPeek .endInValue
      | some 't' => do Reader.bump; Reader.literal ['r', 'u', 'e']; return .bool true
      | some 'f' => do Reader.bump; Reader.literal ['a', 'l', 's', 'e']; return .bool false
      | some _ => wrongType e
    | .list item => Reader.placed do
      match ← Reader.peekAfterBlank with
      | none => Reader.failPeek .endInValue
      | some '[' => do
        let depth ← Reader.openNested depth
        Reader.thenClose (return .arr (← textItems depth item true [] fuel)) Reader.closeList
      | some _ => wrongType e
    | .record name fields closed => Reader.placed do
      match ← Reader.peekAfterBlank with
      | none => Reader.failPeek .endInValue
      | some '[' => do
        let depth ← Reader.openNested depth
        Reader.thenClose (return .obj (← textPositional depth name fields.length fields true fuel))
          Reader.closeList
      | some '{' => do
        let depth ← Reader.openNested depth
        Reader.thenClose (do
            let found ← textMembers depth fields closed true [] fuel
            return .obj (← decided (complete fields found)))
          Reader.closeObject
      | some _ => wrongType e
    | .optional inner => do
      match ← Reader.peekAfterBlank with
      | some 'n' => do Reader.bump; Reader.literal ['u', 'l', 'l']; return .null
      | _ => decodeText depth inner fuel
    | .object => Reader.placed do
      match ← Reader.peekAfterBlank with
      | none => Reader.failPeek .endInValue
      | some '{' => do
        let depth ← Reader.openNested depth
        Reader.thenClose (return .obj (← Reader.members depth true [] fuel)) Reader.closeObject
      | some _ => wrongType e
    | .anything => Reader.placed (Reader.value depth (fuel + 1))
termination_by structural _ fuel => fuel

/-- Reads the items of a list up to its closing bracket. -/
def textItems (depth : Nat) (item : Expect) (first : Bool) (acc : List Json) :
    Nat → Reader (List Json)
  | 0 => Reader.fail .endInList
  | fuel + 1 => do
    if ← Reader.nextItem first then
      let v ← decodeText depth item fuel
      textItems depth item false (v :: acc) fuel
    else return acc.reverse
termination_by structural fuel => fuel

/-- Reads the members of an object as fields of a record, by field index. -/
def textMembers (depth : Nat) (fields : List (FieldShape Expect)) (closed : Bool) (first : Bool)
    (found : List (Nat × Json)) : Nat → Reader (List (Nat × Json))
  | 0 => Reader.fail .endInObject
  | fuel + 1 => do
    match ← Reader.nextKey first with
    | none => return found
    | some key =>
      match findField fields key with
      | some (i, (name, shape, _)) =>
        if (found.lookup i).isSome then Reader.refuse (.duplicateField name) else do
          Reader.colon
          let v ← decodeText depth shape fuel
          textMembers depth fields closed false ((i, v) :: found) fuel
      | none =>
        if closed then Reader.refuse (.unknownField key (fields.map (·.1))) else do
          Reader.colon
          Reader.skipValue fuel
          textMembers depth fields closed false found fuel
termination_by structural fuel => fuel

/-- Reads the items of an array as the fields of a record, in order. -/
def textPositional (depth : Nat) (name : String) (count : Nat) :
    List (FieldShape Expect) → Bool → Nat → Reader (List (String × Json))
  | [], _, _ => return []
  | _ :: _, _, 0 => Reader.fail .endInList
  | (fname, shape, default) :: more, first, fuel + 1 => do
    if ← Reader.nextItem first then
      let v ← decodeText depth shape fuel
      return (fname, v) :: (← textPositional depth name count more false fuel)
    else
      match positionalDefaults name count ((fname, shape, default) :: more) with
      | .ok rest => return rest
      | .error f => Reader.refuse f

termination_by structural _ _ fuel => fuel
end

/-- Decodes a whole text at a shape: blanks may follow the value, nothing else. -/
def decodeDocument (e : Expect) (s : String) : Except Error Json :=
  Reader.runOn (do
    let v ← decodeText Reader.depthLimit e ((← get).rest.length + 2)
    match ← Reader.peekAfterBlank with
    | some _ => Reader.failPeek .trailingCharacters
    | none => return v) s

end Expect

end SocialGraph.Json
