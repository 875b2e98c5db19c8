import SocialGraph.Json.Cursor

/-!
# Reading JSON text: values

The separators of arrays and objects (`nextItem`, `nextKey`, `colon`, `closeList`,
`closeObject`) are single steps shared by every reader of structured text. On top of them,
`value` reads any value; it lets at most 127 arrays and objects be open at once. `skipValue`
passes over a value whose content nobody needs; it checks the same syntax with slightly
different messages, because it does not look for trailing commas: a comma before a closing
bracket makes it expect another value (or key) instead.

Loops carry a `fuel` argument. It starts from the length of the text, and every round of a
loop reads at least one character, so it never runs out on a text it is given.
-/

namespace SocialGraph.Json.Reader

/-- How many arrays and objects may be open at once, plus one. -/
def depthLimit : Nat := 128

/-! ### Separators -/

/-- Moves to the next item of an array, or returns `false` at the closing bracket, which is
left for `closeList`. The first item needs no comma before it. -/
def nextItem (first : Bool) : Reader Bool := do
  match ← peekAfterBlank with
  | some ']' => return false
  | some ',' =>
    if first then itemStart (some ',') else do
      bump
      itemStart (← peekAfterBlank)
  | some ch => if first then itemStart (some ch) else failPeek .expectedCommaOrListEnd
  | none => failPeek .endInList
where
  /-- Checks what stands where an item should start. -/
  itemStart : Option Char → Reader Bool
    | some ']' => failPeek .trailingComma
    | some _ => return true
    | none => failPeek .endInValue

/-- Reads the key of the next member of an object, or returns `none` at the closing brace,
which is left for `closeObject`. -/
def nextKey (first : Bool) : Reader (Option String) := do
  match ← peekAfterBlank with
  | some '}' => return none
  | some ',' =>
    if first then keyStart (some ',') else do
      bump
      keyStart (← peekAfterBlank)
  | some ch => if first then keyStart (some ch) else failPeek .expectedCommaOrObjectEnd
  | none => failPeek .endInObject
where
  /-- Reads the key that should start here. -/
  keyStart : Option Char → Reader (Option String)
    | some '"' => do
      bump
      return some (← string)
    | some '}' => failPeek .trailingComma
    | some _ => failPeek .keyNotString
    | none => failPeek .endInValue

/-- Reads the colon between a key and its value. -/
def colon : Reader Unit := do
  match ← peekAfterBlank with
  | some ':' => bump
  | some _ => failPeek .expectedColon
  | none => failPeek .endInObject

/-- Reads the closing bracket of an array. -/
def closeList : Reader Unit := do
  match ← peekAfterBlank with
  | some ']' => bump
  | some ',' => do
    bump
    match ← peekAfterBlank with
    | some ']' => failPeek .trailingComma
    | _ => failPeek .trailingCharacters
  | some _ => failPeek .trailingCharacters
  | none => failPeek .endInList

/-- Reads the closing brace of an object. -/
def closeObject : Reader Unit := do
  match ← peekAfterBlank with
  | some '}' => bump
  | some ',' => failPeek .trailingComma
  | some _ => failPeek .trailingCharacters
  | none => failPeek .endInObject

/-- Runs the body of an array or object, then its closing step even when the body failed;
the body's error wins over the closing step's. -/
def thenClose {α : Type} (body : Reader α) (close : Reader Unit) : Reader α := do
  let outcome ← tryCatch (Except.ok <$> body) fun e => pure (Except.error e)
  match outcome with
  | .ok a => do
    close
    return a
  | .error e => do
    tryCatch close fun _ => pure ()
    throw e

/-- Opens one more array or object, refusing past the nesting limit; the opening character is
read. -/
def openNested (depth : Nat) : Reader Nat := do
  if depth ≤ 1 then failPeek .tooDeep
  bump
  return depth - 1

/-- Whether a character starts a number. -/
def startsNumber (ch : Char) : Bool := ch == '-' || ('0' ≤ ch && ch ≤ '9')

/-- Reads a number whose first character is next. -/
def signedNumber : Reader Number := do
  match ← peek with
  | some '-' => do bump; number false
  | _ => number true

/-! ### Any value -/

mutual

/-- Reads any value, with at most `depth - 1` more arrays and objects open. -/
def value (depth : Nat) : Nat → Reader Json
  | 0 => fail .endInValue
  | fuel + 1 => do
    match ← peekAfterBlank with
    | none => failPeek .endInValue
    | some 'n' => do bump; literal ['u', 'l', 'l']; return .null
    | some 't' => do bump; literal ['r', 'u', 'e']; return .bool true
    | some 'f' => do bump; literal ['a', 'l', 's', 'e']; return .bool false
    | some '"' => do bump; return .str (← string)
    | some '[' => do
      let depth ← openNested depth
      thenClose (return .arr (← items depth true [] fuel)) closeList
    | some '{' => do
      let depth ← openNested depth
      thenClose (return .obj (← members depth true [] fuel)) closeObject
    | some ch =>
      if startsNumber ch then return .num (← signedNumber) else failPeek .expectedValue

/-- Reads the items of an array up to its closing bracket. -/
def items (depth : Nat) (first : Bool) (acc : List Json) : Nat → Reader (List Json)
  | 0 => fail .endInList
  | fuel + 1 => do
    if ← nextItem first then
      let item ← value depth fuel
      items depth false (item :: acc) fuel
    else return acc.reverse

/-- Reads the members of an object up to its closing brace; a repeated key keeps its first
place and takes the later value. -/
def members (depth : Nat) (first : Bool) (acc : List (String × Json)) :
    Nat → Reader (List (String × Json))
  | 0 => fail .endInObject
  | fuel + 1 => do
    match ← nextKey first with
    | none => return acc
    | some key =>
      colon
      let v ← value depth fuel
      members depth false (setMember acc key v) fuel

end

/-- Reads a whole text as one value: blanks may follow it, nothing else. -/
def document : Reader Json := do
  let v ← value depthLimit ((← get).rest.length + 1)
  match ← peekAfterBlank with
  | some _ => failPeek .trailingCharacters
  | none => return v

/-! ### Skipping a value -/

/-- Skips a string body after its opening quote; escapes are checked but not decoded. -/
def skipStringBody : Nat → Reader Unit
  | 0 => fail .endInString
  | fuel + 1 => do
    match ← peek with
    | none => fail .endInString
    | some '"' => bump
    | some '\\' => do
      bump
      match ← next with
      | none => fail .endInString
      | some ch =>
        if ch == '"' || ch == '\\' || ch == '/' || ch == 'b' || ch == 'f' || ch == 'n' ||
            ch == 'r' || ch == 't' then skipStringBody fuel
        else if ch == 'u' then do
          let _ ← hexEscape
          skipStringBody fuel
        else failOn ch .invalidEscape
    | some ch =>
      if ch.val < 0x20 then fail .controlCharacter
      else do bump; skipStringBody fuel

/-- Skips an exponent after its letter. -/
def skipExponent (fuel : Nat) : Reader Unit := do
  bump
  match ← peek with
  | some '+' | some '-' => bump
  | _ => pure ()
  match ← next with
  | some ch =>
    match digitValue ch with
    | some _ => skipDigits fuel
    | none => failOn ch .invalidNumber
  | none => fail .invalidNumber

/-- Skips a number whose sign, if any, has been read. -/
def skipNumber : Reader Unit := do
  let fuel := (← get).rest.length + 1
  match ← next with
  | some '0' =>
    match (← peek).bind digitValue with
    | some _ => failPeek .invalidNumber
    | none => pure ()
  | some ch =>
    match digitValue ch with
    | some _ => skipDigits fuel
    | none => failOn ch .invalidNumber
  | none => fail .invalidNumber
  match ← peek with
  | some '.' => do
    bump
    match (← peek).bind digitValue with
    | none => failPeek .invalidNumber
    | some _ => do
      skipDigits fuel
      match ← peek with
      | some 'e' | some 'E' => skipExponent fuel
      | _ => pure ()
  | some 'e' | some 'E' => skipExponent fuel
  | _ => pure ()

mutual

/-- Skips one value. -/
def skipValue : Nat → Reader Unit
  | 0 => fail .endInValue
  | fuel + 1 => do
    match ← peekAfterBlank with
    | none => failPeek .endInValue
    | some 'n' => do bump; literal ['u', 'l', 'l']
    | some 't' => do bump; literal ['r', 'u', 'e']
    | some 'f' => do bump; literal ['a', 'l', 's', 'e']
    | some '"' => do bump; skipStringBody ((← get).rest.length + 1)
    | some '[' => do
      bump
      match ← peekAfterBlank with
      | some ']' => bump
      | some _ => skipItems fuel
      | none => failPeek .endInList
    | some '{' => do
      bump
      match ← peekAfterBlank with
      | some '}' => bump
      | some _ => skipMembers fuel
      | none => failPeek .endInObject
    | some '-' => do bump; skipNumber
    | some ch => if startsNumber ch then skipNumber else failPeek .expectedValue

/-- Skips the items of an array from its first item through its closing bracket. -/
def skipItems : Nat → Reader Unit
  | 0 => fail .endInList
  | fuel + 1 => do
    skipValue fuel
    match ← peekAfterBlank with
    | some ',' => do bump; skipItems fuel
    | some ']' => bump
    | some _ => failPeek .expectedCommaOrListEnd
    | none => failPeek .endInList

/-- Skips the members of an object from its first key through its closing brace. -/
def skipMembers : Nat → Reader Unit
  | 0 => fail .endInObject
  | fuel + 1 => do
    match ← peekAfterBlank with
    | some '"' => do bump; skipStringBody ((← get).rest.length + 1)
    | some _ => failPeek .keyNotString
    | none => failPeek .endInObject
    match ← peekAfterBlank with
    | some ':' => bump
    | some _ => failPeek .expectedColon
    | none => failPeek .endInObject
    skipValue fuel
    match ← peekAfterBlank with
    | some ',' => do bump; skipMembers fuel
    | some '}' => bump
    | some _ => failPeek .expectedCommaOrObjectEnd
    | none => failPeek .endInObject

end

end SocialGraph.Json.Reader
