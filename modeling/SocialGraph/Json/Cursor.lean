import SocialGraph.Json.Error

/-!
# Reading JSON text: the cursor and the lexical leaves

A `Cursor` is the text still to read together with the place reached. `Reader` steps run on it
and may fail; a failed step leaves the cursor where reading stopped, because a caller may still
look past that point before it reports the error (a record closes its brace first, see
`Json.Decode`).

Places follow the rule of the messages: an error raised on a character already read is placed
after it, and an error raised on a character only looked at (`failPeek`) is placed one byte
further than the place reached. The leaves are blanks, the literals `null`, `true` and
`false`, string bodies with their escapes, and numbers.

Numbers are read the way the refusing messages of this library were fixed: digits accumulate
into a 64-bit significand; once it is full the remaining digits only count towards the
exponent; and a number with a fraction or an exponent becomes the double
`significand · 10^exponent` computed in two rounded steps (`fromParts`), not the correctly
rounded double. A non-negative integer that fits stays exact, and so does a negative one down
to `-2^63`.
-/

namespace SocialGraph.Json

/-- The text still to read and the place reached. -/
structure Cursor where
  rest : List Char
  line : Nat
  column : Nat

namespace Cursor

/-- A cursor at the start of a text. -/
def ofString (s : String) : Cursor := ⟨s.toList, 1, 0⟩

/-- The cursor after one more character. -/
def advance (c : Cursor) : Cursor :=
  match c.rest with
  | [] => c
  | '\n' :: r => ⟨r, c.line + 1, 0⟩
  | ch :: r => ⟨r, c.line, c.column + ch.utf8Size⟩

/-- The place reached. -/
def position (c : Cursor) : Position := ⟨c.line, c.column⟩

/-- The place one byte further, where an error about the next character is reported. -/
def peekPosition (c : Cursor) : Position :=
  match c.rest with
  | [] => ⟨c.line, c.column⟩
  | '\n' :: _ => ⟨c.line + 1, 0⟩
  | _ :: _ => ⟨c.line, c.column + 1⟩

/-- Whether a character is a JSON blank. -/
def isBlank (ch : Char) : Bool := ch == ' ' || ch == '\n' || ch == '\t' || ch == '\r'

/-- The cursor after the blanks that follow it. -/
def skipBlank (c : Cursor) : Cursor :=
  match h : c.rest with
  | ch :: _ =>
    if isBlank ch then
      have : c.advance.rest.length < c.rest.length := by
        simp only [advance, h]; split <;> simp_all
      skipBlank c.advance
    else c
  | [] => c
termination_by c.rest.length

/-- The place after `n` more bytes, or at the end of the text. -/
def positionAfterBytes (c : Cursor) (n : Nat) : Position :=
  match n, h : c.rest with
  | 0, _ => c.position
  | _, [] => c.position
  | n + 1, ch :: _ =>
    if ch.utf8Size ≤ n + 1 then
      have : c.advance.rest.length < c.rest.length := by
        simp only [advance, h]; split <;> simp_all
      positionAfterBytes c.advance (n + 1 - ch.utf8Size)
    else ⟨c.line, c.column + n + 1⟩
termination_by c.rest.length

/-- The number of bytes still to read. -/
def remainingBytes (c : Cursor) : Nat := c.rest.foldl (fun n ch => n + ch.utf8Size) 0

end Cursor

/-- A reading step: it runs on a cursor and may fail, keeping the cursor where it stopped. -/
abbrev Reader := ExceptT Error (StateM Cursor)

namespace Reader

/-- The next character, not read. -/
def peek : Reader (Option Char) := return (← get).rest.head?

/-- Reads one character. -/
def bump : Reader Unit := modify Cursor.advance

/-- Reads and returns the next character. -/
def next : Reader (Option Char) := do
  let ch ← peek
  bump
  return ch

/-- Fails at the place reached. -/
def fail {α : Type} (f : Fault) : Reader α := do
  throw ⟨f, some (← get).position⟩

/-- Fails about the next character. -/
def failPeek {α : Type} (f : Fault) : Reader α := do
  throw ⟨f, some (← get).peekPosition⟩

/-- Fails about a character just read that the step did not expect. Text is read byte by
byte, and the first byte of a character that is not ASCII already fails to match, so the error
is placed after that byte rather than after the whole character. -/
def failOn {α : Type} (ch : Char) (f : Fault) : Reader α := do
  let c ← get
  throw ⟨f, some ⟨c.line, c.column + 1 - ch.utf8Size⟩⟩

/-- Fails without a place; an enclosing step places it. -/
def refuse {α : Type} (f : Fault) : Reader α := throw ⟨f, none⟩

/-- Runs a step, placing an error that has no place yet at the place reached. -/
def placed {α : Type} (r : Reader α) : Reader α :=
  tryCatch r fun e => do
    match e.position with
    | some _ => throw e
    | none => throw ⟨e.fault, some (← get).position⟩

/-- Skips blanks and returns the next character, not read. -/
def peekAfterBlank : Reader (Option Char) := do
  modify Cursor.skipBlank
  peek

/-- Reads the rest of a literal whose first character has been read. -/
def literal (rest : List Char) : Reader Unit :=
  match rest with
  | [] => return ()
  | ch :: more => do
    match ← next with
    | none => fail .endInValue
    | some got => if got == ch then literal more else failOn got .expectedIdent

/-! ### Strings -/

/-- The value of a hex digit. -/
def hexValue (ch : Char) : Option Nat :=
  if '0' ≤ ch ∧ ch ≤ '9' then some (ch.toNat - '0'.toNat)
  else if 'a' ≤ ch ∧ ch ≤ 'f' then some (ch.toNat - 'a'.toNat + 10)
  else if 'A' ≤ ch ∧ ch ≤ 'F' then some (ch.toNat - 'A'.toNat + 10)
  else none

/-- Reads the four hex digits of a `\u` escape. With fewer than four bytes left the text ends
inside the string; four bytes that are not all hex digits are an invalid escape. -/
def hexEscape : Reader Nat := do
  let c ← get
  if c.remainingBytes < 4 then
    set { c with rest := [], column := (c.positionAfterBytes c.remainingBytes).column,
                 line := (c.positionAfterBytes c.remainingBytes).line }
    fail .endInString
  else
    match c.rest with
    | a :: b :: d :: e :: more =>
      match hexValue a, hexValue b, hexValue d, hexValue e with
      | some va, some vb, some vd, some ve =>
        set { c with rest := more, column := c.column + 4 }
        return ((va * 16 + vb) * 16 + vd) * 16 + ve
      | _, _, _, _ =>
        let p := c.positionAfterBytes 4
        throw ⟨.invalidEscape, some p⟩
    | _ =>
      let p := c.positionAfterBytes 4
      throw ⟨.invalidEscape, some p⟩

/-- Reads the rest of a `\u` escape, joining a surrogate pair into one character. -/
def unicodeEscape : Reader Char := do
  let n ← hexEscape
  if 0xdc00 ≤ n ∧ n ≤ 0xdfff then fail .loneSurrogate
  else if n < 0xd800 ∨ 0xdbff < n then return Char.ofNat n
  else
    match ← peek with
    | none => fail .endInString
    | some '\\' => bump
    | some ch => do bump; failOn ch .unexpectedEndOfHexEscape
    match ← peek with
    | none => fail .endInString
    | some 'u' => bump
    | some ch => do bump; failOn ch .unexpectedEndOfHexEscape
    let low ← hexEscape
    if low < 0xdc00 ∨ 0xdfff < low then fail .loneSurrogate
    else return Char.ofNat ((n - 0xd800) * 0x400 + (low - 0xdc00) + 0x10000)

/-- Reads an escape after its backslash. -/
def escape : Reader Char := do
  match ← next with
  | none => fail .endInString
  | some '"' => return '"'
  | some '\\' => return '\\'
  | some '/' => return '/'
  | some 'b' => return '\x08'
  | some 'f' => return '\x0c'
  | some 'n' => return '\n'
  | some 'r' => return '\r'
  | some 't' => return '\t'
  | some 'u' => unicodeEscape
  | some ch => failOn ch .invalidEscape

/-- Reads a string body after its opening quote, up to and including the closing quote; the
`fuel` bounds the characters read. -/
def stringBody (acc : List Char) : Nat → Reader String
  | 0 => fail .endInString
  | fuel + 1 => do
    match ← peek with
    | none => fail .endInString
    | some '"' => do bump; return String.ofList acc.reverse
    | some '\\' => do
      bump
      let ch ← escape
      stringBody (ch :: acc) fuel
    | some ch =>
      bump
      if ch.val < 0x20 then fail .controlCharacter
      else stringBody (ch :: acc) fuel

/-- Reads a string body after its opening quote. -/
def string : Reader String := do
  stringBody [] ((← get).rest.length + 1)

/-! ### Numbers -/

/-- The largest unsigned 64-bit integer. -/
def u64Max : Nat := Nat.pow 2 64 - 1

/-- The largest signed 32-bit integer. -/
def i32Max : Int := (Nat.pow 2 31 : Int) - 1

/-- `x + y` kept within the signed 32-bit range. -/
def saturate32 (x : Int) : Int := max (min x i32Max) (-i32Max - 1)

/-- The digit value of a decimal digit. -/
def digitValue (ch : Char) : Option Nat :=
  if '0' ≤ ch ∧ ch ≤ '9' then some (ch.toNat - '0'.toNat) else none

/-- The double `± significand · 10^exponent`, computed as the nearest double of the significand
scaled by the nearest double of a power of ten, one rounded step at a time; `none` when it
overflows. -/
def fromParts (positive : Bool) (significand : Nat) (exponent : Int) : Option Float :=
  let rec go (f : Float) (exponent : Int) : Nat → Option Float
    | 0 => some f
    | fuel + 1 =>
      if exponent.natAbs ≤ 308 then
        let pow := Decimal.powerOfTen exponent.natAbs
        if 0 ≤ exponent then
          let g := f * pow
          if g.isInf then none else some g
        else some (f / pow)
      else if f == 0 then some f
      else if 0 ≤ exponent then none
      else go (f / Decimal.powerOfTen 308) (exponent + 308) fuel
  (go (Decimal.ofNat significand) exponent 8).map fun f => if positive then f else -f

/-- A double from its parts, or `number out of range` at the place reached. -/
def float (positive : Bool) (significand : Nat) (exponent : Int) : Reader Number :=
  match fromParts positive significand exponent with
  | some f => return .float f
  | none => fail .numberOutOfRange

/-- Skips the digits that follow. -/
def skipDigits : Nat → Reader Unit
  | 0 => return ()
  | fuel + 1 => do
    match (← peek).bind digitValue with
    | some _ => do bump; skipDigits fuel
    | none => return ()

/-- Reads an exponent after its letter: an optional sign and at least one digit. An exponent
beyond the 32-bit range makes the number zero if its significand is zero or the exponent is
negative, and out of range otherwise. -/
def exponentPart (positive : Bool) (significand : Nat) (start : Int) (fuel : Nat) :
    Reader Number := do
  bump
  let positiveExp ← match ← peek with
    | some '+' => do bump; pure true
    | some '-' => do bump; pure false
    | _ => pure true
  match ← next with
  | none => fail .endInValue
  | some ch =>
    match digitValue ch with
    | none => failOn ch .invalidNumber
    | some d =>
      let rec digits (exp : Nat) : Nat → Reader Number
        | 0 => float positive significand start
        | fuel + 1 => do
          match (← peek).bind digitValue with
          | some d => do
            bump
            if exp ≥ 214748364 ∧ (exp > 214748364 ∨ d > 7) then
              if significand ≠ 0 ∧ positiveExp then fail .numberOutOfRange
              else do
                skipDigits fuel
                return .float (if positive then 0.0 else -0.0)
            else digits (exp * 10 + d) fuel
          | none =>
            let final := if positiveExp then saturate32 (start + exp) else saturate32 (start - exp)
            float positive significand final
      digits d fuel

/-- Reads digits beyond a full significand; they only count towards the exponent. -/
def fractionOverflow (positive : Bool) (significand : Nat) (exponent : Int) (fuel : Nat) :
    Reader Number := do
  skipDigits fuel
  match ← peek with
  | some 'e' | some 'E' => exponentPart positive significand exponent fuel
  | _ => float positive significand exponent

/-- Reads a fraction after its point: at least one digit, then an optional exponent. -/
def fraction (positive : Bool) (significand : Nat) (before : Int) (fuel : Nat) :
    Reader Number := do
  bump
  let rec digits (significand : Nat) (after : Int) : Nat → Reader Number
    | 0 => float positive significand (before + after)
    | fuel + 1 => do
      match (← peek).bind digitValue with
      | some d =>
        if significand ≥ u64Max / 10 ∧ (significand > u64Max / 10 ∨ d > u64Max % 10) then
          fractionOverflow positive significand (before + after) fuel
        else do
          bump
          digits (significand * 10 + d) (after - 1) fuel
      | none =>
        if after = 0 then
          match ← peek with
          | some _ => failPeek .invalidNumber
          | none => failPeek .endInValue
        else
          match ← peek with
          | some 'e' | some 'E' => exponentPart positive significand (before + after) fuel
          | _ => float positive significand (before + after)
  digits significand 0 fuel

/-- Reads digits beyond a full integer significand, counting them as powers of ten. -/
def longInteger (positive : Bool) (significand : Nat) (exponent : Int) : Nat → Reader Number
  | 0 => float positive significand exponent
  | fuel + 1 => do
    match ← peek with
    | some '.' => fraction positive significand exponent fuel
    | some 'e' | some 'E' => exponentPart positive significand exponent fuel
    | some ch =>
      match digitValue ch with
      | some _ => do bump; longInteger positive significand (exponent + 1) fuel
      | none => float positive significand exponent
    | none => float positive significand exponent

/-- The number an integer significand stands for, once no fraction or exponent follows:
exact when it fits, and a double for `-0` and for negatives below `-2^63`. -/
def integer (positive : Bool) (significand : Nat) : Number :=
  if positive then .unsigned significand
  else if significand = 0 then .float (-0.0)
  else if significand ≤ Nat.pow 2 63 then .signed (-(significand : Int))
  else .float (-(Decimal.ofNat significand))

/-- What follows the integer part of a number. -/
def afterInteger (positive : Bool) (significand : Nat) (fuel : Nat) : Reader Number := do
  match ← peek with
  | some '.' => fraction positive significand 0 fuel
  | some 'e' | some 'E' => exponentPart positive significand 0 fuel
  | _ => return integer positive significand

/-- Reads a number whose sign, if any, has been read. -/
def number (positive : Bool) : Reader Number := do
  let fuel := (← get).rest.length + 1
  match ← next with
  | none => fail .endInValue
  | some '0' =>
    match (← peek).bind digitValue with
    | some _ => failPeek .invalidNumber
    | none => afterInteger positive 0 fuel
  | some ch =>
    match digitValue ch with
    | none => failOn ch .invalidNumber
    | some d =>
      let rec digits (significand : Nat) : Nat → Reader Number
        | 0 => return integer positive significand
        | fuel + 1 => do
          match (← peek).bind digitValue with
          | some d =>
            if significand ≥ u64Max / 10 ∧ (significand > u64Max / 10 ∨ d > u64Max % 10) then
              longInteger positive significand 0 fuel
            else do
              bump
              digits (significand * 10 + d) fuel
          | none => afterInteger positive significand fuel
      digits d fuel

end Reader

end SocialGraph.Json

namespace SocialGraph.Json.Reader

/-- Runs a step on a whole text and returns its outcome. -/
def runOn {α : Type} (r : Reader α) (s : String) : Except Error α :=
  (r.run.run (Cursor.ofString s)).1

end SocialGraph.Json.Reader
