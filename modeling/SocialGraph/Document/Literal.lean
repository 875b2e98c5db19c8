import SocialGraph.Document.Report
import SocialGraph.Decimal.Double
import SocialGraph.Text.Quoted
import SocialGraph.Text.Space

/-!
# Literal values of query documents

Turning the text of a literal token into its value. Integers must fit 64 signed bits. Floats
are read to the nearest double; a value too large becomes infinite. A string token loses its
quotes and its escapes are replaced: `\"`, `\\` and `\/` stand for themselves, `\b` for the
character U+0010, `\f`, `\n`, `\r` and `\t` for the usual controls, and `\u` with four hex
digits for that code point. A block string loses its triple quotes, the blank lines at its
start and end, and the indentation its lines after the first have in common (the first line
keeps its own); `\"""` in it stands for `"""`.
-/

namespace SocialGraph.Document

/-- The value of a decimal digit. -/
def digitValue (c : Char) : Nat := c.toNat - '0'.toNat

/-- The number written by decimal digits. -/
def decimalDigits (cs : List Char) : Nat := cs.foldl (fun n c => 10 * n + digitValue c) 0

/-- The integer of an integer token, in the signed 64-bit range. -/
def intLiteral (text : String) : Except Complaint Int :=
  match text.toList with
  | '-' :: ds =>
    let n := decimalDigits ds
    if n ≤ Nat.pow 2 63 then .ok (-(n : Int))
    else .error (.other "number too small to fit in target type")
  | ds =>
    let n := decimalDigits ds
    if n < Nat.pow 2 63 then .ok n else .error (.other "number too large to fit in target type")

/-- The double of a float token: sign, digits, an optional fraction and an optional exponent.
An exponent letter followed by a sign alone is refused. -/
def floatLiteral (text : String) : Except Complaint Float :=
  let cs := text.toList
  let negative := cs.head? == some '-'
  let cs := if negative then cs.drop 1 else cs
  let whole := cs.takeWhile Char.isDigit
  let cs := cs.drop whole.length
  let (fraction, cs) :=
    if cs.head? == some '.' then
      let f := (cs.drop 1).takeWhile Char.isDigit
      (f, cs.drop (1 + f.length))
    else ([], cs)
  let exponent : Option Int :=
    match cs with
    | [] => some 0
    | _ :: e =>
      match e with
      | '-' :: ds => if ds.isEmpty then none else some (-(decimalDigits ds : Int))
      | '+' :: ds => if ds.isEmpty then none else some (decimalDigits ds)
      | ds => if ds.isEmpty then none else some (decimalDigits ds)
  match exponent with
  | none => .error (.other "invalid float literal")
  | some e =>
    let m := decimalDigits (whole ++ fraction)
    let k := e - fraction.length
    if m = 0 then .ok (Decimal.nearest negative 0 1)
    else if k > 400 then .ok (Decimal.nearest negative (Nat.pow 10 400) 1)
    else if k < -(400 + (whole ++ fraction).length : Int) then .ok (Decimal.nearest negative 0 1)
    else if 0 ≤ k then .ok (Decimal.nearest negative (m * Nat.pow 10 k.toNat) 1)
    else .ok (Decimal.nearest negative m (Nat.pow 10 (-k).toNat))

/-- The value of a hex digit, of either case. -/
def hexDigit? (c : Char) : Option Nat :=
  if '0' ≤ c ∧ c ≤ '9' then some (c.toNat - '0'.toNat)
  else if 'a' ≤ c ∧ c ≤ 'f' then some (c.toNat - 'a'.toNat + 10)
  else if 'A' ≤ c ∧ c ≤ 'F' then some (c.toNat - 'A'.toNat + 10)
  else none

/-- The number written by hex digits, after an optional plus sign. -/
def hexNumber? (cs : List Char) : Option Nat :=
  let ds := match cs with
    | '+' :: rest => rest
    | _ => cs
  if ds.isEmpty then none
  else ds.foldlM (fun n c => (hexDigit? c).map (16 * n + ·)) 0

/-- The character of a `\u` escape: four characters that must spell a code point. -/
def unicodeEscape (cs : List Char) : Except Complaint Char :=
  match hexNumber? cs with
  | some n =>
    if n.isValidChar then .ok (Char.ofNat n)
    else .error (.unexpected (.text (String.ofList cs ++ " is not a valid unicode code point")))
  | none => .error (.unexpected (.text (String.ofList cs ++ " is not a valid unicode code point")))

/-- The characters of a string body with its escapes replaced. -/
def unescape : List Char → List Char → Except Complaint (List Char)
  | [], acc => .ok acc.reverse
  | '\\' :: 'u' :: a :: b :: c :: d :: rest, acc =>
    match unicodeEscape [a, b, c, d] with
    | .ok ch => unescape rest (ch :: acc)
    | .error e => .error e
  | '\\' :: 'u' :: rest, _ =>
    .error (.unexpected (.text ("\\u must have 4 characters after it, only found '" ++
      String.ofList rest ++ "'")))
  | '\\' :: c :: rest, acc =>
    if c == '"' || c == '\\' || c == '/' then unescape rest (c :: acc)
    else if c == 'b' then unescape rest (Char.ofNat 0x10 :: acc)
    else if c == 'f' then unescape rest (Char.ofNat 0x0c :: acc)
    else if c == 'n' then unescape rest ('\n' :: acc)
    else if c == 'r' then unescape rest ('\r' :: acc)
    else if c == 't' then unescape rest ('\t' :: acc)
    else .error (.unexpected (.text ("bad escaped char " ++ Text.quotedChar c)))
  | c :: rest, acc => unescape rest (c :: acc)

/-- The value of a string token. -/
def stringLiteral (text : String) : Except Complaint String :=
  let body := (text.toList.drop 1).dropLast
  String.ofList <$> unescape body []

/-- The lines of a text: split at line feeds, a carriage return before a line feed dropped,
and no empty line after a final line feed. -/
def textLines (cs : List Char) : List (List Char) :=
  let pieces := cs.splitOn '\n'
  let pieces := if cs.getLast? == some '\n' then pieces.dropLast else pieces
  let pieces := if cs.isEmpty then [] else pieces
  let n := pieces.length
  pieces.zipIdx.map fun (line, i) =>
    if (i + 1 < n || cs.getLast? == some '\n') && line.getLast? == some '\r' then line.dropLast
    else line

/-- Whether a line holds only white space. -/
def blankLine (line : List Char) : Bool := line.all Text.isWhite

/-- The length of a text in bytes of its UTF-8 encoding. -/
def byteLength (cs : List Char) : Nat := cs.foldl (fun n c => n + c.utf8Size) 0

/-- The indentation of a line, in bytes. -/
def indentation (line : List Char) : Nat := byteLength (line.takeWhile Text.isWhite)

/-- Drops the characters that start within the first `n` bytes. -/
def dropBytes : Nat → List Char → List Char
  | 0, cs => cs
  | _, [] => []
  | n + 1, c :: cs => dropBytes (n + 1 - c.utf8Size) cs

/-- The characters after the first `n` bytes, when `n` falls between two characters; none when
it falls inside a character or beyond the end. -/
def afterBytes? : Nat → List Char → Option (List Char)
  | 0, cs => some cs
  | _ + 1, [] => none
  | n + 1, c :: cs => if c.utf8Size ≤ n + 1 then afterBytes? (n + 1 - c.utf8Size) cs else none

/-- Replaces every `\"""` by `"""`. -/
def unescapeTripleQuotes : List Char → List Char
  | '\\' :: '"' :: '"' :: '"' :: rest => '"' :: '"' :: '"' :: unescapeTripleQuotes rest
  | c :: rest => c :: unescapeTripleQuotes rest
  | [] => []

/-- The value of a block string token. The common indentation is the least indentation of the
lines after the first that hold more than white space. Blank lines at both ends are dropped;
the first line keeps its indentation, and every other line loses its first `common` bytes when
it has that many and they end between two characters; otherwise it is kept whole (a blank line
shorter than the common indentation stays as it is). -/
def blockLiteral (text : String) : String :=
  let cs := text.toList
  let body := (cs.drop 3).take (cs.length - 6)
  let lines := textLines body
  let indents := (lines.drop 1).filterMap fun line =>
    if indentation line < byteLength line then some (indentation line) else none
  let common := indents.foldl min (indents.headD 0)
  let kept := ((lines.zipIdx.dropWhile fun (line, _) => blankLine line).reverse.dropWhile
    fun (line, _) => blankLine line).reverse
  let cutLines := kept.zipIdx.map fun ((line, i), k) =>
    if k = 0 then (if i = 0 then line else dropBytes common line)
    else (afterBytes? common line).getD line
  String.ofList (unescapeTripleQuotes (List.intercalate ['\n'] cutLines))

end SocialGraph.Document
