/-!
# UUIDs

A UUID is 128 bits, held here as its 32 hexadecimal digits, most significant first. UUIDs are
ordered by their digits, which is the order of their bytes.

Reading and printing UUIDs belongs to the UUID library the program runs with, and is written
out here as that library documents it (`parse?`, `render`). A UUID is read from four spellings,
in either letter case: hyphenated (`8-4-4-4-12` digits), simple (32 digits), hyphenated in
braces, and hyphenated after the prefix `urn:uuid:` (itself in any letter case). It is always
printed hyphenated in lowercase.
-/

namespace SocialGraph

/-- A UUID as its 32 hex digits, most significant first. -/
structure Uuid where
  digits : List (Fin 16)
  length_eq : digits.length = 32
  deriving DecidableEq

namespace Uuid

/-- The value of a hex digit of either case. -/
def hexDigit? (c : Char) : Option (Fin 16) :=
  if '0' ≤ c ∧ c ≤ '9' then some (Fin.ofNat 16 (c.toNat - '0'.toNat))
  else if 'a' ≤ c ∧ c ≤ 'f' then some (Fin.ofNat 16 (c.toNat - 'a'.toNat + 10))
  else if 'A' ≤ c ∧ c ≤ 'F' then some (Fin.ofNat 16 (c.toNat - 'A'.toNat + 10))
  else none

/-- The lowercase character of a hex digit. -/
def hexChar (d : Fin 16) : Char :=
  if d.val < 10 then Char.ofNat ('0'.toNat + d.val) else Char.ofNat ('a'.toNat + d.val - 10)

/-- Reads a run of hex digits. -/
def hexRun (cs : List Char) : Option (List (Fin 16)) := cs.mapM hexDigit?

/-- A UUID from 32 digits. -/
def ofDigits? (ds : List (Fin 16)) : Option Uuid :=
  if h : ds.length = 32 then some ⟨ds, h⟩ else none

/-- Reads the simple spelling: 32 hex digits. -/
def parseSimple (cs : List Char) : Option Uuid := (hexRun cs).bind ofDigits?

/-- Where the hyphens of the hyphenated spelling stand. -/
def hyphenAt (i : Nat) : Bool := i == 8 || i == 13 || i == 18 || i == 23

/-- Reads the hyphenated spelling: 36 characters, hyphens at places 8, 13, 18 and 23 and hex
digits everywhere else. -/
def parseHyphenated (cs : List Char) : Option Uuid :=
  if cs.length = 36 ∧ (cs.zipIdx.all fun (c, i) => hyphenAt i == (c == '-')) then
    parseSimple (cs.filter (· != '-'))
  else none

/-- Reads a UUID in any of its four spellings. Every spelling is ASCII, so a text with another
character is refused whatever its length. -/
def parse? (s : String) : Option Uuid :=
  let cs := s.toList
  if cs.any (·.toNat ≥ 128) then none
  else
    match cs.length with
    | 32 => parseSimple cs
    | 36 => parseHyphenated cs
    | 38 => if cs.head? = some '{' ∧ cs.getLast? = some '}' then
        parseHyphenated ((cs.drop 1).take 36) else none
    | 45 =>
      if (cs.take 9).map Char.toLower = "urn:uuid:".toList then parseHyphenated (cs.drop 9)
      else none
    | _ => none

/-- The hyphenated lowercase spelling. -/
def render (u : Uuid) : String :=
  let cs := u.digits.map hexChar
  String.ofList (cs.take 8) ++ "-" ++ String.ofList ((cs.drop 8).take 4) ++ "-" ++
    String.ofList ((cs.drop 12).take 4) ++ "-" ++ String.ofList ((cs.drop 16).take 4) ++ "-" ++
    String.ofList (cs.drop 20)

/-- Lexicographic comparison of digit lists. -/
def compareDigits : List (Fin 16) → List (Fin 16) → Ordering
  | [], [] => .eq
  | [], _ :: _ => .lt
  | _ :: _, [] => .gt
  | a :: as, b :: bs =>
    match compare a.val b.val with
    | .eq => compareDigits as bs
    | o => o

instance : Ord Uuid := ⟨fun a b => compareDigits a.digits b.digits⟩

end Uuid

end SocialGraph
