/-!
# Doubles as exact numbers

A finite binary64 value is `(-1)^s · m · 2^e` with an integer significand `m < 2^53`. This
module reads that triple off the bit pattern (`Binary.ofFloat`) and, in the other direction,
rounds an exact non-negative rational `n / d` to the nearest double with ties going to the
even significand (`nearest`). Both directions use `Nat` arithmetic only, so they are exact:
every decimal reader and printer of the library is built on them.
-/

namespace SocialGraph.Decimal

/-- The three fields of a binary64 bit pattern. -/
structure Binary where
  negative : Bool
  /-- The biased exponent field: `0` for zero and subnormals, `2047` for infinities and NaN. -/
  biased : Nat
  /-- The 52 stored fraction bits. -/
  fraction : Nat
  deriving Repr, DecidableEq

namespace Binary

/-- Splits a double into sign, biased exponent and fraction. -/
def ofFloat (x : Float) : Binary :=
  let bits := x.toBits.toNat
  ⟨bits / Nat.pow 2 63 % 2 == 1, bits / Nat.pow 2 52 % 2048, bits % Nat.pow 2 52⟩

/-- Whether the value is neither infinite nor NaN. -/
def isFinite (b : Binary) : Bool := b.biased != 2047

/-- The integer significand: the fraction with the hidden bit of a normal number. -/
def significand (b : Binary) : Nat :=
  if b.biased = 0 then b.fraction else b.fraction + Nat.pow 2 52

/-- The binary exponent `e` of the value `significand · 2^e`. -/
def exponent (b : Binary) : Int :=
  if b.biased = 0 then -1074 else (b.biased : Int) - 1075

/-- The distance to the next smaller double is half the usual one exactly at a power of two
above the smallest normal binade. -/
def lowerGapIsNarrow (b : Binary) : Bool := b.fraction == 0 && b.biased > 1

end Binary

/-- The bit pattern of a double with the given sign, biased exponent and fraction. -/
def ofFields (negative : Bool) (biased fraction : Nat) : Float :=
  Float.ofBits (UInt64.ofNat ((if negative then Nat.pow 2 63 else 0) + biased * Nat.pow 2 52 + fraction))

/-- The value `n / d` scaled down by `2^e`, as quotient and remainder. -/
def scaledDivision (n d : Nat) (e : Int) : Nat × Nat :=
  let num := if e < 0 then n * Nat.pow 2 (-e).toNat else n
  let den := if e < 0 then d else d * Nat.pow 2 e.toNat
  (num / den, num % den)

/-- The denominator that `scaledDivision n d e` divides by. -/
def scaledDenominator (d : Nat) (e : Int) : Nat :=
  if e < 0 then d else d * Nat.pow 2 e.toNat

/-- The binary exponent at which `n / d` has a 53-bit integer part, or the subnormal exponent
when the value is too small for that. -/
def binaryExponent (n d : Nat) : Int :=
  let guess : Int := (Nat.log2 n : Int) - (Nat.log2 d : Int) - 52
  let e := if (scaledDivision n d guess).1 < Nat.pow 2 52 then guess - 1 else guess
  max e (-1074)

/-- The double nearest to `n / d`, negated when `negative`; an exact tie goes to the even
significand, and values beyond the largest double become infinite. A zero denominator is
read as one. -/
def nearest (negative : Bool) (n d : Nat) : Float :=
  let d := max d 1
  if n = 0 then ofFields negative 0 0 else
  let e := binaryExponent n d
  let (q, r) := scaledDivision n d e
  let den := scaledDenominator d e
  let up := 2 * r > den || (2 * r == den && q % 2 == 1)
  let q := if up then q + 1 else q
  -- rounding up may carry into a new binade
  let (q, e) := if q = Nat.pow 2 53 then (Nat.pow 2 52, e + 1) else (q, e)
  if e > 971 then ofFields negative 2047 0
  else if q < Nat.pow 2 52 then ofFields negative 0 q
  else ofFields negative (e + 1075).toNat (q - Nat.pow 2 52)

/-- The double nearest to the integer `n`. -/
def ofNat (n : Nat) : Float := nearest false n 1

/-- The double nearest to `10^k`, for the scaling steps of decimal readers. -/
def powerOfTen (k : Nat) : Float := nearest false (Nat.pow 10 k) 1

end SocialGraph.Decimal
