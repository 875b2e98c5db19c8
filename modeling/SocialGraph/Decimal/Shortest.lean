import SocialGraph.Decimal.Double

/-!
# Shortest decimal of a double

Every finite double `v` is the rounding of an interval of reals: from halfway to its lower
neighbour to halfway to its upper neighbour, the ends included exactly when the significand is
even (a reader rounds ties to even). The shortest decimal of `v` is the decimal with the fewest
significant digits in that interval; among those of that length it is the one nearest to `v`,
and an exact tie goes to the even last digit.

For each length `n` from 1 to 17 the search looks at the two multiples of `10^k` around `v`,
where `k` puts `n` digits before the decimal point of `v / 10^k`: if the interval holds any
`n`-digit decimal it holds one of those two, because it is convex and contains `v`. Length 17
always has a hit. All comparisons are exact, in `Nat`.
-/

namespace SocialGraph.Decimal

/-- A decimal `digits · 10^exponent`, with no trailing zero in `digits` unless it is zero. -/
structure Scientific where
  digits : Nat
  exponent : Int
  deriving Repr, DecidableEq

/-- Compares `c · 10^k` with `a · 2^j`, both sides scaled to integers by the same factor. -/
def compareScaled (c : Nat) (k : Int) (a : Nat) (j : Int) : Ordering :=
  let left := c * Nat.pow 10 (max k 0).toNat * Nat.pow 2 (max (-j) 0).toNat
  let right := a * Nat.pow 2 (max j 0).toNat * Nat.pow 10 (max (-k) 0).toNat
  compare left right

/-- `⌊m · 2^e / 10^k⌋`. -/
def floorDecimal (m : Nat) (e k : Int) : Nat :=
  let num := m * Nat.pow 2 (max e 0).toNat * Nat.pow 10 (max (-k) 0).toNat
  let den := Nat.pow 2 (max (-e) 0).toNat * Nat.pow 10 (max k 0).toNat
  num / den

/-- The decimal exponent `p` with `10^p ≤ m · 2^e < 10^(p+1)`, for `m > 0`: an estimate from
the bit length, corrected by exact comparisons. -/
def decimalMagnitude (m : Nat) (e : Int) : Int :=
  let guess : Int := ((Nat.log2 m : Int) + e) * 30103 / 100000
  -- the estimate is off by at most one in either direction
  let up (p : Int) : Int := if compareScaled 1 (p + 1) m e != .gt then p + 1 else p
  let down (p : Int) : Int := if compareScaled 1 p m e == .gt then p - 1 else p
  down (down (up (up guess)))

/-- Removes trailing zeros from a decimal, moving them into the exponent. -/
def Scientific.normalize (digits : Nat) (exponent : Int) : Scientific :=
  if h : digits ≠ 0 ∧ digits % 10 = 0 then Scientific.normalize (digits / 10) (exponent + 1)
  else ⟨digits, exponent⟩
termination_by digits
decreasing_by exact Nat.div_lt_self (Nat.pos_of_ne_zero h.1) (by decide)

/-- The rounding interval of a positive finite double, in units of `2^(e-2)`: its low end, its
high end, and whether the ends belong to it. -/
structure Interval where
  low : Nat
  high : Nat
  closed : Bool

/-- The rounding interval of `m · 2^e`. -/
def Binary.interval (b : Binary) : Interval :=
  let m := b.significand
  ⟨4 * m - (if b.lowerGapIsNarrow then 1 else 2), 4 * m + 2, m % 2 == 0⟩

/-- Whether `c · 10^k` lies in the interval of a double with exponent `e`. -/
def Interval.contains (i : Interval) (e : Int) (c : Nat) (k : Int) : Bool :=
  let lo := compareScaled c k i.low (e - 2)
  let hi := compareScaled c k i.high (e - 2)
  if i.closed then lo != .lt && hi != .gt else lo == .gt && hi == .lt

/-- The candidate of length `n`, if the interval holds one. -/
def candidate (b : Binary) (n : Nat) : Option Scientific :=
  let m := b.significand
  let e := b.exponent
  let k := decimalMagnitude m e - n + 1
  let d := floorDecimal m e k
  let i := b.interval
  match i.contains e d k, i.contains e (d + 1) k with
  | true, true =>
    -- both neighbours read back: take the nearer, an exact tie to the even one
    match compareScaled (2 * d + 1) k (2 * m) e with
    | .gt => some (Scientific.normalize d k)
    | .lt => some (Scientific.normalize (d + 1) k)
    | .eq => some (Scientific.normalize (if d % 2 = 0 then d else d + 1) k)
  | true, false => some (Scientific.normalize d k)
  | false, true => some (Scientific.normalize (d + 1) k)
  | false, false => none

/-- The shortest decimal of a positive finite double given by its fields. -/
def Binary.shortest (b : Binary) : Scientific :=
  let rec search (n : Nat) (fuel : Nat) : Scientific :=
    match fuel with
    | 0 => Scientific.normalize (floorDecimal b.significand b.exponent 0) 0
    | fuel + 1 =>
      match candidate b n with
      | some s => s
      | none => search (n + 1) fuel
  search 1 17

/-- The shortest decimal of the magnitude of a finite double; zero gives `0 · 10^0`. -/
def shortest (x : Float) : Scientific :=
  let b := Binary.ofFloat x
  if b.significand = 0 then ⟨0, 0⟩ else b.shortest

end SocialGraph.Decimal
