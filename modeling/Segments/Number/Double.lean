import Segments.Number.Word

namespace Segments

def Double.binade : Nat := 0x10000000000000

def Double.infinity : Nat := 0x7FF0000000000000

/-- A binary64 number, by its place in the row of representable magnitudes: zero has place 0, each
next magnitude one more, infinity the last. Places are ordered as magnitudes are, so that numbers
compare by place. The sign of not-a-number is never seen, so it has none. -/
inductive Double
  | nan
  | number (negative : Bool) (place : Fin (Double.infinity + 1))
  deriving DecidableEq, Repr

namespace Double

def clamp (p : Nat) : Fin (infinity + 1) :=
  ⟨min p infinity, by omega⟩

def ofPlace (negative : Bool) (p : Nat) : Double :=
  .number negative (clamp p)

instance : Inhabited Double :=
  ⟨ofPlace false 0⟩

def mantissa (p : Nat) : Nat :=
  if p < binade then p else binade + p % binade

/-- The exponent that goes with `mantissa`: the magnitude is `mantissa p * 2 ^ exponent p`. -/
def exponent (p : Nat) : Int :=
  if p < binade then -1074 else (p / binade : Nat) - 1075

/-- The magnitude in units of the least one, `2 ^ (-1074)`. -/
def units (p : Nat) : Nat :=
  mantissa p * twoTo (exponent p + 1074).toNat

def isFinite : Double → Bool
  | .nan => false
  | .number _ p => p.val < infinity

def isNegative : Double → Bool
  | .nan => false
  | .number s p => s && p.val != 0

/-- The quotient rounded to the nearest whole number, a half going to the even one. -/
def roundHalfEven (num den : Nat) : Nat :=
  let q := num / den
  let r := num % den
  if 2 * r < den then q
  else if 2 * r > den then q + 1
  else q + q % 2

def log2Ratio (num den : Nat) : Int :=
  let k : Int := (Nat.log2 num : Int) - Nat.log2 den
  let reached := if 0 ≤ k then den * twoTo k.toNat ≤ num else den ≤ num * twoTo (-k).toNat
  if reached then k else k - 1

/-- The place nearest to `num / den`. A mantissa that rounds up to the next power of two
lands on the first place of the next binade by itself, since places run on. -/
def nearest (num den : Nat) : Nat :=
  if num = 0 then 0
  else
    let q : Int := max (-1074) (log2Ratio num den - 52)
    let m := if 0 ≤ q then roundHalfEven num (den * twoTo q.toNat)
      else roundHalfEven (num * twoTo (-q).toNat) den
    (q + 1074).toNat * binade + m

def ofRatio (negative : Bool) (num den : Nat) : Double :=
  ofPlace negative (nearest num den)

def ofInt (n : Int) : Double :=
  ofRatio (decide (n < 0)) n.natAbs 1

theorem ofInt_ne_nan (n : Int) : ofInt n ≠ .nan :=
  Double.noConfusion

/-- The number nearest to `digits * 10 ^ scale`. Beyond a thousand places either way the
answer is zero or infinity, which spares the large power. -/
def ofDecimal (negative : Bool) (digits : Nat) (scale : Int) : Double :=
  let top : Int := scale + (Nat.log2 digits : Int)
  if digits = 0 then ofPlace negative 0
  else if scale > 1000 then ofPlace negative infinity
  else if top < -2000 then ofPlace negative 0
  else if 0 ≤ scale then ofRatio negative (digits * tenTo scale.toNat) 1
  else ofRatio negative digits (tenTo (-scale).toNat)

def timesPlace (p q : Nat) : Nat :=
  nearest (units p * units q) (twoTo 1074 * twoTo 1074)

def overPlace (p q : Nat) : Nat :=
  nearest (units p) (units q)

def tenPlace (k : Nat) : Nat :=
  nearest (tenTo k) 1

/-- The place with its sign, on one line: both zeros are 0. -/
def key (negative : Bool) (p : Nat) : Int :=
  if negative then -(p : Int) else p

/-- Not-a-number compares with nothing; the two zeros are equal. -/
def compare? : Double → Double → Option Ordering
  | .number s p, .number t q => some (compare (key s p) (key t q))
  | _, _ => none

/-- The whole part of the magnitude at a finite place, and whether anything is left over. -/
def wholePart (p : Nat) : Nat × Bool :=
  let m := mantissa p
  let e := exponent p
  if 0 ≤ e then (m * twoTo e.toNat, false)
  else (m / twoTo (-e).toNat, m % twoTo (-e).toNat != 0)

def toInt? : Double → Option Int
  | .nan => none
  | .number s p =>
    if p.val < infinity then
      let (n, rest) := wholePart p
      if rest then none else some (if s then -(n : Int) else n)
    else none

/-- The nearest whole number, a half going away from zero; infinity and not-a-number have none. -/
def round? : Double → Option Int
  | .nan => none
  | .number s p =>
    if p.val < infinity then
      let m := mantissa p
      let e := exponent p
      let n := if 0 ≤ e then m * twoTo e.toNat else (2 * m + twoTo (-e).toNat) / (2 * twoTo (-e).toNat)
      some (if s then -(n : Int) else n)
    else none

end Double

end Segments
