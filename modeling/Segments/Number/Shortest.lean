import Segments.Number.Double

namespace Segments.Double

structure Decimal where
  digits : Nat
  scale : Int
  deriving DecidableEq, Repr

inductive Tie
  | even
  | up
  deriving DecidableEq, Repr

def compareHalves (d : Nat) (scale : Int) (n : Nat) : Ordering :=
  if 0 ≤ scale then compare (d * tenTo scale.toNat * twoTo 1075) n
  else compare (d * twoTo 1075) (n * tenTo (-scale).toNat)

/-- Whether `d * 10 ^ scale` reads back as the place `p`, which is neither zero nor infinity. -/
def readsBack (p : Nat) (d : Nat) (scale : Int) : Bool :=
  let low := units (p - 1) + units p
  let high := units p + units (p + 1)
  let below := compareHalves d scale low
  let above := compareHalves d scale high
  if p % 2 == 0 then below != .lt && above != .gt else below == .gt && above == .lt

def log10Place (p : Nat) : Int :=
  let n := units p
  let guess : Int := ((Nat.log2 n : Int) - 1074) * 30103 / 100000
  let reaches (k : Int) : Bool :=
    if 0 ≤ k then decide (tenTo k.toNat * twoTo 1074 ≤ n) else decide (twoTo 1074 ≤ n * tenTo (-k).toNat)
  if reaches (guess + 1) then guess + 1 else if reaches guess then guess else guess - 1

/-- The magnitude at `p` divided by `10 ^ scale`: whole part, and the remainder compared
with one half. -/
def onGrid (p : Nat) (scale : Int) : Nat × Ordering × Bool :=
  let n := units p
  let (num, den) :=
    if 0 ≤ scale then (n, tenTo scale.toNat * twoTo 1074) else (n * tenTo (-scale).toNat, twoTo 1074)
  (num / den, compare (2 * (num % den)) den, num % den == 0)

/-- The better of the two neighbours of the magnitude on the grid of `10 ^ scale`, if either
reads back. -/
def onGrid? (tie : Tie) (p : Nat) (scale : Int) : Option Nat :=
  let (d, half, exact) := onGrid p scale
  if exact then some d
  else
    let lower := readsBack p d scale
    let upper := readsBack p (d + 1) scale
    if lower && upper then
      match half, tie with
      | .lt, _ => some d
      | .gt, _ => some (d + 1)
      | .eq, .up => some (d + 1)
      | .eq, .even => some (d + d % 2)
    else if lower then some d
    else if upper then some (d + 1)
    else none

/-- Goes to finer grids until one has a decimal that reads back; `left` grids remain. -/
def shortestFrom (tie : Tie) (p : Nat) : Nat → Int → Decimal
  | 0, scale => ⟨(onGrid p scale).1, scale⟩
  | left + 1, scale =>
    match onGrid? tie p scale with
    | some d => ⟨d, scale⟩
    | none => shortestFrom tie p left (scale - 1)

def dropZeros : Nat → Nat → Int → Decimal
  | 0, d, scale => ⟨d, scale⟩
  | left + 1, d, scale =>
    if d % 10 == 0 && d != 0 then dropZeros left (d / 10) (scale + 1) else ⟨d, scale⟩

/-- The fewest digits that read back as the magnitude at a place below infinity, and of those the
nearest. The reals that round to a place run from half way to the place below to half way to the
place above, the ends belonging to it exactly when it is even. -/
def shortest (tie : Tie) (p : Nat) : Decimal :=
  if p = 0 then ⟨0, 0⟩
  else
    let found := shortestFrom tie p 17 (log10Place p)
    dropZeros 20 found.digits found.scale

end Segments.Double
