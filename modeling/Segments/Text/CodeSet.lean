

namespace Segments.Text

/-- Ranges of code points with both ends included, in ascending order with a gap between each two.
The operations keep that form, so that a set has one written form. -/
structure CodeSet where
  ranges : List (Nat × Nat)
  deriving DecidableEq, Repr, Inhabited

namespace CodeSet

def lastCode : Nat := 0x10FFFF

def empty : CodeSet :=
  ⟨[]⟩

def full : CodeSet :=
  ⟨[(0, lastCode)]⟩

def containsCode (s : CodeSet) (n : Nat) : Bool :=
  s.ranges.any fun r => r.1 ≤ n && n ≤ r.2

def contains (s : CodeSet) (c : Char) : Bool :=
  s.containsCode c.toNat

/-- Joins to a range those after it that overlap or touch it, and so on. -/
def joinFrom (r : Nat × Nat) : List (Nat × Nat) → List (Nat × Nat)
  | [] => [r]
  | s :: rest =>
    if s.1 ≤ r.2 + 1 then joinFrom (r.1, max r.2 s.2) rest else r :: joinFrom s rest

/-- Ranges by ascending start, with those joined that overlap or touch. -/
def join : List (Nat × Nat) → List (Nat × Nat)
  | [] => []
  | r :: rest => joinFrom r rest

def interleave : List (Nat × Nat) → List (Nat × Nat) → List (Nat × Nat)
  | [], bs => bs
  | as, [] => as
  | a :: as, b :: bs =>
    if a.1 ≤ b.1 then a :: interleave as (b :: bs) else b :: interleave (a :: as) bs

def union (s t : CodeSet) : CodeSet :=
  ⟨join (interleave s.ranges t.ranges)⟩

def single (a b : Nat) : CodeSet :=
  ⟨[(a, b)]⟩

def ofChar (c : Char) : CodeSet :=
  single c.toNat c.toNat

def ofRanges (rs : List (Nat × Nat)) : CodeSet :=
  ⟨join (rs.mergeSort fun a b => a.1 ≤ b.1)⟩

def ofCodes (ns : List Nat) : CodeSet :=
  ofRanges (ns.map fun n => (n, n))

def gaps (start : Nat) : List (Nat × Nat) → List (Nat × Nat)
  | [] => if start ≤ lastCode then [(start, lastCode)] else []
  | r :: rest => if start < r.1 then (start, r.1 - 1) :: gaps (r.2 + 1) rest else gaps (r.2 + 1) rest

def complement (s : CodeSet) : CodeSet :=
  ⟨gaps 0 s.ranges⟩

def inter (s t : CodeSet) : CodeSet :=
  (s.complement.union t.complement).complement

def diff (s t : CodeSet) : CodeSet :=
  s.inter t.complement

def symmDiff (s t : CodeSet) : CodeSet :=
  (s.diff t).union (t.diff s)

def isEmpty (s : CodeSet) : Bool :=
  s.ranges.isEmpty

def isAscii (s : CodeSet) : Bool :=
  s.ranges.all fun r => r.2 < 128

def one? (s : CodeSet) : Option Nat :=
  match s.ranges with
  | [(a, b)] => if a == b then some a else none
  | _ => none

def unions (ss : List CodeSet) : CodeSet :=
  ofRanges (ss.flatMap ranges)

end CodeSet

/-- Reads the numbers of a packed table: base 26, small letters, the last digit a capital. -/
def unpackNumbers : Nat → List Char → List Nat
  | _, [] => []
  | n, c :: cs =>
    if 'a' ≤ c then unpackNumbers (26 * n + (c.toNat - 97)) cs
    else (26 * n + (c.toNat - 65)) :: unpackNumbers 0 cs

/-- Ranges from the distance to each from the end of the last, and its length less one. -/
def unpackRanges (start : Nat) : List Nat → List (Nat × Nat)
  | gap :: more :: rest => (start + gap, start + gap + more) :: unpackRanges (start + gap + more + 1) rest
  | _ => []

def CodeSet.unpack (parts : List String) : CodeSet :=
  ⟨unpackRanges 0 (unpackNumbers 0 (parts.flatMap String.toList))⟩

end Segments.Text
