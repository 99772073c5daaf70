

namespace Segments

abbrev twoTo (k : Nat) : Nat :=
  Nat.pow 2 k

abbrev tenTo (k : Nat) : Nat :=
  Nat.pow 10 k

namespace Word

def maxNatural16 : Nat := 0xFFFF

def maxNatural32 : Nat := 0xFFFFFFFF

def maxNatural64 : Nat := 0xFFFFFFFFFFFFFFFF

def minInt32 : Int := -0x80000000

def maxInt32 : Int := 0x7FFFFFFF

def minInt64 : Int := -0x8000000000000000

def maxInt64 : Int := 0x7FFFFFFFFFFFFFFF

def isInt64 (n : Int) : Bool :=
  minInt64 ≤ n && n ≤ maxInt64

end Word

end Segments
