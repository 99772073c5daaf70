import Segments.Number.Word

namespace Segments.Text

def isDigit (c : Char) : Bool :=
  '0' ≤ c && c ≤ '9'

def digitValue (c : Char) : Nat :=
  c.toNat - 48

def decimalValue (cs : List Char) : Nat :=
  cs.foldl (fun n c => 10 * n + digitValue c) 0

def readNatural? (cs : List Char) : Option Nat :=
  let digits := match cs with
    | '+' :: r => r
    | r => r
  if digits.isEmpty || !digits.all isDigit then none else some (decimalValue digits)

/-- The whole number of 64 bits that a text writes, with or without a sign. -/
def readInt64? (cs : List Char) : Option Int :=
  let n? : Option Int := match cs with
    | '-' :: r =>
      if r.isEmpty || !r.all isDigit then none else some (-(decimalValue r : Int))
    | r => (readNatural? r).map Int.ofNat
  n?.filter Word.isInt64

def hexValue? (c : Char) : Option Nat :=
  if isDigit c then some (c.toNat - 48)
  else if 'a' ≤ c && c ≤ 'f' then some (c.toNat - 87)
  else if 'A' ≤ c && c ≤ 'F' then some (c.toNat - 55)
  else none

def hexDigits (n : Nat) : List Char :=
  Nat.toDigits 16 n

end Segments.Text
