import Segments.Number.Double
import Segments.Text.Basic
import Segments.Text.Digits

namespace Segments.Double

open Text

def readExponent? (cs : List Char) : Option Int :=
  let (negative, ds) := match cs with
    | '-' :: r => (true, r)
    | '+' :: r => (false, r)
    | r => (false, r)
  if ds.isEmpty || !ds.all isDigit then none
  else
    let n : Int := decimalValue ds
    some (if negative then -n else n)

def readMagnitude? (negative : Bool) (cs : List Char) : Option Double :=
  let whole := cs.takeWhile isDigit
  let (fraction, rest) := match cs.dropWhile isDigit with
    | '.' :: r => (r.takeWhile isDigit, r.dropWhile isDigit)
    | r => ([], r)
  if whole.isEmpty && fraction.isEmpty then none
  else
    let exponent? := match rest with
      | [] => some 0
      | c :: r => if c == 'e' || c == 'E' then readExponent? r else none
    exponent?.map fun e =>
      ofDecimal negative (decimalValue (whole ++ fraction)) (e - fraction.length)

def readName? (negative : Bool) (cs : List Char) : Option Double :=
  let name := String.ofList (lowerAscii cs)
  if name == "inf" || name == "infinity" then some (ofPlace negative infinity)
  else if name == "nan" then some .nan
  else none

def readSigned? (negative : Bool) (cs : List Char) : Option Double :=
  match readMagnitude? negative cs with
  | some x => some x
  | none => readName? negative cs

/-- Reads the whole text: an optional sign, digits with an optional point among or around them, an
optional exponent; or a name of infinity or of not-a-number in any case. -/
def read? : List Char → Option Double
  | '-' :: r => readSigned? true r
  | '+' :: r => readSigned? false r
  | r => readSigned? false r

def readFinite? (cs : List Char) : Option Double :=
  (read? cs).filter isFinite

end Segments.Double
