import Segments.Number.Shortest

namespace Segments.Double

structure Layout where
  /-- Exponents of the leading digit from here on are written out as such. -/
  longFrom : Option Int
  /-- Exponents of the leading digit below this one are written out as such. -/
  shortBelow : Option Int
  /-- Whether a whole number shows a zero after the point. -/
  pointZero : Bool
  tie : Tie

/-- Never an exponent, and no fraction on a whole number. -/
def Layout.plain : Layout :=
  { longFrom := none, shortBelow := none, pointZero := false, tie := .up }

/-- The form of a number in JSON text: an exponent from `1e+16` up and below `0.00001`. -/
def Layout.json : Layout :=
  { longFrom := some 16, shortBelow := some (-5), pointZero := true, tie := .even }

def digitsOf (n : Nat) : List Char :=
  Nat.toDigits 10 n

def zeros (n : Nat) : List Char :=
  List.replicate n '0'

def withPoint (digits : List Char) (lead : Nat) : List Char :=
  digits.take lead ++ '.' :: digits.drop lead

def positional (pointZero : Bool) (d : Decimal) : List Char :=
  let digits := digitsOf d.digits
  if 0 ≤ d.scale then
    digits ++ zeros d.scale.toNat ++ (if pointZero then ['.', '0'] else [])
  else
    let places := (-d.scale).toNat
    if digits.length > places then withPoint digits (digits.length - places)
    else '0' :: '.' :: (zeros (places - digits.length) ++ digits)

def scientific (d : Decimal) (lead : Int) : List Char :=
  let digits := digitsOf d.digits
  let body := if digits.length ≤ 1 then digits else withPoint digits 1
  let sign := if lead < 0 then '-' else '+'
  body ++ 'e' :: sign :: digitsOf lead.natAbs

def renderPlace (layout : Layout) (p : Nat) : List Char :=
  let d := shortest layout.tie p
  let lead : Int := (digitsOf d.digits).length - 1 + d.scale
  let long := match layout.longFrom with
    | some n => decide (n ≤ lead)
    | none => false
  let short := match layout.shortBelow with
    | some n => decide (lead < n)
    | none => false
  if p != 0 && (long || short) then scientific d lead else positional layout.pointZero d

def renderWith (layout : Layout) : Double → String
  | .nan => "NaN"
  | .number s p =>
    let body := if p.val < infinity then renderPlace layout p else ['i', 'n', 'f']
    String.ofList (if s then '-' :: body else body)

def render (x : Double) : String :=
  renderWith .plain x

def renderJson (x : Double) : String :=
  renderWith .json x

/-- A whole number below `10 ^ 15` is written as one, so that minus zero is `0`; anything else
is written plainly. -/
def display (x : Double) : String :=
  match x.toInt? with
  | some n => if n.natAbs < 1000000000000000 then toString n else x.render
  | none => x.render

end Segments.Double
