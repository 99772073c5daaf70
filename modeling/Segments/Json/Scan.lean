import Segments.Json.Basic
import Segments.Json.Fault
import Segments.Number.Word
import Segments.Text.Digits

namespace Segments.Json

open Text

abbrev Scan (α : Type) := Bytes → Except Fault (α × Bytes)

def isBlankByte (b : UInt8) : Bool :=
  b == 32 || b == 10 || b == 9 || b == 13

def skipBlanks : Bytes → Bytes
  | [] => []
  | b :: bs => if isBlankByte b then skipBlanks bs else b :: bs

def finishWord : Bytes → Bytes → Except Fault Bytes
  | [], rest => .ok rest
  | _ :: _, [] => .error (.before .endInValue [])
  | w :: ws, b :: rest =>
    if w == b then finishWord ws rest else .error (.before .expectedWord rest)

def isDigitByte (b : UInt8) : Bool :=
  48 ≤ b && b ≤ 57

def digitOf (b : UInt8) : Nat :=
  b.toNat - 48

def maxNatural : Nat := Word.maxNatural64

/-- The number `significand * 10 ^ exponent`, scaled by powers of ten that are themselves
rounded, so that the last place may differ from the nearest number. -/
def scaleByTens : Nat → Nat → Int → Option Nat
  | 0, p, _ => some p
  | fuel + 1, p, e =>
    if e.natAbs ≤ 308 then
      let q := Double.tenPlace e.natAbs
      if 0 ≤ e then
        let r := Double.timesPlace p q
        if r ≥ Double.infinity then none else some r
      else some (Double.overPlace p q)
    else if p == 0 then some 0
    else if 0 ≤ e then none
    else scaleByTens fuel (Double.overPlace p (Double.tenPlace 308)) (e + 308)

def floatFrom (negative : Bool) (significand : Nat) (exponent : Int) (rest : Bytes) :
    Except Fault (Number × Bytes) :=
  match scaleByTens 10 (Double.nearest significand 1) exponent with
  | some p => .ok (.float (.ofPlace negative p), rest)
  | none => .error (.before .outOfRange rest)

def takeFitting : Nat → Nat → Bytes → Nat × Nat × Bytes
  | significand, count, [] => (significand, count, [])
  | significand, count, b :: rest =>
    if isDigitByte b && significand * 10 + digitOf b ≤ maxNatural then
      takeFitting (significand * 10 + digitOf b) (count + 1) rest
    else (significand, count, b :: rest)

def skipDigits : Bytes → Nat × Bytes
  | [] => (0, [])
  | b :: rest =>
    if isDigitByte b then
      let (n, r) := skipDigits rest
      (n + 1, r)
    else (0, b :: rest)

/-- The largest exponent that is kept. -/
def maxExponent : Nat := 0x7FFFFFFF

def takeExponent : Nat → Bytes → Except Bytes (Nat × Bytes)
  | n, [] => .ok (n, [])
  | n, b :: rest =>
    if isDigitByte b then
      if n * 10 + digitOf b ≤ maxExponent then takeExponent (n * 10 + digitOf b) rest
      else .error rest
    else .ok (n, b :: rest)

def scanExponent (negative : Bool) (significand : Nat) (start : Int) (bytes : Bytes) :
    Except Fault (Number × Bytes) :=
  let (down, bytes) := match bytes with
    | 43 :: r => (false, r)
    | 45 :: r => (true, r)
    | r => (false, r)
  match bytes with
  | [] => .error (.before .endInValue [])
  | b :: rest =>
    if !isDigitByte b then .error (.before .invalidNumber rest)
    else
      match takeExponent (digitOf b) rest with
      | .ok (n, r) =>
        floatFrom negative significand (if down then start - n else start + n) r
      | .error r =>
        if significand != 0 && !down then .error (.before .outOfRange r)
        else .ok (.float (.ofPlace negative 0), (skipDigits r).2)

def isExponentMark (b : UInt8) : Bool :=
  b == 101 || b == 69

def scanScale (negative : Bool) (significand : Nat) (exponent : Int) : Bytes → Except Fault (Number × Bytes)
  | [] => floatFrom negative significand exponent []
  | b :: rest =>
    if isExponentMark b then scanExponent negative significand exponent rest
    else floatFrom negative significand exponent (b :: rest)

/-- The digits after the point. Those that no longer fit are passed over. -/
def scanFraction (negative : Bool) (significand : Nat) (start : Int) (bytes : Bytes) :
    Except Fault (Number × Bytes) :=
  let (n, count, rest) := takeFitting significand 0 bytes
  match rest with
  | [] =>
    if count == 0 then .error (.on .endInValue [])
    else floatFrom negative n (start - count) []
  | b :: _ =>
    if isDigitByte b then scanScale negative n (start - count) (skipDigits rest).2
    else if count == 0 then .error (.on .invalidNumber rest)
    else scanScale negative n (start - count) rest

def wholeNumber (negative : Bool) (n : Nat) : Number :=
  if !negative then .natural n
  else if n == 0 || n > 0x8000000000000000 then .float (.ofRatio true n 1)
  else .negative n

def scanNumber (negative : Bool) : Scan Number
  | [] => .error (.before .endInValue [])
  | b :: rest =>
    if !isDigitByte b then .error (.before .invalidNumber rest)
    else
      let (n, _, after) := if b == 48 then (0, 0, rest) else takeFitting (digitOf b) 1 rest
      match after with
      | [] => .ok (wholeNumber negative n, [])
      | c :: r =>
        if isDigitByte c then
          if b == 48 then .error (.on .invalidNumber after)
          else
            let (extra, r) := skipDigits after
            match r with
            | 46 :: r => scanFraction negative n extra r
            | r => scanScale negative n extra r
        else if c == 46 then scanFraction negative n 0 r
        else if isExponentMark c then scanExponent negative n 0 r
        else .ok (wholeNumber negative n, after)

def hexOf? (b : UInt8) : Option Nat :=
  hexValue? (Char.ofNat b.toNat)

def scanHex : Scan Nat
  | a :: b :: c :: d :: rest =>
    match hexOf? a, hexOf? b, hexOf? c, hexOf? d with
    | some a, some b, some c, some d => .ok (((a * 16 + b) * 16 + c) * 16 + d, rest)
    | _, _, _, _ => .error (.before .invalidEscape rest)
  | _ => .error (.before .endInString [])

def scanPair (first : Nat) : Scan Bytes
  | [] => .error (.before .endInString [])
  | b :: rest =>
    if b != 92 then .error (.before .unfinishedPair rest)
    else
      match rest with
      | [] => .error (.before .endInString [])
      | u :: rest =>
        if u != 117 then .error (.before .unfinishedPair rest)
        else do
          let (second, rest) ← scanHex rest
          if second < 0xDC00 || second > 0xDFFF then .error (.before .loneSurrogate rest)
          else .ok (encodeChar (Char.ofNat ((first - 0xD800) * 1024 + (second - 0xDC00) + 0x10000)), rest)

def scanEscape : Scan Bytes
  | [] => .error (.before .endInString [])
  | b :: rest =>
    if b == 34 || b == 92 || b == 47 then .ok ([b], rest)
    else if b == 98 then .ok ([8], rest)
    else if b == 102 then .ok ([12], rest)
    else if b == 110 then .ok ([10], rest)
    else if b == 114 then .ok ([13], rest)
    else if b == 116 then .ok ([9], rest)
    else if b == 117 then do
      let (n, rest) ← scanHex rest
      if 0xDC00 ≤ n && n ≤ 0xDFFF then .error (.before .loneSurrogate rest)
      else if n < 0xD800 || n > 0xDBFF then .ok (encodeChar (Char.ofNat n), rest)
      else scanPair n rest
    else .error (.before .invalidEscape rest)

/-- The bytes of a quoted text after its opening quote, collected in reverse. A control character
that is not escaped is refused. -/
def scanQuoted : Nat → Bytes → Scan Bytes
  | 0, _, rest => .error (.before .endInString rest)
  | _ + 1, _, [] => .error (.before .endInString [])
  | fuel + 1, done, b :: rest =>
    if b == 34 then .ok (done.reverse, rest)
    else if b == 92 then do
      let (bs, rest) ← scanEscape rest
      scanQuoted fuel (bs.reverse ++ done) rest
    else if b < 32 then .error (.before .controlCharacter rest)
    else scanQuoted fuel (b :: done) rest

def scanText : Scan String := fun bytes => do
  let (bs, rest) ← scanQuoted (bytes.length + 1) [] bytes
  match decode? bs with
  | some cs => .ok (String.ofList cs, rest)
  | none => .error (.before .invalidCodePoint rest)

end Segments.Json
