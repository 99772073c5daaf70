import Segments.Number.Word
import Segments.Text.Basic
import Segments.Text.Blank
import Segments.Text.Digits
import Segments.Time.Instant

namespace Segments.Time

open Text

inductive Fault
  | outOfRange
  | impossible
  | invalid
  | tooShort
  | tooLong
  deriving DecidableEq, Repr

def Fault.message : Fault → String
  | .outOfRange => "input is out of range"
  | .impossible => "no possible date and time matching input"
  | .invalid => "input contains invalid characters"
  | .tooShort => "premature end of input"
  | .tooLong => "trailing input"

abbrev Reader (α : Type) := List Char → Except Fault (α × List Char)

def hasBytes : Nat → List Char → Bool
  | 0, _ => true
  | _ + 1, [] => false
  | n + 1, c :: cs => hasBytes (n + 1 - c.utf8Size) cs

def takeDigits : Nat → List Char → List Char × List Char
  | 0, cs => ([], cs)
  | _ + 1, [] => ([], [])
  | n + 1, c :: cs =>
    if isDigit c then
      let (ds, rest) := takeDigits n cs
      (c :: ds, rest)
    else ([], c :: cs)

def number (least most : Nat) : Reader Nat := fun cs =>
  if !hasBytes least cs then .error .tooShort
  else
    let (ds, rest) := takeDigits most cs
    let n := decimalValue ds
    if ds.length < least then .error .invalid
    else if !Word.isInt64 n then .error .outOfRange
    else .ok (n, rest)

def literal (c : Char) (cs : List Char) : Except Fault (List Char) :=
  match cs with
  | [] => .error .tooShort
  | d :: rest => if c == d then .ok rest else .error .invalid

def numberIn (low high least most : Nat) : Reader Nat := fun cs => do
  let (n, rest) ← number least most cs
  if low ≤ n && n ≤ high then .ok (n, rest) else .error .outOfRange

/-- Nanoseconds from the digits after the point; the tenth and later ones are passed over. -/
def fraction : Reader Nat := fun cs => do
  let (n, rest) ← number 1 9 cs
  let used := cs.length - rest.length
  .ok (n * tenTo (9 - used), rest.dropWhile isDigit)

def fraction? : Reader Nat
  | '.' :: cs => fraction cs
  | cs => .ok (0, cs)

structure Manner where
  /-- Four, two and two digits, no more and no fewer; otherwise fewer will do, after blanks,
  and the year may have a sign and any length. -/
  fixed : Bool
  /-- Blanks may stand before the marks between the parts. -/
  spaced : Bool

def Manner.strict : Manner := ⟨true, false⟩

def Manner.loose : Manner := ⟨false, false⟩

def Manner.spacious : Manner := ⟨false, true⟩

def Manner.part (m : Manner) (low high : Nat) : Reader Nat := fun cs =>
  if m.fixed then numberIn low high 2 2 cs else numberIn low high 1 2 (trimStart cs)

def Manner.mark (m : Manner) (c : Char) (cs : List Char) : Except Fault (List Char) :=
  literal c (if m.spaced then trimStart cs else cs)

def yearOf (n : Int) (rest : List Char) : Except Fault (Int × List Char) :=
  if Word.minInt32 ≤ n && n ≤ Word.maxInt32 then .ok (n, rest) else .error .outOfRange

def Manner.year (m : Manner) : Reader Int := fun cs => do
  if m.fixed then
    let (n, rest) ← number 4 4 cs
    yearOf n rest
  else
    match trimStart cs with
    | '-' :: r =>
      let (n, rest) ← number 1 r.length r
      yearOf (-n) rest
    | '+' :: r =>
      let (n, rest) ← number 1 r.length r
      yearOf n rest
    | r =>
      let (n, rest) ← number 1 4 r
      yearOf n rest

def Manner.date (m : Manner) : Reader Date := fun cs => do
  let (y, cs) ← m.year cs
  let cs ← m.mark '-' cs
  let (mo, cs) ← m.part 1 12 cs
  let cs ← m.mark '-' cs
  let (d, cs) ← m.part 1 31 cs
  .ok (⟨y, mo, d⟩, cs)

/-- Second 60 is the leap second of any minute. -/
def Manner.clock (m : Manner) : Reader TimeOfDay := fun cs => do
  let (h, cs) ← m.part 0 23 cs
  let cs ← m.mark ':' cs
  let (mi, cs) ← m.part 0 59 cs
  let cs ← m.mark ':' cs
  let (s, cs) ← m.part 0 60 cs
  let (n, cs) ← fraction? cs
  let base := h * 3600 + mi * 60
  .ok (if s == 60 then ⟨base + 59, 1000000000 + n⟩ else ⟨base + s, n⟩, cs)

def twoDigits : Reader Nat := fun cs =>
  if !hasBytes 2 cs then .error .tooShort
  else match cs with
    | a :: b :: rest => if isDigit a && isDigit b then .ok (decimalValue [a, b], rest) else .error .invalid
    | _ => .error .invalid

/-- Seconds ahead of universal time: `Z`, or a sign, hours and minutes. `between` passes over
what may stand between hours and minutes. The typographic minus sign is a minus too. -/
def offset (between : List Char → Except Fault (List Char)) : Reader Int := fun cs => do
  let signed (s : Int) (cs : List Char) : Except Fault (Int × List Char) := do
    let (h, cs) ← twoDigits cs
    let cs ← between cs
    let (m, cs) ← twoDigits cs
    if m ≥ 60 then .error .outOfRange
    else .ok (s * (h * 3600 + m * 60 : Nat), cs)
  match cs with
  | [] => .error .tooShort
  | 'Z' :: rest => .ok (0, rest)
  | 'z' :: rest => .ok (0, rest)
  | '+' :: rest => signed 1 rest
  | '-' :: rest => signed (-1) rest
  | '\u2212' :: rest => signed (-1) rest
  | _ => .error .invalid

def separator : Reader Unit
  | [] => .error .tooShort
  | c :: rest => if c == 't' || c == 'T' || c == ' ' then .ok ((), rest) else .error .invalid

def nothingLeft (cs : List Char) : Except Fault Unit :=
  if cs.isEmpty then .ok () else .error .tooLong

def Date.check (d : Date) : Except Fault Unit :=
  if d.Valid then .ok () else .error .outOfRange

def readStrict (cs : List Char) : Except Fault Instant := do
  let (d, cs) ← Manner.strict.date cs
  let ((), cs) ← separator cs
  let (t, cs) ← Manner.strict.clock cs
  let (o, cs) ← offset (literal ':') cs
  if o.natAbs ≥ 86400 then .error .outOfRange
  nothingLeft cs
  d.check
  match Instant.ofLocal? d t o with
  | some i => .ok i
  | none => .error .impossible

def readLocal (cs : List Char) : Except Fault Instant := do
  let (d, cs) ← Manner.loose.date cs
  let cs ← literal 'T' cs
  let (t, cs) ← Manner.loose.clock cs
  nothingLeft cs
  d.check
  .ok (Instant.ofParts d t)

/-- A date alone stands for its midnight in universal time. -/
def readDate (cs : List Char) : Except Fault Instant := do
  let (d, cs) ← Manner.loose.date cs
  nothingLeft cs
  d.check
  .ok (Instant.ofParts d ⟨0, 0⟩)

/-- Reads an instant in the first of the three forms that fits the trimmed text. -/
def Instant.read? (text : String) : Option Instant :=
  let cs := trim text.toList
  match readStrict cs, readLocal cs, readDate cs with
  | .ok i, _, _ => some i
  | _, .ok i, _ => some i
  | _, _, .ok i => some i
  | _, _, _ => none

/-- Passes over blanks and colons between the hours and minutes of an offset. -/
def colonsAndBlanks (cs : List Char) : Except Fault (List Char) :=
  .ok (cs.dropWhile fun c => c == ':' || isBlank c)

/-- The offset of a stored record: also the letters `UTC`. -/
def wireOffset : Reader Int := fun cs =>
  match dropLead? "utc".toList (lowerAscii (cs.take 3)) with
  | some _ => .ok (0, cs.drop 3)
  | none => offset colonsAndBlanks cs

def Instant.readWire (text : String) : Except Fault Instant := do
  let (d, cs) ← Manner.spacious.date text.toList
  let ((), cs) ← separator cs
  let (t, cs) ← Manner.spacious.clock cs
  let (o, cs) ← wireOffset (trimStart cs)
  nothingLeft (trimStart cs)
  d.check
  if o.natAbs ≥ 86400 then .error .outOfRange
  match Instant.ofLocal? d t o with
  | some i => .ok i
  | none => .error .impossible

end Segments.Time
