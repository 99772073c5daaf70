import Segments.Text.Basic
import Segments.Text.Digits

namespace Segments.Query

open Text

inductive Token
  | word (name : String)
  /-- A name between double quotes, whose case counts. -/
  | quoted (name : String)
  /-- A text between single quotes. -/
  | literal (text : String)
  | whole (n : Nat)
  | mark (n : Nat)
  | sign (chars : String)
  deriving DecidableEq, Repr

/-- Where in a token the reader is; characters that belong to it are kept the last one first. -/
inductive Place
  | between
  | inWord (done : List Char)
  | inWhole (done : List Char)
  | inMark (done : List Char)
  | inSign (done : List Char)
  | inLiteral (done : List Char)
  | inQuoted (done : List Char)
  deriving DecidableEq, Repr

def isNameStart (c : Char) : Bool :=
  c.isAlpha || c == '_'

def isNamePart (c : Char) : Bool :=
  c.isAlphanum || c == '_'

def isOperator (c : Char) : Bool :=
  c == '=' || c == '<' || c == '>' || c == '~' || c == '*' || c == ':'

def isDelimiter (c : Char) : Bool :=
  c == '(' || c == ')' || c == ',' || c == '.'

namespace Place

def close? : Place → Option (List Token)
  | .between => some []
  | .inWord done => some [.word (String.ofList (lowerAscii done.reverse))]
  | .inWhole done => some [.whole (decimalValue done.reverse)]
  | .inMark [] => none
  | .inMark done => some [.mark (decimalValue done.reverse)]
  | .inSign done => some [.sign (String.ofList done.reverse)]
  | .inLiteral _ | .inQuoted _ => none

def start? (c : Char) : Option (List Token × Place) :=
  if c == ' ' then some ([], .between)
  else if isNameStart c then some ([], .inWord [c])
  else if isDigit c then some ([], .inWhole [c])
  else if c == '$' then some ([], .inMark [])
  else if isOperator c then some ([], .inSign [c])
  else if isDelimiter c then some ([.sign (String.ofList [c])], .between)
  else if c == '\'' then some ([], .inLiteral [])
  else if c == '"' then some ([], .inQuoted [])
  else none

/-- The tokens that end before a character, and the place after it. -/
def next? (p : Place) (c : Char) : Option (List Token × Place) :=
  let fresh : Option (List Token × Place) := do
    let ended ← p.close?
    let (whole, next) ← start? c
    some (ended ++ whole, next)
  match p with
  | .between => start? c
  | .inWord done => if isNamePart c then some ([], .inWord (c :: done)) else fresh
  | .inWhole done => if isDigit c then some ([], .inWhole (c :: done)) else fresh
  | .inMark done => if isDigit c then some ([], .inMark (c :: done)) else fresh
  | .inSign done => if isOperator c then some ([], .inSign (c :: done)) else fresh
  | .inLiteral done =>
    if c == '\'' then some ([.literal (String.ofList done.reverse)], .between)
    else some ([], .inLiteral (c :: done))
  | .inQuoted done =>
    if c == '"' then some ([.quoted (String.ofList done.reverse)], .between)
    else some ([], .inQuoted (c :: done))

def scan? (p : Place) : List Char → Option (List Token × Place)
  | [] => some ([], p)
  | c :: cs => do
    let (ended, p) ← p.next? c
    let (later, p) ← p.scan? cs
    some (ended ++ later, p)

/-- A text is taken apart piece by piece, each from the place where the one before it stopped. -/
theorem scan?_append {p q r : Place} {as bs : List Char} {ts us : List Token}
    (ha : p.scan? as = some (ts, q)) (hb : q.scan? bs = some (us, r)) :
    p.scan? (as ++ bs) = some (ts ++ us, r) := by
  induction as generalizing p ts with
  | nil =>
    simp only [scan?, Option.some.injEq, Prod.mk.injEq] at ha
    obtain ⟨rfl, rfl⟩ := ha
    simpa using hb
  | cons a as ih =>
    simp only [scan?, bind, Option.bind_eq_some_iff] at ha
    obtain ⟨⟨ended, p'⟩, hn, ⟨later, q'⟩, hs, he⟩ := ha
    simp only [Option.some.injEq, Prod.mk.injEq] at he
    obtain ⟨rfl, rfl⟩ := he
    simp [scan?, hn, ih hs, List.append_assoc]

/-- Digits that go on with the mark of a parameter. -/
theorem scan?_digits {done ds : List Char} (h : ∀ d ∈ ds, isDigit d = true) :
    (Place.inMark done).scan? ds = some ([], .inMark (ds.reverse ++ done)) := by
  induction ds generalizing done with
  | nil => rfl
  | cons d ds ih =>
    have hd := h d List.mem_cons_self
    simp [scan?, next?, hd, ih fun e he => h e (List.mem_cons_of_mem _ he)]

/-- A character that goes on with no token ends whatever can end. -/
theorem next?_of_close {p : Place} {c : Char} {last ts : List Token} {q : Place}
    (h : p.close? = some last) (hn : isNamePart c = false) (hd : isDigit c = false)
    (ho : isOperator c = false) (hs : start? c = some (ts, q)) :
    p.next? c = some (last ++ ts, q) := by
  cases p with
  | between =>
    simp only [close?, Option.some.injEq] at h
    simp [next?, hs, ← h]
  | inWord done => simp [next?, hs, h, hn]
  | inWhole done => simp [next?, hs, h, hd]
  | inMark done => simp [next?, hs, h, hd]
  | inSign done => simp [next?, hs, h, ho]
  | inLiteral done => cases h
  | inQuoted done => cases h

theorem scan?_blank {p : Place} {last : List Token} (h : p.close? = some last) :
    p.scan? [' '] = some (last, .between) := by
  have hn : p.next? ' ' = some (last ++ [], .between) :=
    next?_of_close h rfl rfl rfl rfl
  simp [scan?, hn]

theorem scan?_closing {p : Place} {last : List Token} (h : p.close? = some last) :
    p.scan? [')'] = some (last ++ [.sign ")"], .between) := by
  have hn : p.next? ')' = some (last ++ [.sign ")"], .between) :=
    next?_of_close h rfl rfl rfl rfl
  simp [scan?, hn]

theorem scan?_and {p : Place} {last : List Token} (h : p.close? = some last) :
    p.scan? " AND ".toList = some (last ++ [.word "and"], .between) := by
  have hand : Place.between.scan? "AND ".toList = some ([.word "and"], .between) := rfl
  exact scan?_append (scan?_blank h) hand

end Place

def tokens? (text : List Char) : Option (List Token) := do
  let (ended, p) ← Place.between.scan? text
  let last ← p.close?
  some (ended ++ last)

theorem tokens?_eq_some {text : List Char} {ts : List Token} :
    tokens? text = some ts ↔ ∃ ended p last,
      Place.between.scan? text = some (ended, p) ∧ p.close? = some last ∧ ended ++ last = ts := by
  simp only [tokens?, bind, Option.bind_eq_some_iff, Option.some.injEq, Prod.exists]
  constructor
  · rintro ⟨ended, p, hs, last, hc, rfl⟩
    exact ⟨ended, p, last, hs, hc, rfl⟩
  · rintro ⟨ended, p, last, hs, hc, rfl⟩
    exact ⟨ended, p, hs, last, hc, rfl⟩

theorem tokens?_and {as bs : List Char} {ts us : List Token} (ha : tokens? as = some ts)
    (hb : tokens? bs = some us) :
    tokens? (as ++ (" AND ".toList ++ bs)) = some (ts ++ .word "and" :: us) := by
  obtain ⟨ended, p, last, hs, hc, rfl⟩ := tokens?_eq_some.mp ha
  obtain ⟨later, q, final, hs', hc', rfl⟩ := tokens?_eq_some.mp hb
  refine tokens?_eq_some.mpr ⟨_, q, final,
    Place.scan?_append hs (Place.scan?_append (Place.scan?_and hc) hs'), hc', ?_⟩
  simp only [List.append_assoc, List.cons_append, List.nil_append]

theorem scan?_toDigits (n : Nat) :
    (Place.inMark []).scan? (Nat.toDigits 10 n) =
      some ([], .inMark (Nat.toDigits 10 n).reverse) := by
  have h : ∀ d ∈ Nat.toDigits 10 n, isDigit d = true := by
    intro d hd
    exact Nat.isDigit_of_mem_toDigits (b := 10) (by decide) (by decide) hd
  simpa using @Place.scan?_digits [] _ h

theorem close?_toDigits (n : Nat) :
    (Place.inMark (Nat.toDigits 10 n).reverse).close? = some [.mark n] := by
  have hv : decimalValue (Nat.toDigits 10 n) = n := Nat.ofDigitChars_ten_toDigits
  cases hd : (Nat.toDigits 10 n).reverse with
  | nil => exact absurd (List.reverse_eq_nil_iff.mp hd) Nat.toDigits_ne_nil
  | cons d ds => rw [Place.close?, ← hd, List.reverse_reverse, hv]; simp

end Segments.Query
