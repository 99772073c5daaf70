import Segments.Pattern.Tidy
import Segments.Text.Utf8

namespace Segments.Pattern

open Text

abbrev ByteRange := Nat × Nat

/-- The largest code points that are encoded in one, two and three bytes. -/
def encodedBounds : List Nat := [0x7F, 0x7FF, 0xFFFF]

/-- Where a range of code points has to be cut so that each part is encoded as a product of byte
ranges: at the surrogates, at the bounds of encoded lengths, and at full blocks of tails. -/
def cut? (a b : Nat) : Option (Nat × Nat) :=
  if a < 0xE000 && b > 0xD7FF then some (0xD7FF, 0xE000)
  else
    match encodedBounds.find? fun m => a ≤ m && m < b with
    | some m => some (m, m + 1)
    | none =>
      if b ≤ 0x7F then none
      else
        [64, 4096, 262144].findSome? fun block =>
          if a / block == b / block then none
          else if a % block != 0 then
            some (a / block * block + block - 1, a / block * block + block)
          else if b % block != block - 1 then some (b / block * block - 1, b / block * block)
          else none

def byteRanges (a b : Nat) : List ByteRange :=
  List.zip ((encodeChar (Char.ofNat a)).map UInt8.toNat) ((encodeChar (Char.ofNat b)).map UInt8.toNat)

def byteSequences : Nat → Nat → Nat → List (List ByteRange)
  | 0, _, _ => []
  | fuel + 1, a, b =>
    if a > b then []
    else
      match cut? a b with
      | some (last, first) => byteSequences fuel a last ++ byteSequences fuel first b
      | none => [byteRanges a b]

def CodeSet.sequences (s : CodeSet) : List (List ByteRange) :=
  s.ranges.flatMap fun r => byteSequences 64 r.1 r.2

/-- Sequences by their first range, and what follows it. -/
def byFirst : List (List ByteRange) → List (ByteRange × List (List ByteRange))
  | [] => []
  | [] :: rest => byFirst rest
  | (r :: tail) :: rest =>
    match byFirst rest with
    | (s, tails) :: more => if r == s then (r, tail :: tails) :: more else (r, [tail]) :: (s, tails) :: more
    | [] => [(r, [tail])]

/-- The states that read sequences, each with the sequences it still has to read. -/
def readingStates : Nat → List (List ByteRange) → List (List (List ByteRange))
  | 0, _ => []
  | depth + 1, seqs =>
    seqs :: (byFirst seqs).flatMap fun g =>
      if g.2.all List.isEmpty then [] else readingStates depth g.2

/-- How large the machine for a pattern is, in bytes, forwards and backwards. The machine reads
encoded text, so a character of several bytes takes several states. -/
structure Size where
  forward : Nat
  backward : Nat
  deriving DecidableEq, Repr

namespace Size

def both (n : Nat) : Size :=
  ⟨n, n⟩

def add (a b : Size) : Size :=
  ⟨a.forward + b.forward, a.backward + b.backward⟩

def times (n : Nat) (a : Size) : Size :=
  ⟨n * a.forward, n * a.backward⟩

def state : Nat := 32

def edge : Nat := 8

def branch : Nat := 4

def choice : Size :=
  both (state + 2 * branch)

/-- A set of characters. Forwards, states that still have to read the same are one; backwards,
only sequences that start alike share states. -/
def ofSet (s : CodeSet) : Size :=
  match s.ranges, s.one? with
  | [], _ => both state
  | _, some n => both (state * (encodeChar (Char.ofNat n)).length)
  | ranges, none =>
    if s.isAscii then both (2 * state + edge * ranges.length)
    else
      let seqs := CodeSet.sequences s
      let states := readingStates 4 seqs
      let distinct := states.eraseDups
      let edges (ss : List (List (List ByteRange))) : Nat :=
        ss.foldl (fun n q => n + (byFirst q).length) 0
      ⟨state * (distinct.length + 1) + edge * edges distinct,
        state * (2 + edges states) + branch * seqs.length⟩

end Size

def Expr.consumes : Expr → Bool
  | .one s => !s.isEmpty
  | .empty | .look _ => false
  | .capture body => body.consumes
  | .repetition count body => count.least != 0 && body.consumes
  | .concat parts => any parts
  | .alternation branches => all branches
where
  any : List Expr → Bool
    | [] => false
    | e :: rest => e.consumes || any rest
  all : List Expr → Bool
    | [] => true
    | e :: rest => e.consumes && all rest

/-- Texts behind a state that reads several at once, in the parts between those that end there: no text
that ends is put off for a longer one behind it. -/
def untilEnds : List (List Nat) → List (List (List Nat))
  | [] => [[]]
  | [] :: rest => [] :: untilEnds rest
  | (b :: bs) :: rest =>
    match untilEnds rest with
    | part :: parts => ((b :: bs) :: part) :: parts
    | [] => [[b :: bs]]

def byByte (texts : List (List Nat)) : List (List (List Nat)) :=
  let firsts := (texts.filterMap List.head?).eraseDups
  firsts.map fun b => (texts.filter fun text => text.head? == some b).map (List.drop 1)

/-- The size of the states that read one byte of several texts at once, and the texts behind each of
them. Where a text ends more than once, only the first time counts. -/
def wordState (texts : List (List Nat)) : Nat × List (List (List Nat)) :=
  let parts := untilEnds (texts.takeWhile List.isEmpty |>.take 1 |>.append (texts.dropWhile List.isEmpty))
  let groups := parts.map byByte
  let reading := groups.foldl (fun n g =>
    match g with
    | [] => n
    | [_] => n + Size.state + Size.branch
    | _ => n + Size.state + Size.edge * g.length + Size.branch) 0
  (reading + Size.state + Size.branch * (parts.length - 1),
    groups.flatten.filter fun texts => texts.any fun text => !text.isEmpty)

/-- The size of the states that read the texts that are left, state by state. -/
def wordStates : Nat → Nat → List (List (List Nat)) → Nat
  | 0, total, _ => total
  | _ + 1, total, [] => total
  | fuel + 1, total, texts :: rest =>
    let (size, behind) := wordState texts
    wordStates fuel (total + size) (behind ++ rest)

/-- A choice between texts is made byte by byte. -/
def Size.ofWords (words : List (List Nat)) : Size :=
  let texts := words.map fun codes => codes.flatMap fun n => (encodeChar (Char.ofNat n)).map UInt8.toNat
  let fuel := texts.flatten.length + 1
  ⟨wordStates fuel state [texts], wordStates fuel state [texts.map List.reverse]⟩

def Expr.size : Expr → Size
  | .empty | .look _ => .both Size.state
  | .one s => .ofSet s
  | .capture body => body.size.add ⟨2 * Size.state, 0⟩
  | .concat es => sum es
  | .alternation es =>
    match es.mapM Expr.literal? with
    | some words => .ofWords words
    | none => (sum es).add (.both (2 * Size.state + Size.branch * es.length))
  | .repetition ⟨0, some 1⟩ body => (body.size.add Size.choice).add (.both Size.state)
  | .repetition ⟨0, none⟩ body =>
    if body.consumes then body.size.add Size.choice
    else (body.size.add (Size.choice.times 2)).add (.both Size.state)
  | .repetition ⟨least, none⟩ body => (body.size.times least).add Size.choice
  | .repetition ⟨least, some most⟩ body =>
    let needed := if least = 0 then Size.both Size.state else body.size.times least
    if least = most then needed
    else (needed.add (.both Size.state)).add ((body.size.add Size.choice).times (most - least))
where
  sum : List Expr → Size
    | [] => .both 0
    | e :: rest => e.size.add (sum rest)

def maxSize : Nat := 10485760

/-- What every machine has beside its expression: the search for a start, and the final state. -/
def frameSize : Size :=
  ⟨6 * Size.state + Size.edge + 2 * Size.branch, 4 * Size.state + Size.edge + 2 * Size.branch⟩

/-- Very many texts to choose from are searched for in another way, without a machine. -/
def Expr.isWordList : Expr → Bool
  | .alternation es => 3000 ≤ es.length && es.all fun e => e.literal?.isSome
  | _ => false

def Expr.isSmall (e : Expr) : Bool :=
  let size := e.size.add frameSize
  size.forward ≤ maxSize && size.backward ≤ maxSize

def Expr.fits (e : Expr) : Bool :=
  e.tidy.isWordList || e.tidy.isSmall

end Segments.Pattern
