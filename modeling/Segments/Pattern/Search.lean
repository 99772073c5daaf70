import Segments.Pattern.Expr

namespace Segments.Pattern

open Text

/-- A set of places in a text of `n` characters, as `n + 1` truth values. -/
abbrev Places := List Bool

structure Surroundings where
  before : Option Char
  after : Option Char
  deriving DecidableEq, Repr

structure Subject where
  chars : List Char
  around : List Surroundings

def surroundings (before : Option Char) : List Char → List Surroundings
  | [] => [⟨before, none⟩]
  | c :: cs => ⟨before, some c⟩ :: surroundings (some c) cs

def Subject.ofChars (cs : List Char) : Subject :=
  ⟨cs, surroundings none cs⟩

def isIn (s : CodeSet) (c : Option Char) : Bool :=
  c.any s.contains

def isAsciiWord (c : Option Char) : Bool :=
  isIn AsciiClass.word.set c

def isWord (c : Option Char) : Bool :=
  isIn wordSet c

def Look.holds (p : Surroundings) : Look → Bool
  | .textStart => p.before.isNone
  | .textEnd => p.after.isNone
  | .lineStart => p.before.isNone || p.before == some '\n'
  | .lineEnd => p.after.isNone || p.after == some '\n'
  | .crlfStart =>
    p.before.isNone || p.before == some '\n' || (p.before == some '\r' && p.after != some '\n')
  | .crlfEnd =>
    p.after.isNone || p.after == some '\r' || (p.after == some '\n' && p.before != some '\r')
  | .word => isWord p.before != isWord p.after
  | .notWord => isWord p.before == isWord p.after
  | .wordStart => !isWord p.before && isWord p.after
  | .wordEnd => isWord p.before && !isWord p.after
  | .wordStartHalf => !isWord p.before
  | .wordEndHalf => !isWord p.after
  | .asciiWord => isAsciiWord p.before != isAsciiWord p.after
  | .asciiNotWord => isAsciiWord p.before == isAsciiWord p.after
  | .asciiWordStart => !isAsciiWord p.before && isAsciiWord p.after
  | .asciiWordEnd => isAsciiWord p.before && !isAsciiWord p.after
  | .asciiWordStartHalf => !isAsciiWord p.before
  | .asciiWordEndHalf => !isAsciiWord p.after

def advance (s : CodeSet) (chars : List Char) (starts : Places) : Places :=
  false :: List.zipWith (fun here c => here && s.contains c) starts chars

def onlyWhere (kind : Look) (around : List Surroundings) (starts : Places) : Places :=
  List.zipWith (fun here p => here && kind.holds p) starts around

def either (a b : Places) : Places :=
  List.zipWith (· || ·) a b

def without (a b : Places) : Places :=
  List.zipWith (fun x y => x && !y) a b

def nowhere (starts : Places) : Places :=
  starts.map fun _ => false

def after (step : Places → Places) : Nat → Places → Places
  | 0, at_ => at_
  | n + 1, at_ => after step n (step at_)

/-- The places after at most `n` steps: `reached` so far, `latest` of them just now. -/
def within (step : Places → Places) : Nat → Places → Places → Places
  | 0, _, reached => reached
  | n + 1, latest, reached =>
    let fresh := without (step latest) reached
    if fresh.any id then within step n fresh (either reached fresh) else reached

/-- Repeated steps. More than one for each character, and one more, bring nothing new: of so
many some do not advance, and can be left out or repeated. -/
def repeated (step : Places → Places) (count : Count) (starts : Places) : Places :=
  let bound := starts.length
  let first := after step (min count.least bound) starts
  let more := match count.most with
    | some m => min (m - count.least) bound
    | none => bound
  within step more first first

/-- The places where an expression may end that starts at one of `starts`. -/
def Expr.ends (subject : Subject) (starts : Places) : Expr → Places
  | .empty => starts
  | .one s => advance s subject.chars starts
  | .look kind => onlyWhere kind subject.around starts
  | .capture body => body.ends subject starts
  | .repetition count body => repeated (fun at_ => body.ends subject at_) count starts
  | .concat parts => inTurn starts parts
  | .alternation branches => oneOf starts branches
where
  inTurn (starts : Places) : List Expr → Places
    | [] => starts
    | e :: rest => inTurn (e.ends subject starts) rest
  oneOf (starts : Places) : List Expr → Places
    | [] => nowhere starts
    | e :: rest => either (e.ends subject starts) (oneOf starts rest)

/-- The expression is found if it ends anywhere when it may start everywhere. -/
def Expr.found (e : Expr) (cs : List Char) : Bool :=
  (e.ends (.ofChars cs) (true :: cs.map fun _ => true)).any id

end Segments.Pattern
