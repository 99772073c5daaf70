import Segments.Pattern.Classes

namespace Segments.Pattern

open Text

inductive Look
  | textStart
  | textEnd
  | lineStart
  | lineEnd
  | crlfStart
  | crlfEnd
  | word
  | notWord
  | wordStart
  | wordEnd
  | wordStartHalf
  | wordEndHalf
  | asciiWord
  | asciiNotWord
  | asciiWordStart
  | asciiWordEnd
  | asciiWordStartHalf
  | asciiWordEndHalf
  deriving DecidableEq, Repr

/-- What a pattern means: sets of characters, conditions on the place between two characters, and
how they are put together. The flags that hold where a part stands have been taken into account, so
an expression has none. -/
inductive Expr
  | empty
  | one (set : CodeSet)
  | look (kind : Look)
  | capture (body : Expr)
  | repetition (count : Count) (body : Expr)
  | concat (parts : List Expr)
  | alternation (branches : List Expr)
  deriving Repr

structure Flags where
  caseless : Bool
  multiLine : Bool
  dotAll : Bool
  unicode : Bool
  crlf : Bool
  deriving DecidableEq, Repr

/-- The flags at the start of every pattern: case does not count. -/
def Flags.start : Flags :=
  ⟨true, false, false, true, false⟩

def Flags.set (flags : Flags) (s : Setting) : Flags :=
  match s.flag with
  | .caseless => { flags with caseless := s.value }
  | .multiLine => { flags with multiLine := s.value }
  | .dotAll => { flags with dotAll := s.value }
  | .unicode => { flags with unicode := s.value }
  | .crlf => { flags with crlf := s.value }
  | .swapGreed | .spaced => flags

def Flags.setAll (flags : Flags) (settings : List Setting) : Flags :=
  settings.foldl Flags.set flags

def foldAscii (s : CodeSet) : CodeSet :=
  let others := (List.range 26).flatMap fun i =>
    (if s.containsCode (65 + i) then [97 + i] else []) ++
      (if s.containsCode (97 + i) then [65 + i] else [])
  s.union (.ofCodes others)

def Flags.fold (flags : Flags) (s : CodeSet) : CodeSet :=
  if !flags.caseless then s else if flags.unicode then s.fold else foldAscii s

/-- Other cases are added before the complement is taken. Where only ASCII counts, a set that
leaves ASCII is no set of characters. -/
def Flags.finish? (flags : Flags) (negated : Bool) (s : CodeSet) : Option CodeSet :=
  let folded := flags.fold s
  let result := if negated then folded.complement else folded
  if flags.unicode || result.isAscii then some result else none

/-- A member that is a single character. Where only ASCII counts, others cannot be members, nor
can a character be a byte beyond ASCII. -/
def Flags.member? (flags : Flags) (c : Character) : Option Nat :=
  if flags.unicode || c.char.toNat < 128 then some c.char.toNat else none

def Flags.shorthand? (flags : Flags) (cls : Shorthand) (negated : Bool) : Option CodeSet :=
  let s := if flags.unicode then cls.set else cls.asciiSet
  let result := if negated then s.complement else s
  if flags.unicode || result.isAscii then some result else none

def Flags.property? (flags : Flags) (query : PropertyQuery) (negated : Bool) : Option CodeSet :=
  if !flags.unicode then none
  else query.set?.bind fun s => flags.finish? negated s

def SetOperation.apply : SetOperation → CodeSet → CodeSet → CodeSet
  | .intersection, s, t => s.inter t
  | .difference, s, t => s.diff t
  | .symmetricDifference, s, t => s.symmDiff t

def Flags.members? (flags : Flags) : Members → Option CodeSet
  | .nothing => some .empty
  | .character c => do
    let n ← flags.member? c
    some (.single n n)
  | .range a b => do
    let m ← flags.member? a
    let n ← flags.member? b
    some (.single m n)
  | .ascii cls negated => flags.finish? negated cls.set
  | .shorthand cls negated => flags.shorthand? cls negated
  | .property query negated => flags.property? query negated
  | .bracketed members negated => do
    let s ← flags.members? members
    flags.finish? negated s
  | .union items => all items
  | .operation op left right => do
    let s ← flags.members? left
    let t ← flags.members? right
    some (op.apply (flags.fold s) (flags.fold t))
where
  all : List Members → Option CodeSet
    | [] => some .empty
    | m :: rest => do
      let s ← flags.members? m
      let t ← all rest
      some (s.union t)

def Flags.character? (flags : Flags) (c : Character) : Option CodeSet :=
  if flags.unicode then
    if flags.caseless then some (.ofCodes (orbitOf c.char)) else some (.ofChar c.char)
  else if c.spelling == .byte && c.char.toNat ≥ 128 then none
  else some (flags.fold (.ofChar c.char))

def Flags.anyChar? (flags : Flags) : Option CodeSet :=
  if !flags.unicode then none
  else if flags.dotAll then some .full
  else if flags.crlf then some (CodeSet.ofCodes [10, 13]).complement
  else some (CodeSet.ofCodes [10]).complement

def Flags.look (flags : Flags) : Boundary → Look
  | .lineStart =>
    if !flags.multiLine then .textStart else if flags.crlf then .crlfStart else .lineStart
  | .lineEnd =>
    if !flags.multiLine then .textEnd else if flags.crlf then .crlfEnd else .lineEnd
  | .textStart => .textStart
  | .textEnd => .textEnd
  | .word => if flags.unicode then .word else .asciiWord
  | .notWord => if flags.unicode then .notWord else .asciiNotWord
  | .wordStart => if flags.unicode then .wordStart else .asciiWordStart
  | .wordEnd => if flags.unicode then .wordEnd else .asciiWordEnd
  | .wordStartHalf => if flags.unicode then .wordStartHalf else .asciiWordStartHalf
  | .wordEndHalf => if flags.unicode then .wordEndHalf else .asciiWordEndHalf

/-- The meaning of a tree where `flags` hold, and the flags that hold after it. -/
def Expr.ofTree? (flags : Flags) : Tree → Option (Expr × Flags)
  | .nothing => some (.empty, flags)
  | .settings settings => some (.empty, flags.setAll settings)
  | .character c => (flags.character? c).map fun s => (.one s, flags)
  | .anyChar => flags.anyChar?.map fun s => (.one s, flags)
  | .boundary kind => some (.look (flags.look kind), flags)
  | .shorthand cls negated => (flags.shorthand? cls negated).map fun s => (.one s, flags)
  | .property query negated => (flags.property? query negated).map fun s => (.one s, flags)
  | .bracketed members negated =>
    ((flags.members? members).bind (flags.finish? negated)).map fun s => (.one s, flags)
  | .repetition count _ body => do
    let (e, _) ← Expr.ofTree? flags body
    some (.repetition count e, flags)
  | .group kind body =>
    match kind with
    | .plain settings => do
      let (e, _) ← Expr.ofTree? (flags.setAll settings) body
      some (e, flags)
    | _ => do
      let (e, _) ← Expr.ofTree? flags body
      some (.capture e, flags)
  | .concat parts => do
    let (es, flags) ← all flags parts
    some (.concat es, flags)
  | .alternation branches => do
    let (es, flags) ← all flags branches
    some (.alternation es, flags)
where
  /-- Flags set in one part hold in the next. -/
  all (flags : Flags) : List Tree → Option (List Expr × Flags)
    | [] => some ([], flags)
    | t :: rest => do
      let (e, flags) ← Expr.ofTree? flags t
      let (es, flags) ← all flags rest
      some (e :: es, flags)

end Segments.Pattern
