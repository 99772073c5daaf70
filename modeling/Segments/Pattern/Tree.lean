

namespace Segments.Pattern

inductive Spelling
  | plain
  /-- A backslash before a character that is no letter or digit. -/
  | escaped
  /-- A backslash and a letter. -/
  | named
  /-- A number of exactly two hexadecimal digits. -/
  | byte
  | code
  deriving DecidableEq, Repr

structure Character where
  char : Char
  spelling : Spelling
  deriving DecidableEq, Repr

inductive Shorthand
  | digit
  | space
  | word
  deriving DecidableEq, Repr

inductive AsciiClass
  | alnum
  | alpha
  | ascii
  | blank
  | cntrl
  | digit
  | graph
  | lower
  | print
  | punct
  | space
  | upper
  | word
  | xdigit
  deriving DecidableEq, Repr

inductive SetOperation
  | intersection
  | difference
  | symmetricDifference
  deriving DecidableEq, Repr

inductive PropertyQuery
  | alone (name : String)
  | pair (name value : String)
  deriving DecidableEq, Repr

inductive Members
  | nothing
  | character (c : Character)
  | range (first last : Character)
  | ascii (cls : AsciiClass) (negated : Bool)
  | shorthand (cls : Shorthand) (negated : Bool)
  | property (query : PropertyQuery) (negated : Bool)
  | bracketed (members : Members) (negated : Bool)
  | union (items : List Members)
  | operation (op : SetOperation) (left right : Members)
  deriving Repr

inductive Boundary
  | lineStart
  | lineEnd
  | textStart
  | textEnd
  | word
  | notWord
  | wordStart
  | wordEnd
  | wordStartHalf
  | wordEndHalf
  deriving DecidableEq, Repr

inductive Flag
  | caseless
  | multiLine
  | dotAll
  | swapGreed
  | unicode
  | crlf
  | spaced
  deriving DecidableEq, Repr

structure Setting where
  flag : Flag
  value : Bool
  deriving DecidableEq, Repr

inductive Grouping
  | numbered
  | named (name : String)
  /-- A group that is not captured, with the flags that hold in it. -/
  | plain (settings : List Setting)
  deriving DecidableEq, Repr

structure Count where
  least : Nat
  most : Option Nat
  deriving DecidableEq, Repr

inductive Tree
  | nothing
  /-- Flags that hold for the rest of the group. -/
  | settings (settings : List Setting)
  | character (c : Character)
  | anyChar
  | boundary (kind : Boundary)
  | shorthand (cls : Shorthand) (negated : Bool)
  | property (query : PropertyQuery) (negated : Bool)
  | bracketed (members : Members) (negated : Bool)
  | repetition (count : Count) (lazy : Bool) (body : Tree)
  | group (kind : Grouping) (body : Tree)
  | concat (parts : List Tree)
  | alternation (branches : List Tree)
  deriving Repr

def Members.depth : Members → Nat
  | .bracketed members _ => members.depth + 1
  | .union items => depths items + 1
  | .operation _ left right => max left.depth right.depth + 1
  | _ => 0
where
  depths : List Members → Nat
    | [] => 0
    | m :: rest => max m.depth (depths rest)

def Tree.depth : Tree → Nat
  | .bracketed members _ => members.depth + 1
  | .repetition _ _ body => body.depth + 1
  | .group _ body => body.depth + 1
  | .concat parts => depths parts + 1
  | .alternation branches => depths branches + 1
  | _ => 0
where
  depths : List Tree → Nat
    | [] => 0
    | t :: rest => max t.depth (depths rest)

end Segments.Pattern
