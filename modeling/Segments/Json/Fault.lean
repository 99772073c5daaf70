import Segments.Text.Utf8

namespace Segments.Json

open Text

inductive Code
  | endInList
  | endInObject
  | endInString
  | endInValue
  | expectedColon
  | expectedCommaOrBracket
  | expectedCommaOrBrace
  | expectedWord
  | expectedValue
  | invalidEscape
  | invalidNumber
  | outOfRange
  | invalidCodePoint
  | controlCharacter
  | nameNotText
  | loneSurrogate
  | trailingComma
  | trailingCharacters
  | unfinishedPair
  | tooDeep
  deriving DecidableEq, Repr

def Code.message : Code → String
  | .endInList => "EOF while parsing a list"
  | .endInObject => "EOF while parsing an object"
  | .endInString => "EOF while parsing a string"
  | .endInValue => "EOF while parsing a value"
  | .expectedColon => "expected `:`"
  | .expectedCommaOrBracket => "expected `,` or `]`"
  | .expectedCommaOrBrace => "expected `,` or `\x7d`"
  | .expectedWord => "expected ident"
  | .expectedValue => "expected value"
  | .invalidEscape => "invalid escape"
  | .invalidNumber => "invalid number"
  | .outOfRange => "number out of range"
  | .invalidCodePoint => "invalid unicode code point"
  | .controlCharacter => "control character (\\u0000-\\u001F) found while parsing a string"
  | .nameNotText => "key must be a string"
  | .loneSurrogate => "lone leading surrogate in hex escape"
  | .trailingComma => "trailing comma"
  | .trailingCharacters => "trailing characters"
  | .unfinishedPair => "unexpected end of hex escape"
  | .tooDeep => "recursion limit exceeded"

/-- A fault remembers how many bytes were left; line and column follow from the whole text. -/
structure Fault where
  code : Code
  /-- Bytes after the place of the fault. -/
  left : Nat
  deriving DecidableEq, Repr

def Fault.before (code : Code) (rest : Bytes) : Fault :=
  ⟨code, rest.length⟩

def Fault.on (code : Code) (rest : Bytes) : Fault :=
  ⟨code, rest.length - 1⟩

/-- Line and column after the first `count` bytes, lines from 1, columns from 0. -/
def position : Nat → Bytes → Nat × Nat
  | count, bytes =>
    (bytes.take count).foldl (fun p b => if b == 10 then (p.1 + 1, 0) else (p.1, p.2 + 1)) (1, 0)

def Fault.message (f : Fault) (input : Bytes) : String :=
  let p := position (input.length - f.left) input
  f.code.message ++ " at line " ++ toString p.1 ++ " column " ++ toString p.2

end Segments.Json
