import Segments.Number.Reading
import Segments.Settings.Value
import Segments.Text.Blank

namespace Segments.Settings.Yaml

open Text

structure Line where
  indent : Nat
  text : List Char
  deriving DecidableEq, Repr

/-- The text without a comment at its end. One starts at a number sign after a blank, outside of
quotes. -/
def withoutComment (quote : Option Char) (blank : Bool) : List Char → List Char
  | [] => []
  | c :: cs =>
    match quote with
    | some q => c :: withoutComment (if c == q then none else quote) false cs
    | none =>
      if c == '#' && blank then []
      else
        let quote := if blank && (c == '"' || c == '\'') then some c else none
        c :: withoutComment quote (isBlank c) cs

def lineOf? (cs : List Char) : Option Line :=
  let text := trim (withoutComment none true cs)
  if text.isEmpty || text == "---".toList then none
  else some ⟨(cs.takeWhile (· == ' ')).length, text⟩

def readSingle : List Char → Option (List Char × List Char)
  | '\'' :: '\'' :: cs => (readSingle cs).map fun (s, rest) => ('\'' :: s, rest)
  | '\'' :: cs => some ([], cs)
  | c :: cs => (readSingle cs).map fun (s, rest) => (c :: s, rest)
  | [] => none

def readDouble : List Char → Option (List Char × List Char)
  | '"' :: cs => some ([], cs)
  | '\\' :: c :: cs =>
    let char := match c with
      | 'n' => '\n'
      | 't' => '\t'
      | 'r' => '\r'
      | '0' => '\x00'
      | c => c
    (readDouble cs).map fun (s, rest) => (char :: s, rest)
  | c :: cs => (readDouble cs).map fun (s, rest) => (c :: s, rest)
  | [] => none

def readHex? (cs : List Char) : Option Int :=
  if cs.isEmpty then none
  else (cs.foldl (fun n? c => do return (← n?) * 16 + (← hexValue? c)) (some 0)).map Int.ofNat

def plain (cs : List Char) : Scalar :=
  let s := String.ofList cs
  if s == "" || s == "~" || s == "null" then .unit
  else if s == "true" then .boolean true
  else if s == "false" then .boolean false
  else
    let hex? := match cs with
      | '0' :: 'x' :: ds => readHex? ds
      | _ => none
    match hex?.or (readInt64? cs), Double.read? cs with
    | some n, _ => .whole n
    | none, some x => .real x
    | none, none => .text s

def readScalar? (origin : Origin) (cs : List Char) : Option Value :=
  match cs with
  | '\'' :: rest =>
    match readSingle rest with
    | some (s, []) => some (.scalar origin (.text (String.ofList s)))
    | _ => none
  | '"' :: rest =>
    match readDouble rest with
    | some (s, []) => some (.scalar origin (.text (String.ofList s)))
    | _ => none
  | ['\x7b', '\x7d'] => some (.table origin [])
  | ['[', ']'] => some (.list origin [])
  | cs => some (.scalar origin (plain cs))

def splitKey? (cs : List Char) : Option (List Char × List Char) :=
  let after (key rest : List Char) : Option (List Char × List Char) :=
    match trimStart rest with
    | ':' :: value => some (key, trim value)
    | _ => none
  match cs with
  | '\'' :: rest => do
    let (key, rest) ← readSingle rest
    after key rest
  | '"' :: rest => do
    let (key, rest) ← readDouble rest
    after key rest
  | cs => go [] cs
where
  go (done : List Char) : List Char → Option (List Char × List Char)
    | [] => none
    | [':'] => some (trim done.reverse, [])
    | ':' :: c :: rest =>
      if isBlank c then some (trim done.reverse, trim rest) else go (':' :: done) (c :: rest)
    | c :: rest => go (c :: done) rest

abbrev Read (α : Type) := Except Line α

def readBlock (origin : Origin) : Nat → List Line → Read Value
  | 0, _ => .ok (.scalar origin .unit)
  | _, [] => .ok (.scalar origin .unit)
  | fuel + 1, first :: rest =>
    match first.text with
    | '-' :: _ => do
      let items ← (first :: rest).mapM fun line =>
        match line.text with
        | '-' :: cs =>
          match readScalar? origin (trim cs) with
          | some v => .ok v
          | none => .error line
        | _ => .error line
      .ok (.list origin items)
    | _ => (readMembers origin fuel [] (first :: rest)).map (.table origin)
where
  readMembers (origin : Origin) :
      Nat → List (String × Value) → List Line → Read (List (String × Value))
    | 0, done, _ => .ok done
    | _, done, [] => .ok done
    | fuel + 1, done, line :: rest =>
      match splitKey? line.text with
      | none => .error line
      | some (key, value) => do
        let below := rest.takeWhile fun l => l.indent > line.indent
        let after := rest.dropWhile fun l => l.indent > line.indent
        let v ←
          if value.isEmpty then readBlock origin fuel below
          else if below.isEmpty then
            match readScalar? origin value with
            | some v => .ok v
            | none => .error line
          else .error line
        match after with
        | next :: _ =>
          if next.indent < line.indent then .error next
          else readMembers origin fuel (done ++ [(String.ofList key, v)]) after
        | [] => .ok (done ++ [(String.ofList key, v)])

/-- Lines `key: value`, with tables and lists of such lines set in below a key. -/
def read (origin : Origin) (text : String) : Except String Value :=
  let lines := (splitAt '\n' text.toList).filterMap lineOf?
  let fault (line : Line) : String := "cannot read line: " ++ String.ofList line.text
  match lines with
  | [] => .ok (.table origin [])
  | [line] =>
    match splitKey? line.text, line.text, readScalar? origin line.text with
    | none, '-' :: _, _ => (readBlock origin 2 lines).mapError fault
    | none, _, some v => .ok v
    | _, _, _ => (readBlock origin 4 lines).mapError fault
  | lines => (readBlock origin (2 * lines.length + 2) lines).mapError fault

end Segments.Settings.Yaml
