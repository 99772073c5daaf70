import Segments.Number.Reading
import Segments.Number.Word
import Segments.Settings.Value
import Segments.Text.Utf8

namespace Segments.Settings.Toml

open Text

structure Fault where
  left : Nat
  reason : String
  deriving DecidableEq, Repr

abbrev Read (α : Type) := List Char → Except Fault (α × List Char)

def wrong (rest : List Char) (reason : String) : Except Fault α :=
  .error ⟨rest.length, reason⟩

def isSpace (c : Char) : Bool :=
  c == ' ' || c == '\t'

def skipSpaces (cs : List Char) : List Char :=
  cs.dropWhile isSpace

def skipComment : List Char → List Char
  | '#' :: cs => cs.dropWhile (· != '\n')
  | cs => cs

def skipLines : Nat → List Char → List Char
  | 0, cs => cs
  | fuel + 1, cs =>
    match skipComment (skipSpaces cs) with
    | '\n' :: rest => skipLines fuel rest
    | '\r' :: '\n' :: rest => skipLines fuel rest
    | rest => rest

def missingQuotes : String := "invalid string\nexpected `\"`, `'`"

def readCode (count : Nat) : Read Char := fun cs =>
  let digits := cs.take count
  let n? := digits.foldl (fun n? c => do return (← n?) * 16 + (← hexValue? c)) (some 0)
  match n? with
  | some n =>
    if digits.length == count && n.isValidChar then .ok (Char.ofNat n, cs.drop count)
    else wrong cs "invalid unicode escape code"
  | none => wrong cs "invalid unicode escape code"

def readBasic : Nat → List Char → Read String
  | 0, _, cs => wrong cs "invalid basic string"
  | _ + 1, _, [] => wrong [] "invalid basic string"
  | fuel + 1, done, c :: cs =>
    if c == '"' then .ok (String.ofList done.reverse, cs)
    else if c == '\\' then
      match cs with
      | 'b' :: cs => readBasic fuel ('\x08' :: done) cs
      | 't' :: cs => readBasic fuel ('\t' :: done) cs
      | 'n' :: cs => readBasic fuel ('\n' :: done) cs
      | 'f' :: cs => readBasic fuel ('\x0c' :: done) cs
      | 'r' :: cs => readBasic fuel ('\r' :: done) cs
      | '"' :: cs => readBasic fuel ('"' :: done) cs
      | '\\' :: cs => readBasic fuel ('\\' :: done) cs
      | 'u' :: cs => do
        let (c, cs) ← readCode 4 cs
        readBasic fuel (c :: done) cs
      | 'U' :: cs => do
        let (c, cs) ← readCode 8 cs
        readBasic fuel (c :: done) cs
      | cs =>
        wrong cs
          "invalid escape sequence\nexpected `b`, `f`, `n`, `r`, `t`, `u`, `U`, `\\`, `\"`"
    else if c.toNat < 0x20 && c != '\t' then wrong (c :: cs) "invalid basic string"
    else readBasic fuel (c :: done) cs

def readLiteral : Read String := fun cs =>
  match cs.dropWhile fun c => c != '\'' && c != '\n' with
  | '\'' :: rest => .ok (String.ofList (cs.takeWhile (· != '\'')), rest)
  | rest => wrong rest "invalid literal string"

def isBareChar (c : Char) : Bool :=
  c.isAlphanum || c == '_' || c == '-'

def readName : Read String
  | '"' :: cs => readBasic (cs.length + 1) [] cs
  | '\'' :: cs => readLiteral cs
  | cs =>
    match cs.takeWhile isBareChar with
    | [] => wrong cs "invalid key"
    | name => .ok (String.ofList name, cs.dropWhile isBareChar)

def readKey : Nat → Read (List String)
  | 0, cs => wrong cs "invalid key"
  | fuel + 1, cs => do
    let (name, rest) ← readName (skipSpaces cs)
    match skipSpaces rest with
    | '.' :: rest => do
      let (names, rest) ← readKey fuel rest
      .ok (name :: names, rest)
    | rest => .ok ([name], rest)

/-- Digits of a base, with single underscores between them, and what follows them. -/
def takeDigits (isDigit : Char → Bool) : List Char → List Char × List Char
  | '_' :: c :: cs =>
    if isDigit c then
      let (ds, rest) := takeDigits isDigit cs
      (c :: ds, rest)
    else ([], '_' :: c :: cs)
  | c :: cs =>
    if isDigit c then
      let (ds, rest) := takeDigits isDigit cs
      (c :: ds, rest)
    else ([], c :: cs)
  | [] => ([], [])

def valueIn (base : Nat) (ds : List Char) : Nat :=
  ds.foldl (fun n d => base * n + (hexValue? d).getD 0) 0

def takeWhole : List Char → List Char × List Char
  | '0' :: cs => (['0'], cs)
  | cs => takeDigits isDigit cs

def takeFraction (cs : List Char) : List Char × List Char :=
  match cs with
  | '.' :: d :: rest =>
    if isDigit d then
      let (ds, rest) := takeDigits isDigit (d :: rest)
      ('.' :: ds, rest)
    else ([], cs)
  | _ => ([], cs)

def takeExponent (cs : List Char) : List Char × List Char :=
  match cs with
  | c :: rest =>
    if c == 'e' || c == 'E' then
      let (sign, rest) := match rest with
        | '+' :: r => (['+'], r)
        | '-' :: r => (['-'], r)
        | r => ([], r)
      match takeDigits isDigit rest with
      | ([], _) => ([], cs)
      | (ds, rest) => (c :: sign ++ ds, rest)
    else ([], cs)
  | [] => ([], [])

def wholeOf (n : Int) (place rest : List Char) : Except Fault (Scalar × List Char) :=
  if Word.isInt64 n then .ok (.whole n, rest)
  else wrong place "number too large to fit in target type"

def readNumber (sign : List Char) : Read Scalar := fun cs =>
  match dropLead? "inf".toList cs, dropLead? "nan".toList cs with
  | some rest, _ => .ok (.real (.ofPlace (sign == ['-']) Double.infinity), rest)
  | _, some rest => .ok (.real .nan, rest)
  | none, none =>
    match takeWhole cs with
    | ([], _) => wrong cs "invalid integer\nexpected leading digit"
    | (ds, rest) =>
      let (fraction, rest) := takeFraction rest
      let (exponent, rest) := takeExponent rest
      if fraction.isEmpty && exponent.isEmpty then
        let n : Int := decimalValue ds
        wholeOf (if sign == ['-'] then -n else n) cs rest
      else
        match Double.read? (sign ++ ds ++ fraction ++ exponent) with
        | some x => .ok (.real x, rest)
        | none => wrong cs "invalid floating-point number"

def isOctal (c : Char) : Bool :=
  '0' ≤ c && c ≤ '7'

def readScalar : Read Scalar
  | '"' :: cs => (readBasic (cs.length + 1) [] cs).map fun (s, rest) => (.text s, rest)
  | '\'' :: cs => (readLiteral cs).map fun (s, rest) => (.text s, rest)
  | '0' :: 'x' :: cs => based 16 (fun c => (hexValue? c).isSome) cs
  | '0' :: 'o' :: cs => based 8 isOctal cs
  | '0' :: 'b' :: cs => based 2 (fun c => c == '0' || c == '1') cs
  | '+' :: cs => readNumber ['+'] cs
  | '-' :: cs => readNumber ['-'] cs
  | cs =>
    match dropLead? "true".toList cs, dropLead? "false".toList cs with
    | some rest, _ => .ok (.boolean true, rest)
    | _, some rest => .ok (.boolean false, rest)
    | none, none =>
      match cs with
      | [] => wrong cs ""
      | c :: _ =>
        if isDigit c || c == 'i' || c == 'n' then readNumber [] cs
        else wrong cs missingQuotes
where
  based (base : Nat) (isDigit : Char → Bool) (cs : List Char) : Except Fault (Scalar × List Char) :=
    match takeDigits isDigit cs with
    | ([], _) => wrong cs "invalid digit"
    | (ds, rest) => wholeOf (valueIn base ds) cs rest

def isDefined (steps : List Step) (v : Value) : Bool :=
  (steps.foldl (fun v? step =>
    match v?, step with
    | some v, .member name => v.get? name
    | _, _ => none) (some v)).isSome

/-- Puts a value under a key within a table. A key that is taken is none. -/
def define (table key : List String) (new : Value) (place : List Char) (root : Value) :
    Except Fault Value :=
  let steps := (table ++ key).map Step.member
  if isDefined steps root then
    let parent := (table ++ key).dropLast
    wrong place ("duplicate key `" ++ key.getLast?.getD "" ++ "` in " ++
      (if parent.isEmpty then "document root" else "table `" ++ ".".intercalate parent ++ "`"))
  else .ok (new.put steps (some root))

mutual

def readValue (origin : Origin) : Nat → Read Value
  | 0, cs => wrong cs missingQuotes
  | fuel + 1, '[' :: cs => do
    let (items, rest) ← readItems origin fuel [] cs
    .ok (.list origin items, rest)
  | fuel + 1, '\x7b' :: cs => readInline origin fuel true (.table origin []) cs
  | _ + 1, cs => (readScalar cs).map fun (s, rest) => (.scalar origin s, rest)

def readItems (origin : Origin) : Nat → List Value → Read (List Value)
  | 0, _, cs => wrong cs "invalid array\nexpected `]`"
  | fuel + 1, done, cs =>
    match skipLines cs.length cs with
    | ']' :: rest => .ok (done.reverse, rest)
    | start => do
      let (v, rest) ← readValue origin fuel start
      match skipLines rest.length rest with
      | ',' :: rest => readItems origin fuel (v :: done) rest
      | ']' :: rest => .ok ((v :: done).reverse, rest)
      | rest => wrong rest "invalid array\nexpected `]`"

def readInline (origin : Origin) : Nat → Bool → Value → Read Value
  | 0, _, _, cs => wrong cs "invalid inline table\nexpected `\x7d`"
  | fuel + 1, first, table, cs =>
    match first, skipSpaces cs with
    | true, '\x7d' :: rest => .ok (table, rest)
    | _, start => do
      let (key, rest) ← readKey start.length start
      match rest with
      | '=' :: rest => do
        let (v, rest) ← readValue origin fuel (skipSpaces rest)
        let table ← define [] key v start table
        match skipSpaces rest with
        | ',' :: rest => readInline origin fuel false table rest
        | '\x7d' :: rest => .ok (table, rest)
        | rest => wrong rest "invalid inline table\nexpected `\x7d`"
      | rest => wrong rest "expected `.`, `=`"

end

def endLine (cs : List Char) : Except Fault (List Char) :=
  match skipComment (skipSpaces cs) with
  | [] => .ok []
  | '\n' :: rest => .ok rest
  | '\r' :: '\n' :: rest => .ok rest
  | rest => wrong rest "expected newline, `#`"

def readLines (origin : Origin) : Nat → List String → Value → List Char → Except Fault Value
  | 0, _, root, _ => .ok root
  | fuel + 1, table, root, cs =>
    match skipLines cs.length cs with
    | [] => .ok root
    | '[' :: cs => do
      let (names, rest) ← readKey cs.length cs
      match rest with
      | ']' :: rest => do
        let rest ← endLine rest
        let root ← define [] names (.table origin []) ('[' :: cs) root
        readLines origin fuel names root rest
      | rest => wrong rest "invalid table header\nexpected `.`, `]`"
    | start => do
      let (key, rest) ← readKey start.length start
      match rest with
      | '=' :: rest => do
        let (v, rest) ← readValue origin rest.length (skipSpaces rest)
        let rest ← endLine rest
        let root ← define table key v start root
        readLines origin fuel table root rest
      | rest => wrong rest "expected `.`, `=`"

def Fault.message (f : Fault) (text : List Char) : String :=
  let before := text.take (text.length - f.left)
  let line := before.count '\n'
  let column := (before.reverse.takeWhile (· != '\n')).length
  let content := String.ofList (((splitAt '\n' text)[line]?).getD [])
  let number := toString (line + 1)
  let margin := String.ofList (List.replicate (number.length + 1) ' ') ++ "|"
  "TOML parse error at line " ++ number ++ ", column " ++ toString (column + 1) ++ "\n" ++
    margin ++ "\n" ++ number ++ " | " ++ content ++ "\n" ++
    margin ++ String.ofList (List.replicate (column + 1) ' ') ++ "^\n" ++ f.reason ++ "\n"

/-- Lines `key = value`, under headers `[table]`. A fault is told with the line that it is in. -/
def read (origin : Origin) (text : String) : Except String Value :=
  let cs := match text.toList with
    | '\ufeff' :: rest => rest
    | cs => cs
  (readLines origin (cs.length + 1) [] (.table origin []) cs).mapError fun f => f.message cs

end Segments.Settings.Toml
