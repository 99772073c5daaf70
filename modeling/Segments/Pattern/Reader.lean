import Segments.Number.Word
import Segments.Pattern.Tree
import Segments.Text.Basic
import Segments.Text.Blank
import Segments.Text.Category
import Segments.Text.Digits
import Segments.Text.Property

namespace Segments.Pattern

open Text

def dropSpace (comment : Bool) : List Char → List Char
  | [] => []
  | c :: cs =>
    if comment then dropSpace (c != '\n') cs
    else if isBlank c then dropSpace false cs
    else if c == '#' then dropSpace true cs
    else c :: cs

def skip (spaced : Bool) (cs : List Char) : List Char :=
  if spaced then dropSpace false cs else cs

def peekPast (comment : Bool) : List Char → Option Char
  | [] => none
  | c :: cs =>
    if isBlank c then peekPast comment cs
    else if !comment && c == '#' then peekPast true cs
    else some c

def peek (spaced : Bool) (cs : List Char) : Option Char :=
  if spaced then peekPast false cs else cs.head?

def charOf? (n : Nat) : Option Char :=
  if h : n.isValidChar then some (Char.ofNatAux n h) else none

def literal (spelling : Spelling) (c : Char) : Tree :=
  .character ⟨c, spelling⟩

def readHexDigits (spaced : Bool) : Nat → Nat → List Char → Option (Nat × List Char)
  | 0, n, cs => some (n, cs)
  | _ + 1, _, [] => none
  | left + 1, n, c :: cs =>
    match hexValue? c with
    | some d => readHexDigits spaced left (16 * n + d) (skip spaced cs)
    | none => none

def readBraced (spaced : Bool) : Nat → List Char → List Char → Option (List Char × List Char)
  | 0, _, _ => none
  | fuel + 1, done, cs =>
    match skip spaced cs with
    | [] => none
    | c :: rest => if c == '\x7d' then some (done.reverse, rest) else readBraced spaced fuel (c :: done) rest

def readHex (spaced : Bool) (digits : Nat) (spelling : Spelling) (cs : List Char) :
    Option (Tree × List Char) :=
  match skip spaced cs with
  | [] => none
  | c :: rest =>
    if c == '\x7b' then do
      let (ds, rest) ← readBraced spaced (rest.length + 1) [] rest
      let values ← ds.mapM hexValue?
      if values.isEmpty then none
      let char ← charOf? (values.foldl (fun n d => 16 * n + d) 0)
      some (literal .code char, skip spaced rest)
    else do
      let (n, rest) ← readHexDigits spaced digits 0 (c :: rest)
      let char ← charOf? n
      some (literal spelling char, rest)

def cutAt? (mark : List Char) : List Char → Option (List Char × List Char)
  | [] => none
  | c :: cs =>
    match dropLead? mark (c :: cs) with
    | some rest => some ([], rest)
    | none => (cutAt? mark cs).map fun (before, after) => (c :: before, after)

def PropertyQuery.ofChars (cs : List Char) : PropertyQuery :=
  match cutAt? ['!', '='] cs, cutAt? [':'] cs, cutAt? ['='] cs with
  | some (n, v), _, _ => .pair (String.ofList n) (String.ofList v)
  | none, some (n, v), _ => .pair (String.ofList n) (String.ofList v)
  | none, none, some (n, v) => .pair (String.ofList n) (String.ofList v)
  | none, none, none => .alone (String.ofList cs)

def readProperty (spaced negated : Bool) (cs : List Char) : Option (Tree × List Char) :=
  match skip spaced cs with
  | [] => none
  | c :: rest =>
    if c == '\x7b' then do
      let (name, rest) ← readBraced spaced (rest.length + 1) [] rest
      some (.property (.ofChars name) negated, rest)
    else if c == '\\' then none
    else some (.property (.alone (String.ofList [c])) negated, skip spaced rest)

def isBoundaryLetter (c : Char) : Bool :=
  c.isAlpha || c == '-'

def takeLetters (spaced : Bool) : Nat → List Char → List Char × List Char
  | 0, cs => ([], cs)
  | _ + 1, [] => ([], [])
  | fuel + 1, c :: cs =>
    if isBoundaryLetter c then
      let (name, rest) := takeLetters spaced fuel (skip spaced cs)
      (c :: name, rest)
    else ([], c :: cs)

def boundaryOfName? (name : String) : Option Boundary :=
  if name == "start" then some .wordStart
  else if name == "end" then some .wordEnd
  else if name == "start-half" then some .wordStartHalf
  else if name == "end-half" then some .wordEndHalf
  else none

/-- A word boundary, after its letter. A brace that no letter follows is a repetition. -/
def readBoundary (spaced : Bool) (cs : List Char) : Option (Tree × List Char) :=
  match cs with
  | '\x7b' :: after =>
    match skip spaced after with
    | [] => none
    | c :: rest =>
      if isBoundaryLetter c then
        match takeLetters spaced (rest.length + 1) (c :: rest) with
        | (name, '\x7d' :: rest) =>
          (boundaryOfName? (String.ofList name)).map fun kind => (.boundary kind, rest)
        | _ => none
      else some (.boundary .word, cs)
  | _ => some (.boundary .word, cs)

def isEscapable (c : Char) : Bool :=
  c.toNat < 128 && !c.isAlphanum && c != '<' && c != '>'

def readEscape (spaced : Bool) : List Char → Option (Tree × List Char)
  | [] => none
  | c :: cs =>
    if isEscapable c then some (literal .escaped c, cs)
    else
      match c with
      | 'x' => readHex spaced 2 .byte cs
      | 'u' => readHex spaced 4 .code cs
      | 'U' => readHex spaced 8 .code cs
      | 'p' => readProperty spaced false cs
      | 'P' => readProperty spaced true cs
      | 'd' => some (.shorthand .digit false, cs)
      | 'D' => some (.shorthand .digit true, cs)
      | 's' => some (.shorthand .space false, cs)
      | 'S' => some (.shorthand .space true, cs)
      | 'w' => some (.shorthand .word false, cs)
      | 'W' => some (.shorthand .word true, cs)
      | 'a' => some (literal .named '\x07', cs)
      | 'f' => some (literal .named '\x0c', cs)
      | 't' => some (literal .named '\t', cs)
      | 'n' => some (literal .named '\n', cs)
      | 'r' => some (literal .named '\r', cs)
      | 'v' => some (literal .named '\x0b', cs)
      | 'A' => some (.boundary .textStart, cs)
      | 'z' => some (.boundary .textEnd, cs)
      | 'b' => readBoundary spaced cs
      | 'B' => some (.boundary .notWord, cs)
      | '<' => some (.boundary .wordStart, cs)
      | '>' => some (.boundary .wordEnd, cs)
      | _ => none

def AsciiClass.ofName? (name : String) : Option AsciiClass :=
  [("alnum", .alnum), ("alpha", .alpha), ("ascii", .ascii), ("blank", .blank), ("cntrl", .cntrl),
   ("digit", .digit), ("graph", .graph), ("lower", .lower), ("print", .print), ("punct", .punct),
   ("space", .space), ("upper", .upper), ("word", .word), ("xdigit", .xdigit)].lookup name

def readAscii? (cs : List Char) : Option (Members × List Char) :=
  match cs with
  | ':' :: rest =>
    let (negated, rest) := match rest with
      | '^' :: r => (true, r)
      | r => (false, r)
    match rest.dropWhile (· != ':') with
    | ':' :: ']' :: after =>
      (AsciiClass.ofName? (String.ofList (rest.takeWhile (· != ':')))).map fun cls =>
        (.ascii cls negated, after)
    | _ => none
  | _ => none

def readAtom (spaced : Bool) : List Char → Option (Tree × List Char)
  | [] => none
  | '\\' :: cs => readEscape spaced cs
  | c :: cs => some (literal .plain c, cs)

def Members.ofTree? : Tree → Option Members
  | .character c => some (.character c)
  | .shorthand cls negated => some (.shorthand cls negated)
  | .property query negated => some (.property query negated)
  | _ => none

/-- A member of a bracket expression that no bracket starts. A hyphen before the closing bracket
or another hyphen makes no range. -/
def readMember (spaced : Bool) (cs : List Char) : Option (Members × List Char) := do
  let (first, rest) ← readAtom spaced cs
  match skip spaced rest with
  | [] => none
  | c :: after =>
    let next := peek spaced after
    if c != '-' || next == some ']' || next == some '-' then
      let item ← Members.ofTree? first
      some (item, c :: after)
    else
      match skip spaced after with
      | [] => none
      | start => do
        let (last, rest) ← readAtom spaced start
        match first, last with
        | .character a, .character b =>
          if a.char.toNat ≤ b.char.toNat then some (.range a b, rest) else none
        | _, _ => none

def Members.ofReversed : List Members → Members
  | [] => .nothing
  | [item] => item
  | items => .union items.reverse

abbrev Pending := Option (SetOperation × Members)

def Pending.close (pending : Pending) (right : Members) : Members :=
  match pending with
  | some (op, left) => .operation op left right
  | none => right

def readHyphens (spaced : Bool) : Nat → List Members → List Char → List Members × List Char
  | 0, done, cs => (done, cs)
  | fuel + 1, done, cs =>
    match cs with
    | '-' :: rest => readHyphens spaced fuel (.character ⟨'-', .plain⟩ :: done) (skip spaced rest)
    | _ => (done, cs)

/-- What follows an opening bracket: whether it is negated, its first members in reverse, and
the rest. A closing bracket that comes first is a member. -/
def openBracket (spaced : Bool) (cs : List Char) : Option (Bool × List Members × List Char) :=
  let cs := skip spaced cs
  let (negated, cs) := match cs with
    | '^' :: r => (true, skip spaced r)
    | r => (false, r)
  let (items, cs) := readHyphens spaced (cs.length + 1) [] cs
  match items, cs with
  | _, [] => none
  | [], ']' :: rest =>
    match skip spaced rest with
    | [] => none
    | rest => some (negated, [.character ⟨']', .plain⟩], rest)
  | items, cs => some (negated, items, cs)

def setOperation? : List Char → Option (SetOperation × List Char)
  | '&' :: '&' :: rest => some (.intersection, rest)
  | '-' :: '-' :: rest => some (.difference, rest)
  | '~' :: '~' :: rest => some (.symmetricDifference, rest)
  | _ => none

def readMembers (spaced : Bool) : Nat → Pending → List Members → List Char →
    Option (Members × List Char)
  | 0, _, _, _ => none
  | fuel + 1, pending, items, cs =>
    match skip spaced cs with
    | [] => none
    | c :: rest =>
      if c == '[' then
        match readAscii? rest with
        | some (item, rest) => readMembers spaced fuel pending (item :: items) rest
        | none => do
          let (negated, first, rest) ← openBracket spaced rest
          let (inner, rest) ← readMembers spaced fuel none first rest
          readMembers spaced fuel pending (.bracketed inner negated :: items) rest
      else if c == ']' then some (pending.close (.ofReversed items), rest)
      else
        match setOperation? (c :: rest) with
        | some (op, rest) =>
          readMembers spaced fuel (some (op, pending.close (.ofReversed items))) [] rest
        | none => do
          let (item, rest) ← readMember spaced (c :: rest)
          readMembers spaced fuel pending (item :: items) rest

def readBracket (spaced : Bool) (cs : List Char) : Option (Tree × List Char) := do
  let (negated, first, rest) ← openBracket spaced cs
  let (members, rest) ← readMembers spaced (rest.length + 1) none first rest
  some (.bracketed members negated, rest)

def takeDecimal (spaced : Bool) : Nat → List Char → List Char × List Char
  | 0, cs => ([], cs)
  | _ + 1, [] => ([], [])
  | fuel + 1, c :: cs =>
    if isDigit c then
      let (ds, rest) := takeDecimal spaced fuel (skip spaced cs)
      (c :: ds, rest)
    else ([], c :: cs)

/-- A number of 32 bits among blanks; none if there are no digits or too many. -/
def readDecimal (spaced : Bool) (cs : List Char) : Option Nat × List Char :=
  let (ds, rest) := takeDecimal spaced (cs.length + 1) (cs.dropWhile isBlank)
  let rest := skip spaced (rest.dropWhile isBlank)
  let n := decimalValue ds
  (if ds.isEmpty || n > Word.maxNatural32 then none else some n, rest.dropWhile isBlank)

def readLazy (cs : List Char) : Bool × List Char :=
  match cs with
  | '?' :: rest => (true, rest)
  | _ => (false, cs)

def readCount (spaced : Bool) (cs : List Char) : Option (Count × List Char) :=
  match skip spaced cs with
  | [] => none
  | cs =>
    match readDecimal spaced cs with
    | (some least, '\x7d' :: rest) => some (⟨least, some least⟩, rest)
    | (some least, ',' :: rest) =>
      match skip spaced rest with
      | '\x7d' :: rest => some (⟨least, none⟩, rest)
      | rest =>
        match readDecimal spaced rest with
        | (some most, '\x7d' :: rest) =>
          if least ≤ most then some (⟨least, some most⟩, rest) else none
        | _ => none
    | _ => none

def Flag.ofLetter? : Char → Option Flag
  | 'i' => some .caseless
  | 'm' => some .multiLine
  | 's' => some .dotAll
  | 'U' => some .swapGreed
  | 'u' => some .unicode
  | 'R' => some .crlf
  | 'x' => some .spaced
  | _ => none

/-- Flags up to a colon or a closing parenthesis, which is left. Each comes once, and something
follows the one hyphen. -/
def readSettings (value : Bool) (done : List Setting) : List Char → Option (List Setting × List Char)
  | [] => none
  | c :: cs =>
    if c == ':' || c == ')' then some (done.reverse, c :: cs)
    else if c == '-' then
      match value, cs with
      | true, d :: _ => if d == ':' || d == ')' then none else readSettings false done cs
      | _, _ => none
    else
      match Flag.ofLetter? c with
      | some flag =>
        if done.any fun s => s.flag == flag then none
        else readSettings value (⟨flag, value⟩ :: done) cs
      | none => none

def alphabetic : CodeSet :=
  Property.alphabetic.set

def numeric : CodeSet :=
  .ofCategories [.decimalNumber, .letterNumber, .otherNumber]

def isNameChar (first : Bool) (c : Char) : Bool :=
  c == '_' || alphabetic.contains c ||
    (!first && (c == '.' || c == '[' || c == ']' || numeric.contains c))

def readName (cs : List Char) : Option (String × List Char) :=
  let name := cs.takeWhile (· != '>')
  match name, cs.dropWhile (· != '>') with
  | c :: rest, '>' :: after =>
    if isNameChar true c && rest.all (isNameChar false) then some (String.ofList name, after)
    else none
  | _, _ => none

inductive Opening
  | settings (settings : List Setting)
  | group (kind : Grouping)

def readOpening (spaced : Bool) (cs : List Char) : Option (Opening × List Char) :=
  match skip spaced cs with
  | '?' :: '=' :: _ | '?' :: '!' :: _ | '?' :: '<' :: '=' :: _ | '?' :: '<' :: '!' :: _ => none
  | '?' :: 'P' :: '<' :: rest | '?' :: '<' :: rest =>
    (readName rest).map fun (name, rest) => (.group (.named name), rest)
  | '?' :: rest =>
    match readSettings true [] rest with
    | some (settings, ':' :: rest) => some (.group (.plain settings), rest)
    | some ([], _) => none
    | some (settings, _ :: rest) => some (.settings settings, rest)
    | _ => none
  | rest => some (.group .numbered, rest)

def settingOf (flag : Flag) (before : Bool) (settings : List Setting) : Bool :=
  match settings.find? fun s => s.flag == flag with
  | some s => s.value
  | none => before

/-- Where the reader is: what is left, whether blanks count, and the group names so far. -/
structure Cursor where
  rest : List Char
  spaced : Bool
  names : List String

def Tree.ofReversed : List Tree → Tree
  | [] => .nothing
  | [part] => part
  | parts => .concat parts.reverse

def Tree.ofBranches (branches parts : List Tree) : Tree :=
  match branches with
  | [] => .ofReversed parts
  | _ => .alternation (branches.reverse ++ [.ofReversed parts])

def repeatLast? (count : Count) (isLazy : Bool) : List Tree → Option (List Tree)
  | [] => none
  | .nothing :: _ | .settings _ :: _ => none
  | part :: parts => some (.repetition count isLazy part :: parts)

def readPart (spaced : Bool) (parts : List Tree) : List Char → Option (List Tree × List Char)
  | [] => none
  | c :: rest =>
    match c with
    | '?' => mark ⟨0, some 1⟩ rest
    | '*' => mark ⟨0, none⟩ rest
    | '+' => mark ⟨1, none⟩ rest
    | '\x7b' => do
      let (count, rest) ← readCount spaced rest
      mark count (skip spaced rest)
    | '[' => push (readBracket spaced rest)
    | '\\' => push (readEscape spaced rest)
    | '.' => some (.anyChar :: parts, rest)
    | '^' => some (.boundary .lineStart :: parts, rest)
    | '$' => some (.boundary .lineEnd :: parts, rest)
    | c => some (literal .plain c :: parts, rest)
where
  mark (count : Count) (rest : List Char) : Option (List Tree × List Char) :=
    let (isLazy, rest) := readLazy rest
    (repeatLast? count isLazy parts).map (·, rest)
  push (part : Option (Tree × List Char)) : Option (List Tree × List Char) :=
    part.map fun (t, rest) => (t :: parts, rest)

def readBranches : Nat → List Tree → List Tree → Cursor → Option (Tree × Cursor)
  | 0, _, _, _ => none
  | fuel + 1, branches, parts, cursor =>
    match skip cursor.spaced cursor.rest with
    | [] => some (.ofBranches branches parts, { cursor with rest := [] })
    | ')' :: rest => some (.ofBranches branches parts, { cursor with rest := ')' :: rest })
    | '|' :: rest => readBranches fuel (.ofReversed parts :: branches) [] { cursor with rest }
    | '(' :: rest => do
      let (opening, rest) ← readOpening cursor.spaced rest
      match opening with
      | .settings settings =>
        readBranches fuel branches (.settings settings :: parts)
          { cursor with rest, spaced := settingOf .spaced cursor.spaced settings }
      | .group kind => do
        let inner ← enter kind { cursor with rest }
        let (body, after) ← readBranches fuel [] [] inner
        match after.rest with
        | ')' :: rest =>
          readBranches fuel branches (.group kind body :: parts)
            { after with rest, spaced := cursor.spaced }
        | _ => none
    | rest => do
      let (parts, rest) ← readPart cursor.spaced parts rest
      readBranches fuel branches parts { cursor with rest }
where
  /-- The cursor inside a group. A name is given once. -/
  enter (kind : Grouping) (cursor : Cursor) : Option Cursor :=
    match kind with
    | .numbered => some cursor
    | .named name =>
      if cursor.names.contains name then none
      else some { cursor with names := name :: cursor.names }
    | .plain settings => some { cursor with spaced := settingOf .spaced cursor.spaced settings }

/-- The deepest that the parts of a pattern may stand in one another. -/
def maxDepth : Nat := 250

/-- The tree of a pattern text, if it is one. In spaced patterns the blanks and comments between the
pieces count for nothing. -/
def Tree.read? (cs : List Char) : Option Tree := do
  let (tree, cursor) ← readBranches (cs.length + 1) [] [] ⟨cs, false, []⟩
  if cursor.rest.isEmpty && tree.depth ≤ maxDepth then some tree else none

end Segments.Pattern
