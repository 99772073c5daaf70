import Segments.Settings.Variables
import Segments.Text.Alphanumeric

namespace Segments.Settings.EnvFile

open Text

inductive Scan
  | plain
  | blank
  | escape
  | weak
  | weakEscape
  | strong
  | strongEscape
  deriving DecidableEq

def Scan.next (s : Scan) (c : Char) : Option Scan :=
  let opening (other : Scan) : Scan :=
    if c == '\\' then .escape else if c == '"' then .weak else if c == '\'' then .strong else other
  match s with
  | .blank => if c == '#' then none else some (opening .plain)
  | .plain => some (opening (if isBlank c && c != '\n' && c != '\r' then .blank else .plain))
  | .escape => some .plain
  | .weak => some (if c == '\\' then .weakEscape else if c == '"' then .plain else .weak)
  | .weakEscape => some .weak
  | .strong => some (if c == '\\' then .strongEscape else if c == '\'' then .plain else .strong)
  | .strongEscape => some .strong

def scanLine : Scan → List Char → List Char × Option Scan
  | s, [] => ([], some s)
  | s, c :: cs =>
    match s.next c with
    | none => ([], none)
    | some s =>
      let (read, ending) := scanLine s cs
      (c :: read, ending)

def rawLines : List Char → List (List Char)
  | [] => []
  | c :: cs =>
    if c == '\n' then ['\n'] :: rawLines cs
    else
      match rawLines cs with
      | line :: rest => (c :: line) :: rest
      | [] => [[c]]

def withoutBreak (cs : List Char) : List Char :=
  match cs.reverse with
  | '\n' :: '\r' :: rest => rest.reverse
  | '\n' :: rest => rest.reverse
  | _ => cs

/-- The logical lines: what is quoted may go over several. None stands for one that does not
end. -/
def logicalLines (state : Scan) (held : List Char) : List (List Char) → List (Option (List Char))
  | [] => if held.isEmpty && state == .plain then [] else [none]
  | line :: rest =>
    if (trimStart (held ++ line)).head? == some '#' then some [] :: logicalLines .plain [] rest
    else
      match scanLine state line with
      | (read, none) => some (held ++ read) :: logicalLines .plain [] rest
      | (_, some .plain) => some (withoutBreak (held ++ line)) :: logicalLines .plain [] rest
      | (_, some state) => logicalLines state (held ++ line) rest

def isNameStart (c : Char) : Bool :=
  c.isAlpha || c == '_'

def isNamePart (c : Char) : Bool :=
  c.isAlphanum || c == '_' || c == '.'

def readName? (cs : List Char) : Option (List Char × List Char) :=
  match cs with
  | c :: _ => if isNameStart c then some (cs.takeWhile isNamePart, cs.dropWhile isNamePart) else none
  | [] => none

inductive Reference
  | none
  | open_
  | braced
  deriving DecidableEq

structure Reading where
  text : List Char
  strong : Bool
  weak : Bool
  escaped : Bool
  ended : Bool
  reference : Reference
  name : List Char

def Reading.resolve (find : String → String) (r : Reading) : Reading :=
  { r with
    text := (find (String.ofList r.name.reverse)).toList.reverse ++ r.text
    name := [], reference := .none }

def Reading.push (r : Reading) (c : Char) : Reading :=
  { r with text := c :: r.text }

def Reading.leave (find : String → String) (r : Reading) (c : Char) : Reading :=
  match r.reference with
  | .braced =>
    if c == '\x7d' then r.resolve find else { r with name := c :: r.name }
  | _ =>
    if c == '\x7b' && r.name.isEmpty then { r with reference := .braced }
    else if c == '$' then { r.resolve find with reference := .open_ }
    else (r.resolve find).push c

def Reading.next? (find : String → String) (r : Reading) (c : Char) : Option Reading :=
  if r.ended then if c == ' ' || c == '\t' then some r else none
  else if r.escaped then
    if ['\\', '\'', '"', '$', ' '].contains c then some { r.push c with escaped := false }
    else if c == 'n' then some { r.push '\n' with escaped := false }
    else none
  else if r.strong then
    some (if c == '\'' then { r with strong := false } else r.push c)
  else if r.reference != .none then
    some (if isAlphanumeric c then { r with name := c :: r.name } else r.leave find c)
  else if c == '$' then some { r with reference := .open_ }
  else if c == '\\' then some { r with escaped := true }
  else if r.weak then some (if c == '"' then { r with weak := false } else r.push c)
  else if c == '\'' then some { r with strong := true }
  else if c == '"' then some { r with weak := true }
  else if c == ' ' || c == '\t' then some { r with ended := true }
  else some (r.push c)

def readValue? (find : String → String) (r : Reading) : List Char → Option String
  | [] => finish
  | c :: cs =>
    if r.ended && c == '#' then finish
    else
      match r.next? find c with
      | some r => readValue? find r cs
      | none => none
where
  finish : Option String :=
    if r.reference == .braced || r.strong || r.weak then none
    else some (String.ofList (r.resolve find).text.reverse)

def readLine? (find : String → String) (cs : List Char) : Option (Option (String × String)) := do
  let cs := trimStart cs
  if cs.isEmpty || cs.head? == some '#' then some none
  else
    let (name, rest) ← readName? cs
    let (name, rest) ← match trimStart rest with
      | '=' :: value => some (name, value)
      | rest =>
        if name == "export".toList then do
          let (name, rest) ← readName? rest
          match trimStart rest with
          | '=' :: value => some (name, value)
          | _ => none
        else none
    let value := trimStart rest
    let name := String.ofList name
    if value.isEmpty || value.head? == some '#' then some (some (name, ""))
    else
      let s ← readValue? find ⟨[], false, false, false, false, .none, []⟩ value
      some (some (name, s))

/-- Adds the variables of lines. Those that are there already stay; a reference to one that is
not is to what an earlier line gave. -/
def addLines (vars earlier : Variables) : List (Option (List Char)) → Variables
  | [] => vars
  | none :: _ => vars
  | some line :: rest =>
    let find (name : String) : String := ((vars.lookup name).or (earlier.lookup name)).getD ""
    match readLine? find line with
    | none => vars
    | some none => addLines vars earlier rest
    | some (some (name, s)) => addLines (vars.add name s) ((name, s) :: earlier) rest

/-- The variables with those of a file, which counts up to its first line that cannot be read. -/
def load (vars : Variables) (file : String) : Variables :=
  let cs := match file.toList with
    | '\ufeff' :: rest => rest
    | cs => cs
  addLines vars [] (logicalLines .plain [] (rawLines cs))

end Segments.Settings.EnvFile
