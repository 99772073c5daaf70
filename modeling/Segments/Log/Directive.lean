import Segments.Log.Layout
import Segments.Text.Alphanumeric
import Segments.Text.Blank

namespace Segments.Log

open Text

abbrev Limit := Option Level

def Limit.admits (limit : Limit) (level : Level) : Bool :=
  match limit with
  | none => false
  | some most => level.rank ≤ most.rank

def limits : List Limit :=
  [none, some .error, some .warn, some .info, some .debug, some .trace]

def limitNames : List String :=
  ["off", "error", "warn", "info", "debug", "trace"]

/-- A level by its name in any case or by its number; no text at all is the least. -/
def Limit.read? (cs : List Char) : Option Limit :=
  match readNatural? cs with
  | some n => limits[n]?
  | none =>
    if cs.isEmpty then some (some .error)
    else (limitNames.zip limits).lookup (String.ofList (lowerAscii cs))

/-- Up to which level a part of the program tells what it does, as in `part=level`. Of several
directives for a part the one that names most of it counts. -/
structure Directive where
  /-- What the names of parts start with that it is for; all parts without one. -/
  part : Option (List Char)
  limit : Limit
  /-- Whether it holds only within a named stretch of the program's work. -/
  confined : Bool
  deriving DecidableEq, Repr

inductive DirectiveFault
  | form
  | level
  deriving DecidableEq, Repr

def DirectiveFault.message : DirectiveFault → String
  | .form => "invalid filter directive"
  | .level =>
    "error parsing level filter: expected one of \"off\", \"error\", \"warn\", \"info\", " ++
      "\"debug\", \"trace\", or a number 0-5"

namespace Directive

def limitOf (cs : List Char) : Except DirectiveFault Limit :=
  if cs.isEmpty then .ok (some .trace)
  else
    match Limit.read? cs with
    | some limit => .ok limit
    | none => .error .level

def afterScope (part : Option (List Char)) (cs : List Char) : Except DirectiveFault Directive :=
  match (cs.dropWhile (· != ']')) with
  | [']'] => .ok ⟨part, some .trace, true⟩
  | ']' :: '=' :: level => (limitOf level).map fun limit => ⟨part, limit, true⟩
  | _ => .error .form

def read (s : List Char) : Except DirectiveFault Directive :=
  match trim s with
  | [] => .error .form
  | '[' :: rest => afterScope none rest
  | c :: cs =>
    if c == '-' || c == ':' || c == '_' || isAlphanumeric c then
      let name := (c :: cs).takeWhile fun c => c != '=' && c != '['
      match (c :: cs).dropWhile fun c => c != '=' && c != '[' with
      | [] =>
        match Limit.read? name with
        | some limit => .ok ⟨none, limit, false⟩
        | none => .ok ⟨some name, some .trace, false⟩
      | '=' :: level => (limitOf level).map fun limit => ⟨some name, limit, false⟩
      | _ :: rest => afterScope (some name) rest
    else .error .form

def covers (d : Directive) (part : String) : Bool :=
  match d.part with
  | some name => name.isPrefixOf part.toList
  | none => true

def weight (d : Directive) : Nat :=
  match d.part with
  | some name => byteSize name + 1
  | none => 0

end Directive

def directiveTexts (s : String) : List (List Char) :=
  (splitAt ',' s.toList).filter fun cs => !cs.isEmpty

def readDirectives (s : String) : Except DirectiveFault (List Directive) :=
  (directiveTexts s).mapM Directive.read

def pickDirectives (s : String) : List Directive × List String :=
  (directiveTexts s).foldr (fun cs (found, ignored) =>
    match Directive.read cs with
    | .ok d => (d :: found, ignored)
    | .error e =>
      (found, ("ignoring `" ++ String.ofList cs ++ "`: " ++ e.message) :: ignored)) ([], [])

/-- Of two directives that name the same the later one counts. -/
def strongest (ds : List Directive) : Option Directive :=
  ds.foldl (fun best d =>
    match best with
    | some b => if b.weight ≤ d.weight then some d else some b
    | none => some d) none

/-- Whether a notice is told. Without any directive only errors are. -/
def tells (ds : List Directive) (n : Notice) : Bool :=
  if ds.isEmpty then Limit.admits (some .error) n.level
  else
    match strongest (ds.filter fun d => !d.confined && d.covers n.target) with
    | some d => d.limit.admits n.level
    | none => false

end Segments.Log
