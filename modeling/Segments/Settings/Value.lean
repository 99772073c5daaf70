import Segments.Number.Layout
import Segments.Text.Quoted

namespace Segments.Settings

abbrev Origin := Option String

inductive Scalar
  | unit
  | boolean (value : Bool)
  /-- A whole number of 64 bits with a sign. -/
  | whole (value : Int)
  | real (value : Double)
  | text (value : String)
  deriving DecidableEq, Repr

/-- A value of settings before it has a type. It knows where it was given, for messages. -/
inductive Value
  | scalar (origin : Origin) (value : Scalar)
  | list (origin : Origin) (items : List Value)
  | table (origin : Origin) (members : List (String × Value))
  deriving Repr

/-- A step into a value: a member of a table, or an item of a list, counted from its end if
negative. -/
inductive Step
  | member (name : String)
  | item (index : Int)
  deriving DecidableEq, Repr

namespace Value

def empty : Value :=
  .table none []

def text (s : String) : Value :=
  .scalar none (.text s)

def unit : Value :=
  .scalar none .unit

def get? (name : String) : Value → Option Value
  | .table _ members => members.lookup name
  | _ => none

def changeMember (name : String) (f : Option Value → Value) :
    List (String × Value) → List (String × Value)
  | [] => [(name, f none)]
  | (n, v) :: rest =>
    if n == name then (n, f (some v)) :: rest else (n, v) :: changeMember name f rest

def change (name : String) (f : Option Value → Value) : Value → Value
  | .table origin members => .table origin (changeMember name f members)
  | _ => .table none [(name, f none)]

/-- Changes an item; a value that is no list becomes one, and one that is too short is filled
up. -/
def changeItem (index : Int) (f : Option Value → Value) (v : Value) : Value :=
  let (origin, items) := match v with
    | .list origin items => (origin, items)
    | _ => (none, [])
  let place := if 0 ≤ index then index.toNat else items.length - index.natAbs
  match items[place]? with
  | some old => .list origin (items.set place (f (some old)))
  | none => .list origin (items ++ List.replicate (place - items.length) unit ++ [f none])

mutual

def onto (old : Option Value) : Value → Value
  | .table _ members => ontoMembers (old.getD empty) members
  | new => new

def ontoMembers (old : Value) : List (String × Value) → Value
  | [] => old
  | (name, new) :: rest => ontoMembers (old.change name fun o => onto o new) rest

end

/-- Puts a value at a path. An item is replaced as a whole. -/
def put (new : Value) : List Step → Option Value → Value
  | [], old => new.onto old
  | .member name :: steps, old => (old.getD empty).change name (put new steps)
  | [.item index], old => (old.getD unit).changeItem index fun _ => new
  | .item index :: steps, old => (old.getD unit).changeItem index (put new steps)

end Value

def isNameChar (c : Char) : Bool :=
  c.isAlphanum || c == ' ' || c == '_' || c == '-'

def isSpace (c : Char) : Bool :=
  c == ' ' || c == '\t'

def readIndex? (cs : List Char) : Option (Int × List Char) :=
  let cs := cs.dropWhile isSpace
  let (minus, cs) := match cs with
    | '-' :: r => (['-'], r)
    | r => ([], r)
  match (cs.dropWhile Text.isDigit).dropWhile isSpace with
  | ']' :: rest => (Text.readInt64? (minus ++ cs.takeWhile Text.isDigit)).map fun n => (n, rest)
  | _ => none

def readSteps? : Nat → List Char → Option (List Step)
  | _, [] => some []
  | 0, _ :: _ => none
  | fuel + 1, '.' :: cs =>
    match cs.takeWhile isNameChar with
    | [] => none
    | name => do
      let steps ← readSteps? fuel (cs.dropWhile isNameChar)
      some (.member (String.ofList name) :: steps)
  | fuel + 1, '[' :: cs => do
    let (index, rest) ← readIndex? cs
    let steps ← readSteps? fuel rest
    some (.item index :: steps)
  | _ + 1, _ :: _ => none

/-- The path that a key writes, as in `a.b[0]`. A key that writes none is a name itself. -/
def pathOf (key : String) : List Step :=
  let cs := key.toList
  match cs.takeWhile isNameChar with
  | [] => [.member key]
  | name =>
    match readSteps? cs.length (cs.dropWhile isNameChar) with
    | some steps => .member (String.ofList name) :: steps
    | none => [.member key]

abbrev Layer := List (String × Value)

def Layer.onto (layer : Layer) (below : Value) : Value :=
  layer.foldl (fun v (key, new) => new.put (pathOf key) (some v)) below

def merge (layers : List Layer) : Value :=
  layers.foldl (fun v layer => layer.onto v) .empty

end Segments.Settings
