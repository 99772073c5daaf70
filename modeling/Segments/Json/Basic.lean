import Segments.Number.Double
import Segments.Number.Word
import Segments.Text.Basic

namespace Segments

/-- A whole number of at most 64 bits, or a binary64 number, which is finite. -/
inductive Json.Number
  | natural (value : Nat)
  /-- The negative of `value`, which is not zero. -/
  | negative (value : Nat)
  | float (value : Double)
  deriving DecidableEq, Repr

/-- The members of an object are kept in the order of their names, each name once, so that equal
objects are equal values. -/
inductive Json
  | null
  | boolean (value : Bool)
  | number (value : Json.Number)
  | text (value : String)
  | array (items : List Json)
  | object (members : List (String × Json))
  deriving Repr, BEq, Inhabited

namespace Json

def Number.toDouble : Number → Double
  | .natural n => .ofInt n
  | .negative n => .ofInt (-(n : Int))
  | .float x => x

def Number.toInt? : Number → Option Int
  | .natural n => some n
  | .negative n => some (-(n : Int))
  | .float _ => none

def Number.toInt64? (n : Number) : Option Int :=
  n.toInt?.filter Word.isInt64

def ofInt (n : Int) : Json :=
  if n < 0 then .number (.negative n.natAbs) else .number (.natural n.toNat)

def ofNat (n : Nat) : Json :=
  .number (.natural n)

def ofDouble (x : Double) : Json :=
  if x.isFinite then .number (.float x) else .null

def ofOption (f : α → Json) : Option α → Json
  | none => .null
  | some a => f a

def texts (ss : List String) : Json :=
  .array (ss.map .text)

/-- Puts a member in its place, over one of the same name. -/
def insert (name : String) (value : Json) : List (String × Json) → List (String × Json)
  | [] => [(name, value)]
  | (n, v) :: rest =>
    match Text.compareText name.toList n.toList with
    | .lt => (name, value) :: (n, v) :: rest
    | .eq => (name, value) :: rest
    | .gt => (n, v) :: insert name value rest

/-- The object with these members; of two with one name the later counts. -/
def ofMembers (members : List (String × Json)) : Json :=
  .object (members.foldl (fun done m => insert m.1 m.2 done) [])

def lookup (name : String) : List (String × Json) → Option Json
  | [] => none
  | (n, v) :: rest => if n == name then some v else lookup name rest

def get? (name : String) : Json → Option Json
  | .object members => lookup name members
  | _ => none

def kindName : Json → String
  | .null => "null"
  | .boolean _ => "boolean"
  | .number _ => "number"
  | .text _ => "string"
  | .array _ => "array"
  | .object _ => "object"

end Json

end Segments
