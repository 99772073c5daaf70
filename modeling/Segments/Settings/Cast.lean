import Segments.Number.Word
import Segments.Settings.Value
import Segments.Text.Basic

namespace Segments.Settings

inductive Fault
  | kind (found expected : String) (key : Option String) (origin : Origin)
  | shape (message : String)
  deriving DecidableEq, Repr

namespace Fault

def message : Fault → String
  | .kind found expected key origin =>
    let key := match key with
      | some k => " for key `" ++ k ++ "`"
      | none => ""
    let origin := match origin with
      | some o => " in " ++ o
      | none => ""
    "invalid type: " ++ found ++ ", expected " ++ expected ++ key ++ origin
  | .shape message => message

def extend (part : String) : Option String → String
  | none => part
  | some key => if key.startsWith "[" then part ++ key else part ++ "." ++ key

def within (part : String) : Fault → Fault
  | .kind found expected key origin => .kind found expected (some (extend part key)) origin
  | .shape message => .shape message

end Fault

namespace Value

def origin : Value → Origin
  | .scalar o _ | .list o _ | .table o _ => o

def found : Value → String
  | .scalar _ .unit => "unit value"
  | .scalar _ (.boolean b) => "boolean `" ++ toString b ++ "`"
  | .scalar _ (.whole n) => "64-bit integer `" ++ toString n ++ "`"
  | .scalar _ (.real x) => "floating point `" ++ x.render ++ "`"
  | .scalar _ (.text s) => "string " ++ Text.quotedText s
  | .list _ _ => "sequence"
  | .table _ _ => "map"

def mismatch (v : Value) (expected : String) : Fault :=
  .kind v.found expected none v.origin

def asText (v : Value) : Except Fault String :=
  match v with
  | .scalar _ (.text s) => .ok s
  | .scalar _ (.boolean b) => .ok (toString b)
  | .scalar _ (.whole n) => .ok (toString n)
  | .scalar _ (.real x) => .ok x.render
  | _ => .error (v.mismatch "a string")

/-- A value that is there but empty is none. -/
def asOption (cast : Value → Except Fault α) : Value → Except Fault (Option α)
  | .scalar _ .unit => .ok none
  | v => (cast v).map some

def naturalOf? (s : String) : Option Nat :=
  let word := String.ofList (Text.lowerAscii s.toList)
  if ["true", "on", "yes"].contains word then some 1
  else if ["false", "off", "no"].contains word then some 0
  else (Text.readNatural? s.toList).filter (· ≤ Word.maxNatural64)

def roundReal : Double → Nat
  | .nan => 0
  | x =>
    match x.round? with
    | some n => min n.toNat Word.maxNatural64
    | none => if x.isNegative then 0 else Word.maxNatural64

def asNatural (v : Value) : Except Fault Nat :=
  match v with
  | .scalar _ (.whole n) =>
    if 0 ≤ n then .ok n.toNat
    else .error (v.mismatch "an unsigned 64 bit or less integer")
  | .scalar _ (.text s) =>
    match naturalOf? s with
    | some n => .ok n
    | none => .error (v.mismatch "an integer")
  | .scalar _ (.boolean b) => .ok (if b then 1 else 0)
  | .scalar _ (.real x) => .ok (roundReal x)
  | _ => .error (v.mismatch "an integer")

def asPort (v : Value) : Except Fault Nat := do
  let n ← v.asNatural
  if n ≤ Word.maxNatural16 then .ok n
  else
    .error (.kind ("64-bit unsigned integer `" ++ toString n ++ "`")
      "an unsigned 16 bit integer" none none)

end Value

end Segments.Settings
