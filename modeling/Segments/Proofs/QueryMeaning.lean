import Segments.Catalog.Record
import Segments.Filter.Statement
import Segments.Proofs.ByteOrder
import Segments.Proofs.QuerySyntax
import Segments.Time.Layout

namespace Segments.Query

open Catalog Text

inductive Truth
  | yes
  | no
  | unknown
  deriving DecidableEq, Repr

namespace Truth

def ofBool (b : Bool) : Truth :=
  if b then .yes else .no

def and : Truth → Truth → Truth
  | .no, _ | _, .no => .no
  | .yes, .yes => .yes
  | _, _ => .unknown

def all (ts : List Truth) : Truth :=
  ts.foldr and .yes

theorem ofBool_eq_yes {b : Bool} : ofBool b = .yes ↔ b = true := by
  cases b <;> decide

theorem and_eq_yes {a b : Truth} : a.and b = .yes ↔ a = .yes ∧ b = .yes := by
  cases a <;> cases b <;> decide

end Truth

/-- A value in a row, or one made of it. Texts compare by their bytes only if they are asked to. -/
inductive Datum
  | null
  | integer (value : Int)
  | double (value : Double)
  | text (value : String)
  | bytes (value : String)
  | list (values : List String)
  | boolean (value : Bool)
  | timestamp (value : Time.Instant)
  deriving DecidableEq, Repr

def Datum.ofRecord (r : Record) : Field → Datum
  | .id => .integer r.id
  | .title => .text r.title
  | .price => .double r.price
  | .stockStatus => .text r.stockStatus
  | .stockQuantity =>
    match r.stockQuantity with
    | some n => .integer n
    | none => .null
  | .category => .text r.category
  | .tags => .list r.tags
  | .onSale => .boolean r.onSale
  | .createdAt => .timestamp r.createdAt

/-- What one database does in its own way. -/
structure Engine where
  /-- Whether a pattern is found in a text. -/
  found : (pattern subject : String) → Bool
  /-- The order of texts that are not asked to compare by their bytes. -/
  collated : String → String → Ordering
  /-- How two numbers compare one of which is not a number. -/
  besideNan : Double → Double → Option Ordering
  /-- The text form of what is neither a text nor a truth value. -/
  written : Datum → String
  layOut : (layout : String) → Time.Instant → String

namespace Engine

def compareNumbers (e : Engine) (x y : Double) : Option Ordering :=
  match x.compare? y with
  | some o => some o
  | none => e.besideNan x y

def wholeSeconds : String := "YYYY-MM-DD\"T\"HH24:MI:SS\"+00:00\""

/-- A database that finds the same patterns and lays moments out in the same way. -/
structure Agrees (e : Engine) : Prop where
  found : ∀ pattern p subject, Pattern.compile pattern = .ok p →
    e.found pattern subject = p.isMatch subject
  layOut : ∀ i, e.layOut wholeSeconds i = i.renderWhole

end Engine

def accepts? (operator : String) (o : Ordering) : Option Bool :=
  if operator = "=" then some (o == .eq)
  else if operator = ">" then some (o == .gt)
  else if operator = ">=" then some (o == .gt || o == .eq)
  else if operator = "<" then some (o == .lt)
  else if operator = "<=" then some (o == .lt || o == .eq)
  else none

def compared? (e : Engine) : Datum → Parameter → Option (Option Ordering)
  | .null, _ => some none
  | .integer n, .number y => some (e.compareNumbers (.ofInt n) y)
  | .double x, .number y => some (e.compareNumbers x y)
  | .text s, .text t => some (some (e.collated s t))
  | .bytes s, .text t => some (some (compareBytes (encode s.toList) (encode t.toList)))
  | .boolean a, .boolean b => some (some (compare a.toNat b.toNat))
  | .timestamp i, .timestamp j => some (some (i.compare j))
  | _, _ => none

def searched? (e : Engine) : Datum → Parameter → Option Truth
  | .null, _ => some .unknown
  | .text s, .text pattern | .bytes s, .text pattern => some (.ofBool (e.found pattern s))
  | _, _ => none

/-- The value of an operand in the row of a record, of which an element may be looked at. -/
def Operand.value? (e : Engine) (r : Record) (element : Option String) : Operand → Option Datum
  | .column f => some (.ofRecord r f)
  | .element => element.map .text
  | .asText o => do
    match ← o.value? e r element with
    | .null => some .null
    | .text s | .bytes s => some (.text s)
    | .boolean b => some (.text (if b then "true" else "false"))
    | d => some (.text (e.written d))
  | .bytewise o => do
    match ← o.value? e r element with
    | .null => some .null
    | .text s | .bytes s => some (.bytes s)
    | _ => none
  | .laidOut o layout => do
    match ← o.value? e r element with
    | .null => some .null
    | .timestamp i => some (.text (e.layOut layout i))
    | _ => none

def parameter? (ps : List Parameter) : Nat → Option Parameter
  | 0 => none
  | n + 1 => ps[n]?

def Test.truth? (e : Engine) (ps : List Parameter) (r : Record) (element : Option String)
    (t : Test) : Option Truth := do
  let d ← t.left.value? e r element
  let p ← parameter? ps t.mark
  if t.operator = "~*" then searched? e d p
  else
    match ← compared? e d p with
    | some o => (accepts? t.operator o).map .ofBool
    | none => some .unknown

def Term.truth? (e : Engine) (ps : List Parameter) (r : Record) : Term → Option Truth
  | .constant b => some (.ofBool b)
  | .test t => t.truth? e ps r none
  | .anyOf f t =>
    match Datum.ofRecord r f with
    | .list items => do
      let ts ← items.mapM fun s => t.truth? e ps r (some s)
      some (.ofBool (ts.any (· == .yes)))
    | _ => none

/-- The truth of a text with parameters on the row of a record; none if it is refused. -/
def truth? (e : Engine) (text : String) (ps : List Parameter) (r : Record) : Option Truth := do
  let ts ← (← terms? text).mapM fun t => t.truth? e ps r
  some (.all ts)

end Segments.Query
