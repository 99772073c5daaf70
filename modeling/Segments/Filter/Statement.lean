import Segments.Catalog.Field
import Segments.Filter.Basic
import Segments.Time.Reading

namespace Segments

open Catalog

inductive Parameter
  | text (value : String)
  | number (value : Double)
  | boolean (value : Bool)
  | timestamp (value : Time.Instant)
  deriving DecidableEq, Repr

/-- A clause about one field; each has one parameter but the one that is never true. -/
inductive Clause
  | never
  | compared (field : Field) (token : String) (value : Parameter)
  | searched (field : Field) (pattern : String)
  deriving DecidableEq, Repr

namespace Clause

def parameter? : Kind → Literal → Option Parameter
  | .integer, .number x | .decimal, .number x => some (.number x)
  | .text, .text s | .textList, .text s => some (.text s)
  | .boolean, .boolean b => some (.boolean b)
  | .timestamp, .text s => (Time.Instant.read? s).map .timestamp
  | _, _ => none

def ofFilter (f : Filter) : Clause :=
  match Field.ofName? f.field with
  | none => .never
  | some field =>
    match f.comparison.token? with
    | none => .searched field (Pattern.portable f.value.display)
    | some token =>
      match parameter? field.kind f.value with
      | some p => .compared field token p
      | none => .never

def parameters : Clause → List Parameter
  | .never => []
  | .compared _ _ value => [value]
  | .searched _ pattern => [.text pattern]

def placeholder (n : Nat) : String :=
  "$" ++ toString n

def someElement (column test : String) : String :=
  "EXISTS (SELECT 1 FROM unnest(" ++ column ++ ") AS t(tag) WHERE t.tag" ++ test ++ ")"

def render (before : Nat) : Clause → String
  | .never => "FALSE"
  | .compared field token _ =>
    let test := " " ++ token ++ " " ++ placeholder (before + 1)
    match field.kind with
    | .text => field.name ++ " COLLATE \"C\"" ++ test
    | .textList => someElement field.name (" COLLATE \"C\"" ++ test)
    | _ => field.name ++ test
  | .searched field _ =>
    let test := " ~* " ++ placeholder (before + 1)
    match field.kind with
    | .text => field.name ++ test
    | .textList => someElement field.name test
    | .timestamp =>
      "to_char(" ++ field.name ++
        " AT TIME ZONE 'UTC', 'YYYY-MM-DD\"T\"HH24:MI:SS\"+00:00\"')" ++ test
    | _ => field.name ++ "::text" ++ test

end Clause

/-- The condition of a query, and its parameters in the order of their marks. The texts of literals
stand only among the parameters, never in the text. -/
structure Statement where
  text : String
  parameters : List Parameter
  deriving DecidableEq, Repr

def renderClauses (before : Nat) : List Clause → List String
  | [] => []
  | c :: cs => c.render before :: renderClauses (before + c.parameters.length) cs

def Statement.ofClauses (cs : List Clause) : Statement :=
  ⟨if cs.isEmpty then "TRUE" else " AND ".intercalate (renderClauses 0 cs),
    cs.flatMap Clause.parameters⟩

def Statement.ofFilters (fs : List Filter) : Statement :=
  .ofClauses (fs.map Clause.ofFilter)

def recordTable : String := "products"

def recordColumns : String :=
  ", ".intercalate (Field.all.map Field.name)

end Segments
