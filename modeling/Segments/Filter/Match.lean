import Segments.Catalog.Record
import Segments.Filter.Basic
import Segments.Time.Layout
import Segments.Time.Reading

namespace Segments

namespace Catalog

def FieldValue.textForm? : FieldValue → Option String
  | .text s => some s
  | .number x => some x.display
  | .boolean b => some (if b then "true" else "false")
  | .timestamp i => some i.renderWhole
  | .textList _ | .absent => none

def FieldValue.compare? : FieldValue → Literal → Option Ordering
  | .number x, .number y => x.compare? y
  | .text s, .text t => some (Text.compareText s.toList t.toList)
  | .boolean a, .boolean b => some (compare a.toNat b.toNat)
  | .timestamp i, .text s => (Time.Instant.read? s).map i.compare
  | _, _ => none

end Catalog

open Catalog

structure Matcher where
  field : Option Field
  comparison : Comparison
  value : Literal
  pattern : Option Pattern

namespace Matcher

def ofFilter (f : Filter) : Except Pattern.Fault Matcher := do
  let pattern ← match f.comparison with
    | .pattern => (Pattern.compile f.value.display).map some
    | _ => .ok none
  .ok ⟨Field.ofName? f.field, f.comparison, f.value, pattern⟩

def matchesValue (m : Matcher) (v : FieldValue) : Bool :=
  match m.pattern with
  | some p => v.textForm?.any p.isMatch
  | none => (v.compare? m.value).any m.comparison.accepts

def matchesField (m : Matcher) : FieldValue → Bool
  | .textList items => items.any fun s => m.matchesValue (.text s)
  | v => m.matchesValue v

/-- A field that is unknown or absent, and a literal of another type than the field, select nothing;
of a list of texts one is enough. -/
def selects (m : Matcher) (r : Record) : Bool :=
  match m.field with
  | some f => m.matchesField (r.get f)
  | none => false

end Matcher

end Segments
