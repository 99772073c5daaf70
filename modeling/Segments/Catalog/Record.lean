import Segments.Catalog.Field
import Segments.Number.Double
import Segments.Time.Instant

namespace Segments.Catalog

structure Record where
  id : Int
  title : String
  price : Double
  stockStatus : String
  /-- None when stock is not tracked. -/
  stockQuantity : Option Int
  category : String
  tags : List String
  onSale : Bool
  createdAt : Time.Instant
  deriving DecidableEq, Repr

inductive FieldValue
  | number (value : Double)
  | text (value : String)
  | textList (values : List String)
  | boolean (value : Bool)
  | timestamp (value : Time.Instant)
  | absent
  deriving DecidableEq, Repr

/-- Whole numbers are seen as the nearest binary64 number. -/
def Record.get (r : Record) : Field → FieldValue
  | .id => .number (.ofInt r.id)
  | .title => .text r.title
  | .price => .number r.price
  | .stockStatus => .text r.stockStatus
  | .stockQuantity =>
    match r.stockQuantity with
    | some n => .number (.ofInt n)
    | none => .absent
  | .category => .text r.category
  | .tags => .textList r.tags
  | .onSale => .boolean r.onSale
  | .createdAt => .timestamp r.createdAt

end Segments.Catalog
