

namespace Segments.Catalog

inductive Field
  | id
  | title
  | price
  | stockStatus
  | stockQuantity
  | category
  | tags
  | onSale
  | createdAt
  deriving DecidableEq, Repr

inductive Kind
  | integer
  | decimal
  | text
  | textList
  | boolean
  | timestamp
  deriving DecidableEq, Repr

def Kind.isNumeric : Kind → Bool
  | .integer | .decimal => true
  | _ => false

def Kind.name : Kind → String
  | .integer => "Integer"
  | .decimal => "Decimal"
  | .text => "Text"
  | .textList => "TextList"
  | .boolean => "Bool"
  | .timestamp => "Timestamp"

namespace Field

def all : List Field :=
  [.id, .title, .price, .stockStatus, .stockQuantity, .category, .tags, .onSale, .createdAt]

def name : Field → String
  | .id => "id"
  | .title => "title"
  | .price => "price"
  | .stockStatus => "stock_status"
  | .stockQuantity => "stock_quantity"
  | .category => "category"
  | .tags => "tags"
  | .onSale => "on_sale"
  | .createdAt => "created_at"

def kind : Field → Kind
  | .id | .stockQuantity => .integer
  | .price => .decimal
  | .title | .stockStatus | .category => .text
  | .tags => .textList
  | .onSale => .boolean
  | .createdAt => .timestamp

def ofName? (name : String) : Option Field :=
  all.find? fun f => f.name == name

def unknown (name : String) : String :=
  "Unknown field: " ++ name

theorem ofName?_name (f : Field) : ofName? f.name = some f := by
  cases f <;> decide

end Field

end Segments.Catalog
