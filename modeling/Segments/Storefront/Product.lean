import Segments.Catalog.Record
import Segments.Json.Decode
import Segments.Number.Layout
import Segments.Number.Reading
import Segments.Text.Blank
import Segments.Time.Reading

namespace Segments.Storefront

open Json

inductive Rejection
  | unkeyed (reason : String)
  | price (id : Int) (given : String)
  | date (id : Int) (given : String)
  | malformed (reason : String)
  deriving DecidableEq, Repr

def Rejection.message : Rejection → String
  | .unkeyed reason => "Invalid record: " ++ reason
  | .price id given => "Invalid price for product " ++ toString id ++ ": " ++ given
  | .date id given => "Invalid creation date for product " ++ toString id ++ ": " ++ given
  | .malformed reason => "Malformed record: " ++ reason

inductive Price
  | number (value : Double)
  | text (value : String)
  deriving DecidableEq, Repr

def Price.decode : Decoder Price
  | .number n => .ok (.number n.toDouble)
  | .text s => .ok (.text s)
  | _ => .error (.noVariant "UpstreamPrice")

abbrev Term := Option String

def Term.shape : Shape [Option String] :=
  .cons (.withDefault "name" (Decode.optional Decode.text) none) .nil

def Term.decode : Decoder Term := fun v => do
  let (name, ()) ← Term.shape.decode "NamedTerm" v
  .ok name

/-- A product with its members decoded. All may be absent. -/
structure Product where
  id : Option Int
  name : Option String
  price : Option Price
  stockStatus : Option String
  stockQuantity : Option Int
  categories : Option (List Term)
  tags : Option (List Term)
  onSale : Option Bool
  created : Option String
  createdUniversal : Option String
  deriving DecidableEq, Repr

namespace Product

def member (name : String) (decode : Decoder α) : Member (Option α) :=
  .withDefault name (Decode.optional decode) none

def shape : Shape
    [Option Int, Option String, Option Price, Option String, Option Int, Option (List Term),
     Option (List Term), Option Bool, Option String, Option String] :=
  .cons (.optional "id" Decode.int64) <|
  .cons (member "name" Decode.text) <|
  .cons (member "price" Price.decode) <|
  .cons (member "stock_status" Decode.text) <|
  .cons (member "stock_quantity" Decode.int64) <|
  .cons (member "categories" (Decode.list Term.decode)) <|
  .cons (member "tags" (Decode.list Term.decode)) <|
  .cons (member "on_sale" Decode.boolean) <|
  .cons (member "date_created" Decode.text) <|
  .cons (member "date_created_gmt" Decode.text) .nil

def decode : Decoder Product := fun v => do
  let (id, name, price, stockStatus, stockQuantity, categories, tags, onSale, created,
    createdUniversal, ()) ← shape.decode "UpstreamProduct" v
  .ok ⟨id, name, price, stockStatus, stockQuantity, categories, tags, onSale, created,
    createdUniversal⟩

def missing : String := "<missing>"

/-- A finite number that is not negative. -/
def readPrice (id : Int) : Option Price → Except Rejection Double
  | none => .error (.price id missing)
  | some (.number x) => check x
  | some (.text s) =>
    match Double.read? (Text.trim s.toList) with
    | some x => check x
    | none => .error (.price id s)
where
  check (x : Double) : Except Rejection Double :=
    if x.isFinite && !x.isNegative then .ok x else .error (.price id x.render)

def readCreated (id : Int) : Option String → Except Rejection Time.Instant
  | none => .error (.date id missing)
  | some s =>
    match Time.Instant.read? s with
    | some i => .ok i
    | none => .error (.date id s)

/-- The record of a product: its category is the first, terms without a name are left out. -/
def toRecord (p : Product) : Except Rejection Catalog.Record := do
  let id ← match p.id with
    | some id => .ok id
    | none => .error (.unkeyed "missing id")
  let price ← readPrice id p.price
  let createdAt ← readCreated id (p.created.or p.createdUniversal)
  .ok
    { id, price, createdAt
      title := p.name.getD ""
      stockStatus := p.stockStatus.getD ""
      stockQuantity := p.stockQuantity
      category := ((p.categories.getD []).head?.bind fun t => t).getD ""
      tags := (p.tags.getD []).filterMap fun t => t
      onSale := p.onSale.getD false }

end Product

/-- A product is refused with the first of these causes: it has no id, members of other types, no
usable price, no usable date. -/
def normalize (raw : Json) : Except Rejection Catalog.Record :=
  match raw.get? "id" with
  | none | some .null => .error (.unkeyed "missing id")
  | some _ =>
    match Product.decode raw with
    | .error e => .error (.malformed e.message)
    | .ok p => p.toRecord

def listedId? (raw : Json) : Option Int :=
  match raw.get? "id" with
  | some (.number n) => n.toInt64?
  | _ => none

end Segments.Storefront
