import Segments.Catalog.Record
import Segments.Json.Decode
import Segments.Time.Layout
import Segments.Time.Reading

namespace Segments

open Json

def Time.Instant.decode : Decoder Time.Instant
  | .text s =>
    match Time.Instant.readWire s with
    | .ok i => .ok i
    | .error e => .error (.reason e.message)
  | v => .error (.kind v "an RFC 3339 formatted date and time string")

namespace Catalog

def Field.decode : Decoder Field :=
  Decode.choice Field.name Field.all

def Field.toJson (f : Field) : Json :=
  .text f.name

def Record.shape : Shape
    [Int, String, Double, String, Option Int, String, List String, Bool, Time.Instant] :=
  .cons (.required "id" Decode.int64) <|
  .cons (.required "title" Decode.text) <|
  .cons (.required "price" Decode.double) <|
  .cons (.required "stock_status" Decode.text) <|
  .cons (.optional "stock_quantity" Decode.int64) <|
  .cons (.required "category" Decode.text) <|
  .cons (.required "tags" (Decode.list Decode.text)) <|
  .cons (.required "on_sale" Decode.boolean) <|
  .cons (.required "created_at" Time.Instant.decode) .nil

def Record.decode : Decoder Record := fun v => do
  let (id, title, price, stockStatus, stockQuantity, category, tags, onSale, createdAt, ()) ←
    Record.shape.decode "CatalogRecord" v
  .ok ⟨id, title, price, stockStatus, stockQuantity, category, tags, onSale, createdAt⟩

def Record.toJson (r : Record) : Json :=
  .object
    [("category", .text r.category),
     ("created_at", .text r.createdAt.render),
     ("id", .ofInt r.id),
     ("on_sale", .boolean r.onSale),
     ("price", .ofDouble r.price),
     ("stock_quantity", .ofOption .ofInt r.stockQuantity),
     ("stock_status", .text r.stockStatus),
     ("tags", .texts r.tags),
     ("title", .text r.title)]

end Catalog

end Segments
