import Segments.Condition.Codec
import Segments.Filter.Basic

namespace Segments

open Json

def Comparison.decode : Decoder Comparison :=
  Decode.choice Comparison.name Comparison.all

def Comparison.toJson (c : Comparison) : Json :=
  .text c.name

def Filter.shape : Shape [String, Comparison, Literal] :=
  .cons (.required "field" Decode.text) <|
  .cons (.required "operator" Comparison.decode) <|
  .cons (.required "value" Literal.decode) .nil

def Filter.decode : Decoder Filter := fun v => do
  let (field, comparison, value, ()) ← Filter.shape.decode "Filter" v
  .ok ⟨field, comparison, value⟩

def Filter.toJson (f : Filter) : Json :=
  .object
    [("field", .text f.field), ("operator", f.comparison.toJson), ("value", f.value.toJson)]

end Segments
