import Segments.Condition.Basic
import Segments.Json.Decode

namespace Segments

open Json

def Literal.decode : Decoder Literal
  | .boolean b => .ok (.boolean b)
  | .number n => .ok (.number n.toDouble)
  | .text s => .ok (.text s)
  | _ => .error (.noVariant "Value")

def Literal.toJson : Literal → Json
  | .boolean b => .boolean b
  | .number x => .ofDouble x
  | .text s => .text s

def Operator.decode : Decoder Operator :=
  Decode.choice Operator.name Operator.all

def Operator.toJson (op : Operator) : Json :=
  .text op.name

namespace Condition

def shape : Shape [String, Operator, Literal] :=
  .cons (.required "field" Decode.text) <|
  .cons (.required "operator" Operator.decode) <|
  .cons (.required "value" Literal.decode) .nil

def decode : Decoder Condition := fun v => do
  let (field, operator, value, ()) ← shape.decode "Condition" v
  .ok ⟨field, operator, value⟩

def toJson (c : Condition) : Json :=
  .object [("field", .text c.field), ("operator", c.operator.toJson), ("value", c.value.toJson)]

def Reason.decode : Decoder Reason :=
  Decode.choice Reason.name Reason.all

def Reason.toJson (r : Reason) : Json :=
  .text r.name

def Skip.shape : Shape [Nat, String, Reason] :=
  .cons (.required "index" Decode.count) <|
  .cons (.required "condition" Decode.text) <|
  .cons (.required "reason" Reason.decode) .nil

def Skip.decode : Decoder Skip := fun v => do
  let (index, condition, reason, ()) ← Skip.shape.decode "CompileSkip" v
  .ok ⟨index, condition, reason⟩

def Skip.toJson (s : Skip) : Json :=
  .object
    [("condition", .text s.condition), ("index", .ofNat s.index), ("reason", s.reason.toJson)]

end Condition

end Segments
