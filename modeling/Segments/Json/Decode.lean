import Segments.Json.Basic
import Segments.Number.Layout
import Segments.Text.Quoted

namespace Segments.Json

inductive Misfit
  | kind (found : Json) (expected : String)
  | value (found : String) (expected : String)
  | length (found : Nat) (expected : String)
  | missing (member : String)
  | unknownName (name : String) (names : List String)
  | noVariant (type : String)
  | reason (message : String)
  deriving Repr

def shown : Json → String
  | .null => "null"
  | .boolean b => "boolean " ++ (if b then "`true`" else "`false`")
  | .number (.natural n) => "integer `" ++ toString n ++ "`"
  | .number (.negative n) => "integer `-" ++ toString n ++ "`"
  | .number (.float x) => "floating point `" ++ x.renderJson ++ "`"
  | .text s => "string " ++ Text.quotedText s
  | .array _ => "sequence"
  | .object _ => "map"

def Misfit.message : Misfit → String
  | .kind found expected => "invalid type: " ++ shown found ++ ", expected " ++ expected
  | .value found expected => "invalid value: " ++ found ++ ", expected " ++ expected
  | .length found expected => "invalid length " ++ toString found ++ ", expected " ++ expected
  | .missing member => "missing field `" ++ member ++ "`"
  | .unknownName name names =>
    "unknown variant `" ++ name ++ "`, expected one of " ++
      ", ".intercalate (names.map fun n => "`" ++ n ++ "`")
  | .noVariant type => "data did not match any variant of untagged enum " ++ type
  | .reason m => m

abbrev Decoder (α : Type) := Json → Except Misfit α

theorem bind_eq_error {ε α β : Type} {x : Except ε α} {f : α → Except ε β} {e : ε} :
    x >>= f = .error e ↔ x = .error e ∨ ∃ a, x = .ok a ∧ f a = .error e := by
  cases x <;> simp [bind, Except.bind]

theorem bind_eq_ok {ε α β : Type} {x : Except ε α} {f : α → Except ε β} {b : β} :
    x >>= f = .ok b ↔ ∃ a, x = .ok a ∧ f a = .ok b := by
  cases x <;> simp [bind, Except.bind]

namespace Decode

def text : Decoder String
  | .text s => .ok s
  | v => .error (.kind v "a string")

def boolean : Decoder Bool
  | .boolean b => .ok b
  | v => .error (.kind v "a boolean")

def double : Decoder Double
  | .number n => .ok n.toDouble
  | v => .error (.kind v "f64")

def whole (least most : Int) (name : String) : Decoder Int
  | .number (.natural n) =>
    if (n : Int) ≤ most then .ok n else .error (.value (shown (.number (.natural n))) name)
  | .number (.negative n) =>
    if least ≤ -(n : Int) then .ok (-n) else .error (.value (shown (.number (.negative n))) name)
  | v => .error (.kind v name)

def int64 : Decoder Int :=
  whole Word.minInt64 Word.maxInt64 "i64"

def natural (most : Nat) (name : String) : Decoder Nat := fun v =>
  (whole 0 most name v).map Int.toNat

def count : Decoder Nat :=
  natural Word.maxNatural64 "usize"

def optional (decode : Decoder α) : Decoder (Option α)
  | .null => .ok none
  | v => (decode v).map some

def list (decode : Decoder α) : Decoder (List α)
  | .array items => items.mapM decode
  | v => .error (.kind v "a sequence")

/-- One of some names, given as text or as an object with that one member, which is null. -/
def choice (name : α → String) (all : List α) : Decoder α := fun v =>
  let pick (s : String) : Except Misfit α :=
    match all.find? fun a => name a == s with
    | some a => .ok a
    | none => .error (.unknownName s (all.map name))
  match v with
  | .text s => pick s
  | .object [(s, content)] => do
    let a ← pick s
    match content with
    | .null => .ok a
    | v => .error (.kind v "unit")
  | .object _ => .error (.value "map" "map with a single key")
  | v => .error (.kind v "string or map")

end Decode

structure Member (α : Type) where
  name : String
  decode : Decoder α
  /-- What an object without the member has there. -/
  absent : Option α
  /-- What an array that ends before the member has there. -/
  beyond : Option α

def Member.required (name : String) (decode : Decoder α) : Member α :=
  ⟨name, decode, none, none⟩

def Member.optional (name : String) (decode : Decoder α) : Member (Option α) :=
  ⟨name, Decode.optional decode, some none, none⟩

def Member.withDefault (name : String) (decode : Decoder α) (value : α) : Member α :=
  ⟨name, decode, some value, some value⟩

inductive Shape : List Type → Type 1
  | nil : Shape []
  | cons {α : Type} {αs : List Type} (member : Member α) (rest : Shape αs) : Shape (α :: αs)

abbrev Row : List Type → Type
  | [] => Unit
  | α :: αs => α × Row αs

namespace Shape

def fault? : Shape αs → String → Json → Option Misfit
  | .nil, _, _ => none
  | .cons m rest, name, v =>
    if m.name == name then
      match m.decode v with
      | .ok _ => none
      | .error e => some e
    else rest.fault? name v

def pick (find : String → Option Json) : (s : Shape αs) → Except Misfit (Row αs)
  | .nil => .ok ()
  | .cons m rest => do
    let a ← match find m.name, m.absent with
      | some v, _ => m.decode v
      | none, some a => .ok a
      | none, none => .error (.missing m.name)
    let row ← rest.pick find
    .ok (a, row)

def take (before : Nat) (expected : String) : (s : Shape αs) → List Json → Except Misfit (Row αs)
  | .nil, [] => .ok ()
  | .nil, rest => .error (.length (before + rest.length) "fewer elements in array")
  | .cons m rest, items =>
    match items with
    | v :: items => do
      let a ← m.decode v
      let row ← rest.take (before + 1) expected items
      .ok (a, row)
    | [] =>
      match m.beyond with
      | some a => do
        let row ← rest.take (before + 1) expected []
        .ok (a, row)
      | none => .error (.length before expected)

def size : Shape αs → Nat
  | .nil => 0
  | .cons _ rest => rest.size + 1

/-- A structure is read from an object by the names of its members, or from an array by their order.
An object is looked through in its own order, so that of several faults the one in the first member
is told; a missing member is told last. -/
def decode (s : Shape αs) (name : String) : Decoder (Row αs)
  | .object members =>
    match members.findSome? fun m => s.fault? m.1 m.2 with
    | some e => .error e
    | none => s.pick fun n => lookup n members
  | .array items =>
    let elements := if s.size == 1 then " element" else " elements"
    s.take 0 ("struct " ++ name ++ " with " ++ toString s.size ++ elements) items
  | v => .error (.kind v ("struct " ++ name))

end Shape

end Segments.Json
