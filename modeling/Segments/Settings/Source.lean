import Segments.Json.Reader
import Segments.Settings.Cast
import Segments.Settings.Toml
import Segments.Settings.Yaml

namespace Segments.Settings

inductive Format
  | json
  | toml
  | yaml
  deriving DecidableEq, Repr

structure Source where
  format : Format
  origin : Origin
  text : String

mutual

def Value.ofJson (origin : Origin) : Json → Value
  | .null => .scalar origin .unit
  | .boolean b => .scalar origin (.boolean b)
  | .number n =>
    match n.toInt64? with
    | some i => .scalar origin (.whole i)
    | none => .scalar origin (.real n.toDouble)
  | .text s => .scalar origin (.text s)
  | .array items => .list origin (ofJsonItems origin items)
  | .object members => .table origin (ofJsonMembers origin members)

def Value.ofJsonItems (origin : Origin) : List Json → List Value
  | [] => []
  | v :: rest => ofJson origin v :: ofJsonItems origin rest

def Value.ofJsonMembers (origin : Origin) : List (String × Json) → List (String × Value)
  | [] => []
  | (name, v) :: rest => (name, ofJson origin v) :: ofJsonMembers origin rest

end

namespace Source

def value (s : Source) : Except String Value :=
  match s.format with
  | .json =>
    let bytes := Text.encode s.text.toList
    match Json.read bytes with
    | .ok v => .ok (.ofJson s.origin v)
    | .error fault => .error (fault.message bytes)
  | .toml => Toml.read s.origin s.text
  | .yaml => Yaml.read s.origin s.text

def located (s : Source) (message : String) : String :=
  match s.origin with
  | some origin => message ++ " in " ++ origin
  | none => message

def layer (s : Source) : Except String Layer :=
  match s.value with
  | .ok (.table _ members) => .ok members
  | .ok v => .error (s.located (v.mismatch "a map").message)
  | .error message => .error (s.located message)

end Source

end Segments.Settings
