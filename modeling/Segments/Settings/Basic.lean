import Segments.Json.Decode
import Segments.Settings.Cast
import Segments.Text.Blank

namespace Segments

structure Settings.Shop where
  baseUrl : Option String
  key : String
  secret : String
  deriving DecidableEq, Repr

structure Settings where
  host : String
  port : Nat
  databaseUrl : Option String
  shop : Settings.Shop
  /-- Seconds between two scheduled runs. -/
  syncInterval : Nat
  logLevel : String
  logFormat : String
  deriving DecidableEq, Repr

namespace Settings

open Json

def Shop.none : Shop :=
  ⟨Option.none, "", ""⟩

def standard : Settings :=
  { host := "127.0.0.1", port := 4000, databaseUrl := Option.none, shop := .none
    syncInterval := 3600, logLevel := "info", logFormat := "text" }

/-- Whether products are to be had: a storefront is named by more than blanks. -/
def syncEnabled (s : Settings) : Bool :=
  s.shop.baseUrl.any fun url => !(Text.trim url.toList).isEmpty

def redacted : String := "<redacted>"

def shownOption : Option String → String
  | some s => "Some(" ++ Text.quotedText s ++ ")"
  | Option.none => "None"

def shownFields (name : String) (fields : List (String × String)) : String :=
  name ++ " \x7b " ++ ", ".intercalate (fields.map fun f => f.1 ++ ": " ++ f.2) ++ " \x7d"

def Shop.shown (s : Shop) : String :=
  shownFields "UpstreamConfig"
    [("base_url", shownOption s.baseUrl),
     ("consumer_key", Text.quotedText redacted),
     ("consumer_secret", Text.quotedText redacted)]

def shown (s : Settings) : String :=
  shownFields "ServerConfig"
    [("host", Text.quotedText s.host),
     ("port", toString s.port),
     ("database_url", shownOption (s.databaseUrl.map fun _ => redacted)),
     ("upstream", s.shop.shown),
     ("sync_interval_secs", toString s.syncInterval),
     ("log_level", Text.quotedText s.logLevel),
     ("log_format", Text.quotedText s.logFormat)]

def Shop.shape : Shape [Option String, String, String] :=
  .cons (.withDefault "base_url" (Decode.optional Decode.text) Option.none) <|
  .cons (.withDefault "consumer_key" Decode.text "") <|
  .cons (.withDefault "consumer_secret" Decode.text "") .nil

def Shop.decode : Decoder Shop := fun v => do
  let (baseUrl, key, secret, ()) ← Shop.shape.decode "UpstreamConfig" v
  .ok ⟨baseUrl, key, secret⟩

def Shop.toJson (s : Shop) : Json :=
  .object
    [("base_url", .ofOption .text s.baseUrl), ("consumer_key", .text s.key),
     ("consumer_secret", .text s.secret)]

def shape : Shape [String, Nat, Option String, Shop, Nat, String, String] :=
  .cons (.required "host" Decode.text) <|
  .cons (.required "port" (Decode.natural Word.maxNatural16 "u16")) <|
  .cons (.withDefault "database_url" (Decode.optional Decode.text) Option.none) <|
  .cons (.withDefault "upstream" Shop.decode .none) <|
  .cons (.required "sync_interval_secs" (Decode.natural Word.maxNatural64 "u64")) <|
  .cons (.required "log_level" Decode.text) <|
  .cons (.required "log_format" Decode.text) .nil

def decode : Decoder Settings := fun v => do
  let (host, port, databaseUrl, shop, syncInterval, logLevel, logFormat, ()) ←
    shape.decode "ServerConfig" v
  .ok { host, port, databaseUrl, shop, syncInterval, logLevel, logFormat }

def toJson (s : Settings) : Json :=
  .object
    [("database_url", .ofOption .text s.databaseUrl), ("host", .text s.host),
     ("log_format", .text s.logFormat), ("log_level", .text s.logLevel),
     ("port", .ofNat s.port), ("sync_interval_secs", .ofNat s.syncInterval),
     ("upstream", s.shop.toJson)]

def member (name : String) (cast : Value → Except Fault α) (absent : Option α) (v : Value) :
    Except Fault α :=
  match v.get? name, absent with
  | some value, _ => (cast value).mapError (Fault.within name)
  | Option.none, some a => .ok a
  | Option.none, Option.none => .error (.shape ("missing field `" ++ name ++ "`"))

def item (place : Nat) (cast : Value → Except Fault α) (absent : α) (items : List Value) :
    Except Fault α :=
  match items[place]? with
  | some value => (cast value).mapError (Fault.within ("[" ++ toString place ++ "]"))
  | Option.none => .ok absent

def Value.standing : Value → String
  | .scalar _ (.whole n) => "integer `" ++ toString n ++ "`"
  | .scalar _ (.real x) =>
    let digits := x.render
    "floating point `" ++ (if digits.toList.contains '.' then digits else digits ++ ".0") ++ "`"
  | v => v.found

def Shop.ofValue (v : Value) : Except Fault Shop :=
  match v with
  | .table _ _ => do
    let baseUrl ← member "base_url" (Value.asOption Value.asText) (some Option.none) v
    let key ← member "consumer_key" Value.asText (some "") v
    let secret ← member "consumer_secret" Value.asText (some "") v
    .ok ⟨baseUrl, key, secret⟩
  | .list _ items => do
    let baseUrl ← item 0 (Value.asOption Value.asText) Option.none items
    let key ← item 1 Value.asText "" items
    let secret ← item 2 Value.asText "" items
    .ok ⟨baseUrl, key, secret⟩
  | v => .error (.shape ("invalid type: " ++ v.standing ++ ", expected struct UpstreamConfig"))

/-- The settings that values give. Members of other names do not count. -/
def ofValue (v : Value) : Except Fault Settings := do
  let host ← member "host" Value.asText Option.none v
  let port ← member "port" Value.asPort Option.none v
  let databaseUrl ← member "database_url" (Value.asOption Value.asText) (some Option.none) v
  let shop ← member "upstream" Shop.ofValue (some .none) v
  let syncInterval ← member "sync_interval_secs" Value.asNatural Option.none v
  let logLevel ← member "log_level" Value.asText Option.none v
  let logFormat ← member "log_format" Value.asText Option.none v
  .ok { host, port, databaseUrl, shop, syncInterval, logLevel, logFormat }

end Settings

end Segments
