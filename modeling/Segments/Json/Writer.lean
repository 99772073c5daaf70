import Segments.Json.Basic
import Segments.Number.Layout
import Segments.Text.Digits

namespace Segments.Json

open Text

def escapeChar (c : Char) : List Char :=
  if c == '"' then ['\\', '"']
  else if c == '\\' then ['\\', '\\']
  else if c == '\n' then ['\\', 'n']
  else if c == '\r' then ['\\', 'r']
  else if c == '\t' then ['\\', 't']
  else if c.toNat == 8 then ['\\', 'b']
  else if c.toNat == 12 then ['\\', 'f']
  else if c.toNat < 32 then
    '\\' :: 'u' :: '0' :: '0' :: (if c.toNat < 16 then '0' :: hexDigits c.toNat else hexDigits c.toNat)
  else [c]

def quote (s : String) : List Char :=
  '"' :: (s.toList.flatMap escapeChar ++ ['"'])

def Number.write : Number → List Char
  | .natural n => (toString n).toList
  | .negative n => '-' :: (toString n).toList
  | .float x => x.renderJson.toList

mutual

def writeChars : Json → List Char
  | .null => "null".toList
  | .boolean b => (if b then "true" else "false").toList
  | .number n => n.write
  | .text s => quote s
  | .array items => '[' :: (writeItems true items ++ [']'])
  | .object members => '{' :: (writeMembers true members ++ ['}'])

def writeItems (first : Bool) : List Json → List Char
  | [] => []
  | v :: rest =>
    (if first then [] else [',']) ++ writeChars v ++ writeItems false rest

def writeMembers (first : Bool) : List (String × Json) → List Char
  | [] => []
  | (n, v) :: rest =>
    (if first then [] else [',']) ++ quote n ++ ':' :: writeChars v ++ writeMembers false rest

end

def write (v : Json) : String :=
  String.ofList (writeChars v)

end Segments.Json
