import Segments.Json.Writer
import Segments.Log.Notice

namespace Segments.Log

open Json

/-- Characters that a terminal would act on are written by their number. -/
def visibleChar (c : Char) : List Char :=
  let n := c.toNat
  if n == 0x1B || n == 0x07 || n == 0x08 || n == 0x0C || n == 0x7F then
    "\\x".toList ++ (if n < 16 then '0' :: Text.hexDigits n else Text.hexDigits n)
  else if 0x80 ≤ n && n ≤ 0x9F then "\\u\x7b".toList ++ Text.hexDigits n ++ ['\x7d']
  else [c]

def fieldText : Json → String
  | .text s => s
  | v => v.write

def Notice.line (n : Notice) : String :=
  let message := String.ofList (n.message.toList.flatMap visibleChar)
  let fields := n.fields.map fun f => " " ++ f.1 ++ "=" ++ fieldText f.2
  n.level.name ++ " " ++ n.target ++ ": " ++ message ++ String.join fields

def Notice.toJson (n : Notice) : Json :=
  .object
    [("fields", .ofMembers (("message", .text n.message) :: n.fields)),
     ("level", .text n.level.name),
     ("target", .text n.target)]

end Segments.Log
