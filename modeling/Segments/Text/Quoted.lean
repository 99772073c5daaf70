import Segments.Text.Category
import Segments.Text.Property
import Segments.Text.Digits

namespace Segments.Text

def unquotable : CodeSet :=
  unseen.union Property.graphemeExtend.set

def quotedChar (c : Char) : List Char :=
  if c.toNat == 0 then ['\\', '0']
  else if c == '\t' then ['\\', 't']
  else if c == '\n' then ['\\', 'n']
  else if c == '\r' then ['\\', 'r']
  else if c == '"' || c == '\\' then ['\\', c]
  else if 0x20 ≤ c.toNat && c.toNat < 0x7F then [c]
  else if unquotable.contains c then "\\u\x7b".toList ++ hexDigits c.toNat ++ ['\x7d']
  else [c]

def quoted (cs : List Char) : List Char :=
  '"' :: (cs.flatMap quotedChar ++ ['"'])

def quotedText (s : String) : String :=
  String.ofList (quoted s.toList)

end Segments.Text
