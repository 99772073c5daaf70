import Segments.Number.Layout
import Segments.Number.Reading
import Segments.Text.Blank

namespace Segments

/-- The values that records are compared with. A text is read as a truth value, as a finite number,
or kept; one pair of quotes around it is taken off first. -/
inductive Literal
  | boolean (value : Bool)
  | number (value : Double)
  | text (value : String)
  deriving DecidableEq, Repr

namespace Literal

open Text

def typeName : Literal → String
  | .boolean _ => "boolean"
  | .number _ => "number"
  | .text _ => "text"

def asText? : Literal → Option String
  | .text s => some s
  | _ => none

def asNumber? : Literal → Option Double
  | .number x => some x
  | _ => none

def asBoolean? : Literal → Option Bool
  | .boolean b => some b
  | _ => none

def display : Literal → String
  | .boolean b => if b then "true" else "false"
  | .number x => x.display
  | .text s => s

/-- Takes off one pair of equal straight quotes around a text of two characters or more. -/
def unquote (cs : List Char) : List Char :=
  match cs, cs.getLast? with
  | c :: d :: rest, some last =>
    if (c == '"' || c == '\'') && last == c then (d :: rest).dropLast else cs
  | _, _ => cs

def ofWord (word : List Char) : Literal :=
  let lowered := lowerAscii word
  if lowered == "true".toList then .boolean true
  else if lowered == "false".toList then .boolean false
  else
    match Double.readFinite? word with
    | some x => .number x
    | none => .text (String.ofList word)

def ofChars (cs : List Char) : Literal :=
  ofWord (unquote (trim cs))

def read (text : String) : Literal :=
  ofChars text.toList

end Literal

end Segments
