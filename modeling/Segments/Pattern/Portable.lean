import Segments.Pattern.Basic

namespace Segments.Pattern

def isMeta (c : Char) : Bool :=
  c == '\\' || c == '.' || c == '+' || c == '*' || c == '?' || c == '(' || c == ')' || c == '|' ||
    c == '[' || c == ']' || c == '\x7b' || c == '\x7d' || c == '^' || c == '$' || c == '#' ||
    c == '&' || c == '-' || c == '~'

/-- The pattern that stands for the text itself. -/
def escape (text : String) : String :=
  String.ofList (text.toList.flatMap fun c => if isMeta c then ['\\', c] else [c])

def isPunctuation (c : Char) : Bool :=
  c.toNat < 127 && c.toNat > 32 && !c.isAlphanum

/-- Whether a database takes the escape of this character as it is meant. Between brackets it
refuses the classes that are complements, and word boundaries are characters to it. -/
def isPortableEscape (bracketed : Bool) (c : Char) : Bool :=
  c == 'd' || c == 's' || c == 'w' ||
    (!bracketed && (c == 'D' || c == 'S' || c == 'W')) ||
    (isPunctuation c && c != '<' && c != '>')

/-- What is left after an opening bracket and the characters that belong to it: a caret, and a
closing bracket that is a member. -/
def afterBracket (cs : List Char) : List Char :=
  let cs := match cs with
    | '^' :: rest => rest
    | rest => rest
  match cs with
  | ']' :: rest => rest
  | rest => rest

/-- Whether the rest of a text has none of the forms that only one of the two takes: special
groups, other escapes, brackets in brackets. -/
def isPortableFrom : Nat → Bool → List Char → Bool
  | _, _, [] => true
  | 0, _, _ :: _ => true
  | fuel + 1, bracketed, c :: cs =>
    if c == '\\' then
      match cs with
      | [] => false
      | e :: rest => isPortableEscape bracketed e && isPortableFrom fuel bracketed rest
    else if bracketed then
      if c == '[' then false else isPortableFrom fuel (c != ']') cs
    else if c == '(' then cs.head? != some '?' && isPortableFrom fuel false cs
    else if c == '[' then isPortableFrom fuel true (afterBracket cs)
    else isPortableFrom fuel false cs

def isPortable (text : String) : Bool :=
  isPortableFrom text.toList.length false text.toList

/-- The text if it is a portable pattern, and otherwise the pattern that stands for it. -/
def portable (text : String) : String :=
  match compile text with
  | .ok _ => if isPortable text then text else escape text
  | .error _ => escape text

end Segments.Pattern
