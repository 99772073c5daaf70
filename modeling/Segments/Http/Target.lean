import Segments.Text.Basic

namespace Segments.Http

open Text

inductive TargetFault
  | empty
  | tooLong
  | character
  | authority
  | format
  | schemeTooLong
  deriving DecidableEq, Repr

def TargetFault.message : TargetFault → String
  | .empty => "empty string"
  | .tooLong => "uri too long"
  | .character => "invalid uri character"
  | .authority => "invalid authority"
  | .format => "invalid format"
  | .schemeTooLong => "scheme too long"

namespace Target

def isPathChar (c : Char) : Bool :=
  let n := c.toNat
  n == 0x21 || n == 0x22 || (0x24 ≤ n && n ≤ 0x3B) || n == 0x3D || (0x40 ≤ n && n ≤ 0x5F) ||
    (0x61 ≤ n && n ≤ 0x7E) || n ≥ 0x7F

def isQueryChar (c : Char) : Bool :=
  let n := c.toNat
  n == 0x21 || (0x24 ≤ n && n ≤ 0x3B) || n == 0x3D || n ≥ 0x3F

def checkQuery : List Char → Bool
  | [] => true
  | c :: cs => c == '#' || (isQueryChar c && checkQuery cs)

def readPath : List Char → Except TargetFault (List Char)
  | [] => .ok []
  | c :: cs =>
    if c == '?' then if checkQuery cs then .ok [] else .error .character
    else if c == '#' then .ok []
    else if isPathChar c then (readPath cs).map (c :: ·)
    else .error .character

def pathOf (cs : List Char) : Except TargetFault (List Char) :=
  (readPath cs).map fun path => if path.isEmpty then ['/'] else path

def isAddressChar (c : Char) : Bool :=
  c.isAlphanum || "!#$&'()*+,-./:;=?@[]_~".toList.contains c

structure Authority where
  colons : Nat
  opened : Bool
  closed : Bool
  percent : Bool
  /-- Whether the last character was the sign after user information. -/
  atEnd : Bool

def Authority.next (a : Authority) (c : Char) : Except TargetFault Authority :=
  let a := { a with atEnd := false }
  if c == ':' then if a.colons ≥ 8 then .error .authority else .ok { a with colons := a.colons + 1 }
  else if c == '[' then
    if a.percent || a.opened then .error .authority else .ok { a with opened := true }
  else if c == ']' then
    if !a.opened || a.closed then .error .authority
    else .ok { a with closed := true, colons := 0, percent := false }
  else if c == '@' then .ok { a with atEnd := true, colons := 0, percent := false }
  else if c == '%' then .ok { a with percent := true }
  else if isAddressChar c then .ok a
  else .error .character

def readAuthority (a : Authority) : List Char → Except TargetFault (List Char)
  | [] => finish a []
  | c :: cs =>
    if c == '/' || c == '?' || c == '#' then finish a (c :: cs)
    else do
      let a ← a.next c
      readAuthority a cs
where
  finish (a : Authority) (rest : List Char) : Except TargetFault (List Char) :=
    if a.opened != a.closed || a.colons > 1 || a.atEnd || a.percent then .error .authority
    else .ok rest

def authority (cs : List Char) : Except TargetFault (List Char) :=
  readAuthority ⟨0, false, false, false, false⟩ cs

def isSchemeChar (c : Char) : Bool :=
  c.isAlphanum || c == '+' || c == '-' || c == '.'

def afterScheme? (cs : List Char) : Except TargetFault (Option (List Char)) :=
  let name := cs.takeWhile isSchemeChar
  match cs.dropWhile isSchemeChar with
  | ':' :: '/' :: '/' :: rest =>
    if cs.length ≤ 3 then .ok none
    else if name.length > 64 then .error .schemeTooLong
    else .ok (some rest)
  | _ => .ok none

/-- A target is a path with an optional query, a whole address, or the name of a server alone, which
has no path. -/
def read (text : String) : Except TargetFault (List Char) :=
  let cs := text.toList
  if byteSize cs > 65534 then .error .tooLong
  else
    match cs with
    | [] => .error .empty
    | ['/'] => .ok ['/']
    | ['*'] => .ok ['*']
    | '/' :: _ => pathOf cs
    | [c] => do
      let rest ← authority [c]
      if rest.isEmpty then .ok [] else .error .character
    | _ => do
      match ← afterScheme? cs with
      | none => do
        let rest ← authority cs
        if rest.isEmpty then .ok [] else .error .format
      | some start => do
        let rest ← authority start
        if rest.length == start.length then .error .format else pathOf rest

end Target

end Segments.Http
