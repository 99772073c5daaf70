import Segments.Text.Basic

namespace Segments.Http

open Text

namespace MediaType

def isToken (c : Char) : Bool :=
  c.isAlphanum || "!#$%&'*+-.^_`|~".toList.contains c

def isQuotedChar (c : Char) : Bool :=
  c == '\t' || (32 ≤ c.toNat && c.toNat < 127 && c != '"' && c != '\\')

def afterQuoted? : List Char → Option (List Char)
  | [] => some []
  | c :: cs => if c == ';' then some cs else if c == ' ' then afterQuoted? cs else none

def parameters : Nat → List Char → Bool
  | _, [] => true
  | 0, _ :: _ => false
  | fuel + 1, c :: cs =>
    if c == ' ' then parameters fuel cs
    else
      match (c :: cs).takeWhile isToken, (c :: cs).dropWhile isToken with
      | _ :: _, '=' :: '"' :: rest =>
        match rest.takeWhile isQuotedChar, rest.dropWhile isQuotedChar with
        | _ :: _, '"' :: after =>
          match afterQuoted? after with
          | some more => parameters fuel more
          | none => false
        | _, _ => false
      | _ :: _, '=' :: rest =>
        match rest.takeWhile isToken, rest.dropWhile isToken with
        | _, [] => true
        | _ :: _, ';' :: more => parameters fuel more
        | _, _ => false
      | _, _ => false

def splitSuffix (cs : List Char) : List Char × Option (List Char) :=
  let after := (cs.reverse.takeWhile (· != '+')).reverse
  if after.length == cs.length then (cs, none)
  else
    let before := cs.take (cs.length - after.length - 1)
    if before.isEmpty then (cs, none) else (before, some after)

/-- Whether a stated type is JSON, or has JSON as its structure. Only the form of its parameters
counts. -/
def isJson (text : String) : Bool :=
  let cs := text.toList
  if cs.all fun c => c == '\t' || (32 ≤ c.toNat && c.toNat < 127) then
    match cs.takeWhile isToken, cs.dropWhile isToken with
    | _ :: _, '/' :: rest =>
      let subtype := rest.takeWhile isToken
      let wellFormed := match rest.dropWhile isToken with
        | [] => true
        | c :: more => (c == ';' || c == ' ') && !subtype.isEmpty && parameters (more.length + 1) more
      let (name, suffix) := splitSuffix (lowerAscii subtype)
      wellFormed && lowerAscii (cs.takeWhile isToken) == "application".toList &&
        (name == "json".toList || suffix == some "json".toList)
    | _, _ => false
  else false

end MediaType

end Segments.Http
