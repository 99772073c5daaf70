import Segments.Text.Basic
import Segments.Text.Digits
import Segments.Text.Utf8

namespace Segments.Http

open Text

structure Url where
  scheme : List Char
  /-- Name and port, as they were given. Who asks, if that stands before them, is not kept. -/
  server : List Char
  /-- Starts with a slash. -/
  path : List Char
  query : Option (List Char)
  fragment : Option (List Char)
  deriving DecidableEq, Repr

namespace Url

def percent (b : UInt8) : List Char :=
  let digit (n : Nat) : Char := Char.ofNat (if n < 10 then 48 + n else 55 + n)
  ['%', digit (b.toNat / 16), digit (b.toNat % 16)]

def escapeChar (keep : Char → Bool) (c : Char) : List Char :=
  if keep c then [c] else (encodeChar c).flatMap percent

/-- Characters that are not kept are written by the numbers of their bytes. -/
def escape (keep : Char → Bool) (cs : List Char) : List Char :=
  cs.flatMap (escapeChar keep)

def isPrintable (c : Char) : Bool :=
  32 < c.toNat && c.toNat < 127

def inFragment (c : Char) : Bool :=
  isPrintable c && !(['"', '<', '>', '\x60'].contains c)

def inPath (c : Char) : Bool :=
  inFragment c && !(['#', '?', '\x7b', '\x7d'].contains c)

def inQuery (c : Char) : Bool :=
  isPrintable c && !(['"', '#', '<', '>', '\''].contains c)

def inForm (c : Char) : Bool :=
  c.isAlphanum || ['*', '-', '.', '_'].contains c

/-- A name or value of a form, in which a plus sign stands for a space. -/
def formText (s : String) : List Char :=
  s.toList.flatMap fun c => if c == ' ' then ['+'] else escapeChar inForm c

def formPair (pair : String × String) : List Char :=
  formText pair.1 ++ '=' :: formText pair.2

def formPairs (pairs : List (String × String)) : List Char :=
  ['&'].intercalate (pairs.map formPair)

/-- Writes dots that were given by their number as dots. -/
def plainDots : List Char → List Char
  | '%' :: '2' :: 'e' :: cs => '.' :: plainDots cs
  | '%' :: '2' :: 'E' :: cs => '.' :: plainDots cs
  | c :: cs => c :: plainDots cs
  | [] => []

/-- Resolves segments onto those before them, which are in reverse. -/
def resolve : List (List Char) → List (List Char) → List (List Char)
  | done, [] => done.reverse
  | done, segment :: rest =>
    let dots := plainDots segment
    if dots == ['.'] then resolve (if rest.isEmpty then [] :: done else done) rest
    else if dots == ['.', '.'] then
      resolve (if rest.isEmpty then [] :: done.drop 1 else done.drop 1) rest
    else resolve (segment :: done) rest

def pathOf (cs : List Char) : List Char :=
  let segments := splitAt '/' (cs.map fun c => if c == '\\' then '/' else c)
  let segments := match segments with
    | [] :: rest => rest
    | rest => rest
  '/' :: ['/'].intercalate (resolve [] (segments.map (escape inPath)))

def isSlash (c : Char) : Bool :=
  c == '/' || c == '\\'

def afterName (cs : List Char) : List Char :=
  match cs with
  | '[' :: inner => (inner.dropWhile (· != ']')).drop 1
  | _ => cs.dropWhile (· != ':')

inductive Fault
  | relative
  | nameless
  | badName
  | badPort
  /-- It is an address for some other use. -/
  | foreign (address : String)
  deriving DecidableEq, Repr

def Fault.message : Fault → String
  | .relative => "relative URL without a base"
  | .nameless => "empty host"
  | .badName => "invalid IPv6 address"
  | .badPort => "invalid port number"
  | .foreign _ => "URL scheme is not allowed"

/-- What is wrong with a server: it has to have a name, and a port that is one or none. -/
def serverFault? (cs : List Char) : Option Fault :=
  if cs.isEmpty || cs.head? == some ':' then some .nameless
  else
    match afterName cs with
    | [] => none
    | ':' :: port => if port.all isDigit && decimalValue port ≤ 65535 then none else some .badPort
    | _ => some .badName

def isScheme : List Char → Bool
  | [] => false
  | c :: cs => c.isAlpha && cs.all fun c => c.isAlphanum || c == '+' || c == '-' || c == '.'

def cut (sep : Char) (cs : List Char) : List Char × Option (List Char) :=
  (cs.takeWhile (· != sep),
    if cs.contains sep then some ((cs.dropWhile (· != sep)).drop 1) else none)

/-- Line breaks and tabs do not count, nor do blanks at the ends. -/
def bare (cs : List Char) : List Char :=
  let inner := cs.dropWhile fun c => c.toNat ≤ 32
  (inner.reverse.dropWhile fun c => c.toNat ≤ 32).reverse.filter fun c =>
    c != '\t' && c != '\n' && c != '\r'

/-- Schemes whose addresses name a server, with slashes before it or without. -/
def namesServer (scheme : List Char) : Bool :=
  ["http", "https", "ws", "wss", "ftp"].contains (String.ofList scheme)

/-- Reads the address of a resource, `http://server/path?query#fragment`. Its path and query are
written in the characters that a request may carry, and the segments `.` and `..` of the path are
resolved. -/
def read (s : String) : Except Fault Url :=
  match cut ':' (bare s.toList) with
  | (_, none) => .error .relative
  | (scheme, some rest) =>
    let scheme := lowerAscii scheme
    if !isScheme scheme then .error .relative
    else if !namesServer scheme && !("//".toList.isPrefixOf rest) then
      .error (.foreign (String.ofList (scheme ++ ':' :: rest)))
    else
      let (rest, fragment) := cut '#' (rest.dropWhile isSlash)
      let (rest, query) := cut '?' rest
      let asked := rest.takeWhile fun c => !isSlash c
      let server := (asked.reverse.takeWhile (· != '@')).reverse
      match serverFault? server with
      | some fault => .error fault
      | none =>
        .ok
          { scheme, server
            path := pathOf (rest.dropWhile fun c => !isSlash c)
            query := query.map (escape inQuery)
            fragment := fragment.map (escape inFragment) }

/-- Whether requests for the resource are made in this protocol. -/
def isWeb (u : Url) : Bool :=
  u.scheme == "http".toList || u.scheme == "https".toList

def withPairs (u : Url) (pairs : List (String × String)) : Url :=
  let form := formPairs pairs
  match u.query with
  | none | some [] => { u with query := some form }
  | some query => { u with query := some (query ++ '&' :: form) }

def target (u : Url) : String :=
  String.ofList (u.path ++ (u.query.map ('?' :: ·)).getD [])

def text (u : Url) : String :=
  String.ofList (u.scheme ++ "://".toList ++ u.server) ++ u.target ++
    String.ofList ((u.fragment.map ('#' :: ·)).getD [])

end Url

end Segments.Http
