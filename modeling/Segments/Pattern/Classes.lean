import Segments.Pattern.Tree
import Segments.Text.Blank
import Segments.Text.Category
import Segments.Text.Folding
import Segments.Text.Property
import Segments.Text.Script

namespace Segments.Pattern

open Text

/-- Names are compared without case, blanks, hyphens and underscores, and without a leading
`is`. -/
def plainName (name : String) : String :=
  let cs := name.toList
  let (had, body) := match cs with
    | a :: b :: rest => if (a == 'i' || a == 'I') && (b == 's' || b == 'S') then (true, rest) else (false, cs)
    | _ => (false, cs)
  let kept := (body.filter fun c => c.toNat < 128 && c != ' ' && c != '_' && c != '-').map Char.toLower
  if had && kept == ['c'] then "isc" else String.ofList kept

def property? (name : String) : Option CodeSet :=
  (Property.all.find? fun p => p.names.contains name).map Property.set

def category? (name : String) : Option CodeSet :=
  if name == "any" then some .full
  else if name == "ascii" then some (.single 0 127)
  else if name == "assigned" then some assigned
  else if name == "cn" || name == "unassigned" then some unassigned
  else if name == "c" || name == "other" || name == "isc" then
    some ((CodeSet.ofCategories [.control, .format, .privateUse]).union unassigned)
  else
    match categoryGroups.find? fun g => g.1.contains name with
    | some g => some (.ofCategories g.2)
    | none => (Category.all.find? fun c => c.names.contains name).map Category.set

def script? (name : String) : Option Script :=
  Script.all.find? fun s => s.names.contains name

/-- Names that stand for a category although a property has them too. -/
def isCategoryFirst (name : String) : Bool :=
  name == "cf" || name == "sc" || name == "lc"

def PropertyQuery.set? : PropertyQuery → Option CodeSet
  | .alone name =>
    let n := plainName name
    let asProperty := if isCategoryFirst n then none else property? n
    (asProperty.or (category? n)).or ((script? n).map Script.set)
  | .pair name value =>
    let n := plainName name
    let v := plainName value
    if n == "gc" || n == "generalcategory" then category? v
    else if n == "sc" || n == "script" then (script? v).map Script.set
    else if n == "scx" || n == "scriptextensions" then (script? v).map Script.extended
    else none

def digitSet : CodeSet :=
  Category.decimalNumber.set

def spaceSet : CodeSet :=
  Property.whiteSpace.set

def wordSet : CodeSet :=
  CodeSet.unions
    [Property.alphabetic.set,
     .ofCategories [.nonspacingMark, .spacingMark, .enclosingMark, .decimalNumber,
       .connectorPunctuation],
     Property.joinControl.set]

def Shorthand.set : Shorthand → CodeSet
  | .digit => digitSet
  | .space => spaceSet
  | .word => wordSet

def AsciiClass.ranges : AsciiClass → List (Char × Char)
  | .alnum => [('0', '9'), ('A', 'Z'), ('a', 'z')]
  | .alpha => [('A', 'Z'), ('a', 'z')]
  | .ascii => [('\x00', '\x7f')]
  | .blank => [('\t', '\t'), (' ', ' ')]
  | .cntrl => [('\x00', '\x1f'), ('\x7f', '\x7f')]
  | .digit => [('0', '9')]
  | .graph => [('!', '~')]
  | .lower => [('a', 'z')]
  | .print => [(' ', '~')]
  | .punct => [('!', '/'), (':', '@'), ('[', '`'), ('\x7b', '~')]
  | .space => [('\t', '\t'), ('\n', '\n'), ('\x0b', '\x0b'), ('\x0c', '\x0c'), ('\r', '\r'), (' ', ' ')]
  | .upper => [('A', 'Z')]
  | .word => [('0', '9'), ('A', 'Z'), ('_', '_'), ('a', 'z')]
  | .xdigit => [('0', '9'), ('A', 'F'), ('a', 'f')]

def AsciiClass.set (cls : AsciiClass) : CodeSet :=
  .ofRanges (cls.ranges.map fun r => (r.1.toNat, r.2.toNat))

def Shorthand.asciiSet : Shorthand → CodeSet
  | .digit => AsciiClass.digit.set
  | .space => AsciiClass.space.set
  | .word => AsciiClass.word.set

end Segments.Pattern
