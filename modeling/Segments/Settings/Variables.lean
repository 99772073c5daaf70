import Segments.Number.Reading
import Segments.Settings.Value
import Segments.Text.Blank

namespace Segments.Settings

/-- Names and values. Each name has one value. -/
abbrev Variables := List (String × String)

namespace Variables

/-- What the names of the program's variables start with, in any case. -/
def lead : List Char := "shopseg_".toList

def pointed : List Char → List Char
  | '_' :: '_' :: cs => '.' :: pointed cs
  | c :: cs => c :: pointed cs
  | [] => []

def key? (name : String) : Option String :=
  (Text.dropLead? lead (Text.lowerAscii name.toList)).map fun cs => String.ofList (pointed cs)

/-- A truth value, a whole number or a number if the text writes one, else the text. -/
def scalarOf (s : String) : Scalar :=
  let cs := s.toList
  let word := Text.lowerAscii cs
  if word == "true".toList then .boolean true
  else if word == "false".toList then .boolean false
  else
    match Text.readInt64? cs, Double.read? cs with
    | some n, _ => .whole n
    | none, some x => .real x
    | none, none => .text s

def layer (vars : Variables) : Layer :=
  vars.filterMap fun (name, s) =>
    (key? name).map fun key => (key, .scalar (some "the environment") (scalarOf s))

def overrides : List (String × String) :=
  [("PORT", "port"), ("DATABASE_URL", "database_url"), ("WC_BASE_URL", "upstream.base_url"),
   ("CONSUMER_KEY", "upstream.consumer_key"), ("CONSUMER_SECRET", "upstream.consumer_secret")]

def overrideLayer (find : String → Option String) : Layer :=
  overrides.filterMap fun (name, key) => (find name).map fun s => (key, .text s)

/-- Adds a variable unless there is one of its name. -/
def add (vars : Variables) (name value : String) : Variables :=
  if (vars.lookup name).isSome then vars else vars ++ [(name, value)]

end Variables

end Segments.Settings
