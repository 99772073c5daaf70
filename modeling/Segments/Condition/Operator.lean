import Segments.Text.Basic

namespace Segments

inductive Operator
  | equal
  | greater
  | greaterOrEqual
  | less
  | lessOrEqual
  | matching
  deriving DecidableEq, Repr

namespace Operator

def token : Operator → String
  | .equal => "="
  | .greater => ">"
  | .greaterOrEqual => ">="
  | .less => "<"
  | .lessOrEqual => "<="
  | .matching => "|="

def name : Operator → String
  | .equal => "eq"
  | .greater => "gt"
  | .greaterOrEqual => "gte"
  | .less => "lt"
  | .lessOrEqual => "lte"
  | .matching => "matches"

def all : List Operator :=
  [.equal, .greater, .greaterOrEqual, .less, .lessOrEqual, .matching]

/-- Longer tokens come first, so that a token is never taken for its first character. -/
def byLength : List Operator :=
  [.greaterOrEqual, .lessOrEqual, .matching, .equal, .greater, .less]

def split? (cs : List Char) : Option (Operator × List Char) :=
  byLength.findSome? fun op => (Text.dropLead? op.token.toList cs).map (op, ·)

end Operator

end Segments
