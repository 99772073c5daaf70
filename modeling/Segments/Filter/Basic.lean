import Segments.Condition.Basic
import Segments.Pattern.Portable

namespace Segments

inductive Comparison
  | equal
  | greater
  | greaterOrEqual
  | less
  | lessOrEqual
  | pattern
  deriving DecidableEq, Repr

namespace Comparison

def name : Comparison → String
  | .equal => "eq"
  | .greater => "gt"
  | .greaterOrEqual => "ge"
  | .less => "lt"
  | .lessOrEqual => "le"
  | .pattern => "regex"

def all : List Comparison :=
  [.equal, .greater, .greaterOrEqual, .less, .lessOrEqual, .pattern]

/-- The token of a statement; a search for a pattern is written in another way. -/
def token? : Comparison → Option String
  | .equal => some "="
  | .greater => some ">"
  | .greaterOrEqual => some ">="
  | .less => some "<"
  | .lessOrEqual => some "<="
  | .pattern => none

def accepts : Comparison → Ordering → Bool
  | .equal, o => o == .eq
  | .greater, o => o == .gt
  | .greaterOrEqual, o => o != .lt
  | .less, o => o == .lt
  | .lessOrEqual, o => o != .gt
  | .pattern, _ => false

def ofOperator : Operator → Comparison
  | .equal => .equal
  | .greater => .greater
  | .greaterOrEqual => .greaterOrEqual
  | .less => .less
  | .lessOrEqual => .lessOrEqual
  | .matching => .pattern

end Comparison

/-- The form in which a store is asked for records. The field is a name, which may be one that no
record has. -/
structure Filter where
  field : String
  comparison : Comparison
  value : Literal
  deriving DecidableEq, Repr

/-- The filter of a condition. A pattern is made portable, so that every store searches for the
same. -/
def Condition.toFilter (c : Condition) : Filter :=
  let comparison := Comparison.ofOperator c.operator
  let value := match comparison with
    | .pattern => .text (Pattern.portable c.value.display)
    | _ => c.value
  ⟨c.field, comparison, value⟩

end Segments
