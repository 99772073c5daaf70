import Segments.Condition.Literal
import Segments.Condition.Operator

namespace Segments

structure Condition where
  field : String
  operator : Operator
  value : Literal
  deriving DecidableEq, Repr

namespace Condition

open Text

inductive Reason
  | empty
  | missingField
  | noOperator
  | missingValue
  deriving DecidableEq, Repr

def Reason.name : Reason → String
  | .empty => "empty"
  | .missingField => "missing_field"
  | .noOperator => "no_operator"
  | .missingValue => "missing_value"

def Reason.all : List Reason :=
  [.empty, .missingField, .noOperator, .missingValue]

def Reason.message : Reason → String
  | .empty => "empty condition"
  | .missingField => "missing field name"
  | .noOperator => "no operator found"
  | .missingValue => "missing value"

def isWordChar (c : Char) : Bool :=
  c.isAlphanum || c == '_'

def ofChars (cs : List Char) : Except Reason Condition :=
  let input := trim cs
  let field := input.takeWhile isWordChar
  if input.isEmpty then .error .empty
  else if field.isEmpty then .error .missingField
  else
    match Operator.split? (trimStart (input.dropWhile isWordChar)) with
    | none => .error .noOperator
    | some (op, rest) =>
      let value := trim rest
      if value.isEmpty then .error .missingValue
      else .ok ⟨String.ofList field, op, .ofChars value⟩

def parse (text : String) : Except Reason Condition :=
  ofChars text.toList

def failure (text : String) (reason : Reason) : String :=
  "Failed to parse '" ++ text ++ "': " ++ reason.message

structure Misreading where
  text : String
  reason : Reason
  deriving DecidableEq, Repr

def Misreading.message (m : Misreading) : String :=
  failure m.text m.reason

def read (text : String) : Except Misreading Condition :=
  match parse text with
  | .ok c => .ok c
  | .error reason => .error ⟨text, reason⟩

def display (c : Condition) : String :=
  c.field ++ " " ++ c.operator.token ++ " " ++ c.value.display

structure Skip where
  index : Nat
  condition : String
  reason : Reason
  deriving DecidableEq, Repr

structure Compiled where
  conditions : List Condition
  skipped : List Skip
  deriving DecidableEq, Repr

/-- No condition is left, so every record is in the segment. -/
def Compiled.unfiltered (c : Compiled) : Bool :=
  c.conditions.isEmpty

def compileFrom (index : Nat) : List String → Compiled
  | [] => ⟨[], []⟩
  | text :: texts =>
    let rest := compileFrom (index + 1) texts
    match read text with
    | .ok c => { rest with conditions := c :: rest.conditions }
    | .error m => { rest with skipped := ⟨index, m.text, m.reason⟩ :: rest.skipped }

/-- Reads every text; those that are no condition are reported and change nothing else. -/
def compile (texts : List String) : Compiled :=
  compileFrom 0 texts

theorem conditions_compileFrom (index : Nat) (texts : List String) :
    (compileFrom index texts).conditions = texts.filterMap fun t => (parse t).toOption := by
  induction texts generalizing index with
  | nil => rfl
  | cons t ts ih =>
    simp only [compileFrom, List.filterMap_cons]
    cases h : parse t with
    | ok c => simp [read, h, ih, Except.toOption]
    | error r => simp [read, h, ih, Except.toOption]

end Condition

end Segments
