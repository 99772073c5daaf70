import Segments.Catalog.Field
import Segments.Proofs.QueryTokens

namespace Segments.Query

open Catalog

inductive Operand
  | column (field : Field)
  /-- The element of the list that is looked through. -/
  | element
  | asText (of : Operand)
  | bytewise (of : Operand)
  /-- A moment in universal time, laid out. -/
  | laidOut (of : Operand) (layout : String)
  deriving DecidableEq, Repr

structure Test where
  left : Operand
  operator : String
  mark : Nat
  deriving DecidableEq, Repr

inductive Term
  | constant (value : Bool)
  | test (test : Test)
  /-- Some element of a list passes. -/
  | anyOf (list : Field) (test : Test)
  deriving DecidableEq, Repr

def readSource? : List Token → Option (Operand × List Token)
  | .word "to_char" :: .sign "(" :: .word name :: .word "at" :: .word "time" :: .word "zone" ::
      .literal "UTC" :: .sign "," :: .literal layout :: .sign ")" :: rest =>
    (Field.ofName? name).map fun f => (.laidOut (.column f) layout, rest)
  | .word "t" :: .sign "." :: .word "tag" :: rest => some (.element, rest)
  | .word name :: rest => (Field.ofName? name).map fun f => (.column f, rest)
  | _ => none

def readManner (o : Operand) : List Token → Operand × List Token
  | .sign "::" :: .word "text" :: rest => readManner (.asText o) rest
  | .word "collate" :: .quoted "C" :: rest => readManner (.bytewise o) rest
  | rest => (o, rest)

def readTest? (ts : List Token) : Option (Test × List Token) := do
  let (source, ts) ← readSource? ts
  match readManner source ts with
  | (left, .sign op :: .mark n :: rest) => some (⟨left, op, n⟩, rest)
  | _ => none

def readTerm? : List Token → Option Term
  | [.word "true"] => some (.constant true)
  | [.word "false"] => some (.constant false)
  | .word "exists" :: .sign "(" :: .word "select" :: .whole 1 :: .word "from" :: .word "unnest" ::
      .sign "(" :: .word name :: .sign ")" :: .word "as" :: .word "t" :: .sign "(" ::
      .word "tag" :: .sign ")" :: .word "where" :: ts => do
    let list ← Field.ofName? name
    match ← readTest? ts with
    | (t, [.sign ")"]) => some (.anyOf list t)
    | _ => none
  | ts => do
    match ← readTest? ts with
    | (t, []) => some (.test t)
    | _ => none

/-- The parts of a list of tokens between its ANDs; there is always at least one. -/
def splitAnd : List Token → List (List Token)
  | [] => [[]]
  | t :: ts =>
    if t = .word "and" then [] :: splitAnd ts
    else
      match splitAnd ts with
      | [] => [[t]]
      | part :: parts => (t :: part) :: parts

def terms? (text : String) : Option (List Term) := do
  (splitAnd (← tokens? text.toList)).mapM readTerm?

theorem splitAnd_of_not_mem {ts : List Token} (h : .word "and" ∉ ts) : splitAnd ts = [ts] := by
  induction ts with
  | nil => rfl
  | cons t ts ih =>
    rw [List.mem_cons, not_or] at h
    simp [splitAnd, Ne.symm h.1, ih h.2]

theorem splitAnd_append {ts : List Token} (h : .word "and" ∉ ts) (us : List Token) :
    splitAnd (ts ++ .word "and" :: us) = ts :: splitAnd us := by
  induction ts with
  | nil => simp [splitAnd]
  | cons t ts ih =>
    rw [List.mem_cons, not_or] at h
    simp [splitAnd, Ne.symm h.1, ih h.2]

end Segments.Query
