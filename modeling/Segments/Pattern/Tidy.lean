import Segments.Pattern.Expr

namespace Segments.Pattern

open Text

def Expr.consumesNothing : Expr → Bool
  | .one _ => false
  | .empty | .look _ => true
  | .capture body => body.consumesNothing
  | .repetition count body => count.most == some 0 || body.consumesNothing
  | .concat parts => all parts
  | .alternation branches => all branches
where
  all : List Expr → Bool
    | [] => true
    | e :: rest => e.consumesNothing && all rest

def Expr.parts : Expr → List Expr
  | .empty => []
  | .concat es => es
  | e => [e]

def Expr.branches : Expr → List Expr
  | .alternation es => es
  | e => [e]

def Expr.set? : Expr → Option CodeSet
  | .one s => some s
  | _ => none

/-- Repetitions that say nothing are left out, and what matches no character is repeated once
at most. -/
def Expr.repetitionOf (count : Count) (body : Expr) : Expr :=
  let count : Count :=
    if body.consumesNothing then ⟨min count.least 1, some (min (count.most.getD 1) 1)⟩ else count
  if count == ⟨0, some 0⟩ then .empty
  else if count == ⟨1, some 1⟩ then body
  else .repetition count body

def Expr.concatOf (es : List Expr) : Expr :=
  match es.flatMap Expr.parts with
  | [] => .empty
  | [e] => e
  | es => .concat es

def Expr.choiceOf (es : List Expr) : Expr :=
  match es.flatMap Expr.branches with
  | [e] => e
  | es =>
    match es.mapM Expr.set? with
    | some sets => .one (.unions sets)
    | none => .alternation es

def Expr.character? : Expr → Option Nat
  | .one s => s.one?
  | _ => none

def Expr.literal? : Expr → Option (List Nat)
  | .concat es => es.mapM Expr.character?
  | e => e.character?.map fun n => [n]

/-- Whether two expressions are the same. No two captures are, each having its own number. -/
def Expr.same : Expr → Expr → Bool
  | .empty, .empty => true
  | .one s, .one t => s == t
  | .look a, .look b => a == b
  | .repetition c a, .repetition d b => c == d && a.same b
  | .concat as, .concat bs => all as bs
  | .alternation as, .alternation bs => all as bs
  | _, _ => false
where
  all : List Expr → List Expr → Bool
    | [], [] => true
    | a :: as, b :: bs => a.same b && all as bs
    | _, _ => false

/-- The parts of an expression, if it has several. Characters in a row are one part. -/
def Expr.pieces : Expr → List (List Expr)
  | .concat es =>
    let pieces := es.foldr (fun e pieces =>
      match pieces with
      | (f :: run) :: more =>
        if e.character?.isSome && f.character?.isSome then (e :: f :: run) :: more
        else [e] :: pieces
      | _ => [e] :: pieces) []
    if pieces.length < 2 then [] else pieces
  | _ => []

def sharedPieces (ps qs : List (List Expr)) : Nat :=
  ((ps.zip qs).takeWhile fun pair => Expr.same.all pair.1 pair.2).length

def sharedStart? (es : List Expr) : Option (List Expr × List Expr) :=
  match es.map Expr.pieces with
  | first :: second :: rest =>
    let n := (second :: rest).foldl (fun n ps => min n (sharedPieces first ps)) first.length
    if n == 0 then none
    else
      some ((first.take n).flatten,
        (first :: second :: rest).map fun ps => .concatOf (ps.drop n).flatten)
  | _ => none

/-- What all branches start with is put before the choice between them. -/
def Expr.alternationOf (es : List Expr) : Expr :=
  match Expr.choiceOf es with
  | .alternation es =>
    match sharedStart? es with
    | some (front, rests) => .concatOf (front ++ [.choiceOf rests])
    | none => .alternation es
  | e => e

def Expr.tidy : Expr → Expr
  | .capture body => .capture body.tidy
  | .repetition count body => .repetitionOf count body.tidy
  | .concat es => .concatOf (all es)
  | .alternation es => .alternationOf (all es)
  | e => e
where
  all : List Expr → List Expr
    | [] => []
    | e :: rest => e.tidy :: all rest

end Segments.Pattern
