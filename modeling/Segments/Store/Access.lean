import Segments.Failure
import Segments.Store.Basic

namespace Segments

open Catalog

/-- A store that may be down, or may refuse to write records of some ids. -/
structure Access where
  down : Bool
  refused : List Int
  deriving DecidableEq, Repr

namespace Access

def open_ : Access :=
  ⟨false, []⟩

def unreachable : Failure :=
  .store "connection refused"

def refusal? (a : Access) (r : Record) : Option Failure :=
  if a.down then some unreachable
  else if a.refused.contains r.id then some (.store ("rejected " ++ toString r.id))
  else none

def insert (a : Access) (s : Store) (r : Record) : Except Failure Store :=
  match a.refusal? r with
  | some f => .error f
  | none => .ok (s.insert r)

def find (a : Access) (s : Store) (filters : List Filter) : Except Failure (List Record) :=
  if a.down then .error unreachable
  else
    match s.find filters with
    | .ok rs => .ok rs
    | .error fault => .error (.ofPattern fault)

def get? (a : Access) (s : Store) (id : Int) : Except Failure (Option Record) :=
  if a.down then .error unreachable else .ok (s.get? id)

def all (a : Access) (s : Store) : Except Failure (List Record) :=
  a.find s []

end Access

end Segments
