import Segments.Failure
import Segments.Json.Basic

namespace Segments.Http

inductive Problem
  /-- The request cannot be understood. -/
  | unusable (reason : String)
  | evaluation (cause : String)
  | fetch (cause : String)
  | conflict (reason : String)
  /-- The server is not set up for it. -/
  | unavailable (reason : String)
  | internal (reason : String)
  deriving DecidableEq, Repr

namespace Problem

def status : Problem → Nat
  | .unusable _ => 400
  | .evaluation _ | .internal _ => 500
  | .fetch _ => 502
  | .conflict _ => 409
  | .unavailable _ => 503

def headline : Problem → String
  | .unusable reason | .conflict reason | .unavailable reason | .internal reason => reason
  | .evaluation _ => "Error evaluating segment"
  | .fetch _ => "Error syncing products"

def cause? : Problem → Option String
  | .evaluation cause | .fetch cause => some cause
  | _ => none

def message (p : Problem) : String :=
  match p.cause? with
  | some cause => p.headline ++ ": " ++ cause
  | none => p.headline

def body (p : Problem) : Json :=
  match p.cause? with
  | some cause => .object [("error", .text cause), ("message", .text p.headline)]
  | none => .object [("message", .text p.headline)]

def ofFailure (f : Failure) : Problem :=
  match f with
  | .request reason => .unusable reason
  | .busy => .conflict f.message
  | .fetch reason => .fetch reason
  | .aborted _ => .internal f.message
  | .record _ | .store _ => .evaluation f.message

end Problem

end Segments.Http
