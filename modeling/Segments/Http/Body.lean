import Segments.Json.Reader
import Segments.Json.Skip

namespace Segments.Http

open Text Json

inductive BodyFault
  /-- It is not JSON as far as it was read. -/
  | malformed
  /-- It is JSON of another shape. -/
  | misfit
  deriving DecidableEq, Repr

namespace Body

abbrev Read (α : Type) := Bytes → Except BodyFault (α × Bytes)

def otherKind (bytes : Bytes) : BodyFault :=
  match bytes with
  | 91 :: _ | 123 :: _ => .misfit
  | _ =>
    match readValue maxDepth bytes with
    | .ok _ => .misfit
    | .error _ => .malformed

def text : Read String := fun bytes =>
  match skipBlanks bytes with
  | 34 :: rest =>
    match scanText rest with
    | .ok r => .ok r
    | .error _ => .error .malformed
  | rest => .error (otherKind rest)

def texts : Nat → List String → Read (List String)
  | 0, _, _ => .error .malformed
  | fuel + 1, done, bytes =>
    match skipBlanks bytes with
    | [] => .error .malformed
    | 93 :: rest => .ok (done, rest)
    | b :: rest =>
      if done.isEmpty then do
        let (s, rest) ← text (b :: rest)
        texts fuel (s :: done) rest
      else if b == 44 then
        match skipBlanks rest with
        | [] => .error .malformed
        | 93 :: _ => .error .malformed
        | rest => do
          let (s, rest) ← text rest
          texts fuel (s :: done) rest
      else .error .malformed

def conditions : Read (Option (List String)) := fun bytes =>
  match skipBlanks bytes with
  | [] => .error .malformed
  | 110 :: rest =>
    match finishWord [117, 108, 108] rest with
    | .ok rest => .ok (none, rest)
    | .error _ => .error .malformed
  | 91 :: rest => (texts (rest.length + 1) [] rest).map fun (ss, r) => (some ss.reverse, r)
  | rest => .error (otherKind rest)

abbrev Seen := Option (Option (List String))

def member (seen : Seen) : Read Seen := fun bytes =>
  match scanText bytes with
  | .error _ => .error .malformed
  | .ok (name, rest) =>
    if name == "conditions" then
      if seen.isSome then .error .misfit
      else do
        let rest ← colon rest
        let (cs, rest) ← conditions rest
        .ok (some cs, rest)
    else do
      let rest ← colon rest
      match skipValue? rest with
      | some rest => .ok (seen, rest)
      | none => .error .malformed
where
  colon (bytes : Bytes) : Except BodyFault Bytes :=
    match skipBlanks bytes with
    | 58 :: rest => .ok rest
    | _ => .error .malformed

def members : Nat → Bool → Seen → Bytes → Except BodyFault Seen
  | 0, _, _, _ => .error .malformed
  | fuel + 1, first, seen, bytes =>
    match skipBlanks bytes with
    | 125 :: _ => .ok seen
    | 34 :: rest =>
      if first then do
        let (seen, rest) ← member seen rest
        members fuel false seen rest
      else .error .malformed
    | 44 :: rest =>
      if first then .error .malformed
      else
        match skipBlanks rest with
        | 34 :: rest => do
          let (seen, rest) ← member seen rest
          members fuel false seen rest
        | _ => .error .malformed
    | _ => .error .malformed

def row (bytes : Bytes) : Except BodyFault (Option (List String)) :=
  match skipBlanks bytes with
  | 93 :: _ => .ok none
  | rest => do
    let (cs, rest) ← conditions rest
    match skipBlanks rest with
    | 93 :: _ => .ok cs
    | _ => .error .malformed

/-- The body is an object whose member `conditions` is a list of texts or null, or the list of such
members in order. It is read from the front, and what follows the value is not looked at. -/
def read (bytes : Bytes) : Except BodyFault (Option (List String)) :=
  match skipBlanks bytes with
  | [] => .error .malformed
  | 123 :: rest => (members (rest.length + 1) true none rest).map fun seen => seen.getD none
  | 91 :: rest => row rest
  | rest => .error (otherKind rest)

end Body

end Segments.Http
