import Segments.Json.Scan

namespace Segments.Json

open Text

def skipWord? (word bytes : Bytes) : Option Bytes :=
  if word.isPrefixOf bytes then some (bytes.drop word.length) else none

def skipDigits? (bytes : Bytes) : Option Bytes :=
  match skipDigits bytes with
  | (0, _) => none
  | (_, rest) => some rest

def skipFraction? : Bytes → Option Bytes
  | 46 :: rest => skipDigits? rest
  | bytes => some bytes

def skipExponent? : Bytes → Option Bytes
  | [] => some []
  | b :: rest =>
    if isExponentMark b then
      match rest with
      | 43 :: more => skipDigits? more
      | 45 :: more => skipDigits? more
      | more => skipDigits? more
    else some (b :: rest)

def skipNumber? (bytes : Bytes) : Option Bytes := do
  let rest ← match bytes with
    | 48 :: rest =>
      match rest with
      | b :: _ => if isDigitByte b then none else some rest
      | [] => some rest
    | bytes => skipDigits? bytes
  let rest ← skipFraction? rest
  skipExponent? rest

def skipQuoted? : Bytes → Option Bytes
  | [] => none
  | b :: rest =>
    if b == 34 then some rest
    else if b < 32 then none
    else if b == 92 then
      match rest with
      | [] => none
      | e :: more =>
        if e == 117 then
          match more with
          | w :: x :: y :: z :: tail =>
            if [w, x, y, z].all fun d => (hexOf? d).isSome then skipQuoted? tail else none
          | _ => none
        else if [34, 92, 47, 98, 102, 110, 114, 116].contains e then skipQuoted? more
        else none
    else skipQuoted? rest

def skipName? (bytes : Bytes) : Option Bytes :=
  match skipBlanks bytes with
  | 34 :: rest => do
    let rest ← skipQuoted? rest
    match skipBlanks rest with
    | 58 :: rest => some rest
    | _ => none
  | _ => none

def skipScalar? : Bytes → Option Bytes
  | [] => none
  | b :: rest =>
    if b == 110 then skipWord? [117, 108, 108] rest
    else if b == 116 then skipWord? [114, 117, 101] rest
    else if b == 102 then skipWord? [97, 108, 115, 101] rest
    else if b == 45 then skipNumber? rest
    else if isDigitByte b then skipNumber? (b :: rest)
    else if b == 34 then skipQuoted? rest
    else none

inductive Expected
  | value
  | next
  deriving DecidableEq, Repr

def skipOpen? : Nat → Expected → List Bool → Bytes → Option Bytes
  | 0, _, _, _ => none
  | _ + 1, .next, [], bytes => some bytes
  | fuel + 1, .next, inObject :: open_, bytes =>
    match skipBlanks bytes with
    | [] => none
    | b :: rest =>
      if b == 44 then
        if inObject then (skipName? rest).bind (skipOpen? fuel .value (inObject :: open_))
        else skipOpen? fuel .value (inObject :: open_) rest
      else if b == (if inObject then 125 else 93) then skipOpen? fuel .next open_ rest
      else none
  | fuel + 1, .value, open_, bytes =>
    match skipBlanks bytes with
    | 91 :: rest =>
      match skipBlanks rest with
      | 93 :: rest => skipOpen? fuel .next open_ rest
      | rest => skipOpen? fuel .value (false :: open_) rest
    | 123 :: rest =>
      match skipBlanks rest with
      | 125 :: rest => skipOpen? fuel .next open_ rest
      | rest => (skipName? rest).bind (skipOpen? fuel .value (true :: open_))
    | bytes => (skipScalar? bytes).bind (skipOpen? fuel .next open_)

theorem skipOpen?_done (fuel : Nat) (bytes : Bytes) :
    skipOpen? (fuel + 1) .next [] bytes = some bytes := by
  rw [skipOpen?]

/-- What follows the value at the front. The texts of a value that nobody wants are not decoded and
its numbers not read, so that less is asked of it, and it may be nested to any depth. -/
def skipValue? (bytes : Bytes) : Option Bytes :=
  skipOpen? (2 * bytes.length + 2) .value [] bytes

end Segments.Json
