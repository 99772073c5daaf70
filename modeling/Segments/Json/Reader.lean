import Segments.Json.Scan

namespace Segments.Json

open Text

def readItems (value : Scan Json) : Nat → List Json → Scan (List Json)
  | 0, _, rest => .error (.on .endInList rest)
  | fuel + 1, done, bytes =>
    match skipBlanks bytes with
    | [] => .error (.on .endInList [])
    | 93 :: rest => .ok (done, rest)
    | b :: rest =>
      if done.isEmpty then do
        let (v, rest) ← value (b :: rest)
        readItems value fuel (v :: done) rest
      else if b == 44 then
        match skipBlanks rest with
        | [] => .error (.on .endInValue [])
        | 93 :: r => .error (.on .trailingComma (93 :: r))
        | r => do
          let (v, rest) ← value r
          readItems value fuel (v :: done) rest
      else .error (.on .expectedCommaOrBracket (b :: rest))

def readMember (value : Scan Json) : Scan (String × Json) := fun bytes => do
  let (name, rest) ← scanText bytes
  match skipBlanks rest with
  | [] => .error (.on .endInObject [])
  | b :: rest =>
    if b != 58 then .error (.on .expectedColon (b :: rest))
    else
      let (v, rest) ← value rest
      .ok ((name, v), rest)

def readMembers (value : Scan Json) : Nat → Bool → List (String × Json) → Scan (List (String × Json))
  | 0, _, _, rest => .error (.on .endInObject rest)
  | fuel + 1, first, done, bytes =>
    match skipBlanks bytes with
    | [] => .error (.on .endInObject [])
    | 125 :: rest => .ok (done, rest)
    | b :: rest =>
      if first then
        if b != 34 then .error (.on .nameNotText (b :: rest))
        else do
          let (m, rest) ← readMember value rest
          readMembers value fuel false (insert m.1 m.2 done) rest
      else if b == 44 then
        match skipBlanks rest with
        | [] => .error (.on .endInValue [])
        | 34 :: r => do
          let (m, rest) ← readMember value r
          readMembers value fuel false (insert m.1 m.2 done) rest
        | 125 :: r => .error (.on .trailingComma (125 :: r))
        | r => .error (.on .nameNotText r)
      else .error (.on .expectedCommaOrBrace (b :: rest))

def readValue : Nat → Scan Json
  | 0, bytes => .error (.on .tooDeep bytes)
  | depth + 1, bytes =>
    match skipBlanks bytes with
    | [] => .error (.on .endInValue [])
    | b :: rest =>
      if b == 110 then (finishWord [117, 108, 108] rest).map (.null, ·)
      else if b == 116 then (finishWord [114, 117, 101] rest).map (.boolean true, ·)
      else if b == 102 then (finishWord [97, 108, 115, 101] rest).map (.boolean false, ·)
      else if b == 45 then (scanNumber true rest).map fun (n, r) => (.number n, r)
      else if isDigitByte b then (scanNumber false (b :: rest)).map fun (n, r) => (.number n, r)
      else if b == 34 then (scanText rest).map fun (s, r) => (.text s, r)
      else if b == 91 then
        if depth == 0 then .error (.on .tooDeep (b :: rest))
        else (readItems (readValue depth) (rest.length + 1) [] rest).map fun (vs, r) => (.array vs.reverse, r)
      else if b == 123 then
        if depth == 0 then .error (.on .tooDeep (b :: rest))
        else (readMembers (readValue depth) (rest.length + 1) true [] rest).map fun (ms, r) => (.object ms, r)
      else .error (.on .expectedValue (b :: rest))

/-- One less of lists and objects may stand in one another. -/
def maxDepth : Nat := 128

def read (bytes : Bytes) : Except Fault Json := do
  let (v, rest) ← readValue maxDepth bytes
  match skipBlanks rest with
  | [] => .ok v
  | r => .error (.on .trailingCharacters r)

def readText (s : String) : Except Fault Json :=
  read (encode s.toList)

end Segments.Json
