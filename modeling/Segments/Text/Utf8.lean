

namespace Segments.Text

abbrev Bytes := List UInt8

def encodeChar (c : Char) : Bytes :=
  let n := c.toNat
  let tail (unit : Nat) : UInt8 := UInt8.ofNat (0x80 + n / unit % 64)
  if n < 0x80 then [UInt8.ofNat n]
  else if n < 0x800 then [UInt8.ofNat (0xC0 + n / 64), tail 1]
  else if n < 0x10000 then [UInt8.ofNat (0xE0 + n / 4096), tail 64, tail 1]
  else [UInt8.ofNat (0xF0 + n / 262144), tail 4096, tail 64, tail 1]

def encode (cs : List Char) : Bytes :=
  cs.flatMap encodeChar

theorem encode_append (as bs : List Char) : encode (as ++ bs) = encode as ++ encode bs :=
  List.flatMap_append

theorem encode_cons (c : Char) (cs : List Char) : encode (c :: cs) = encodeChar c ++ encode cs :=
  List.flatMap_cons

theorem encode_singleton (c : Char) : encode [c] = encodeChar c :=
  List.flatMap_singleton encodeChar c

def isTail (b : UInt8) : Bool :=
  0x80 ≤ b && b < 0xC0

def tailBits (b : UInt8) : Nat :=
  b.toNat - 0x80

def charFrom? (least n : Nat) : Option Char :=
  if h : least ≤ n ∧ n.isValidChar then some (Char.ofNatAux n h.2) else none

def decodeChar? : Bytes → Option (Char × Bytes)
  | [] => none
  | a :: rest =>
    if a < 0x80 then some (Char.ofNat a.toNat, rest)
    else if 0xC0 ≤ a && a < 0xE0 then
      match rest with
      | b :: rest =>
        if isTail b then (charFrom? 0x80 ((a.toNat - 0xC0) * 64 + tailBits b)).map (·, rest)
        else none
      | [] => none
    else if 0xE0 ≤ a && a < 0xF0 then
      match rest with
      | b :: c :: rest =>
        if isTail b && isTail c then
          (charFrom? 0x800 ((a.toNat - 0xE0) * 4096 + tailBits b * 64 + tailBits c)).map (·, rest)
        else none
      | _ => none
    else if 0xF0 ≤ a && a < 0xF8 then
      match rest with
      | b :: c :: d :: rest =>
        if isTail b && isTail c && isTail d then
          (charFrom? 0x10000 ((a.toNat - 0xF0) * 262144 + tailBits b * 4096 + tailBits c * 64 +
            tailBits d)).map (·, rest)
        else none
      | _ => none
    else none

/-- Decodes at most `fuel` characters onto `done`, which is in reverse. -/
def decodeOnto? : Nat → List Char → Bytes → Option (List Char)
  | _, done, [] => some done.reverse
  | 0, _, _ :: _ => none
  | fuel + 1, done, b :: bs =>
    match decodeChar? (b :: bs) with
    | some (c, rest) => decodeOnto? fuel (c :: done) rest
    | none => none

def decode? (bs : Bytes) : Option (List Char) :=
  decodeOnto? bs.length [] bs

end Segments.Text
