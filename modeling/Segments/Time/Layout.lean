import Segments.Time.Instant

namespace Segments.Time

def padded (width n : Nat) : List Char :=
  let ds := Nat.toDigits 10 n
  List.replicate (width - ds.length) '0' ++ ds

/-- Four digits; a sign in front of a year that four digits cannot tell. -/
def yearText (year : Int) : List Char :=
  if 0 ≤ year && year ≤ 9999 then padded 4 year.toNat
  else (if year < 0 then '-' else '+') :: padded 4 year.natAbs

def fractionText (nanos : Nat) : List Char :=
  if nanos == 0 then []
  else if nanos % 1000000 == 0 then '.' :: padded 3 (nanos / 1000000)
  else if nanos % 1000 == 0 then '.' :: padded 6 (nanos / 1000)
  else '.' :: padded 9 nanos

def dateText (d : Date) : List Char :=
  yearText d.year ++ '-' :: padded 2 d.month ++ '-' :: padded 2 d.day

/-- Hours, minutes and seconds; a leap second is second 60. -/
def clockText (t : TimeOfDay) : List Char :=
  padded 2 (t.seconds / 3600) ++ ':' :: padded 2 (t.seconds / 60 % 60) ++
    ':' :: padded 2 (t.seconds % 60 + t.nanos / 1000000000)

/-- The full written form, with as many of 0, 3, 6 or 9 fraction digits as are needed. -/
def Instant.render (i : Instant) : String :=
  String.ofList (dateText i.date ++ 'T' :: clockText i.time ++
    fractionText (i.nanos % 1000000000) ++ ['Z'])

def Instant.renderWhole (i : Instant) : String :=
  String.ofList (dateText i.date ++ 'T' :: clockText i.time ++ "+00:00".toList)

end Segments.Time
