import Segments.Proofs.Days
import Segments.Proofs.DigitRuns
import Segments.Proofs.Trimming
import Segments.Time.Layout
import Segments.Time.Reading

namespace Segments.Time

open Text

/-- An instant within the supported years. A leap second is the last second of a minute. -/
structure Instant.Valid (i : Instant) : Prop where
  earliest : Instant.earliest ≤ i.seconds
  latest : i.seconds ≤ Instant.latest
  nanos : i.nanos < 2000000000
  leap : 1000000000 ≤ i.nanos → i.seconds % 60 = 59

theorem digits_padded (width n : Nat) : Digits (padded width n) :=
  (digits_zeros _).append (digits_toDigits n)

theorem decimalValue_padded (width n : Nat) : decimalValue (padded width n) = n := by
  rw [padded, decimalValue_append, decimalValue_zeros, decimalValue_toDigits, Nat.mul_zero,
    Nat.zero_add]

theorem width_le_padded (width n : Nat) : width ≤ (padded width n).length := by
  rw [padded, List.length_append, List.length_replicate]
  omega

theorem length_padded {width n : Nat} (hwidth : 0 < width) (h : n < tenTo width) :
    (padded width n).length = width := by
  have hdigits : (Nat.toDigits 10 n).length ≤ width :=
    (Nat.length_toDigits_le_iff (by decide) hwidth).mpr h
  rw [padded, List.length_append, List.length_replicate]
  omega

theorem hasBytes_of_le {n : Nat} {cs : List Char} (h : n ≤ cs.length) : hasBytes n cs = true := by
  induction cs generalizing n with
  | nil =>
    rw [Nat.le_zero.mp h]
    rfl
  | cons c cs ih =>
    cases n with
    | zero => rfl
    | succ n =>
      have hsize := c.utf8Size_pos
      rw [List.length_cons] at h
      exact ih (by omega)

theorem takeDigits_append {ds rest : List Char} {most : Nat} (hds : Digits ds)
    (hmost : ds.length ≤ most)
    (hrest : ds.length = most ∨ ∀ c, rest.head? = some c → isDigit c = false) :
    takeDigits most (ds ++ rest) = (ds, rest) := by
  induction ds generalizing most with
  | nil =>
    rcases hrest with rfl | hrest
    · rfl
    · cases most with
      | zero => rfl
      | succ most =>
        cases rest with
        | nil => rfl
        | cons c rest => simp [takeDigits, hrest c rfl]
  | cons d ds ih =>
    cases most with
    | zero => cases hmost
    | succ most =>
      have hdigit : isDigit d = true := hds d List.mem_cons_self
      have hmore := ih (fun c hc => hds c (List.mem_cons_of_mem d hc)) (Nat.le_of_succ_le_succ hmost)
        (hrest.imp Nat.succ.inj id)
      simp [takeDigits, hdigit, hmore]

/-- Digits are taken as far as they go; so what is written must end there, or be as long as it may
be. -/
theorem number_append {ds rest : List Char} {least most : Nat} (hds : Digits ds)
    (hleast : least ≤ ds.length) (hmost : ds.length ≤ most)
    (hrest : ds.length = most ∨ ∀ c, rest.head? = some c → isDigit c = false)
    (hword : decimalValue ds < 9223372036854775808) :
    number least most (ds ++ rest) = .ok (decimalValue ds, rest) := by
  have hbytes : hasBytes least (ds ++ rest) = true := by
    apply hasBytes_of_le
    rw [List.length_append]
    omega
  have hint : Word.isInt64 (decimalValue ds) = true := by
    unfold Word.isInt64 Word.minInt64 Word.maxInt64
    rw [Bool.and_eq_true, decide_eq_true_eq, decide_eq_true_eq]
    omega
  simp [number, hbytes, takeDigits_append hds hmost hrest, hint, Nat.not_lt.mpr hleast]

theorem isBlank_of_isDigit {c : Char} (h : isDigit c = true) : isBlank c = false := by
  have hrange := toNat_of_isDigit h
  unfold isBlank
  simp
  omega

theorem isDigit_of_head?_padded {width : Nat} (hwidth : 0 < width) (n : Nat) (rest : List Char) :
    ∀ c, (padded width n ++ rest).head? = some c → isDigit c = true := by
  have hlong : 0 < (padded width n).length := Nat.lt_of_lt_of_le hwidth (width_le_padded width n)
  exact head?_append_of_forall (List.ne_nil_of_length_pos hlong) (digits_padded width n) rest

theorem trimStart_padded {width : Nat} (hwidth : 0 < width) (n : Nat) (rest : List Char) :
    trimStart (padded width n ++ rest) = padded width n ++ rest :=
  trimStart_append .nil fun c hc => isBlank_of_isDigit (isDigit_of_head?_padded hwidth n rest c hc)

/-- A number of a width is read to the end of it. -/
theorem number_padded {width n least most : Nat} (hwidth : 0 < width) (hnine : width ≤ 9)
    (h : n < tenTo width) (hleast : least ≤ width) (hmost : width ≤ most) {rest : List Char}
    (hrest : width = most ∨ ∀ c, rest.head? = some c → isDigit c = false) :
    number least most (padded width n ++ rest) = .ok (n, rest) := by
  have hlength := length_padded hwidth h
  have hword : n < 9223372036854775808 :=
    Nat.lt_of_lt_of_le h (Nat.le_trans (Nat.pow_le_pow_right (by decide) hnine) (by decide))
  have hnumber : number least most (padded width n ++ rest) =
      .ok (decimalValue (padded width n), rest) := by
    apply number_append (digits_padded width n)
    · rwa [hlength]
    · rwa [hlength]
    · rwa [hlength]
    · rwa [decimalValue_padded]
  rwa [decimalValue_padded] at hnumber

/-- Two digits are a part of a date or time, in any manner, if they are in its range. -/
theorem part_padded (m : Manner) (low high : Nat) {n : Nat} (h : n < 100) (rest : List Char) :
    m.part low high (padded 2 n ++ rest) =
      if low ≤ n && n ≤ high then .ok (n, rest) else .error .outOfRange := by
  have hnumber : ∀ least ≤ 2, number least 2 (padded 2 n ++ rest) = .ok (n, rest) :=
    fun least hleast => number_padded (by decide) (by decide) h hleast (Nat.le_refl 2) (.inl rfl)
  unfold Manner.part
  split
  · simp only [numberIn, hnumber 2 (by decide), bind, Except.bind]
  · have htrim : trimStart (padded 2 n ++ rest) = padded 2 n ++ rest :=
      trimStart_padded (by decide) n rest
    simp only [numberIn, htrim, hnumber 1 (by decide), bind, Except.bind]

theorem part_of_range {low high n : Nat} (hlow : low ≤ n) (hhigh : n ≤ high) (h : n < 100)
    (m : Manner) (rest : List Char) : m.part low high (padded 2 n ++ rest) = .ok (n, rest) := by
  rw [part_padded m low high h, if_pos (by simpa using And.intro hlow hhigh)]

theorem mark_self {c : Char} (h : isBlank c = false) (m : Manner) (rest : List Char) :
    m.mark c (c :: rest) = .ok rest := by
  simp [Manner.mark, trimStart_of_ink h, literal]

theorem yearOf_eq {year : Int} (hfirst : firstYear ≤ year) (hlast : year ≤ lastYear)
    (rest : List Char) : yearOf year rest = .ok (year, rest) := by
  unfold firstYear at hfirst
  unfold lastYear at hlast
  have hword : Word.minInt32 ≤ year ∧ year ≤ Word.maxInt32 := by
    unfold Word.minInt32 Word.maxInt32
    omega
  rw [yearOf, if_pos (by simpa using hword)]

/-- A year without a sign has four digits. -/
theorem year_unsigned {n : Nat} (h : n < 10000) (m : Manner) (rest : List Char) :
    m.year (padded 4 n ++ rest) = .ok ((n : Int), rest) := by
  have hnumber : ∀ least ≤ 4, number least 4 (padded 4 n ++ rest) = .ok (n, rest) :=
    fun least hleast => number_padded (by decide) (by decide) h hleast (Nat.le_refl 4) (.inl rfl)
  have hyear : yearOf (n : Int) rest = .ok ((n : Int), rest) :=
    yearOf_eq (by unfold firstYear; omega) (by unfold lastYear; omega) rest
  unfold Manner.year
  split
  · simp only [hnumber 4 (by decide), hyear, bind, Except.bind]
  · have htrim : trimStart (padded 4 n ++ rest) = padded 4 n ++ rest :=
      trimStart_padded (by decide) n rest
    have hunsigned := isDigit_of_head?_padded (show 0 < 4 by decide) n rest
    have hone := hnumber 1 (by decide)
    rw [htrim]
    split
    · next heq => exact absurd (hunsigned '-' (by rw [heq]; rfl)) (by decide)
    · next heq => exact absurd (hunsigned '+' (by rw [heq]; rfl)) (by decide)
    · simp only [hone, hyear, bind, Except.bind]

/-- A sign stands before a year of any length. -/
theorem year_signed {n : Nat} (h : n < 1000000) {rest : List Char}
    (hrest : ∀ c, rest.head? = some c → isDigit c = false) :
    Manner.spacious.year ('-' :: (padded 4 n ++ rest)) = yearOf (-(n : Int)) rest ∧
      Manner.spacious.year ('+' :: (padded 4 n ++ rest)) = yearOf (n : Int) rest := by
  have hlong := width_le_padded 4 n
  have hnumber : number 1 (padded 4 n ++ rest).length (padded 4 n ++ rest) =
      .ok (decimalValue (padded 4 n), rest) := by
    apply number_append (digits_padded 4 n)
    · omega
    · rw [List.length_append]
      omega
    · exact .inr hrest
    · rw [decimalValue_padded]
      omega
  rw [decimalValue_padded] at hnumber
  have hminus : trimStart ('-' :: (padded 4 n ++ rest)) = '-' :: (padded 4 n ++ rest) :=
    trimStart_of_ink (by decide)
  have hplus : trimStart ('+' :: (padded 4 n ++ rest)) = '+' :: (padded 4 n ++ rest) :=
    trimStart_of_ink (by decide)
  constructor
  · simp only [Manner.year, Manner.spacious, Bool.false_eq_true, if_false, hminus, hnumber]
    rfl
  · simp only [Manner.year, Manner.spacious, Bool.false_eq_true, if_false, hplus, hnumber]
    rfl

/-- A year beyond four digits carries a sign, and only with a sign are more digits taken. -/
theorem year_yearText {year : Int} (hfirst : firstYear ≤ year) (hlast : year ≤ lastYear)
    (rest : List Char) (hrest : ∀ c, rest.head? = some c → isDigit c = false) :
    Manner.spacious.year (yearText year ++ rest) = .ok (year, rest) := by
  have hyear := yearOf_eq hfirst hlast rest
  unfold firstYear at hfirst
  unfold lastYear at hlast
  unfold yearText
  by_cases hfour : 0 ≤ year ∧ year ≤ 9999
  · rw [if_pos (by simpa using hfour)]
    obtain ⟨n, rfl⟩ := Int.eq_ofNat_of_zero_le hfour.1
    exact year_unsigned (by omega) _ rest
  · rw [if_neg (by simpa using hfour)]
    have hsigned := year_signed (n := year.natAbs) (by omega) hrest
    by_cases hnegative : year < 0
    · rw [if_pos hnegative, List.cons_append, hsigned.1, show -(year.natAbs : Int) = year by omega]
      exact hyear
    · rw [if_neg hnegative, List.cons_append, hsigned.2, show (year.natAbs : Int) = year by omega]
      exact hyear

theorem date_dateText {d : Date} (h : d.Valid) (rest : List Char) :
    Manner.spacious.date (dateText d ++ rest) = .ok (d, rest) := by
  obtain ⟨hfirst, hlast, hmonth, hmost, hday, hlength⟩ := h
  have hthirtyone := Nat.le_trans hlength (daysInMonth_le d.year d.month)
  have hyear := year_yearText hfirst hlast ('-' :: (padded 2 d.month ++ ('-' :: (padded 2 d.day ++ rest))))
    (by intro c hc; cases hc; rfl)
  have hmonths := part_of_range hmonth hmost (by omega) .spacious ('-' :: (padded 2 d.day ++ rest))
  have hdays := part_of_range hday hthirtyone (by omega) .spacious rest
  have hhyphen : isBlank '-' = false := by decide
  simp only [dateText, List.append_assoc, List.cons_append, Manner.date, hyear, mark_self hhyphen,
    hmonths, hdays, bind, Except.bind]

/-- The fraction is read to the end of its digits, and in nanoseconds. -/
theorem fraction_padded {width n : Nat} (hwidth : 0 < width) (hnine : width ≤ 9)
    (h : n < tenTo width) {rest : List Char} (hrest : ∀ c, rest.head? = some c → isDigit c = false) :
    fraction (padded width n ++ rest) = .ok (n * tenTo (9 - width), rest) := by
  have hlength := length_padded hwidth h
  have hnumber : number 1 9 (padded width n ++ rest) = .ok (n, rest) :=
    number_padded hwidth hnine h hwidth hnine (.inr hrest)
  have hused : (padded width n ++ rest).length - rest.length = width := by
    rw [List.length_append, hlength, Nat.add_sub_cancel]
  have hover : rest.dropWhile isDigit = rest := by
    cases rest with
    | nil => rfl
    | cons c rest => rw [List.dropWhile_cons_of_neg (by rw [hrest c rfl]; exact Bool.false_ne_true)]
  simp only [fraction, hnumber, hused, hover, bind, Except.bind]

theorem fraction?_fractionText {nanos : Nat} (h : nanos < 1000000000) (rest : List Char) :
    fraction? (fractionText nanos ++ 'Z' :: rest) = .ok (nanos, 'Z' :: rest) := by
  have hrest : ∀ c, ('Z' :: rest).head? = some c → isDigit c = false := by
    intro c hc
    cases hc
    rfl
  have hread : ∀ width n, 0 < width → width ≤ 9 → n < tenTo width → n * tenTo (9 - width) = nanos →
      fraction? ('.' :: padded width n ++ 'Z' :: rest) = .ok (nanos, 'Z' :: rest) := by
    intro width n hwidth hnine hn hnanos
    rw [← hnanos]
    exact fraction_padded hwidth hnine hn hrest
  unfold fractionText
  by_cases hzero : nanos = 0
  · subst hzero
    rfl
  rw [if_neg (by simpa using hzero)]
  by_cases hmilli : nanos % 1000000 = 0
  · rw [if_pos (by simpa using hmilli)]
    refine hread 3 _ (by decide) (by decide) ?_ ?_
    · show nanos / 1000000 < 1000
      omega
    · show nanos / 1000000 * 1000000 = nanos
      omega
  rw [if_neg (by simpa using hmilli)]
  by_cases hmicro : nanos % 1000 = 0
  · rw [if_pos (by simpa using hmicro)]
    refine hread 6 _ (by decide) (by decide) ?_ ?_
    · show nanos / 1000 < 1000000
      omega
    · show nanos / 1000 * 1000 = nanos
      omega
  rw [if_neg (by simpa using hmicro)]
  exact hread 9 nanos (by decide) (by decide) h (Nat.mul_one nanos)

/-- A time of day. A leap second is the last second of a minute. -/
structure TimeOfDay.Valid (t : TimeOfDay) : Prop where
  seconds : t.seconds < 86400
  nanos : t.nanos < 2000000000
  leap : 1000000000 ≤ t.nanos → t.seconds % 60 = 59

/-- In a leap second the nanoseconds beyond a whole second are written as second 60. -/
theorem clock_clockText {t : TimeOfDay} (h : t.Valid) (rest : List Char) :
    Manner.spacious.clock (clockText t ++ (fractionText (t.nanos % 1000000000) ++ 'Z' :: rest)) =
      .ok (t, 'Z' :: rest) := by
  obtain ⟨seconds, nanos⟩ := t
  obtain ⟨hseconds, hnanos, hleap⟩ := h
  dsimp only at hseconds hnanos hleap ⊢
  have hhours : ∀ rest, Manner.spacious.part 0 23 (padded 2 (seconds / 3600) ++ rest) =
      .ok (seconds / 3600, rest) := part_of_range (Nat.zero_le _) (by omega) (by omega) _
  have hminutes : ∀ rest, Manner.spacious.part 0 59 (padded 2 (seconds / 60 % 60) ++ rest) =
      .ok (seconds / 60 % 60, rest) := part_of_range (Nat.zero_le _) (by omega) (by omega) _
  have hlast : ∀ rest, Manner.spacious.part 0 60
      (padded 2 (seconds % 60 + nanos / 1000000000) ++ rest) =
        .ok (seconds % 60 + nanos / 1000000000, rest) :=
    part_of_range (Nat.zero_le _) (by omega) (by omega) _
  have hfraction : fraction? (fractionText (nanos % 1000000000) ++ 'Z' :: rest) =
      .ok (nanos % 1000000000, 'Z' :: rest) := fraction?_fractionText (by omega) rest
  have hcolon : isBlank ':' = false := by decide
  simp only [clockText, List.append_assoc, List.cons_append, Manner.clock, hhours, hminutes, hlast,
    mark_self hcolon, hfraction, bind, Except.bind, beq_iff_eq]
  by_cases hsixty : seconds % 60 + nanos / 1000000000 = 60
  · rw [if_pos hsixty]
    congr 3
    · omega
    · omega
  · rw [if_neg hsixty]
    congr 3
    · omega
    · omega

namespace Instant

variable {i : Instant}

theorem Valid.date (h : i.Valid) : i.date.Valid := by
  have hends : secondsPerDay = 86400 ∧
      Instant.earliest = (Date.mk firstYear 1 1).number * 86400 ∧
        Instant.latest = (Date.mk lastYear 12 31).number * 86400 + 86399 := ⟨rfl, rfl, rfl⟩
  have hearliest := h.earliest
  have hlatest := h.latest
  rw [hends.2.1] at hearliest
  rw [hends.2.2] at hlatest
  unfold Instant.date
  rw [hends.1]
  exact valid_ofNumber (by omega) (by omega)

theorem Valid.time (h : i.Valid) : i.time.Valid := by
  have hday : secondsPerDay = 86400 := rfl
  have hleap := h.leap
  refine ⟨?_, h.nanos, ?_⟩
  · unfold Instant.time
    rw [hday]
    dsimp only
    omega
  · unfold Instant.time
    rw [hday]
    dsimp only
    omega

/-- The date and the time of day are parts of the instant that make it up. -/
theorem ofParts_date_time (i : Instant) : ofParts i.date i.time = i := by
  have hday : secondsPerDay = 86400 := rfl
  unfold ofParts Instant.date Instant.time
  rw [number_ofNumber, hday]
  obtain ⟨seconds, nanos⟩ := i
  dsimp only
  congr 1
  omega

/-- The full written form of an instant is read as the instant. -/
theorem readWire_render (h : i.Valid) : readWire i.render = .ok i := by
  have hdate := date_dateText h.date
    ('T' :: (clockText i.time ++ (fractionText (i.time.nanos % 1000000000) ++ ['Z'])))
  have hclock := clock_clockText h.time []
  have hlocal : ofLocal? i.date i.time 0 = some i := by
    have hrange : (earliest ≤ i.seconds && i.seconds ≤ latest) = true := by
      simpa using ⟨h.earliest, h.latest⟩
    simp only [ofLocal?, ofParts_date_time, Int.sub_zero, hrange, if_true]
  have hseparator : ∀ rest, separator ('T' :: rest) = .ok ((), rest) := fun _ => rfl
  have hoffset : wireOffset (trimStart ['Z']) = .ok (0, []) := by decide
  have hnothing : nothingLeft (trimStart []) = .ok () := rfl
  have hcheck : i.date.check = .ok () := if_pos h.date
  have hnanos : i.nanos = i.time.nanos := rfl
  simp only [readWire, render, String.toList_ofList, hnanos, List.append_assoc, List.cons_append,
    hdate, hseparator, hclock, hoffset, hnothing, hcheck, hlocal, bind, Except.bind]
  rfl

/-- Second 60 of a leap second, and a year before the first. -/
example : (Instant.mk 1483228799 1500000000).render = "2016-12-31T23:59:60.500Z" ∧
    (Instant.mk (-62198755200) 0).render = "-0001-01-01T00:00:00Z" := by
  decide

end Instant

end Segments.Time
