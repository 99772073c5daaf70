import Segments.Proofs.DayCount
import Segments.Proofs.InstantText

namespace Segments.Time

open Text

structure WrittenDate where
  year : Fin 10000
  month : Fin 100
  day : Fin 100

namespace WrittenDate

variable (d : WrittenDate)

def text : List Char :=
  padded 4 d.year ++ '-' :: (padded 2 d.month ++ '-' :: padded 2 d.day)

def Exists : Prop :=
  IsDay d.year d.month d.day

instance : Decidable d.Exists :=
  inferInstanceAs (Decidable (IsDay _ _ _))

def midnight : Int :=
  daysSince1970 d.year d.month d.day * 86400

/-- By year, in a year by month, and in a month by day. -/
def compare (a b : WrittenDate) : Ordering :=
  (Ord.compare (a.year : Nat) b.year).then
    ((Ord.compare (a.month : Nat) b.month).then (Ord.compare (a.day : Nat) b.day))

end WrittenDate

/-- A time of day as it is written, to a whole second and not in a leap second. -/
structure WrittenClock where
  hours : Fin 100
  minutes : Fin 100
  seconds : Fin 60

namespace WrittenClock

variable (t : WrittenClock)

def text : List Char :=
  padded 2 t.hours ++ ':' :: (padded 2 t.minutes ++ ':' :: padded 2 t.seconds)

def Exists : Prop :=
  (t.hours : Nat) ≤ 23 ∧ (t.minutes : Nat) ≤ 59

instance : Decidable t.Exists :=
  inferInstanceAs (Decidable (_ ∧ _))

def sinceMidnight : Nat :=
  t.hours * 3600 + t.minutes * 60 + t.seconds

def midnight : WrittenClock :=
  ⟨0, 0, 0⟩

end WrittenClock

inductive Zone
  | universal
  | ahead (hours : Fin 24) (minutes : Fin 60)
  | behind (hours : Fin 24) (minutes : Fin 60)

def Zone.text : Zone → List Char
  | .universal => ['Z']
  | .ahead hours minutes => '+' :: (padded 2 hours ++ ':' :: padded 2 minutes)
  | .behind hours minutes => '-' :: (padded 2 hours ++ ':' :: padded 2 minutes)

def Zone.offset : Zone → Int
  | .universal => 0
  | .ahead hours minutes => hours * 3600 + minutes * 60
  | .behind hours minutes => -(hours * 3600 + minutes * 60)

inductive Timestamp
  | day (d : WrittenDate)
  | unzoned (d : WrittenDate) (t : WrittenClock)
  | zoned (d : WrittenDate) (t : WrittenClock) (z : Zone)

namespace Timestamp

def date : Timestamp → WrittenDate
  | .day d => d
  | .unzoned d _ => d
  | .zoned d _ _ => d

def tail : Timestamp → List Char
  | .day _ => []
  | .unzoned _ t => 'T' :: t.text
  | .zoned _ t z => 'T' :: (t.text ++ z.text)

def text (s : Timestamp) : List Char :=
  s.date.text ++ s.tail

def Exists : Timestamp → Prop
  | .day d => d.Exists
  | .unzoned d t => d.Exists ∧ t.Exists
  | .zoned d t _ => d.Exists ∧ t.Exists

/-- Seconds from the start of 1970. Without a zone the time is universal. -/
def seconds : Timestamp → Int
  | .day d => d.midnight
  | .unzoned d t => d.midnight + t.sinceMidnight
  | .zoned d t z => d.midnight + t.sinceMidnight - z.offset

end Timestamp

/-- A month and a day that some date has. Whether the day is one of the month is seen only when all
is read. -/
def WrittenDate.InRange (d : WrittenDate) : Prop :=
  (1 ≤ (d.month : Nat) ∧ (d.month : Nat) ≤ 12) ∧ 1 ≤ (d.day : Nat) ∧ (d.day : Nat) ≤ 31

instance (d : WrittenDate) : Decidable d.InRange :=
  inferInstanceAs (Decidable (_ ∧ _))

def WrittenDate.toDate (d : WrittenDate) : Date :=
  ⟨d.year.val, d.month, d.day⟩

/-- A date is taken by the ranges of its parts; whether the month has the day is asked later. -/
theorem date_text (m : Manner) (d : WrittenDate) (rest : List Char) :
    m.date (d.text ++ rest) =
      if d.InRange then .ok (d.toDate, rest) else .error .outOfRange := by
  have hhyphen : isBlank '-' = false := by decide
  have hmonths := fun rest => part_padded m 1 12 d.month.isLt rest
  have hdays := part_padded m 1 31 d.day.isLt rest
  simp only [Manner.date, WrittenDate.text, List.append_assoc, List.cons_append,
    year_unsigned d.year.isLt, mark_self hhyphen, hmonths, bind, Except.bind]
  by_cases hmonth : 1 ≤ (d.month : Nat) ∧ (d.month : Nat) ≤ 12
  · by_cases hday : 1 ≤ (d.day : Nat) ∧ (d.day : Nat) ≤ 31
    · simp [WrittenDate.InRange, WrittenDate.toDate, mark_self hhyphen, hdays, hmonth, hday]
    · simp [WrittenDate.InRange, mark_self hhyphen, hdays, hmonth, hday]
  · simp [WrittenDate.InRange, hmonth]

theorem fraction?_of_head {rest : List Char} (h : rest.head? ≠ some '.') :
    fraction? rest = .ok (0, rest) := by
  unfold fraction?
  split
  · exact absurd rfl h
  · rfl

theorem Zone.head?_text (z : Zone) : z.text.head? ≠ some '.' := by
  cases z <;> simp [Zone.text]

theorem head?_nil_ne : ([] : List Char).head? ≠ some '.' := by
  simp

theorem clock_text (m : Manner) (t : WrittenClock) {rest : List Char} (hrest : rest.head? ≠ some '.') :
    m.clock (t.text ++ rest) =
      if t.Exists then .ok (⟨t.sinceMidnight, 0⟩, rest) else .error .outOfRange := by
  have hcolon : isBlank ':' = false := by decide
  have hhours := fun rest => part_padded m 0 23 t.hours.isLt rest
  have hminutes := fun rest => part_padded m 0 59 t.minutes.isLt rest
  have hlast := t.seconds.isLt
  have hseconds := part_of_range (Nat.zero_le t.seconds) (show (t.seconds : Nat) ≤ 60 by omega)
    (by omega) m rest
  have hwhole : (t.seconds : Nat) ≠ 60 := by omega
  simp only [Manner.clock, WrittenClock.text, List.append_assoc, List.cons_append, hhours, bind,
    Except.bind]
  by_cases hhour : (t.hours : Nat) ≤ 23
  · by_cases hminute : (t.minutes : Nat) ≤ 59
    · simp [WrittenClock.Exists, WrittenClock.sinceMidnight, mark_self hcolon, hminutes, hseconds,
        fraction?_of_head hrest, hwhole, hhour, hminute]
    · simp [WrittenClock.Exists, mark_self hcolon, hminutes, hhour, hminute]
  · simp [WrittenClock.Exists, hhour]

theorem twoDigits_padded {n : Nat} (h : n < 100) (rest : List Char) :
    twoDigits (padded 2 n ++ rest) = .ok (n, rest) := by
  have hlength : (padded 2 n).length = 2 := length_padded (by decide) h
  have hvalue := decimalValue_padded 2 n
  have hdigits := digits_padded 2 n
  have hbytes : hasBytes 2 (padded 2 n ++ rest) = true := hasBytes_of_le (by simp [hlength])
  match hpadded : padded 2 n, hlength with
  | [a, b], _ =>
    rw [hpadded] at hvalue hdigits hbytes
    have ha : isDigit a = true := hdigits a List.mem_cons_self
    have hb : isDigit b = true := hdigits b (List.mem_cons_of_mem a List.mem_cons_self)
    rw [List.cons_append, List.cons_append, List.nil_append] at hbytes ⊢
    simp [twoDigits, hbytes, ha, hb, hvalue]

theorem offset_text (z : Zone) : offset (literal ':') z.text = .ok (z.offset, []) := by
  have hhours : ∀ (n : Fin 24) rest, twoDigits (padded 2 n ++ rest) = .ok ((n : Nat), rest) :=
    fun n rest => twoDigits_padded (by omega) rest
  have hminutes : ∀ n : Fin 60, twoDigits (padded 2 n) = .ok ((n : Nat), []) := by
    intro n
    have hread := twoDigits_padded (n := n) (by omega) []
    rwa [List.append_nil] at hread
  cases z with
  | universal => rfl
  | ahead hours minutes =>
    simp [offset, Zone.text, hhours, hminutes, literal, bind, Except.bind, Zone.offset]
  | behind hours minutes =>
    simp [offset, Zone.text, hhours, hminutes, literal, bind, Except.bind, Zone.offset]

theorem offset_lt (z : Zone) : z.offset.natAbs < 86400 := by
  cases z with
  | universal => decide
  | ahead hours minutes =>
    simp only [Zone.offset]
    omega
  | behind hours minutes =>
    simp only [Zone.offset]
    omega

variable {d : WrittenDate} {t : WrittenClock} {i : Instant}

theorem WrittenDate.Exists.inRange (h : d.Exists) : d.InRange :=
  ⟨⟨h.january, h.december⟩, h.first, Nat.le_trans h.last (daysInMonth_le _ _)⟩

theorem check_toDate (d : WrittenDate) :
    d.toDate.check = if d.Exists then .ok () else .error .outOfRange := by
  have hyear := d.year.isLt
  have hvalid : d.toDate.Valid ↔ d.Exists := by
    constructor
    · rintro ⟨-, -, hjanuary, hdecember, hfirst, hlast⟩
      exact ⟨hjanuary, hdecember, hfirst, hlast⟩
    · rintro ⟨hjanuary, hdecember, hfirst, hlast⟩
      have hearly : firstYear ≤ (d.year : Nat) := by
        unfold firstYear
        omega
      have hlate : ((d.year : Nat) : Int) ≤ lastYear := by
        unfold lastYear
        omega
      exact ⟨hearly, hlate, hjanuary, hdecember, hfirst, hlast⟩
  unfold Date.check
  exact if_congr hvalid rfl rfl

theorem ofParts_toDate (h : d.Exists) (seconds : Nat) :
    Instant.ofParts d.toDate ⟨seconds, 0⟩ = ⟨d.midnight + seconds, 0⟩ := by
  rw [Instant.ofParts, WrittenDate.toDate, number_eq h]
  rfl

theorem ofParts_midnight (h : d.Exists) : Instant.ofParts d.toDate ⟨0, 0⟩ = ⟨d.midnight, 0⟩ := by
  simpa using ofParts_toDate h 0

/-- No time of a year of four digits is out of the supported years. -/
theorem ofLocal?_toDate (h : d.Exists) (ht : t.Exists) (z : Zone) :
    Instant.ofLocal? d.toDate ⟨t.sinceMidnight, 0⟩ z.offset =
      some ⟨d.midnight + t.sinceMidnight - z.offset, 0⟩ := by
  obtain ⟨hfirst, hlast⟩ := IsDay.four_digits h d.year.isLt
  have hoffset := offset_lt z
  have hclock : t.sinceMidnight < 86400 := by
    unfold WrittenClock.Exists at ht
    unfold WrittenClock.sinceMidnight
    omega
  have hends : Instant.earliest = -8334601228800 ∧ Instant.latest = 8210266876799 := by decide
  have hrange : Instant.earliest ≤ d.midnight + t.sinceMidnight - z.offset ∧
      d.midnight + t.sinceMidnight - z.offset ≤ Instant.latest := by
    rw [hends.1, hends.2]
    unfold WrittenDate.midnight
    omega
  simp [Instant.ofLocal?, ofParts_toDate h, hrange]

theorem ok_bind {α β : Type} (a : α) (next : α → Except Fault β) : .ok a >>= next = next a :=
  rfl

theorem error_bind {α β : Type} (f : Fault) (next : α → Except Fault β) :
    .error f >>= next = .error f :=
  rfl

theorem bind_guarded {α β : Type} {p : Prop} [Decidable p] {a : α} {b : β} {f : Fault}
    {next : α → Except Fault β} :
    (if p then .ok a else .error f) >>= next = .ok b ↔ p ∧ next a = .ok b := by
  by_cases hp : p
  · simp [hp, ok_bind]
  · simp [hp, error_bind]

theorem bind_date {m : Manner} {rest : List Char} {next : Date × List Char → Except Fault Instant} :
    m.date (d.text ++ rest) >>= next = .ok i ↔ d.InRange ∧ next (d.toDate, rest) = .ok i := by
  rw [date_text, bind_guarded]

theorem bind_clock {m : Manner} {rest : List Char} (hrest : rest.head? ≠ some '.')
    {next : TimeOfDay × List Char → Except Fault Instant} :
    m.clock (t.text ++ rest) >>= next = .ok i ↔
      t.Exists ∧ next (⟨t.sinceMidnight, 0⟩, rest) = .ok i := by
  rw [clock_text m t hrest, bind_guarded]

theorem bind_check {next : Unit → Except Fault Instant} :
    d.toDate.check >>= next = .ok i ↔ d.Exists ∧ next () = .ok i := by
  rw [check_toDate, bind_guarded]

-- Each of the readers takes one form of timestamp and fails on the other two, so that the order in
-- which they are tried makes no difference.

/-- The last of the readers reads dates alone, those that exist. -/
theorem readDate_text (s : Timestamp) :
    readDate s.text = .ok i ↔ (∃ d, s = .day d) ∧ s.Exists ∧ i = ⟨s.seconds, 0⟩ := by
  rw [readDate, Timestamp.text, bind_date]
  cases s with
  | day d =>
    have hnothing : nothingLeft (Timestamp.day d).tail = .ok () := rfl
    simp only [hnothing, ok_bind, bind_check, Timestamp.date]
    constructor
    · rintro ⟨-, hd, hread⟩
      rw [ofParts_midnight hd] at hread
      exact ⟨⟨d, rfl⟩, hd, (Except.ok.inj hread).symm⟩
    · rintro ⟨-, hd, rfl⟩
      exact ⟨hd.inRange, hd, congrArg Except.ok (ofParts_midnight hd)⟩
  | unzoned d t =>
    have hmore : nothingLeft (Timestamp.unzoned d t).tail = .error .tooLong := rfl
    simp [hmore, error_bind]
  | zoned d t z =>
    have hmore : nothingLeft (Timestamp.zoned d t z).tail = .error .tooLong := rfl
    simp [hmore, error_bind]

/-- The second of the readers reads dates with a time of day and no zone, those that exist. -/
theorem readLocal_text (s : Timestamp) :
    readLocal s.text = .ok i ↔ (∃ d t, s = .unzoned d t) ∧ s.Exists ∧ i = ⟨s.seconds, 0⟩ := by
  rw [readLocal, Timestamp.text, bind_date]
  cases s with
  | day d =>
    have hnone : literal 'T' (Timestamp.day d).tail = .error .tooShort := rfl
    simp [hnone, error_bind]
  | unzoned d t =>
    have hliteral : literal 'T' (Timestamp.unzoned d t).tail = .ok (t.text ++ []) := by
      rw [List.append_nil]
      rfl
    have hnothing : nothingLeft [] = .ok () := rfl
    simp only [hliteral, hnothing, ok_bind, bind_clock head?_nil_ne, bind_check, Timestamp.date]
    constructor
    · rintro ⟨-, ht, hd, hread⟩
      rw [ofParts_toDate hd] at hread
      exact ⟨⟨d, t, rfl⟩, ⟨hd, ht⟩, (Except.ok.inj hread).symm⟩
    · rintro ⟨-, ⟨hd, ht⟩, rfl⟩
      exact ⟨hd.inRange, ht, hd, congrArg Except.ok (ofParts_toDate hd _)⟩
  | zoned d t z =>
    have hliteral : literal 'T' (Timestamp.zoned d t z).tail = .ok (t.text ++ z.text) := rfl
    have hzone : nothingLeft z.text = .error .tooLong := by cases z <;> rfl
    simp only [hliteral, ok_bind, bind_clock z.head?_text, hzone, error_bind]
    simp

/-- The first of the readers reads dates with a time of day and a zone, those that exist. -/
theorem readStrict_text (s : Timestamp) :
    readStrict s.text = .ok i ↔ (∃ d t z, s = .zoned d t z) ∧ s.Exists ∧ i = ⟨s.seconds, 0⟩ := by
  rw [readStrict, Timestamp.text, bind_date]
  cases s with
  | day d =>
    have hnone : separator (Timestamp.day d).tail = .error .tooShort := rfl
    simp [hnone, error_bind]
  | unzoned d t =>
    have hliteral : separator (Timestamp.unzoned d t).tail = .ok ((), t.text ++ []) := by
      rw [List.append_nil]
      rfl
    have hnone : offset (literal ':') [] = .error .tooShort := rfl
    simp only [hliteral, ok_bind, bind_clock head?_nil_ne, hnone, error_bind]
    simp
  | zoned d t z =>
    have hliteral : separator (Timestamp.zoned d t z).tail = .ok ((), t.text ++ z.text) := rfl
    have hnothing : nothingLeft [] = .ok () := rfl
    simp only [hliteral, ok_bind, bind_clock z.head?_text, offset_text,
      if_neg (Nat.not_le.mpr (offset_lt z)), hnothing, bind_check, Timestamp.date]
    constructor
    · rintro ⟨-, ht, hd, hread⟩
      rw [ofLocal?_toDate hd ht] at hread
      exact ⟨⟨d, t, z, rfl⟩, ⟨hd, ht⟩, (Except.ok.inj hread).symm⟩
    · rintro ⟨-, ⟨hd, ht⟩, rfl⟩
      refine ⟨hd.inRange, ht, hd, ?_⟩
      rw [ofLocal?_toDate hd ht]
      rfl

theorem ink_padded (width n : Nat) : ∀ c ∈ padded width n, isBlank c = false :=
  fun c hc => isBlank_of_isDigit (digits_padded width n c hc)

theorem ink_joined {mark : Char} (h : isBlank mark = false) (width n : Nat) {rest : List Char}
    (hrest : ∀ c ∈ rest, isBlank c = false) : ∀ c ∈ padded width n ++ mark :: rest, isBlank c = false :=
  List.forall_mem_append.mpr ⟨ink_padded width n, List.forall_mem_cons.mpr ⟨h, hrest⟩⟩

/-- There are no blanks in a timestamp. -/
theorem ink_text (s : Timestamp) : ∀ c ∈ s.text, isBlank c = false := by
  have hhyphen : isBlank '-' = false := by decide
  have hcolon : isBlank ':' = false := by decide
  have hletter : isBlank 'T' = false := by decide
  have hdate : ∀ c ∈ s.date.text, isBlank c = false :=
    ink_joined hhyphen 4 _ (ink_joined hhyphen 2 _ (ink_padded 2 _))
  have hclock : ∀ t : WrittenClock, ∀ c ∈ t.text, isBlank c = false :=
    fun t => ink_joined hcolon 2 _ (ink_joined hcolon 2 _ (ink_padded 2 _))
  have hzone : ∀ z : Zone, ∀ c ∈ z.text, isBlank c = false := by
    intro z
    cases z with
    | universal => exact List.forall_mem_singleton.mpr (by decide)
    | ahead hours minutes =>
      exact List.forall_mem_cons.mpr ⟨by decide, ink_joined hcolon 2 _ (ink_padded 2 _)⟩
    | behind hours minutes =>
      exact List.forall_mem_cons.mpr ⟨hhyphen, ink_joined hcolon 2 _ (ink_padded 2 _)⟩
  refine List.forall_mem_append.mpr ⟨hdate, ?_⟩
  cases s with
  | day d => exact fun c hc => absurd hc List.not_mem_nil
  | unzoned d t => exact List.forall_mem_cons.mpr ⟨hletter, hclock t⟩
  | zoned d t z =>
    exact List.forall_mem_cons.mpr ⟨hletter, List.forall_mem_append.mpr ⟨hclock t, hzone z⟩⟩

namespace Instant

/-- A later reader is heard only where the earlier ones fail. -/
theorem read?_eq_some {text : String} : read? text = some i ↔
    readStrict (trim text.toList) = .ok i ∨ (∀ j, readStrict (trim text.toList) ≠ .ok j) ∧
      (readLocal (trim text.toList) = .ok i ∨ (∀ j, readLocal (trim text.toList) ≠ .ok j) ∧
        readDate (trim text.toList) = .ok i) := by
  unfold read?
  dsimp only
  cases readStrict (trim text.toList) with
  | ok j => simp
  | error e =>
    cases readLocal (trim text.toList) with
    | ok j => simp
    | error e => cases readDate (trim text.toList) <;> simp

/-- Of the three forms that are tried only the one in which it is written takes a text. -/
theorem read?_text (s : Timestamp) :
    read? (String.ofList s.text) = some i ↔ s.Exists ∧ i = ⟨s.seconds, 0⟩ := by
  have htrim : trim (String.ofList s.text).toList = s.text := by
    rw [String.toList_ofList]
    exact (Trimmed.of_ink (ink_text s)).trim
  rw [read?_eq_some, htrim]
  simp only [ne_eq, readStrict_text, readLocal_text, readDate_text]
  cases s <;> simp

theorem read?_surrounded {lead tail : List Char} (hlead : Blanks lead) (text : List Char)
    (htail : Blanks tail) :
    read? (String.ofList (lead ++ text ++ tail)) = read? (String.ofList text) := by
  unfold read?
  rw [String.toList_ofList, String.toList_ofList, trim_surrounded hlead text htail]

/-- Days are in the order of their first seconds. -/
theorem compare_midnight {a b : WrittenDate} (ha : a.Exists) (hb : b.Exists) :
    compare ⟨a.midnight, 0⟩ ⟨b.midnight, 0⟩ = a.compare b := by
  have hdays := compare_daysElapsed ha hb
  have hseconds : Ord.compare a.midnight b.midnight =
      Ord.compare (daysElapsed a.year a.month a.day) (daysElapsed b.year b.month b.day) := by
    unfold WrittenDate.midnight daysSince1970
    generalize daysElapsed a.year a.month a.day = m
    generalize daysElapsed b.year b.month b.day = n
    rcases Nat.lt_trichotomy m n with hlt | rfl | hgt
    · rw [Nat.compare_eq_lt.mpr hlt, compare_lt_iff_lt]
      omega
    · rw [compare_eq_iff_eq.mpr rfl, Nat.compare_eq_eq.mpr rfl]
    · rw [Nat.compare_eq_gt.mpr hgt, compare_gt_iff_gt]
      omega
  unfold Instant.compare
  rw [hseconds, hdays]
  exact Ordering.then_eq

/-- Two timestamps of one time are read alike. -/
theorem read?_congr {s s' : Timestamp} (hexists : s.Exists ↔ s'.Exists)
    (hseconds : s.seconds = s'.seconds) :
    read? (String.ofList s.text) = read? (String.ofList s'.text) := by
  ext i
  rw [read?_text, read?_text, hexists, hseconds]

/-- Timestamps follow the calendar. One is read just if its date exists and its time of day does, as
the seconds that the count of days gives. A date alone is its midnight in universal time, and a time
without a zone is in universal time. Dates are ordered as the instants that they are read as. Blanks
around a text are nothing. -/
theorem read?_timestamps :
    (∀ (s : Timestamp) (i : Instant),
      read? (String.ofList s.text) = some i ↔ s.Exists ∧ i = ⟨s.seconds, 0⟩) ∧
    (∀ d, read? (String.ofList (Timestamp.day d).text) =
      read? (String.ofList (Timestamp.zoned d .midnight .universal).text)) ∧
    (∀ d t, read? (String.ofList (Timestamp.unzoned d t).text) =
      read? (String.ofList (Timestamp.zoned d t .universal).text)) ∧
    (∀ a b i j, read? (String.ofList (Timestamp.day a).text) = some i →
      read? (String.ofList (Timestamp.day b).text) = some j → i.compare j = a.compare b) ∧
    (∀ lead text tail, Blanks lead → Blanks tail →
      read? (String.ofList (lead ++ text ++ tail)) = read? (String.ofList text)) := by
  refine ⟨fun s i => read?_text s, fun d => ?_, fun d t => ?_, fun a b i j hi hj => ?_,
    fun lead text tail hlead htail => read?_surrounded hlead text htail⟩
  · have hmidnight : WrittenClock.midnight.Exists := by decide
    refine read?_congr (and_iff_left hmidnight).symm ?_
    show d.midnight = d.midnight + (0 : Nat) - 0
    omega
  · refine read?_congr Iff.rfl ?_
    show d.midnight + t.sinceMidnight = d.midnight + t.sinceMidnight - 0
    omega
  · obtain ⟨ha, rfl⟩ := (read?_text _).mp hi
    obtain ⟨hb, rfl⟩ := (read?_text _).mp hj
    exact compare_midnight ha hb

/-- The leap day of 2024 comes before the first of March, and its last half hour an hour behind
universal time is in March. -/
theorem read?_timestamps_leap_day :
    (∃ i j, read? "2024-02-29" = some i ∧ read? "2024-03-01" = some j ∧ i.compare j = .lt) ∧
      read? " 2024-02-29T23:30:00-01:00 " = some ⟨1709253000, 0⟩ := by
  obtain ⟨hread, -, -, horder, hblanks⟩ := read?_timestamps
  have hleap : IsDay 2024 2 29 := by decide
  have hmarch : IsDay 2024 3 1 := by decide
  have hdate : read? "2024-02-29" = some ⟨daysSince1970 2024 2 29 * 86400, 0⟩ :=
    (hread (.day ⟨2024, 2, 29⟩) _).mpr ⟨hleap, rfl⟩
  have hnext : read? "2024-03-01" = some ⟨daysSince1970 2024 3 1 * 86400, 0⟩ :=
    (hread (.day ⟨2024, 3, 1⟩) _).mpr ⟨hmarch, rfl⟩
  have hseconds : daysSince1970 2024 2 29 * 86400 + 84600 - -3600 = 1709253000 := by
    have hnumber : (Date.mk 2024 2 29).number = daysSince1970 2024 2 29 := number_eq hleap
    rw [← hnumber]
    decide
  have hmoment : read? "2024-02-29T23:30:00-01:00" = some ⟨1709253000, 0⟩ :=
    (hread (.zoned ⟨2024, 2, 29⟩ ⟨23, 30, 0⟩ (.behind 1 0)) _).mpr
      ⟨⟨hleap, by decide⟩, congrArg (Instant.mk · 0) hseconds.symm⟩
  have hblank : Blanks [' '] := by
    intro c hc
    rw [List.mem_singleton.mp hc]
    decide
  refine ⟨⟨_, _, hdate, hnext, horder ⟨2024, 2, 29⟩ ⟨2024, 3, 1⟩ _ _ hdate hnext⟩, ?_⟩
  exact (hblanks [' '] "2024-02-29T23:30:00-01:00".toList [' '] hblank hblank).trans hmoment

end Instant

end Segments.Time
