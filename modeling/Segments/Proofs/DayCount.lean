import Segments.Proofs.Days

namespace Segments.Time

def daysOfMonths (year : Nat) : Nat → Nat
  | 0 => 0
  | months + 1 => daysOfMonths year months + daysInMonth year (months + 1)

/-- The days of the years before a year, the first being year 0. -/
def daysOfYears : Nat → Nat
  | 0 => 0
  | year + 1 => daysOfYears year + daysOfMonths year 12

def daysElapsed (year month day : Nat) : Nat :=
  daysOfYears year + daysOfMonths year (month - 1) + (day - 1)

def daysSince1970 (year month day : Nat) : Int :=
  daysElapsed year month day - daysElapsed 1970 1 1

structure IsDay (year month day : Nat) : Prop where
  january : 1 ≤ month
  december : month ≤ 12
  first : 1 ≤ day
  last : day ≤ daysInMonth year month

instance (year month day : Nat) : Decidable (IsDay year month day) :=
  decidable_of_iff (1 ≤ month ∧ month ≤ 12 ∧ 1 ≤ day ∧ day ≤ daysInMonth year month)
    ⟨fun ⟨hjanuary, hdecember, hfirst, hlast⟩ => ⟨hjanuary, hdecember, hfirst, hlast⟩,
      fun ⟨hjanuary, hdecember, hfirst, hlast⟩ => ⟨hjanuary, hdecember, hfirst, hlast⟩⟩

/-- The months are those of the whole year. -/
theorem daysOfMonths_twelve (year : Nat) :
    daysOfMonths year 12 = 365 + if isLeap year then 1 else 0 := by
  cases hleap : isLeap year <;> simp [daysOfMonths, daysInMonth, hleap]

/-- March of the year before starts 306 days before a year does. -/
theorem daysOfYears_eq (year : Nat) : (daysOfYears year : Int) = daysBeforeMarch (year - 1) + 366 := by
  induction year with
  | zero => rfl
  | succ year ih =>
    have hnext := daysBeforeMarch_succ ((year : Int) - 1)
    rw [Int.sub_add_cancel] at hnext
    rw [daysOfYears, daysOfMonths_twelve, Nat.cast_add, ih, Nat.cast_succ, Int.add_sub_cancel, hnext]
    split <;> push_cast <;> omega

/-- The months before one, counted from January and from March. -/
theorem daysOfMonths_eq {month : Nat} (hleast : 1 ≤ month) (hmost : month ≤ 12) (year : Nat) :
    daysOfMonths year (month - 1) + 306 =
      daysBeforeMonth month + if month ≤ 2 then 0 else daysOfMonths year 12 := by
  rw [daysOfMonths_twelve]
  cases hleap : isLeap year <;> interval_cases month <;>
    simp [daysOfMonths, daysInMonth, daysBeforeMonth, hleap]

theorem daysElapsed_1970 : (daysElapsed 1970 1 1 : Int) = 719528 := by
  rw [daysElapsed, Nat.cast_add, Nat.cast_add, daysOfYears_eq]
  rfl

/-- A date is at the place that the count of its days gives. -/
theorem number_eq {year month day : Nat} (h : IsDay year month day) :
    (Date.mk year month day).number = daysSince1970 year month day := by
  obtain ⟨hleast, hmost, hday, -⟩ := h
  have hnumber : (Date.mk year month day).number = daysBeforeMarch (marchYear ⟨year, month, day⟩) +
      daysBeforeMonth month + day - 1 - 719468 := rfl
  have hyears := daysOfYears_eq year
  have hmonths := daysOfMonths_eq hleast hmost year
  have hnext := daysOfYears_eq (year + 1)
  rw [Nat.cast_succ, Int.add_sub_cancel, daysOfYears] at hnext
  rw [hnumber, daysSince1970, daysElapsed_1970, daysElapsed, marchYear]
  dsimp only
  split
  · next hearly =>
    rw [if_pos hearly] at hmonths
    omega
  · next hlate =>
    rw [if_neg hlate] at hmonths
    omega

theorem daysOfMonths_mono (year : Nat) : Monotone (daysOfMonths year) :=
  monotone_nat_of_le_succ fun _ => Nat.le_add_right _ _

theorem daysOfYears_mono : Monotone daysOfYears :=
  monotone_nat_of_le_succ fun _ => Nat.le_add_right _ _

section Order

variable {year month day year' month' day' : Nat}

/-- A day of a month comes before the end of the month. -/
theorem IsDay.before_month_end (h : IsDay year month day) :
    daysElapsed year month day < daysOfYears year + daysOfMonths year month := by
  obtain ⟨months, rfl⟩ := Nat.exists_eq_add_one_of_ne_zero (Nat.ne_of_gt h.january)
  have hfirst := h.first
  have hlast := h.last
  rw [daysElapsed, daysOfMonths, Nat.add_sub_cancel]
  omega

theorem IsDay.before_year_end (h : IsDay year month day) :
    daysElapsed year month day < daysOfYears (year + 1) :=
  Nat.lt_of_lt_of_le h.before_month_end
    (Nat.add_le_add_left (daysOfMonths_mono year h.december) _)

/-- A year is over before the next one begins. -/
theorem IsDay.lt_of_year (h : IsDay year month day) (hyear : year < year') :
    daysElapsed year month day < daysElapsed year' month' day' := by
  have hyears : daysOfYears (year + 1) ≤ daysOfYears year' := daysOfYears_mono hyear
  have hend := h.before_year_end
  unfold daysElapsed at hend ⊢
  omega

theorem IsDay.lt_of_month (h : IsDay year month day) (hmonth : month < month') :
    daysElapsed year month day < daysElapsed year month' day' := by
  have hmonths : daysOfMonths year month ≤ daysOfMonths year (month' - 1) :=
    daysOfMonths_mono year (Nat.le_sub_one_of_lt hmonth)
  have hend := h.before_month_end
  unfold daysElapsed at hend ⊢
  omega

theorem IsDay.lt_of_day (h : IsDay year month day) (hday : day < day') :
    daysElapsed year month day < daysElapsed year month day' := by
  have hfirst := h.first
  unfold daysElapsed
  omega

/-- Days follow each other as their years do, within a year as their months do, and within a month as
their days do. -/
theorem compare_daysElapsed (h : IsDay year month day) (h' : IsDay year' month' day') :
    Ord.compare (daysElapsed year month day) (daysElapsed year' month' day') =
      (Ord.compare year year').then ((Ord.compare month month').then (Ord.compare day day')) := by
  rcases Nat.lt_trichotomy year year' with hyear | rfl | hyear
  · rw [Nat.compare_eq_lt.mpr (h.lt_of_year hyear), Nat.compare_eq_lt.mpr hyear, Ordering.lt_then]
  · rw [Nat.compare_eq_eq.mpr rfl, Ordering.eq_then]
    rcases Nat.lt_trichotomy month month' with hmonth | rfl | hmonth
    · rw [Nat.compare_eq_lt.mpr (h.lt_of_month hmonth), Nat.compare_eq_lt.mpr hmonth, Ordering.lt_then]
    · rw [Nat.compare_eq_eq.mpr rfl, Ordering.eq_then]
      rcases Nat.lt_trichotomy day day' with hday | rfl | hday
      · rw [Nat.compare_eq_lt.mpr (h.lt_of_day hday), Nat.compare_eq_lt.mpr hday]
      · rw [Nat.compare_eq_eq.mpr rfl, Nat.compare_eq_eq.mpr rfl]
      · rw [Nat.compare_eq_gt.mpr (h'.lt_of_day hday), Nat.compare_eq_gt.mpr hday]
    · rw [Nat.compare_eq_gt.mpr (h'.lt_of_month hmonth), Nat.compare_eq_gt.mpr hmonth, Ordering.gt_then]
  · rw [Nat.compare_eq_gt.mpr (h'.lt_of_year hyear), Nat.compare_eq_gt.mpr hyear, Ordering.gt_then]

/-- The days of the years that four digits write. -/
theorem IsDay.four_digits (h : IsDay year month day) (hyear : year < 10000) :
    -719528 ≤ daysSince1970 year month day ∧ daysSince1970 year month day < 2932897 := by
  have hend : daysElapsed year month day < daysOfYears 10000 :=
    Nat.lt_of_lt_of_le h.before_year_end (daysOfYears_mono hyear)
  have hlast : (daysOfYears 10000 : Int) = 3652425 := by
    rw [daysOfYears_eq]
    rfl
  rw [daysSince1970, daysElapsed_1970]
  omega

end Order

end Segments.Time
