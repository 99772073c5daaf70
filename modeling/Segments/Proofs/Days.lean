import Mathlib.Tactic.ByContra
import Mathlib.Tactic.IntervalCases
import Segments.Time.Instant

namespace Segments.Time

def daysBeforeYear (year : Nat) : Nat :=
  365 * year + year / 4 - year / 100 + year / 400

def yearOfEra (day : Nat) : Nat :=
  (day - day / 1460 + day / 36524 - day / 146096) / 365

def daysBeforeMarch (year : Int) : Int :=
  year * 365 + year / 4 - year / 100 + year / 400

/-- The calendar is the same again after 400 years, which are 146097 days. -/
theorem daysBeforeMarch_era (year : Nat) (era : Int) :
    daysBeforeMarch (year + era * 400) = era * 146097 + daysBeforeYear year := by
  have hfour : (year + era * 400) / 4 = (year / 4 : Nat) + era * 100 := by omega
  have hcentury : (year + era * 400) / 100 = (year / 100 : Nat) + era * 4 := by omega
  have hera : (year + era * 400) / 400 = (year / 400 : Nat) + era := by omega
  unfold daysBeforeMarch
  rw [hfour, hcentury, hera]
  unfold daysBeforeYear
  omega

/-- A year has 365 days, and one more if it ends in a leap day. -/
theorem daysBeforeMarch_succ (year : Int) :
    daysBeforeMarch (year + 1) = daysBeforeMarch year + 365 +
      if isLeap (year + 1) then 1 else 0 := by
  have hleap : isLeap (year + 1) = true ↔
      (year + 1) % 4 = 0 ∧ ((year + 1) % 100 ≠ 0 ∨ (year + 1) % 400 = 0) := by
    simp only [isLeap, Bool.and_eq_true, Bool.or_eq_true, beq_iff_eq, bne_iff_ne]
  unfold daysBeforeMarch
  split
  · next htrue =>
    have hyear := hleap.mp htrue
    omega
  · next hfalse =>
    have hyear := mt hleap.mpr hfalse
    omega

/-- No year has fewer than 365 days. -/
theorem daysBeforeMarch_le {a b : Int} (h : a ≤ b) :
    daysBeforeMarch a + 365 * (b - a) ≤ daysBeforeMarch b := by
  have hfour : a / 4 ≤ b / 4 := by omega
  have hera : a / 400 ≤ b / 400 := by omega
  have ha : a / 100 = a / 4 / 25 := by omega
  have hb : b / 100 = b / 4 / 25 := by omega
  have hcentury : a / 4 - a / 4 / 25 ≤ b / 4 - b / 4 / 25 := by omega
  unfold daysBeforeMarch
  rw [ha, hb]
  omega

def monthOfYear (day : Nat) : Nat :=
  (5 * day + 2) / 153

theorem yearOfEra_mono {a b : Nat} (hab : a ≤ b) (hb : b < 146096) : yearOfEra a ≤ yearOfEra b := by
  unfold yearOfEra
  apply Nat.div_le_div_right
  omega

/-- On the first and on the last day of a year it is that year. -/
theorem yearOfEra_ends {year : Nat} (h : year < 400) :
    yearOfEra (daysBeforeYear year) = year ∧ yearOfEra (daysBeforeYear (year + 1) - 1) = year := by
  have hall : (List.range 400).all (fun year => yearOfEra (daysBeforeYear year) == year &&
      yearOfEra (daysBeforeYear (year + 1) - 1) == year) = true := by decide +kernel
  simpa using List.all_eq_true.mp hall year (List.mem_range.mpr h)

/-- The year that is found for a day has begun by then, and the next one has not. -/
theorem yearOfEra_spec {day : Nat} (h : day < 146097) : yearOfEra day < 400 ∧
    daysBeforeYear (yearOfEra day) ≤ day ∧ day < daysBeforeYear (yearOfEra day + 1) := by
  by_cases hlast : day = 146096
  · subst hlast
    decide
  have hday : day < 146096 := by omega
  have hyear : yearOfEra day < 400 :=
    Nat.lt_of_le_of_lt (yearOfEra_mono (Nat.le_of_lt_succ hday) (Nat.lt_succ_self _)) (by decide)
  refine ⟨hyear, ?_, ?_⟩
  · by_contra hbefore
    have hpos : yearOfEra day ≠ 0 := by
      intro hzero
      rw [hzero] at hbefore
      exact hbefore (Nat.zero_le _)
    obtain ⟨year, hsucc⟩ := Nat.exists_eq_add_one_of_ne_zero hpos
    rw [hsucc] at hbefore hyear
    have hle := yearOfEra_mono (a := day) (b := daysBeforeYear (year + 1) - 1) (by omega)
      (by unfold daysBeforeYear; omega)
    rw [(yearOfEra_ends (by omega)).2] at hle
    omega
  · by_contra hafter
    by_cases hend : yearOfEra day + 1 < 400
    · have hle := yearOfEra_mono (Nat.le_of_not_lt hafter) hday
      rw [(yearOfEra_ends hend).1] at hle
      omega
    · have hall : yearOfEra day + 1 = 400 := by omega
      rw [hall] at hafter
      exact hafter (Nat.lt_trans hday (by decide))

/-- A year that is counted from March ends with the February of the next, which may have a leap
day. -/
theorem daysBeforeYear_succ (year : Nat) (era : Int) :
    daysBeforeYear (year + 1) = daysBeforeYear year + 365 +
      if isLeap (year + era * 400 + 1) then 1 else 0 := by
  have hyear : year + era * 400 + 1 = (year + 1 : Nat) + era * 400 := by omega
  have hnext := daysBeforeMarch_succ (year + era * 400)
  rw [hyear, daysBeforeMarch_era, daysBeforeMarch_era] at hnext
  rw [hyear]
  split
  · next hleap =>
    rw [if_pos hleap] at hnext
    omega
  · next hleap =>
    rw [if_neg hleap] at hnext
    omega

def monthNumber (month : Nat) : Nat :=
  if month < 10 then month + 3 else month - 9

/-- A day of a year comes after the months before its own. Every month but the last of a year has as
many days as the calendar says. -/
theorem monthOfYear_spec {day : Nat} (h : day < 366) : monthOfYear day < 12 ∧
    (153 * monthOfYear day + 2) / 5 ≤ day ∧
      (monthOfYear day < 11 → ∀ year, day - (153 * monthOfYear day + 2) / 5 + 1 ≤
        daysInMonth year (monthNumber (monthOfYear day))) := by
  unfold monthOfYear
  refine ⟨by omega, by omega, ?_⟩
  intro hmonth year
  generalize hm : (5 * day + 2) / 153 = month at hmonth ⊢
  unfold daysInMonth monthNumber
  interval_cases month <;> simp <;> omega

theorem daysBeforeMonth_monthNumber {month : Nat} (h : month < 12) :
    daysBeforeMonth (monthNumber month) = (153 * month + 2) / 5 := by
  have hshift : (monthNumber month + 9) % 12 = month := by
    unfold monthNumber
    split <;> omega
  rw [daysBeforeMonth, hshift]

def dayOfYear (day : Nat) : Nat :=
  day - daysBeforeYear (yearOfEra day)

/-- Every place on the day line is a day of one era. -/
theorem exists_era (n : Int) :
    ∃ (era : Int) (day : Nat), day < 146097 ∧ n = era * 146097 + day - 719468 :=
  ⟨(n + 719468) / 146097, ((n + 719468) % 146097).toNat, by omega, by omega⟩

section Era

variable {day : Nat}

/-- The date of a day of an era. -/
theorem ofNumber_era (h : day < 146097) (era : Int) :
    Date.ofNumber (era * 146097 + day - 719468) =
      let month := monthNumber (monthOfYear (dayOfYear day))
      let year : Int := yearOfEra day + era * 400
      ⟨if month ≤ 2 then year + 1 else year, month,
        dayOfYear day - (153 * monthOfYear (dayOfYear day) + 2) / 5 + 1⟩ := by
  have hera : (era * 146097 + day - 719468 + 719468) / 146097 = era := by omega
  have hday : ((era * 146097 + day - 719468 + 719468) % 146097).toNat = day := by omega
  have hyear : dayOfYear day =
      day - (365 * yearOfEra day + yearOfEra day / 4 - yearOfEra day / 100) := by
    have hlt := (yearOfEra_spec h).1
    unfold dayOfYear daysBeforeYear
    omega
  unfold Date.ofNumber
  simp only [hera, hday, hyear]
  rfl

theorem dayOfYear_lt (h : day < 146097) (era : Int) :
    dayOfYear day < 365 + if isLeap (yearOfEra day + era * 400 + 1) then 1 else 0 := by
  obtain ⟨hyear, hlow, hhigh⟩ := yearOfEra_spec h
  rw [daysBeforeYear_succ _ era] at hhigh
  unfold dayOfYear
  omega

end Era

/-- The date that is found for a place is at that place. -/
theorem number_ofNumber (n : Int) : (Date.ofNumber n).number = n := by
  obtain ⟨era, day, hday, rfl⟩ := exists_era n
  obtain ⟨hyear, hlow, hhigh⟩ := yearOfEra_spec hday
  have hlength : dayOfYear day < 366 := by
    have hlt := dayOfYear_lt hday era
    split at hlt <;> omega
  obtain ⟨hmonth, hbefore, -⟩ := monthOfYear_spec hlength
  have hmarch : marchYear (Date.ofNumber (era * 146097 + day - 719468)) =
      yearOfEra day + era * 400 := by
    rw [ofNumber_era hday, marchYear]
    dsimp only
    split
    · omega
    · rfl
  have hdays : day = daysBeforeYear (yearOfEra day) + dayOfYear day := by
    unfold dayOfYear
    omega
  rw [Date.number, hmarch, ofNumber_era hday]
  dsimp only
  have hyears := daysBeforeMarch_era (yearOfEra day) era
  unfold daysBeforeMarch at hyears
  rw [daysBeforeMonth_monthNumber hmonth, hyears]
  omega

/-- It is a day of a month. -/
theorem day_ofNumber (n : Int) : let d := Date.ofNumber n
    1 ≤ d.month ∧ d.month ≤ 12 ∧ 1 ≤ d.day ∧ d.day ≤ daysInMonth d.year d.month := by
  obtain ⟨era, day, hday, rfl⟩ := exists_era n
  have hlt := dayOfYear_lt hday era
  have hlength : dayOfYear day < 366 := by split at hlt <;> omega
  obtain ⟨hmonth, hbefore, hothers⟩ := monthOfYear_spec hlength
  rw [ofNumber_era hday]
  dsimp only
  have hnumber : 1 ≤ monthNumber (monthOfYear (dayOfYear day)) ∧
      monthNumber (monthOfYear (dayOfYear day)) ≤ 12 := by
    unfold monthNumber
    split <;> omega
  refine ⟨hnumber.1, hnumber.2, Nat.le_add_left 1 _, ?_⟩
  by_cases hlast : monthOfYear (dayOfYear day) < 11
  · exact hothers hlast _
  · have hfebruary : monthOfYear (dayOfYear day) = 11 := by omega
    have hsecond : monthNumber 11 = 2 := rfl
    rw [hfebruary, hsecond, if_pos (Nat.le_refl 2)]
    have hdays : ∀ year, daysInMonth year 2 = if isLeap year then 29 else 28 := fun _ => rfl
    rw [hdays]
    by_cases hleap : isLeap (yearOfEra day + era * 400 + 1) = true
    · rw [if_pos hleap] at hlt ⊢
      omega
    · rw [if_neg hleap] at hlt ⊢
      omega

theorem daysInMonth_le (year : Int) (month : Nat) : daysInMonth year month ≤ 31 := by
  unfold daysInMonth
  split
  · split <;> decide
  · split <;> decide

theorem daysBeforeMonth_cases {month : Nat} (hleast : 1 ≤ month) (hmost : month ≤ 12) :
    month ≤ 2 ∧ 306 ≤ daysBeforeMonth month ∧ daysBeforeMonth month ≤ 337 ∨
      2 < month ∧ daysBeforeMonth month ≤ 275 := by
  unfold daysBeforeMonth
  omega

/-- The date of a place between the first day and the last that an instant can be on. -/
theorem valid_ofNumber {n : Int} (hfirst : (Date.mk firstYear 1 1).number ≤ n)
    (hlast : n ≤ (Date.mk lastYear 12 31).number) : (Date.ofNumber n).Valid := by
  have hd := day_ofNumber n
  have hn := number_ofNumber n
  generalize Date.ofNumber n = d at hd hn
  obtain ⟨hleast, hmost, hday, hlength⟩ := hd
  have hthirtyone := Nat.le_trans hlength (daysInMonth_le d.year d.month)
  have hnumber : d.number = daysBeforeMarch (marchYear d) + daysBeforeMonth d.month + d.day - 1 -
      719468 := rfl
  have hends : (Date.mk firstYear 1 1).number = daysBeforeMarch (-262144) + 306 - 719468 ∧
      (Date.mk lastYear 12 31).number = daysBeforeMarch 262142 + 305 - 719468 := by decide
  rw [hends.1, ← hn, hnumber] at hfirst
  rw [hends.2, ← hn, hnumber] at hlast
  have hmonth := daysBeforeMonth_cases hleast hmost
  unfold marchYear at hfirst hlast
  refine ⟨?_, ?_, hleast, hmost, hday, hlength⟩
  · unfold firstYear
    by_contra hyear
    have hearly := daysBeforeMarch_le (a := if d.month ≤ 2 then d.year - 1 else d.year)
      (b := -262144) (by split <;> omega)
    split at hfirst <;> split at hearly <;> omega
  · unfold lastYear
    by_contra hyear
    have hlate := daysBeforeMarch_le (a := 262142)
      (b := if d.month ≤ 2 then d.year - 1 else d.year) (by split <;> omega)
    split at hlast <;> split at hlate <;> omega

end Segments.Time
