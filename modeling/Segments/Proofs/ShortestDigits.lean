import Segments.Number.Shortest
import Segments.Proofs.Rounding

namespace Segments.Double

def Decimal.value (d : Decimal) : ℚ :=
  d.digits * 10 ^ d.scale

/-- A magnitude compared with a power of ten, in whole numbers. -/
theorem tenPower_le_iff (k : Int) (p : Nat) :
    (if 0 ≤ k then decide (tenTo k.toNat * twoTo 1074 ≤ units p)
      else decide (twoTo 1074 ≤ units p * tenTo (-k).toNat)) = true ↔ (10 : ℚ) ^ k ≤ magnitude p := by
  have hcast : ((twoTo 1074 : Nat) : ℚ) = 2 ^ 1074 := cast_twoTo 1074
  have htwo : (0 : ℚ) < 2 ^ 1074 := by positivity
  rw [magnitude, le_div_iff₀ htwo, ← hcast]
  generalize twoTo 1074 = unit
  by_cases hk : 0 ≤ k
  · rw [if_pos hk, decide_eq_true_eq, zpow_of_nonneg hk, ← cast_tenTo]
    exact_mod_cast Iff.rfl
  · have hten : (0 : ℚ) < tenTo (-k).toNat := by rw [cast_tenTo]; positivity
    rw [if_neg hk, decide_eq_true_eq, zpow_of_neg hk, ← cast_tenTo, inv_mul_le_iff₀ hten, mul_comm]
    exact_mod_cast Iff.rfl

theorem compareHalves_eq (d : Nat) (scale : Int) (n : Nat) :
    compareHalves d scale n = compare (d * 10 ^ scale : ℚ) (n / 2 ^ 1075) := by
  have hscaled : ∀ {a b : Nat} {x y c : ℚ}, 0 < c → (a : ℚ) = x * c → (b : ℚ) = y * c →
      compare a b = compare x y := by
    intro a b x y c hc ha hb
    have hlt : a < b ↔ x < y := by
      rw [← Nat.cast_lt (α := ℚ), ha, hb, mul_lt_mul_iff_left₀ hc]
    have heq : a = b ↔ x = y := by
      rw [← Nat.cast_inj (R := ℚ), ha, hb, mul_left_inj' hc.ne']
    rcases lt_trichotomy a b with h | h | h
    · rw [compare_lt_iff_lt.mpr h, compare_lt_iff_lt.mpr (hlt.mp h)]
    · rw [compare_eq_iff_eq.mpr h, compare_eq_iff_eq.mpr (heq.mp h)]
    · have hgt : y < x := by
        rw [← Nat.cast_lt (α := ℚ), ha, hb, mul_lt_mul_iff_left₀ hc] at h
        exact h
      rw [compare_gt_iff_gt.mpr h, compare_gt_iff_gt.mpr hgt]
  have hcast : ((twoTo 1075 : Nat) : ℚ) = 2 ^ 1075 := cast_twoTo 1075
  have htwo : (0 : ℚ) < 2 ^ 1075 := by positivity
  rw [← hcast] at htwo ⊢
  unfold compareHalves
  generalize twoTo 1075 = unit at htwo
  by_cases hscale : 0 ≤ scale
  · rw [if_pos hscale]
    refine hscaled htwo ?_ (div_mul_cancel₀ _ htwo.ne').symm
    rw [Nat.cast_mul, Nat.cast_mul, cast_tenTo, zpow_of_nonneg hscale]
  · rw [if_neg hscale]
    have hten : (0 : ℚ) < 10 ^ (-scale).toNat := by positivity
    refine hscaled (mul_pos htwo hten) ?_ ?_
    · rw [Nat.cast_mul, zpow_of_neg hscale]
      field_simp
    · rw [Nat.cast_mul, cast_tenTo, ← mul_assoc, div_mul_cancel₀ _ htwo.ne']

theorem midpoint_eq (p : Nat) : midpoint p = (units p + units (p + 1) : Nat) / 2 ^ 1075 := by
  rw [midpoint, magnitude, magnitude, Nat.cast_add, pow_succ (2 : ℚ) 1074]
  generalize (2 : ℚ) ^ 1074 = unit
  rw [← add_div, div_div]

/-- The two comparisons with the midpoints are made exactly, in whole numbers. -/
theorem readsBack_iff {p : Nat} (hp : p ≠ 0) (d : Nat) (scale : Int) :
    readsBack p d scale = true ↔ Rounds (d * 10 ^ scale) p := by
  have hlow : ((units (p - 1) + units p : Nat) : ℚ) / 2 ^ 1075 = midpoint (p - 1) := by
    rw [midpoint_eq, Nat.sub_add_cancel (Nat.pos_of_ne_zero hp)]
  unfold readsBack
  simp only [compareHalves_eq, hlow, ← midpoint_eq, beq_iff_eq]
  split
  · next heven =>
    rw [Bool.and_eq_true, bne_iff_ne, bne_iff_ne, compare_ge_iff_ge, compare_le_iff_le]
    constructor
    · rintro ⟨h, h'⟩
      exact ⟨fun _ => h, h', fun hodd => by omega⟩
    · intro h
      exact ⟨h.low hp, h.high⟩
  · next hodd =>
    rw [Bool.and_eq_true, beq_iff_eq, beq_iff_eq, compare_gt_iff_gt, compare_lt_iff_lt]
    constructor
    · rintro ⟨h, h'⟩
      exact rounds_of_between (fun _ => h) h'
    · intro h
      exact h.even (by omega)

/-- The magnitude lies between two neighbours on the grid, or on the lower one. -/
theorem onGrid_spec (p : Nat) (scale : Int) :
    ((onGrid p scale).1 * 10 ^ scale : ℚ) ≤ magnitude p ∧
      magnitude p < (((onGrid p scale).1 + 1 : Nat) * 10 ^ scale : ℚ) ∧
      ((onGrid p scale).2.2 = true ↔ ((onGrid p scale).1 * 10 ^ scale : ℚ) = magnitude p) := by
  obtain ⟨num, den, hden, hratio, hgrid⟩ : ∃ num den : Nat, 0 < den ∧
      magnitude p = num / den * 10 ^ scale ∧
      onGrid p scale = (num / den, compare (2 * (num % den)) den, num % den == 0) := by
    have hcast : ((twoTo 1074 : Nat) : ℚ) = 2 ^ 1074 := cast_twoTo 1074
    have htwo : 0 < twoTo 1074 := twoTo_pos 1074
    rw [magnitude, ← hcast]
    unfold onGrid
    generalize twoTo 1074 = unit at htwo
    have hunit : (0 : ℚ) < unit := by exact_mod_cast htwo
    by_cases hscale : 0 ≤ scale
    · refine ⟨units p, tenTo scale.toNat * unit, Nat.mul_pos (tenTo_pos _) htwo, ?_, ?_⟩
      · rw [Nat.cast_mul, cast_tenTo, zpow_of_nonneg hscale]
        field_simp
      · simp only [if_pos hscale]
    · refine ⟨units p * tenTo (-scale).toNat, unit, htwo, ?_, ?_⟩
      · rw [Nat.cast_mul, cast_tenTo, zpow_of_neg hscale]
        field_simp
      · simp only [if_neg hscale]
  have hpos : (0 : ℚ) < den := by exact_mod_cast hden
  have hunit : (0 : ℚ) < 10 ^ scale := by positivity
  rw [hgrid, hratio]
  simp only [mul_le_mul_iff_left₀ hunit, mul_lt_mul_iff_left₀ hunit, mul_left_inj' hunit.ne', beq_iff_eq]
  rw [le_div_iff₀ hpos, div_lt_iff₀ hpos, eq_div_iff hpos.ne']
  have hsplit := Nat.div_add_mod num den
  have hrest := Nat.mod_lt num hden
  refine ⟨?_, ?_, ?_⟩
  · exact_mod_cast Nat.div_mul_le_self num den
  · exact_mod_cast Nat.lt_mul_of_div_lt (Nat.lt_succ_self _) hden
  · rw [Nat.mul_comm] at hsplit
    constructor
    · intro h
      exact_mod_cast (by omega : num / den * den = num)
    · intro h
      have h' : num / den * den = num := by exact_mod_cast h
      omega

/-- What is taken on a grid reads back. -/
theorem rounds_of_onGrid? {tie : Tie} {p d : Nat} {scale : Int} (hp : p ≠ 0)
    (h : onGrid? tie p scale = some d) : Rounds (d * 10 ^ scale) p := by
  obtain ⟨-, -, hexact⟩ := onGrid_spec p scale
  unfold onGrid? at h
  generalize onGrid p scale = found at h hexact
  obtain ⟨lower, half, exact⟩ := found
  simp only at h hexact
  split at h
  · next heq =>
    cases h
    rw [hexact.mp heq]
    exact rounds_magnitude p
  split at h
  · next hboth =>
    rw [Bool.and_eq_true, readsBack_iff hp, readsBack_iff hp] at hboth
    have hcase : d = lower ∨ d = lower + 1 := by
      split at h
      all_goals
        cases h
        omega
    rcases hcase with rfl | rfl
    · exact hboth.1
    · exact hboth.2
  split at h
  · next hlower =>
    cases h
    exact (readsBack_iff hp _ _).mp hlower
  split at h
  · next hupper =>
    cases h
    exact (readsBack_iff hp _ _).mp hupper
  · cases h

theorem readsBack_of_onGrid?_none {tie : Tie} {p : Nat} {scale : Int} (h : onGrid? tie p scale = none) :
    readsBack p (onGrid p scale).1 scale = false ∧ readsBack p ((onGrid p scale).1 + 1) scale = false := by
  unfold onGrid? at h
  generalize onGrid p scale = found at h
  obtain ⟨lower, half, exact⟩ := found
  simp only at h ⊢
  split at h
  · cases h
  split at h
  · split at h <;> cases h
  split at h
  · cases h
  · next hlower =>
    split at h
    · cases h
    · next hupper => exact ⟨eq_false_of_ne_true hlower, eq_false_of_ne_true hupper⟩

/-- On a grid of seventeen digits one of the two neighbours of a magnitude reads back. -/
theorem onGrid?_isSome (tie : Tie) {p : Nat} {scale : Int} (hp : p ≠ 0)
    (hfine : (10 : ℚ) ^ scale * 10 ^ 16 ≤ magnitude p) : ∃ d, onGrid? tie p scale = some d := by
  obtain ⟨hlow, hhigh, hexact⟩ := onGrid_spec p scale
  have hroom : (10 : ℚ) ^ scale < midpoint p - midpoint (p - 1) := by
    obtain ⟨e, m, rfl, hm, htop⟩ := exists_binade p
    have hunit : (0 : ℚ) < 2 ^ ((e : Int) - 1074) := by positivity
    rw [magnitude_binade hm htop.le] at hfine
    by_cases hstart : e = 0 ∨ binade < m
    · have hpos : 1 ≤ m := by
        rcases hstart with rfl | h
        · omega
        · exact Nat.one_le_of_lt h
      have hmost : (m : ℚ) < 2 ^ 53 := by
        exact_mod_cast htop.trans_le (by decide)
      have hvalue := mul_lt_mul_of_pos_right hmost hunit
      rw [midpoint_binade hm htop, midpoint_below hstart hpos htop.le]
      linarith
    · -- at the first place of a binade the room above it will do
      have hm' : m = binade := by omega
      have hcast : (m : ℚ) = 2 ^ 52 := by
        rw [hm']
        norm_num [binade]
      have hbelow := midpoint_lt (e * binade + m - 1)
      rw [Nat.sub_add_cancel (Nat.pos_of_ne_zero hp), magnitude_binade hm htop.le] at hbelow
      rw [midpoint_binade hm htop, hcast]
      rw [hcast] at hfine hbelow
      linarith
  have hneighbour : Rounds ((onGrid p scale).1 * 10 ^ scale) p ∨
      Rounds (((onGrid p scale).1 + 1 : Nat) * 10 ^ scale) p := by
    by_cases hnear : midpoint (p - 1) < (onGrid p scale).1 * 10 ^ scale
    · exact .inl (rounds_of_between (fun _ => hnear) (hlow.trans_lt (lt_midpoint p)))
    · refine .inr (rounds_of_between (fun _ => ?_) ?_)
      · have hbelow := midpoint_lt (p - 1)
        rw [Nat.sub_add_cancel (Nat.pos_of_ne_zero hp)] at hbelow
        exact hbelow.trans hhigh
      · push_cast
        linarith
  cases hfound : onGrid? tie p scale with
  | some d => exact ⟨d, rfl⟩
  | none =>
    obtain ⟨hlower, hupper⟩ := readsBack_of_onGrid?_none hfound
    rcases hneighbour with hrounds | hrounds
    · rw [(readsBack_iff hp _ _).mpr hrounds] at hlower
      cases hlower
    · rw [(readsBack_iff hp _ _).mpr hrounds] at hupper
      cases hupper

/-- The search stops at the first grid that has a decimal, and one of the grids that are left
has. -/
theorem rounds_shortestFrom {tie : Tie} {p left : Nat} {scale : Int} (hp : p ≠ 0)
    (h : ∃ i : Nat, i < left ∧ ∃ d, onGrid? tie p (scale - i) = some d) :
    Rounds (shortestFrom tie p left scale).value p := by
  induction left generalizing scale with
  | zero =>
    obtain ⟨i, hi, -⟩ := h
    cases hi
  | succ left ih =>
    unfold shortestFrom
    split
    · next d hd => exact rounds_of_onGrid? hp hd
    · next hnone =>
      obtain ⟨i, hi, d, hd⟩ := h
      cases i with
      | zero =>
        rw [Int.natCast_zero, Int.sub_zero, hnone] at hd
        cases hd
      | succ i =>
        refine ih ⟨i, Nat.lt_of_succ_lt_succ hi, d, ?_⟩
        rw [← hd]
        congr 1
        push_cast
        omega

/-- A power of ten is no larger than one of two if the exponents are in proportion. -/
theorem ten_zpow_le_two_zpow {i j : Int} (h : 0 ≤ j ∧ 103 * i ≤ 31 * j ∨ j < 0 ∧ 93 * i ≤ 28 * j) :
    (10 : ℚ) ^ i ≤ 2 ^ j := by
  have hten : (1 : ℚ) ≤ 10 := by norm_num
  rcases h with ⟨hj, hi⟩ | ⟨hj, hi⟩
  · refine (pow_le_pow_iff_left₀ (by positivity) (by positivity) (n := 103) (by decide)).mp ?_
    calc ((10 : ℚ) ^ i) ^ 103 = 10 ^ (103 * i) := by rw [← zpow_natCast, ← zpow_mul, mul_comm]; rfl
      _ ≤ 10 ^ (31 * j) := zpow_le_zpow_right₀ hten hi
      _ = ((10 : ℚ) ^ (31 : Int)) ^ j := zpow_mul 10 31 j
      _ ≤ ((2 : ℚ) ^ (103 : Int)) ^ j := zpow_le_zpow_left₀ hj (by positivity) (by norm_num)
      _ = (2 ^ j) ^ 103 := by rw [← zpow_natCast, ← zpow_mul, ← zpow_mul, mul_comm]; rfl
  · refine (pow_le_pow_iff_left₀ (by positivity) (by positivity) (n := 93) (by decide)).mp ?_
    have hinv : ((10 : ℚ) ^ (28 : Int)) ^ j ≤ ((2 : ℚ) ^ (93 : Int)) ^ j := by
      have hpow : ((2 : ℚ) ^ (93 : Int)) ^ (-j) ≤ ((10 : ℚ) ^ (28 : Int)) ^ (-j) :=
        zpow_le_zpow_left₀ (by omega) (by positivity) (by norm_num)
      rwa [zpow_neg, zpow_neg, inv_le_inv₀ (by positivity) (by positivity)] at hpow
    calc ((10 : ℚ) ^ i) ^ 93 = 10 ^ (93 * i) := by rw [← zpow_natCast, ← zpow_mul, mul_comm]; rfl
      _ ≤ 10 ^ (28 * j) := zpow_le_zpow_right₀ hten hi
      _ = ((10 : ℚ) ^ (28 : Int)) ^ j := zpow_mul 10 28 j
      _ ≤ ((2 : ℚ) ^ (93 : Int)) ^ j := hinv
      _ = (2 ^ j) ^ 93 := by rw [← zpow_natCast, ← zpow_mul, ← zpow_mul, mul_comm]; rfl

/-- The search starts at or above the leading digit. -/
theorem log10Place_le {p : Nat} (hp : p ≠ 0) (hfinite : p < infinity) :
    (10 : ℚ) ^ log10Place p ≤ magnitude p := by
  unfold log10Place
  simp only [tenPower_le_iff]
  split
  · next h => exact h
  split
  · next h => exact h
  · -- the guess is off by one at most, the binary exponents being few
    have hunits : 0 < units p := by
      have h := magnitude_strictMono (Nat.pos_of_ne_zero hp)
      rw [magnitude_zero, magnitude] at h
      have hpos : (0 : ℚ) < units p := by
        rwa [lt_div_iff₀ (by positivity), zero_mul] at h
      exact_mod_cast hpos
    have hlog : (2 : ℚ) ^ ((Nat.log2 (units p) : Int) - 1074) ≤ magnitude p := by
      rw [magnitude, le_div_iff₀ (by positivity), ← zpow_natCast (2 : ℚ) 1074,
        ← zpow_add₀ (by norm_num), Nat.cast_ofNat, Int.sub_add_cancel, zpow_natCast]
      exact_mod_cast Nat.log2_self_le hunits.ne'
    have htop : (Nat.log2 (units p) : Int) - 1074 < 1024 := by
      have h := (hlog.trans_lt (magnitude_strictMono hfinite)).trans_eq magnitude_infinity
      exact (zpow_lt_zpow_iff_right₀ (by norm_num)).mp h
    refine le_trans (ten_zpow_le_two_zpow ?_) hlog
    omega

theorem value_dropZeros (left d : Nat) (scale : Int) :
    (dropZeros left d scale).value = d * 10 ^ scale := by
  induction left generalizing d scale with
  | zero => rfl
  | succ left ih =>
    unfold dropZeros
    split
    · next h =>
      rw [Bool.and_eq_true, beq_iff_eq] at h
      have htenth : (d : ℚ) = (d / 10 : Nat) * 10 := by
        exact_mod_cast (by omega : d = d / 10 * 10)
      rw [ih, zpow_add₀ (by norm_num), zpow_one, htenth]
      ring_nf
    · rfl

/-- The decimal that is written for a place rounds to it. -/
theorem rounds_shortest (tie : Tie) {p : Nat} (hfinite : p < infinity) :
    Rounds (shortest tie p).value p := by
  unfold shortest
  split
  · next hp =>
    have h := rounds_magnitude 0
    rw [magnitude_zero] at h
    rw [hp]
    simpa [Decimal.value] using h
  · next hp =>
    simp only [value_dropZeros]
    refine rounds_shortestFrom hp ⟨16, by decide, onGrid?_isSome tie hp ?_⟩
    refine le_of_eq_of_le ?_ (log10Place_le hp hfinite)
    rw [← zpow_natCast, ← zpow_add₀ (by norm_num)]
    congr 1
    omega

end Segments.Double
