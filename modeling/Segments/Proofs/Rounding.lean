import Mathlib.Algebra.Order.Field.Power
import Mathlib.Algebra.Order.Field.Rat
import Mathlib.Data.Nat.Cast.Order.Field
import Mathlib.Order.Monotone.Basic
import Mathlib.Tactic.FieldSimp
import Mathlib.Tactic.Linarith
import Mathlib.Tactic.Positivity
import Mathlib.Tactic.Ring
import Segments.Number.Double

namespace Segments.Double

def magnitude (p : Nat) : ℚ :=
  units p / 2 ^ 1074

def midpoint (p : Nat) : ℚ :=
  (magnitude p + magnitude (p + 1)) / 2

/-- Of all magnitudes the one at this place lies nearest to the ratio; of two equally near ones it is
at the even place. -/
structure Rounds (x : ℚ) (p : Nat) : Prop where
  low : p ≠ 0 → midpoint (p - 1) ≤ x
  high : x ≤ midpoint p
  even : p % 2 = 1 → midpoint (p - 1) < x ∧ x < midpoint p

theorem twoTo_pos (k : Nat) : 0 < twoTo k :=
  Nat.pow_pos (by decide)

theorem tenTo_pos (k : Nat) : 0 < tenTo k :=
  Nat.pow_pos (by decide)

theorem cast_twoTo (k : Nat) : ((twoTo k : Nat) : ℚ) = 2 ^ k := by
  change ((2 ^ k : Nat) : ℚ) = 2 ^ k
  push_cast
  rfl

theorem cast_tenTo (k : Nat) : ((tenTo k : Nat) : ℚ) = 10 ^ k := by
  change ((10 ^ k : Nat) : ℚ) = 10 ^ k
  push_cast
  rfl

theorem zpow_of_nonneg {b : ℚ} {k : Int} (hk : 0 ≤ k) : b ^ k = b ^ k.toNat := by
  conv_lhs => rw [← Int.toNat_of_nonneg hk]
  exact zpow_natCast b k.toNat

theorem zpow_of_neg {b : ℚ} {k : Int} (hk : ¬ 0 ≤ k) : b ^ k = (b ^ (-k).toNat)⁻¹ := by
  have hneg : (-k).toNat = -k := Int.toNat_of_nonneg (by omega)
  rw [← zpow_natCast, hneg, zpow_neg, inv_inv]

/-- A place is a binade and a mantissa, which starts a new binade only where there is one below. -/
theorem exists_binade (p : Nat) :
    ∃ e m, p = e * binade + m ∧ (e = 0 ∨ binade ≤ m) ∧ m < 2 * binade := by
  unfold binade
  by_cases h : p < 0x10000000000000
  · exact ⟨0, p, by omega, .inl rfl, by omega⟩
  · exact ⟨p / 0x10000000000000 - 1, 0x10000000000000 + p % 0x10000000000000, by omega,
      .inr (by omega), by omega⟩

/-- The mantissa may run on to the first place of the next binade. -/
theorem magnitude_binade {e m : Nat} (hm : e = 0 ∨ binade ≤ m) (htop : m ≤ 2 * binade) :
    magnitude (e * binade + m) = m * 2 ^ ((e : Int) - 1074) := by
  have hunits : units (e * binade + m) = m * twoTo e := by
    unfold units
    by_cases hlow : e * binade + m < binade
    · have he : e = 0 := by
        unfold binade at hlow
        omega
      subst he
      have hsmall : (0 * binade + m) = m := by omega
      rw [hsmall] at hlow ⊢
      rw [mantissa, exponent, if_pos hlow, if_pos hlow]
      rfl
    · rw [mantissa, exponent, if_neg hlow, if_neg hlow]
      by_cases hnext : m = 2 * binade
      · subst hnext
        have hdiv : (e * binade + 2 * binade) / binade = e + 2 := by
          unfold binade
          omega
        have hmod : (e * binade + 2 * binade) % binade = 0 := by
          unfold binade
          omega
        have hexp : (((e + 2 : Nat) : Int) - 1075 + 1074).toNat = e + 1 := by omega
        rw [hdiv, hmod, hexp]
        change (binade + 0) * 2 ^ (e + 1) = 2 * binade * 2 ^ e
        ring
      · have hm' : binade ≤ m := by
          rcases hm with rfl | hm
          · omega
          · exact hm
        have hdiv : (e * binade + m) / binade = e + 1 := by
          unfold binade at *
          omega
        have hmod : binade + (e * binade + m) % binade = m := by
          unfold binade at *
          omega
        have hexp : (((e + 1 : Nat) : Int) - 1075 + 1074).toNat = e := by omega
        rw [hdiv, hmod, hexp]
  rw [magnitude, hunits, Nat.cast_mul, cast_twoTo, zpow_sub₀ (by norm_num), zpow_natCast, mul_div_assoc]
  rfl

theorem magnitude_lt_succ (p : Nat) : magnitude p < magnitude (p + 1) := by
  obtain ⟨e, m, rfl, hm, htop⟩ := exists_binade p
  have hstep : (0 : ℚ) < 2 ^ ((e : Int) - 1074) := by positivity
  have hsucc : magnitude (e * binade + (m + 1)) = (m + 1 : Nat) * 2 ^ ((e : Int) - 1074) :=
    magnitude_binade (hm.imp_right Nat.le_succ_of_le) htop
  rw [add_assoc, hsucc, magnitude_binade hm htop.le]
  push_cast
  linarith

theorem magnitude_strictMono : StrictMono magnitude :=
  strictMono_nat_of_lt_succ magnitude_lt_succ

theorem magnitude_zero : magnitude 0 = 0 := by
  have h : units 0 = 0 := Nat.zero_mul _
  rw [magnitude, h]
  simp

theorem lt_midpoint (p : Nat) : magnitude p < midpoint p := by
  have h := magnitude_lt_succ p
  unfold midpoint
  linarith

theorem midpoint_lt (p : Nat) : midpoint p < magnitude (p + 1) := by
  have h := magnitude_lt_succ p
  unfold midpoint
  linarith

theorem midpoint_strictMono : StrictMono midpoint :=
  strictMono_nat_of_lt_succ fun p => (midpoint_lt p).trans (lt_midpoint (p + 1))

/-- Within a binade the magnitudes stand at equal distances. -/
theorem midpoint_binade {e m : Nat} (hm : e = 0 ∨ binade ≤ m) (htop : m < 2 * binade) :
    midpoint (e * binade + m) = (m + 1 / 2) * 2 ^ ((e : Int) - 1074) := by
  have hsucc : magnitude (e * binade + (m + 1)) = (m + 1 : Nat) * 2 ^ ((e : Int) - 1074) :=
    magnitude_binade (hm.imp_right Nat.le_succ_of_le) htop
  rw [midpoint, add_assoc, hsucc, magnitude_binade hm htop.le]
  push_cast
  ring

/-- Except at its first place the place below is in the same binade. -/
theorem midpoint_below {e m : Nat} (hm : e = 0 ∨ binade < m) (hpos : 1 ≤ m) (htop : m ≤ 2 * binade) :
    midpoint (e * binade + m - 1) = (m - 1 / 2) * 2 ^ ((e : Int) - 1074) := by
  have hsub : e * binade + m - 1 = e * binade + (m - 1) := by omega
  have hcast : ((m - 1 : Nat) : ℚ) + 1 / 2 = m - 1 / 2 := by
    rw [Nat.cast_sub hpos]
    push_cast
    ring
  rw [hsub, midpoint_binade (hm.imp_right fun h => by omega) (by omega), hcast]

/-- Strictly between the midpoints there is no question of even and odd. -/
theorem rounds_of_between {x : ℚ} {p : Nat} (hlow : p ≠ 0 → midpoint (p - 1) < x)
    (hhigh : x < midpoint p) : Rounds x p :=
  ⟨fun hp => (hlow hp).le, hhigh.le, fun hodd => ⟨hlow (by rintro rfl; cases hodd), hhigh⟩⟩

/-- A magnitude is nearest to itself. -/
theorem rounds_magnitude (p : Nat) : Rounds (magnitude p) p := by
  refine rounds_of_between (fun hp => ?_) (lt_midpoint p)
  have h := midpoint_lt (p - 1)
  rwa [Nat.sub_add_cancel (Nat.pos_of_ne_zero hp)] at h

/-- What is no less lies nearest to no lower a place. -/
theorem Rounds.mono {x y : ℚ} {p q : Nat} (hp : Rounds x p) (hq : Rounds y q) (h : x ≤ y) :
    p ≤ q := by
  -- otherwise the midpoints between the places leave room for both ratios only if they meet in them,
  -- and then one of the two places is odd
  by_contra hlt
  have hlow := hp.low (by omega)
  have hmeet : midpoint q = midpoint (p - 1) :=
    le_antisymm (midpoint_strictMono.monotone (by omega)) (hlow.trans (h.trans hq.high))
  have hnext : q = p - 1 := midpoint_strictMono.injective hmeet
  rcases Nat.mod_two_eq_zero_or_one q with heven | hodd
  · have hstrict := (hp.even (by omega)).1
    exact absurd (hstrict.trans_le (h.trans hq.high)) (by rw [hmeet]; exact lt_irrefl _)
  · have hstrict := (hq.even hodd).2
    exact absurd ((hlow.trans h).trans_lt hstrict) (by rw [hmeet]; exact lt_irrefl _)

/-- One place is nearest. -/
theorem Rounds.unique {x : ℚ} {p q : Nat} (hp : Rounds x p) (hq : Rounds x q) : p = q :=
  le_antisymm (hp.mono hq le_rfl) (hq.mono hp le_rfl)

/-- The quotient is off by one half at most, and an odd one by less. -/
theorem roundHalfEven_spec (num : Nat) {den : Nat} (hden : 0 < den) :
    ((roundHalfEven num den : ℚ) - 1 / 2 ≤ num / den ∧ (num / den : ℚ) ≤ roundHalfEven num den + 1 / 2) ∧
      (roundHalfEven num den % 2 = 1 →
        (roundHalfEven num den : ℚ) - 1 / 2 < num / den ∧
          (num / den : ℚ) < roundHalfEven num den + 1 / 2) := by
  have hsplit : den * (num / den) + num % den = num := Nat.div_add_mod num den
  have hrest : num % den < den := Nat.mod_lt num hden
  have hpos : (0 : ℚ) < den := by exact_mod_cast hden
  have hnum : (num : ℚ) = den * (num / den : Nat) + (num % den : Nat) := by exact_mod_cast hsplit.symm
  have hratio : (num / den : ℚ) = (num / den : Nat) + (num % den : Nat) / den := by
    rw [hnum]
    field_simp
  unfold roundHalfEven
  generalize num / den = q at *
  generalize num % den = r at *
  have hr : (r : ℚ) / den < 1 := (div_lt_one hpos).mpr (by exact_mod_cast hrest)
  have hr' : 0 ≤ (r : ℚ) / den := by positivity
  simp only
  split
  · next hless =>
    have hhalf : (r : ℚ) / den < 1 / 2 := by
      rw [div_lt_div_iff₀ hpos (by norm_num)]
      exact_mod_cast (by omega : r * 2 < 1 * den)
    rw [hratio]
    exact ⟨⟨by linarith, by linarith⟩, fun _ => ⟨by linarith, by linarith⟩⟩
  · split
    · next hmore =>
      have hhalf : 1 / 2 < (r : ℚ) / den := by
        rw [div_lt_div_iff₀ (by norm_num) hpos]
        exact_mod_cast (by omega : 1 * den < r * 2)
      rw [hratio]
      push_cast
      exact ⟨⟨by linarith, by linarith⟩, fun _ => ⟨by linarith, by linarith⟩⟩
    · have hhalf : (r : ℚ) / den = 1 / 2 := by
        rw [div_eq_div_iff hpos.ne' (by norm_num)]
        exact_mod_cast (by omega : r * 2 = 1 * den)
      rw [hratio, hhalf]
      push_cast
      rcases Nat.mod_two_eq_zero_or_one q with heven | hodd
      · rw [heven]
        push_cast
        exact ⟨⟨by linarith, by linarith⟩, fun hodd => by omega⟩
      · rw [hodd]
        push_cast
        exact ⟨⟨by linarith, by linarith⟩, fun hodd => by omega⟩

theorem log2Ratio_spec {num den : Nat} (hnum : 0 < num) (hden : 0 < den) :
    (2 : ℚ) ^ log2Ratio num den ≤ num / den ∧ (num / den : ℚ) < 2 ^ (log2Ratio num den + 1) := by
  have hpos : (0 : ℚ) < den := by exact_mod_cast hden
  have hlow : ∀ {n : Nat}, 0 < n → (2 : ℚ) ^ (Nat.log2 n : Int) ≤ n := by
    intro n hn
    rw [zpow_natCast]
    exact_mod_cast Nat.log2_self_le hn.ne'
  have hhigh : ∀ n : Nat, (n : ℚ) < 2 ^ ((Nat.log2 n : Int) + 1) := by
    intro n
    have h : n < 2 ^ (Nat.log2 n + 1) := Nat.lt_log2_self
    have hcast : ((Nat.log2 n : Int) + 1) = ((Nat.log2 n + 1 : Nat) : Int) := by push_cast; rfl
    rw [hcast, zpow_natCast]
    exact_mod_cast h
  have htwo : (2 : ℚ) ≠ 0 := by norm_num
  generalize hk : (Nat.log2 num : Int) - Nat.log2 den = k
  have hreached : (if 0 ≤ k then den * twoTo k.toNat ≤ num else den ≤ num * twoTo (-k).toNat) ↔
      (2 : ℚ) ^ k ≤ num / den := by
    rw [le_div_iff₀ hpos]
    split
    · next h =>
      rw [zpow_of_nonneg h, ← cast_twoTo, mul_comm]
      exact_mod_cast Iff.rfl
    · next h =>
      rw [zpow_of_neg h, ← cast_twoTo, inv_mul_le_iff₀ (by rw [cast_twoTo]; positivity), mul_comm]
      exact_mod_cast Iff.rfl
  have hbelow : (2 : ℚ) ^ (k - 1) ≤ num / den := by
    rw [le_div_iff₀ hpos]
    calc (2 : ℚ) ^ (k - 1) * den ≤ 2 ^ (k - 1) * 2 ^ ((Nat.log2 den : Int) + 1) := by
          exact mul_le_mul_of_nonneg_left (hhigh den).le (by positivity)
      _ = 2 ^ (Nat.log2 num : Int) := by rw [← zpow_add₀ htwo]; congr 1; omega
      _ ≤ num := hlow hnum
  have habove : (num / den : ℚ) < 2 ^ (k + 1) := by
    rw [div_lt_iff₀ hpos]
    calc (num : ℚ) < 2 ^ ((Nat.log2 num : Int) + 1) := hhigh num
      _ = 2 ^ (k + 1) * 2 ^ (Nat.log2 den : Int) := by rw [← zpow_add₀ htwo]; congr 1; omega
      _ ≤ 2 ^ (k + 1) * den := mul_le_mul_of_nonneg_left (hlow hden) (by positivity)
  unfold log2Ratio
  simp only [hk]
  by_cases h : (2 : ℚ) ^ k ≤ num / den
  · rw [if_pos (hreached.mpr h)]
    exact ⟨h, habove⟩
  · rw [if_neg fun hle => h (hreached.mp hle), Int.sub_add_cancel]
    exact ⟨hbelow, not_le.mp h⟩

/-- The place that is given is the one that lies nearest. -/
theorem rounds_nearest (num : Nat) {den : Nat} (hden : 0 < den) :
    Rounds (num / den : ℚ) (nearest num den) := by
  by_cases hnum : num = 0
  · have hzero := rounds_magnitude 0
    rw [magnitude_zero] at hzero
    simpa [nearest, hnum] using hzero
  have hpos : (0 : ℚ) < den := by exact_mod_cast hden
  obtain ⟨hlow, hhigh⟩ := log2Ratio_spec (Nat.pos_of_ne_zero hnum) hden
  rw [nearest, if_neg hnum]
  generalize hq : max (-1074) (log2Ratio num den - 52) = q
  -- the mantissa is the ratio in units of the last place, rounded
  obtain ⟨m, hm, hhalf, hodd⟩ : ∃ m,
      (if 0 ≤ q then roundHalfEven num (den * twoTo q.toNat)
        else roundHalfEven (num * twoTo (-q).toNat) den) = m ∧
      ((m - 1 / 2) * 2 ^ q ≤ (num / den : ℚ) ∧ (num / den : ℚ) ≤ (m + 1 / 2) * 2 ^ q) ∧
      (m % 2 = 1 → (m - 1 / 2) * 2 ^ q < (num / den : ℚ) ∧ (num / den : ℚ) < (m + 1 / 2) * 2 ^ q) := by
    have hunit : (0 : ℚ) < 2 ^ q := by positivity
    refine ⟨_, rfl, ?_⟩
    simp only [← le_div_iff₀ hunit, ← div_le_iff₀ hunit, ← lt_div_iff₀ hunit, ← div_lt_iff₀ hunit]
    split
    · next h =>
      have hratio : (num / den : ℚ) / 2 ^ q = num / (den * twoTo q.toNat : Nat) := by
        rw [Nat.cast_mul, cast_twoTo, zpow_of_nonneg h, div_div]
      rw [hratio]
      exact roundHalfEven_spec num (Nat.mul_pos hden (twoTo_pos _))
    · next h =>
      have hratio : (num / den : ℚ) / 2 ^ q = (num * twoTo (-q).toNat : Nat) / den := by
        rw [Nat.cast_mul, cast_twoTo, zpow_of_neg h]
        field_simp
      rw [hratio]
      exact roundHalfEven_spec _ hden
  simp only [hm]
  obtain ⟨e, he, hexp⟩ : ∃ e : Nat, (q + 1074).toNat = e ∧ (e : Int) - 1074 = q :=
    ⟨_, rfl, by omega⟩
  rw [he]
  have hunit : (0 : ℚ) < 2 ^ q := by positivity
  have htop : (num / den : ℚ) < (2 * binade : Nat) * 2 ^ q := by
    refine hhigh.trans_le ?_
    have hcast : ((2 * binade : Nat) : ℚ) = 2 ^ (53 : Int) := by norm_num [binade]
    rw [hcast, ← zpow_add₀ (by norm_num)]
    exact zpow_le_zpow_right₀ (by norm_num) (by omega)
  have hfirst : e ≠ 0 → (binade : ℚ) * 2 ^ q ≤ num / den := by
    intro hne
    have hcast : (binade : ℚ) = 2 ^ (52 : Int) := by norm_num [binade]
    rw [hcast, ← zpow_add₀ (by norm_num)]
    refine le_of_eq_of_le ?_ hlow
    congr 1
    omega
  have hmost : m ≤ 2 * binade := by
    have h := hhalf.1.trans_lt htop
    rw [mul_lt_mul_iff_left₀ hunit] at h
    have h' : (m : ℚ) < (2 * binade + 1 : Nat) := by push_cast at h ⊢; linarith
    exact Nat.lt_succ_iff.mp (by exact_mod_cast h')
  have hleast : e = 0 ∨ binade ≤ m := by
    by_cases hne : e = 0
    · exact .inl hne
    · have h := (hfirst hne).trans hhalf.2
      rw [mul_le_mul_iff_left₀ hunit] at h
      have h' : (binade : ℚ) < (m + 1 : Nat) := by push_cast; linarith
      exact .inr (Nat.lt_succ_iff.mp (by exact_mod_cast h'))
  have hplace := magnitude_binade hleast hmost
  have hparity : (e * binade + m) % 2 = m % 2 := by
    unfold binade
    omega
  have habove : (num / den : ℚ) ≤ midpoint (e * binade + m) ∧
      (m % 2 = 1 → (num / den : ℚ) < midpoint (e * binade + m)) := by
    by_cases hlast : m = 2 * binade
    · have h : (num / den : ℚ) < midpoint (e * binade + m) := by
        refine lt_trans ?_ (lt_midpoint _)
        rw [hplace, hexp, hlast]
        exact htop
      exact ⟨h.le, fun _ => h⟩
    · rw [midpoint_binade hleast (lt_of_le_of_ne hmost hlast), hexp]
      exact ⟨hhalf.2, fun h => (hodd h).2⟩
  have hbelow : e * binade + m ≠ 0 → midpoint (e * binade + m - 1) ≤ num / den ∧
      (m % 2 = 1 → midpoint (e * binade + m - 1) < num / den) := by
    intro hne
    by_cases hstart : e = 0 ∨ binade < m
    · have hpositive : 1 ≤ m := by
        rcases hstart with rfl | h
        · omega
        · exact Nat.one_le_of_lt h
      rw [midpoint_below hstart hpositive hmost, hexp]
      exact ⟨hhalf.1, fun h => (hodd h).1⟩
    · have hm' : m = binade := by omega
      have h := midpoint_lt (e * binade + m - 1)
      rw [Nat.sub_add_cancel (Nat.pos_of_ne_zero hne), hplace, hexp, hm'] at h
      rw [hm']
      have hless := h.trans_le (hfirst fun he => hstart (.inl he))
      exact ⟨hless.le, fun _ => hless⟩
  refine ⟨fun hne => (hbelow hne).1, habove.1, fun h => ?_⟩
  rw [hparity] at h
  exact ⟨(hbelow (by rintro h0; omega)).2 h, habove.2 h⟩

theorem exists_rounds (num den : Nat) (hden : 0 < den) : ∃ p, Rounds (num / den : ℚ) p :=
  ⟨_, rounds_nearest num hden⟩

/-- There is one place that a ratio rounds to, and it is the one that is computed. -/
theorem nearest_eq {num den p : Nat} (hden : 0 < den) (h : Rounds (num / den : ℚ) p) :
    nearest num den = p :=
  (rounds_nearest num hden).unique h

theorem magnitude_infinity : magnitude infinity = 2 ^ (1024 : Int) := by
  have hplace : infinity = 2046 * binade + binade := by decide
  have hcast : (binade : ℚ) = 2 ^ (52 : Int) := by norm_num [binade]
  rw [hplace, magnitude_binade (.inr le_rfl) (by omega), hcast, ← zpow_add₀ (by norm_num)]
  rfl

/-- What rounds to a finite place lies below the magnitude of infinity. -/
theorem Rounds.lt_infinity {x : ℚ} {p : Nat} (h : Rounds x p) (hp : p < infinity) :
    x < 2 ^ (1024 : Int) := by
  rw [← magnitude_infinity]
  exact h.high.trans_lt ((midpoint_lt p).trans_le (magnitude_strictMono.monotone hp))

/-- The number that a decimal is read as lies nearest to it. The cases in which the large power is
spared make no difference. -/
theorem ofDecimal_eq {negative : Bool} {digits p : Nat} {scale : Int}
    (h : Rounds (digits * 10 ^ scale) p) : ofDecimal negative digits scale = ofPlace negative p := by
  have hzero : Rounds (digits * 10 ^ scale) 0 → p = 0 := fun h0 => h.unique h0
  unfold ofDecimal
  simp only
  split
  · next hdigits =>
    have h0 := rounds_magnitude 0
    rw [magnitude_zero] at h0
    rw [hzero (by rw [hdigits]; simpa using h0)]
  next hdigits =>
  have hone : (1 : ℚ) ≤ digits := by exact_mod_cast Nat.one_le_iff_ne_zero.mpr hdigits
  split
  · next hscale =>
    have hlarge : ¬ p < infinity := by
      intro hp
      have hlt := h.lt_infinity hp
      have hpow : (10 : ℚ) ^ (1000 : Int) ≤ 10 ^ scale := zpow_le_zpow_right₀ (by norm_num) (by omega)
      have hbound : (2 : ℚ) ^ (1024 : Int) ≤ 10 ^ (1000 : Int) := by
        calc (2 : ℚ) ^ (1024 : Int) ≤ 2 ^ (2 * 1000 : Int) :=
              zpow_le_zpow_right₀ (by norm_num) (by norm_num)
          _ = (2 ^ (2 : Int)) ^ (1000 : Int) := zpow_mul 2 2 1000
          _ ≤ 10 ^ (1000 : Int) := zpow_le_zpow_left₀ (by norm_num) (by norm_num) (by norm_num)
      have hscaled : (10 : ℚ) ^ scale ≤ digits * 10 ^ scale := le_mul_of_one_le_left (by positivity) hone
      exact absurd hlt (not_lt.mpr (hbound.trans (hpow.trans hscaled)))
    have hclamp : clamp p = clamp infinity := Fin.ext (by simp only [clamp]; omega)
    rw [ofPlace, ofPlace, hclamp]
  split
  · next htop =>
    have hsmall : (digits * 10 ^ scale : ℚ) < midpoint 0 := by
      have hmid : midpoint 0 = 2 ^ (-1075 : Int) := by
        have h := midpoint_binade (e := 0) (m := 0) (.inl rfl) (by decide)
        have hhalf : (2 : ℚ) ^ (-1075 : Int) = 1 / 2 * 2 ^ (-1074 : Int) := by
          rw [show (-1075 : Int) = -1 + -1074 from rfl, zpow_add₀ (by norm_num), zpow_neg_one, one_div]
        simpa [hhalf] using h
      have hdigits' : (digits : ℚ) < 2 ^ ((Nat.log2 digits : Int) + 1) := by
        have hlog : digits < 2 ^ (Nat.log2 digits + 1) := Nat.lt_log2_self
        have hcast : ((Nat.log2 digits : Int) + 1) = ((Nat.log2 digits + 1 : Nat) : Int) := by
          push_cast
          rfl
        rw [hcast, zpow_natCast]
        exact_mod_cast hlog
      have hpow : (10 : ℚ) ^ scale ≤ 2 ^ scale := by
        have hneg : ¬ 0 ≤ scale := by omega
        rw [zpow_of_neg hneg, zpow_of_neg hneg]
        exact inv_anti₀ (by positivity) (pow_le_pow_left₀ (by norm_num) (by norm_num) _)
      calc (digits * 10 ^ scale : ℚ) ≤ digits * 2 ^ scale :=
            mul_le_mul_of_nonneg_left hpow (by positivity)
        _ < 2 ^ ((Nat.log2 digits : Int) + 1) * 2 ^ scale :=
            mul_lt_mul_of_pos_right hdigits' (by positivity)
        _ = 2 ^ ((Nat.log2 digits : Int) + 1 + scale) := (zpow_add₀ (by norm_num) _ _).symm
        _ ≤ 2 ^ (-1075 : Int) := zpow_le_zpow_right₀ (by norm_num) (by omega)
        _ = midpoint 0 := hmid.symm
    rw [hzero (rounds_of_between (fun h0 => absurd rfl h0) hsmall)]
  split
  · next hscale =>
    rw [ofRatio, nearest_eq (p := p) Nat.one_pos]
    rw [zpow_of_nonneg hscale, ← cast_tenTo] at h
    simpa using h
  · next hscale =>
    rw [ofRatio, nearest_eq (p := p) (tenTo_pos _)]
    rw [zpow_of_neg hscale, ← cast_tenTo, ← div_eq_mul_inv] at h
    exact h

theorem exists_rounds_decimal (digits : Nat) (scale : Int) :
    ∃ p, Rounds (digits * 10 ^ scale) p := by
  by_cases hscale : 0 ≤ scale
  · have h := exists_rounds (digits * tenTo scale.toNat) 1 Nat.one_pos
    rwa [Nat.cast_mul, cast_tenTo, ← zpow_of_nonneg hscale, Nat.cast_one, div_one] at h
  · have h := exists_rounds digits (tenTo (-scale).toNat) (tenTo_pos _)
    rwa [cast_tenTo, div_eq_mul_inv, ← zpow_of_neg hscale] at h

end Segments.Double
