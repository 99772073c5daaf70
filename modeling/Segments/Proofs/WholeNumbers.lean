import Segments.Proofs.DisplayedConditions
import Segments.Proofs.Oversize

namespace Segments

open Catalog

namespace Double

theorem rounds_nat (k : Nat) : Rounds (k : ℚ) (nearest k 1) := by
  simpa using rounds_nearest k Nat.one_pos

theorem nearest_mono {j k : Nat} (h : j ≤ k) : nearest j 1 ≤ nearest k 1 :=
  (rounds_nat j).mono (rounds_nat k) (by exact_mod_cast h)

/-- A whole number that the mantissa has room for is the magnitude at some place. -/
theorem exists_magnitude {k : Nat} (hk : 0 < k) (h : k ≤ 2 ^ 53) : ∃ p, magnitude p = k := by
  obtain ⟨shift, hshift, hlow, hhigh⟩ : ∃ shift ≤ 53, binade ≤ k * 2 ^ shift ∧
      k * 2 ^ shift ≤ 2 * binade := by
    have hlog := Nat.log2_self_le hk.ne'
    have hlog' : k < 2 ^ (Nat.log2 k + 1) := Nat.lt_log2_self
    have hbinade : binade = 2 ^ 52 := by decide
    by_cases hlast : k = 2 ^ 53
    · exact ⟨0, by omega, by omega, by omega⟩
    · have hless : Nat.log2 k < 53 := (Nat.pow_lt_pow_iff_right Nat.one_lt_two).mp (by omega)
      refine ⟨52 - Nat.log2 k, by omega, ?_, ?_⟩
      · calc binade = 2 ^ Nat.log2 k * 2 ^ (52 - Nat.log2 k) := by
              rw [← Nat.pow_add, hbinade]; congr 1; omega
          _ ≤ k * 2 ^ (52 - Nat.log2 k) := Nat.mul_le_mul_right _ hlog
      · calc k * 2 ^ (52 - Nat.log2 k) ≤ 2 ^ (Nat.log2 k + 1) * 2 ^ (52 - Nat.log2 k) :=
              Nat.mul_le_mul_right _ hlog'.le
          _ = 2 * binade := by rw [← Nat.pow_add, hbinade, ← Nat.pow_succ']; congr 1; omega
  refine ⟨(1074 - shift) * binade + k * 2 ^ shift, ?_⟩
  have hexponent : (((1074 - shift : Nat) : Int) - 1074) = -(shift : Int) := by omega
  rw [magnitude_binade (.inr hlow) hhigh, hexponent, zpow_neg, zpow_natCast]
  push_cast
  rw [mul_inv_cancel_right₀ (by positivity)]

theorem magnitude_nearest {k : Nat} (h : k ≤ 2 ^ 53) : magnitude (nearest k 1) = k := by
  rcases Nat.eq_zero_or_pos k with rfl | hk
  · exact magnitude_zero.trans Nat.cast_zero.symm
  · obtain ⟨p, hp⟩ := exists_magnitude hk h
    have hrounds := rounds_magnitude p
    rw [hp] at hrounds
    rw [(rounds_nat k).unique hrounds, hp]

/-- No other whole number shares the nearest number with one that the mantissa has room for. -/
theorem nearest_inj {j k : Nat} (h : k < 2 ^ 53) (heq : nearest j 1 = nearest k 1) : j = k := by
  have hk := magnitude_nearest h.le
  by_cases hj : j ≤ 2 ^ 53
  · have hj := magnitude_nearest hj
    rw [heq, hk] at hj
    exact_mod_cast hj.symm
  · have hmono : nearest (2 ^ 53) 1 ≤ nearest k 1 := heq ▸ nearest_mono (by omega)
    have hle := magnitude_strictMono.monotone hmono
    rw [hk, magnitude_nearest le_rfl] at hle
    have hle' : 2 ^ 53 ≤ k := by exact_mod_cast hle
    omega

theorem nearest_lt_infinity {k : Nat} (h : k ≤ 2 ^ 64) : nearest k 1 < infinity := by
  have hpower : magnitude (1086 * binade + binade) = (2 ^ 64 : Nat) := by
    have hcast : (binade : ℚ) = 2 ^ (52 : Int) := by norm_num [binade]
    rw [magnitude_binade (.inr le_rfl) (by omega), hcast, ← zpow_add₀ (by norm_num)]
    norm_num
  have hrounds := rounds_magnitude (1086 * binade + binade)
  rw [hpower] at hrounds
  have hle := (rounds_nat k).mono hrounds (by exact_mod_cast h)
  refine hle.trans_lt ?_
  decide

/-- The place of the nearest number to a whole one, with its sign. -/
def wholeKey (n : Int) : Int :=
  key (decide (n < 0)) (clamp (nearest n.natAbs 1)).val

theorem wholeKey_eq (n : Int) : wholeKey n =
    if n < 0 then -(min (nearest n.natAbs 1) infinity : Int)
    else min (nearest n.natAbs 1) infinity := by
  simp [wholeKey, key, clamp]

theorem wholeKey_mono {m n : Int} (h : m ≤ n) : wholeKey m ≤ wholeKey n := by
  rw [wholeKey_eq, wholeKey_eq]
  by_cases hm : m < 0
  · by_cases hn : n < 0
    · have hle : nearest n.natAbs 1 ≤ nearest m.natAbs 1 := nearest_mono (by omega)
      rw [if_pos hm, if_pos hn]
      omega
    · rw [if_pos hm, if_neg hn]
      omega
  · have hle : nearest m.natAbs 1 ≤ nearest n.natAbs 1 := nearest_mono (by omega)
    rw [if_neg hm, if_neg (by omega)]
    omega

theorem wholeKey_neg {n : Int} : wholeKey n < 0 ↔ n < 0 := by
  have hinfinity : 0 < infinity := by decide
  rw [wholeKey_eq]
  constructor
  · intro h
    by_contra hn
    rw [if_neg hn] at h
    omega
  · intro hn
    have hone : nearest 1 1 ≠ 0 := by
      intro h
      have hmagnitude : magnitude (nearest 1 1) = (1 : Nat) := magnitude_nearest (by decide)
      rw [h, magnitude_zero] at hmagnitude
      norm_num at hmagnitude
    have hle : nearest 1 1 ≤ nearest n.natAbs 1 := nearest_mono (by omega)
    rw [if_pos hn]
    omega

theorem ofInt_eq_iff {m n : Int} : ofInt m = ofInt n ↔ wholeKey m = wholeKey n := by
  unfold ofInt ofRatio ofPlace
  constructor
  · intro h
    obtain ⟨hsign, hplace⟩ := number.inj h
    rw [wholeKey, wholeKey, hsign, hplace]
  · intro h
    have hsign : decide (m < 0) = decide (n < 0) :=
      decide_eq_decide.mpr (by rw [← wholeKey_neg, h, wholeKey_neg])
    have hplace : clamp (nearest m.natAbs 1) = clamp (nearest n.natAbs 1) := by
      unfold wholeKey at h
      rw [hsign] at h
      refine Fin.ext ?_
      unfold key at h
      split at h <;> omega
    rw [hsign, hplace]

/-- Whole numbers that share the nearest number are equal to one that compares; others compare as
they are. -/
theorem compare?_ofInt (m n : Int) : (ofInt m).compare? (ofInt n) =
    some (if ofInt m = ofInt n then .eq else compare m n) := by
  have hkeys : (ofInt m).compare? (ofInt n) = some (compare (wholeKey m) (wholeKey n)) := rfl
  rw [hkeys]
  split
  · next h => rw [ofInt_eq_iff.mp h, compare_eq_iff_eq.mpr rfl]
  · next h =>
    have hne : wholeKey m ≠ wholeKey n := fun heq => h (ofInt_eq_iff.mpr heq)
    rcases lt_trichotomy m n with hlt | rfl | hgt
    · rw [compare_lt_iff_lt.mpr hlt, compare_lt_iff_lt.mpr ((wholeKey_mono hlt.le).lt_of_ne hne)]
    · exact absurd rfl h
    · rw [compare_gt_iff_gt.mpr hgt,
        compare_gt_iff_gt.mpr ((wholeKey_mono hgt.le).lt_of_ne hne.symm)]

/-- A whole number that the mantissa has room for is told from every other. -/
theorem eq_of_ofInt {m n : Int} (hsmall : m.natAbs < 2 ^ 53 ∨ n.natAbs < 2 ^ 53)
    (h : ofInt m = ofInt n) : m = n := by
  wlog hn : n.natAbs < 2 ^ 53 generalizing m n
  · exact (this hsmall.symm h.symm (hsmall.resolve_right hn)).symm
  have hfinite := nearest_lt_infinity (k := n.natAbs) (by omega)
  unfold ofInt ofRatio ofPlace at h
  obtain ⟨hsign, hplace⟩ := number.inj h
  have hnearest : nearest m.natAbs 1 = nearest n.natAbs 1 := by
    have hmin : min (nearest m.natAbs 1) infinity = min (nearest n.natAbs 1) infinity :=
      congrArg Fin.val hplace
    omega
  have habs := nearest_inj hn hnearest
  have hnegative := decide_eq_decide.mp hsign
  omega

end Double

namespace Literal

open Double Text

/-- A whole number of 64 bits that is written out is read as the nearest number. -/
theorem ofChars_whole {n : Int} (h : Word.isInt64 n = true) :
    ofChars (toString n).toList = .number (.ofInt n) := by
  have hbound : n.natAbs ≤ 2 ^ 64 := by
    obtain ⟨hlow, hhigh⟩ := Bool.and_eq_true_iff.mp h
    have hlow' := of_decide_eq_true hlow
    have hhigh' := of_decide_eq_true hhigh
    unfold Word.minInt64 at hlow'
    unfold Word.maxInt64 at hhigh'
    omega
  have hbody : Unsigned (Nat.toDigits 10 n.natAbs) n.natAbs 0 := by
    have hdigits := Unsigned.whole (digits_toDigits n.natAbs) Nat.toDigits_ne_nil
    rwa [decimalValue_toDigits] at hdigits
  have htext : Numeral (toString n).toList (decide (n < 0)) n.natAbs 0 := by
    rw [toList_toString_int]
    by_cases hn : n < 0
    · rw [if_pos hn, decide_eq_true hn]
      exact .mk .minus hbody
    · rw [if_neg hn, decide_eq_false hn]
      exact .mk .absent hbody
  refine ofChars_number (readFinite?_eq_some.mpr ⟨_, _, _, nearest n.natAbs 1, htext, ?_,
    nearest_lt_infinity hbound, rfl⟩)
  rw [zpow_zero, mul_one]
  exact rounds_nat n.natAbs

end Literal

def Operator.Relates (m n : Int) : Operator → Prop
  | .equal => m = n
  | .greater => m > n
  | .greaterOrEqual => m ≥ n
  | .less => m < n
  | .lessOrEqual => m ≤ n
  | .matching => False

def Catalog.Record.whole? (r : Record) : Field → Option Int
  | .id => some r.id
  | .stockQuantity => r.stockQuantity
  | _ => none

/-- A relation of whole numbers, of which those that share the nearest binary64 number are taken for
equal. -/
def Operator.RelatesNearly (op : Operator) (m n : Int) : Prop :=
  if Double.ofInt m = Double.ofInt n then op.Relates n n else op.Relates m n

namespace Condition

/-- A field and a literal compare as the numbers that are nearest to them. -/
theorem holds_whole {field : Field} (hfield : field.kind = .integer) {op : Operator}
    (hop : op ≠ .matching) (n : Int) (r : Record) :
    Holds ⟨field.name, op, .number (.ofInt n)⟩ r ↔
      ∃ m, r.whole? field = some m ∧ op.RelatesNearly m n := by
  have hof : ∀ m : Int, HoldsOf ⟨field.name, op, .number (.ofInt n)⟩ (.number (.ofInt m)) ↔
      op.RelatesNearly m n := by
    intro m
    have hcompare : FieldValue.compare? (.number (.ofInt m)) (.number (.ofInt n)) =
        some (if Double.ofInt m = Double.ofInt n then .eq else compare m n) :=
      Double.compare?_ofInt m n
    unfold Operator.RelatesNearly
    by_cases hshared : Double.ofInt m = Double.ofInt n
    · rw [if_pos hshared] at hcompare ⊢
      cases op <;> simp [HoldsOf, hcompare, Operator.Relates] at hop ⊢
    · rw [if_neg hshared] at hcompare ⊢
      cases op <;> simp [HoldsOf, hcompare, Operator.Relates, compare_lt_iff_lt,
        compare_gt_iff_gt] at hop ⊢
      all_goals omega
  have hget : ∀ v, v ∈ (r.get field).elements ↔
      ∃ m, r.whole? field = some m ∧ v = .number (.ofInt m) := by
    intro v
    cases field with
    | id => simp [Record.get, Record.whole?, FieldValue.elements]
    | stockQuantity =>
      cases hquantity : r.stockQuantity <;>
        simp [Record.get, Record.whole?, FieldValue.elements, hquantity]
    | _ => cases hfield
  unfold Holds
  simp only [Field.ofName?_name, Option.some.injEq, exists_eq_left', hget]
  constructor
  · rintro ⟨v, ⟨m, hm, rfl⟩, hv⟩
    exact ⟨m, hm, (hof m).mp hv⟩
  · rintro ⟨m, hm, hrel⟩
    exact ⟨_, ⟨m, hm, rfl⟩, (hof m).mpr hrel⟩

/-- The text of a condition on a field, with its value written out. -/
theorem parse_spaced (field : Field) (op : Operator) {s : String} (hs : Text.trim s.toList ≠ []) :
    parse (field.name ++ " " ++ op.token ++ " " ++ s) =
      .ok ⟨field.name, op, .ofChars s.toList⟩ := by
  have hname : field.name ≠ "" ∧ ∀ c ∈ field.name.toList, isWordChar c = true := by
    cases field <;> exact ⟨by decide, List.all_eq_true.mp (by decide)⟩
  have hdisplay := ofChars_display (c := ⟨field.name, op, .text s⟩) hname.1 hname.2
  exact hdisplay.trans (if_neg hs)

theorem parse_whole (field : Field) (op : Operator) {n : Int} (hn : Word.isInt64 n = true) :
    parse (field.name ++ " " ++ op.token ++ " " ++ toString n) =
      .ok ⟨field.name, op, .number (.ofInt n)⟩ := by
  have hnumber := Literal.ofChars_whole hn
  have hblank : Text.trim (toString n).toList ≠ [] := by
    intro hnil
    have hempty : Literal.ofWord (Literal.unquote []) = .text "" := by decide
    rw [Literal.ofChars, hnil, hempty] at hnumber
    cases hnumber
  rw [← hnumber]
  exact parse_spaced field op hblank

end Condition

namespace Segment

open Operator

/-- A condition on a whole number keeps the records whose number stands in the relation to it, where
numbers that share the nearest binary64 number are taken for equal. Up to the fifty-third power of
two, on either side, that is the relation of whole numbers. -/
theorem evaluate_whole (s : Store) {field : Field} (hfield : field.kind = .integer) {op : Operator}
    (hop : op ≠ .matching) {n : Int} (hn : Word.isInt64 n = true) :
    (∃ rs, evaluate .open_ s (some [field.name ++ " " ++ op.token ++ " " ++ toString n]) = .ok rs ∧
      ∀ r, r ∈ rs ↔ r ∈ s.records ∧ ∃ m, r.whole? field = some m ∧ op.RelatesNearly m n) ∧
        ∀ m : Int, m.natAbs < 2 ^ 53 ∨ n.natAbs < 2 ^ 53 →
          (op.RelatesNearly m n ↔ op.Relates m n) := by
  classical
  have hparse := Condition.parse_whole field op hn
  have hsearchable : ∀ t ∈ [field.name ++ " " ++ op.token ++ " " ++ toString n], Searchable t := by
    rintro t ht c hc
    rw [List.mem_singleton.mp ht, hparse] at hc
    cases hc
    rcases Matcher.ofFilter_toFilter ⟨field.name, op, .number (.ofInt n)⟩ with ⟨hm, -⟩ | ⟨-, hop', -⟩
    · exact hm
    · exact absurd hop' hop
  refine ⟨⟨_, evaluate_eq_ok.mpr ⟨rfl, hsearchable, rfl⟩, fun r => ?_⟩, fun m hsmall => ?_⟩
  · rw [List.mem_filter, decide_eq_true_iff, ← Condition.holds_whole hfield hop]
    refine and_congr_right fun _ => ?_
    simp only [List.forall_mem_singleton, Passes, hparse, Except.ok.injEq, forall_eq']
  · unfold RelatesNearly
    split
    · next hshared => rw [Double.eq_of_ofInt hsmall hshared]
    · exact Iff.rfl

/-- Of the records on the shelf those of which there are twelve or more. -/
theorem evaluate_whole_shelf : ∃ rs, evaluate .open_ shelf (some ["stock_quantity >= 12"]) = .ok rs ∧
    ∀ r, r ∈ rs ↔ r ∈ shelf.records ∧ ∃ m, r.stockQuantity = some m ∧ m ≥ 12 := by
  obtain ⟨⟨rs, hrs, hmem⟩, hrelates⟩ :=
    @evaluate_whole shelf .stockQuantity rfl .greaterOrEqual (by decide) 12 (by decide)
  refine ⟨rs, hrs, fun r => (hmem r).trans ?_⟩
  simp only [hrelates _ (.inr (by decide))]
  rfl

/-- Its number is the first that is not itself a binary64 number. -/
def crates : Record :=
  ⟨9007199254740993, "Crates", .ofInt 9, "instock", none, "Storage", [], false, ⟨0, 0⟩⟩

/-- Beyond the fifty-third power of two a record is found by a number that is not its own. -/
theorem evaluate_whole_crates :
    evaluate .open_ (.ofRecords [crates]) (some ["id = 9007199254740992"]) = .ok [crates] ∧
      crates.id ≠ 9007199254740992 :=
  ⟨by rfl, by decide⟩

end Segment

end Segments
