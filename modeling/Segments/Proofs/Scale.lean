import Segments.Proofs.ByteOrder
import Segments.Proofs.Conjunction
import Segments.Proofs.Rounding

namespace Segments

open Catalog Text Time

namespace Double

def value? : Double → Option ℚ
  | .nan => none
  | .number negative p => some (if negative then -magnitude p else magnitude p)

def valueAt (k : Int) : ℚ :=
  if k < 0 then -magnitude k.natAbs else magnitude k.natAbs

theorem valueAt_lt_valueAt {k l : Int} (h : k < l) : valueAt k < valueAt l := by
  have hk : magnitude 0 ≤ magnitude k.natAbs := magnitude_strictMono.monotone (Nat.zero_le _)
  have hl : magnitude 0 ≤ magnitude l.natAbs := magnitude_strictMono.monotone (Nat.zero_le _)
  unfold valueAt
  by_cases hneg : l < 0
  · have hmagnitude : magnitude l.natAbs < magnitude k.natAbs := magnitude_strictMono (by omega)
    rw [if_pos hneg, if_pos (h.trans hneg)]
    linarith
  · rw [if_neg hneg]
    by_cases hlow : k < 0
    · have hmagnitude : magnitude 0 < magnitude k.natAbs := magnitude_strictMono (by omega)
      rw [if_pos hlow]
      linarith [magnitude_zero]
    · rw [if_neg hlow]
      exact magnitude_strictMono (by omega)

theorem value?_number (negative : Bool) (p : Fin (infinity + 1)) :
    value? (.number negative p) = some (valueAt (key negative p)) := by
  cases negative with
  | false => simp [value?, valueAt, key]
  | true =>
    by_cases h : p.val = 0
    · simp [value?, valueAt, key, h, magnitude_zero]
    · have hp : p ≠ 0 := fun heq => h (congrArg Fin.val heq)
      simp [value?, valueAt, key, hp]

theorem exists_value? {x : Double} (h : x ≠ .nan) : ∃ a, x.value? = some a := by
  cases x with
  | nan => exact absurd rfl h
  | number => exact ⟨_, rfl⟩

end Double

inductive Point
  | number (value : ℚ)
  | text (value : String)
  | boolean (value : Bool)
  | moment (value : Instant)

namespace Point

inductive Less : Point → Point → Prop
  | number {x y : ℚ} : x < y → Less (.number x) (.number y)
  | text {s t : String} : compareBytes (encode s.toList) (encode t.toList) = .lt →
      Less (.text s) (.text t)
  | boolean : Less (.boolean false) (.boolean true)
  | second {i j : Instant} : i.seconds < j.seconds → Less (.moment i) (.moment j)
  | fraction {i j : Instant} : i.seconds = j.seconds → i.nanos < j.nanos →
      Less (.moment i) (.moment j)

def Tells : Ordering → Point → Point → Prop
  | .lt, p, q => Less p q
  | .eq, p, q => p = q
  | .gt, p, q => Less q p

theorem Less.irrefl (p : Point) : ¬ Less p p := by
  intro h
  cases h with
  | number h => exact lt_irrefl _ h
  | text h =>
    rw [compareBytes_self] at h
    cases h
  | second h => exact lt_irrefl _ h
  | fraction _ h => exact lt_irrefl _ h

theorem Less.trans {p q r : Point} (h : Less p q) (h' : Less q r) : Less p r := by
  cases h with
  | number h =>
    cases h' with
    | number h' => exact .number (h.trans h')
  | text h =>
    cases h' with
    | text h' =>
      rw [compareBytes_encode] at h h'
      exact .text (by rw [compareBytes_encode]; exact compareText_trans h h')
  | boolean => cases h'
  | second h =>
    cases h' with
    | second h' => exact .second (h.trans h')
    | fraction heq _ => exact .second (heq ▸ h)
  | fraction heq h =>
    cases h' with
    | second h' => exact .second (heq ▸ h')
    | fraction heq' h' => exact .fraction (heq.trans heq') (h.trans h')

theorem Less.asymm {p q : Point} (h : Less p q) : ¬ Less q p :=
  fun h' => irrefl p (h.trans h')

/-- No two outcomes say the same. -/
theorem Tells.unique {p q : Point} {o o' : Ordering} (h : Tells o p q) (h' : Tells o' p q) :
    o = o' := by
  have hne : ∀ {p q : Point}, Less p q → p ≠ q := fun hless heq => Less.irrefl _ (heq ▸ hless)
  cases o with
  | lt =>
    cases o' with
    | lt => rfl
    | eq => exact absurd h' (hne h)
    | gt => exact absurd h' h.asymm
  | eq =>
    cases o' with
    | lt => exact absurd h (hne h')
    | eq => rfl
    | gt => exact absurd h.symm (hne h')
  | gt =>
    cases o' with
    | lt => exact absurd h' h.asymm
    | eq => exact absurd h'.symm (hne h)
    | gt => rfl

end Point

namespace Catalog

/-- A value that a field of a kind has, of a list one of its texts. -/
def FieldValue.IsOf : Kind → FieldValue → Prop
  | .integer, v | .decimal, v => ∃ x, v = .number x
  | .text, v | .textList, v => ∃ s, v = .text s
  | .boolean, v => ∃ b, v = .boolean b
  | .timestamp, v => ∃ i, v = .timestamp i

def FieldValue.point? : FieldValue → Option Point
  | .number x => x.value?.map .number
  | .text s => some (.text s)
  | .boolean b => some (.boolean b)
  | .timestamp i => some (.moment i)
  | .textList _ | .absent => none

def Record.points (r : Record) (f : Field) : List Point :=
  (r.get f).elements.filterMap FieldValue.point?

theorem Record.isOf_of_mem {r : Record} {f : Field} {v : FieldValue}
    (h : v ∈ (r.get f).elements) : v.IsOf f.kind := by
  cases f with
  | tags =>
    obtain ⟨s, -, rfl⟩ := List.mem_map.mp h
    exact ⟨s, rfl⟩
  | stockQuantity =>
    cases hquantity : r.stockQuantity with
    | none => simp [Record.get, hquantity, FieldValue.elements] at h
    | some n =>
      simp only [Record.get, hquantity, FieldValue.elements, List.mem_singleton] at h
      exact ⟨_, h⟩
  | _ => exact ⟨_, List.mem_singleton.mp h⟩

theorem Record.elements_single (r : Record) {f : Field} (hf : f.kind ≠ .textList) :
    r.get f = .absent ∨ (r.get f).elements = [r.get f] := by
  cases f with
  | tags => exact absurd rfl hf
  | stockQuantity =>
    cases hquantity : r.stockQuantity <;> simp [Record.get, hquantity, FieldValue.elements]
  | _ => exact .inr rfl

/-- A field that is no list has one point at most. -/
theorem Record.points_single {r : Record} {f : Field} (hf : f.kind ≠ .textList) {p q : Point}
    (hp : p ∈ r.points f) (hq : q ∈ r.points f) : p = q := by
  obtain ⟨v, hv, hvp⟩ := List.mem_filterMap.mp hp
  obtain ⟨w, hw, hwq⟩ := List.mem_filterMap.mp hq
  rcases r.elements_single hf with habsent | hsingle
  · rw [habsent] at hv
    cases hv
  · rw [hsingle, List.mem_singleton] at hv hw
    rw [hv, ← hw, hwq] at hvp
    exact (Option.some.inj hvp).symm

/-- It has one if it has a value, provided that the price is a number. -/
theorem Record.exists_point {r : Record} (hprice : r.price ≠ .nan) {f : Field}
    (hf : f.kind ≠ .textList) (hpresent : r.get f ≠ .absent) : ∃ p, p ∈ r.points f := by
  have hpoint : ∃ p, (r.get f).point? = some p := by
    have hnumber : ∀ {x : Double}, x ≠ .nan → ∃ p, (FieldValue.number x).point? = some p := by
      intro x hx
      obtain ⟨a, ha⟩ := Double.exists_value? hx
      exact ⟨.number a, by rw [FieldValue.point?, ha]; rfl⟩
    cases f with
    | id => exact hnumber (Double.ofInt_ne_nan _)
    | price => exact hnumber hprice
    | tags => exact absurd rfl hf
    | stockQuantity =>
      cases hquantity : r.stockQuantity with
      | none => exact absurd (by simp [Record.get, hquantity]) hpresent
      | some n =>
        simp only [Record.get, hquantity]
        exact hnumber (Double.ofInt_ne_nan n)
    | _ => exact ⟨_, rfl⟩
  obtain ⟨p, hp⟩ := hpoint
  rcases r.elements_single hf with habsent | hsingle
  · exact absurd habsent hpresent
  · exact ⟨p, List.mem_filterMap.mpr ⟨r.get f, by rw [hsingle]; exact List.mem_singleton_self _, hp⟩⟩

end Catalog

namespace Literal

/-- The point of a literal for fields of a kind. A literal that they are not compared with has none. -/
def point? : Kind → Literal → Option Point
  | .integer, .number x | .decimal, .number x => x.value?.map .number
  | .text, .text s | .textList, .text s => some (.text s)
  | .boolean, .boolean b => some (.boolean b)
  | .timestamp, .text s => (Instant.read? s).map .moment
  | _, _ => none

/-- A literal that fields of a kind are compared with: one of the kind's type, and for moments a text
that is read as one. -/
def Compatible : Kind → Literal → Prop
  | .integer, .number _ | .decimal, .number _ => True
  | .text, .text _ | .textList, .text _ => True
  | .boolean, .boolean _ => True
  | .timestamp, .text s => ∃ i, Instant.read? s = some i
  | _, _ => False

/-- In the order of a kind the first of two literals is the second one or comes before it. -/
def AtMost (k : Kind) (v w : Literal) : Prop :=
  ∃ p q, v.point? k = some p ∧ w.point? k = some q ∧ (Point.Less p q ∨ p = q)

/-- Of numbers only not-a-number has no point. -/
theorem compatible_iff {k : Kind} {v : Literal} (hv : v ≠ .number .nan) :
    v.Compatible k ↔ ∃ p, v.point? k = some p := by
  cases v with
  | number x =>
    cases x with
    | nan => exact absurd rfl hv
    | number => cases k <;> simp [Compatible, point?, Double.value?]
  | text s => cases k <;> simp [Compatible, point?]
  | boolean b => cases k <;> simp [Compatible, point?]

end Literal

namespace Point

theorem tells_compareNumber {x y : Double} {a b : ℚ} (hx : x.value? = some a)
    (hy : y.value? = some b) : ∃ o, x.compare? y = some o ∧ Tells o (.number a) (.number b) := by
  cases x with
  | nan => cases hx
  | number negative m =>
    cases y with
    | nan => cases hy
    | number negative' n =>
      rw [Double.value?_number] at hx hy
      cases hx
      cases hy
      refine ⟨_, rfl, ?_⟩
      rcases lt_trichotomy (Double.key negative m) (Double.key negative' n) with h | h | h
      · rw [compare_lt_iff_lt.mpr h]
        exact .number (Double.valueAt_lt_valueAt h)
      · rw [compare_eq_iff_eq.mpr h]
        exact congrArg (number ∘ Double.valueAt) h
      · rw [compare_gt_iff_gt.mpr h]
        exact .number (Double.valueAt_lt_valueAt h)

theorem tells_compareBoolean (a b : Bool) :
    Tells (compare a.toNat b.toNat) (.boolean a) (.boolean b) := by
  cases a with
  | false =>
    cases b with
    | false => exact rfl
    | true => exact .boolean
  | true =>
    cases b with
    | false => exact .boolean
    | true => exact rfl

theorem tells_compareText (s t : String) :
    Tells (compareText s.toList t.toList) (.text s) (.text t) := by
  cases h : compareText s.toList t.toList with
  | lt => exact .text (by rw [compareBytes_encode, h])
  | eq => exact congrArg text (String.toList_inj.mp (compareText_eq h))
  | gt => exact .text (by rw [compareBytes_encode, compareText_swap, h]; rfl)

theorem tells_compareInstant (i j : Instant) : Tells (i.compare j) (.moment i) (.moment j) := by
  unfold Instant.compare
  rcases lt_trichotomy i.seconds j.seconds with h | h | h
  · rw [compare_lt_iff_lt.mpr h]
    exact .second h
  · rw [compare_eq_iff_eq.mpr h]
    rcases lt_trichotomy i.nanos j.nanos with h' | h' | h'
    · rw [compare_lt_iff_lt.mpr h']
      exact .fraction h h'
    · rw [compare_eq_iff_eq.mpr h']
      cases i
      cases j
      exact congrArg moment (by simp_all)
    · rw [compare_gt_iff_gt.mpr h']
      exact .fraction h.symm h'
  · rw [compare_gt_iff_gt.mpr h]
    exact .second h

end Point

namespace Catalog.FieldValue

open Point

variable {k : Kind} {v : FieldValue} {w : Literal}

/-- Where both have a point, comparing gives the outcome that tells how these stand. -/
theorem compare?_points {p q : Point} (hv : v.IsOf k) (hp : v.point? = some p)
    (hq : w.point? k = some q) : ∃ o, v.compare? w = some o ∧ Tells o p q := by
  cases k with
  | integer | decimal =>
    obtain ⟨x, rfl⟩ := hv
    obtain ⟨a, ha, rfl⟩ := Option.map_eq_some_iff.mp hp
    cases w with
    | number y =>
      obtain ⟨b, hb, rfl⟩ := Option.map_eq_some_iff.mp hq
      exact tells_compareNumber ha hb
    | _ => cases hq
  | text | textList =>
    obtain ⟨s, rfl⟩ := hv
    cases hp
    cases w with
    | text t =>
      cases hq
      exact ⟨_, rfl, tells_compareText s t⟩
    | _ => cases hq
  | boolean =>
    obtain ⟨a, rfl⟩ := hv
    cases hp
    cases w with
    | boolean b =>
      cases hq
      exact ⟨_, rfl, tells_compareBoolean a b⟩
    | _ => cases hq
  | timestamp =>
    obtain ⟨i, rfl⟩ := hv
    cases hp
    cases w with
    | text t =>
      obtain ⟨j, hj, rfl⟩ := Option.map_eq_some_iff.mp hq
      refine ⟨i.compare j, ?_, tells_compareInstant i j⟩
      rw [compare?, hj]
      rfl
    | _ => cases hq

/-- Values without points do not compare, whatever else they are. -/
theorem compare?_no_point (hv : v.IsOf k) (h : v.point? = none ∨ w.point? k = none) :
    v.compare? w = none := by
  cases k with
  | integer | decimal =>
    obtain ⟨x, rfl⟩ := hv
    cases w with
    | number y =>
      cases x with
      | nan => rfl
      | number negative a =>
        cases y with
        | nan => rfl
        | number => rcases h with h | h <;> cases h
    | _ => rfl
  | text | textList =>
    obtain ⟨s, rfl⟩ := hv
    cases w with
    | text t => rcases h with h | h <;> cases h
    | _ => rfl
  | boolean =>
    obtain ⟨a, rfl⟩ := hv
    cases w with
    | boolean b => rcases h with h | h <;> cases h
    | _ => rfl
  | timestamp =>
    obtain ⟨i, rfl⟩ := hv
    cases w with
    | text t =>
      rcases h with h | h
      · cases h
      · rw [compare?, Option.map_eq_none_iff.mp h]
        rfl
    | _ => rfl

end Catalog.FieldValue

end Segments
