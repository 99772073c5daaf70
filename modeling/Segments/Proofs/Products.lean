import Segments.Storefront.Product

namespace Segments

open Catalog Json

theorem Word.isInt64_iff {n : Int} :
    isInt64 n = true ↔ -9223372036854775808 ≤ n ∧ n ≤ 9223372036854775807 := by
  unfold isInt64 minInt64 maxInt64
  rw [Bool.and_eq_true, decide_eq_true_eq, decide_eq_true_eq]

theorem Json.Decode.optional_eq_some {α : Type} {decode : Decoder α} {v : Json} {a : α}
    (h : optional decode v = .ok (some a)) : decode v = .ok a := by
  unfold optional at h
  split at h
  · cases h
  · cases hv : decode v with
    | error e =>
      rw [hv] at h
      cases h
    | ok b =>
      rw [hv] at h
      cases h
      rfl

theorem Json.Decode.int64_eq_ok {v : Json} {n : Int} (h : int64 v = .ok n) :
    ∃ number, v = .number number ∧ number.toInt64? = some n := by
  unfold int64 whole at h
  split at h
  · rename_i k
    split at h
    · rename_i hmost
      cases h
      refine ⟨.natural k, rfl, Option.filter_eq_some_iff.mpr ⟨rfl, Word.isInt64_iff.mpr ?_⟩⟩
      unfold Word.maxInt64 at hmost
      omega
    · cases h
  · rename_i k
    split at h
    · rename_i hleast
      cases h
      refine ⟨.negative k, rfl, Option.filter_eq_some_iff.mpr ⟨rfl, Word.isInt64_iff.mpr ?_⟩⟩
      unfold Word.minInt64 at hleast
      omega
    · cases h
  · cases h

/-- The first member is read from what the object has under its name. -/
theorem Json.Shape.decode_first {α : Type} {αs : List Type} {m : Member α} {rest : Shape αs}
    {name : String} {members : List (String × Json)} {row : Row (α :: αs)} {v : Json}
    (h : (Shape.cons m rest).decode name (.object members) = .ok row)
    (hv : lookup m.name members = some v) : m.decode v = .ok row.1 := by
  unfold decode at h
  simp only at h
  split at h
  · cases h
  · simp only [pick, hv] at h
    obtain ⟨a, ha, h⟩ := bind_eq_ok.mp h
    obtain ⟨others, -, h⟩ := bind_eq_ok.mp h
    cases h
    exact ha

/-- What is not negative does not lie below zero. -/
theorem Double.compare?_zero {x : Double} (h : x.isNegative = false) :
    x.compare? (.ofInt 0) ≠ some .lt := by
  have hzero : ofInt 0 = .number false (clamp 0) := rfl
  cases x with
  | nan => simp [compare?]
  | number s p =>
    rw [hzero]
    have hkey : ¬ key s p.val < key false (clamp 0).val := by
      have hclamp : (clamp 0).val = 0 := rfl
      cases s <;> simp_all [key, isNegative]
    simp only [compare?, ne_eq, Option.some.injEq]
    exact fun hlt => hkey (Int.compare_eq_lt.mp hlt)

namespace Storefront

/-- Only an object lists an id, as a whole number of 64 bits. -/
theorem listedId?_eq_some {raw : Json} {n : Int} :
    listedId? raw = some n ↔ ∃ members number, raw = .object members ∧
      Json.lookup "id" members = some (.number number) ∧ number.toInt? = some n ∧
      -9223372036854775808 ≤ n ∧ n ≤ 9223372036854775807 := by
  have hword : ∀ number : Json.Number, number.toInt64? = some n ↔ number.toInt? = some n ∧
      -9223372036854775808 ≤ n ∧ n ≤ 9223372036854775807 := by
    intro number
    rw [Json.Number.toInt64?, Option.filter_eq_some_iff, Word.isInt64_iff]
  constructor
  · intro h
    unfold listedId? at h
    split at h
    · rename_i number hmember
      cases raw with
      | object members => exact ⟨members, number, rfl, hmember, (hword number).mp h⟩
      | _ => cases hmember
    · cases h
  · rintro ⟨members, number, rfl, hmember, hn⟩
    have hget : (Json.object members).get? "id" = some (.number number) := hmember
    rw [listedId?, hget]
    exact (hword number).mpr hn

theorem Product.id_decode {members : List (String × Json)} {p : Product} {v : Json}
    (h : Product.decode (.object members) = .ok p) (hv : Json.lookup "id" members = some v) :
    Json.Decode.optional Json.Decode.int64 v = .ok p.id := by
  obtain ⟨row, hrow, h⟩ := bind_eq_ok.mp h
  cases h
  exact Json.Shape.decode_first hrow hv

theorem Product.toRecord_spec {p : Product} {r : Record} (h : p.toRecord = .ok r) :
    p.id = some r.id ∧ readPrice r.id p.price = .ok r.price := by
  cases hid : p.id with
  | none =>
    rw [Product.toRecord, hid] at h
    cases h
  | some id =>
    rw [Product.toRecord, hid] at h
    obtain ⟨_, hkey, h⟩ := bind_eq_ok.mp h
    cases hkey
    obtain ⟨price, hprice, h⟩ := bind_eq_ok.mp h
    obtain ⟨createdAt, -, h⟩ := bind_eq_ok.mp h
    cases h
    exact ⟨rfl, hprice⟩

theorem normalize_spec {raw : Json} {r : Record} (h : normalize raw = .ok r) :
    ∃ members v p, raw = .object members ∧ Json.lookup "id" members = some v ∧
      Product.decode (.object members) = .ok p ∧ p.toRecord = .ok r := by
  unfold normalize at h
  split at h
  · cases h
  · cases h
  · rename_i v _ hget
    split at h
    · cases h
    · rename_i p hp
      cases raw with
      | object members => exact ⟨members, v, p, rfl, hget, hp, h⟩
      | _ => cases hget

/-- A product that stands for a record has the record's id. -/
theorem listedId?_of_normalize {raw : Json} {r : Record} (h : normalize raw = .ok r) :
    listedId? raw = some r.id := by
  obtain ⟨members, v, p, rfl, hv, hp, hr⟩ := normalize_spec h
  have hid := Product.id_decode hp hv
  rw [(Product.toRecord_spec hr).1] at hid
  obtain ⟨number, rfl, hnumber⟩ := Json.Decode.int64_eq_ok (Json.Decode.optional_eq_some hid)
  have hget : (Json.object members).get? "id" = some (.number number) := hv
  rw [listedId?, hget]
  exact hnumber

/-- A price that is taken is a finite number, and not below zero. -/
theorem readPrice_eq_ok {id : Int} {price : Option Price} {x : Double}
    (h : Product.readPrice id price = .ok x) : x.isFinite = true ∧ x.isNegative = false := by
  have hcheck : ∀ y, Product.readPrice.check id y = .ok x →
      x.isFinite = true ∧ x.isNegative = false := by
    intro y hy
    unfold Product.readPrice.check at hy
    split at hy
    · rename_i hgood
      cases hy
      simpa using hgood
    · cases hy
  unfold Product.readPrice at h
  split at h
  · cases h
  · exact hcheck _ h
  · split at h
    · exact hcheck _ h
    · cases h

/-- No record has a negative price, or one that is not a number. -/
theorem normalize_price {raw : Json} {r : Record} (h : normalize raw = .ok r) :
    r.price.isFinite = true ∧ r.price.isNegative = false := by
  obtain ⟨_, _, p, -, -, -, hr⟩ := normalize_spec h
  exact readPrice_eq_ok (Product.toRecord_spec hr).2

end Storefront

end Segments
