import Segments.Text.Basic
import Segments.Text.Utf8

namespace Segments.Text

/-- The order of byte strings, byte by byte; the shorter of two comes first if it starts the
longer one. -/
def compareBytes : Bytes → Bytes → Ordering
  | [], [] => .eq
  | [], _ :: _ => .lt
  | _ :: _, [] => .gt
  | a :: as, b :: bs => (compare a.toNat b.toNat).then (compareBytes as bs)

/-- What two strings start with in common does not count. -/
theorem compareBytes_append_left (as bs cs : Bytes) :
    compareBytes (as ++ bs) (as ++ cs) = compareBytes bs cs := by
  induction as with
  | nil => rfl
  | cons a as ih => simp [compareBytes, ih]

theorem compareBytes_swap (as bs : Bytes) :
    compareBytes bs as = (compareBytes as bs).swap := by
  induction as generalizing bs with
  | nil => cases bs <;> rfl
  | cons a as ih =>
    cases bs with
    | nil => rfl
    | cons b bs =>
      simp only [compareBytes, Ordering.swap_then, ih bs]
      rw [Std.OrientedOrd.eq_swap (a := b.toNat)]

theorem compareBytes_cons_lt (a b : UInt8) (as bs : Bytes) :
    compareBytes (a :: as) (b :: bs) = .lt ↔
      a.toNat < b.toNat ∨ a.toNat = b.toNat ∧ compareBytes as bs = .lt := by
  simp only [compareBytes, Ordering.then_eq_lt, Nat.compare_eq_lt, Nat.compare_eq_eq]

theorem toNat_lt (c : Char) : c.toNat < 0x110000 := by
  rcases c.valid with h | h
  · exact Nat.lt_trans h (by decide)
  · exact h.2

theorem toNat_ofNat_of_lt {n : Nat} (h : n < 256) : (UInt8.ofNat n).toNat = n := by
  rw [UInt8.toNat_ofNat', Nat.mod_eq_of_lt h]

/-- The bytes of a character are digits of its number, six bits each but for the first. -/
theorem encodeChar_cases (c : Char) :
    (c.toNat < 0x80 ∧ encodeChar c = [UInt8.ofNat c.toNat]) ∨
    (∃ p q, p < 32 ∧ q < 64 ∧ 0x80 ≤ c.toNat ∧ c.toNat = 64 * p + q ∧
      encodeChar c = [UInt8.ofNat (0xC0 + p), UInt8.ofNat (0x80 + q)]) ∨
    (∃ p q r, p < 16 ∧ q < 64 ∧ r < 64 ∧ 0x800 ≤ c.toNat ∧ c.toNat = 4096 * p + 64 * q + r ∧
      encodeChar c = [UInt8.ofNat (0xE0 + p), UInt8.ofNat (0x80 + q), UInt8.ofNat (0x80 + r)]) ∨
    (∃ p q r s, p < 8 ∧ q < 64 ∧ r < 64 ∧ s < 64 ∧ 0x10000 ≤ c.toNat ∧
      c.toNat = 262144 * p + 4096 * q + 64 * r + s ∧
      encodeChar c = [UInt8.ofNat (0xF0 + p), UInt8.ofNat (0x80 + q), UInt8.ofNat (0x80 + r),
        UInt8.ofNat (0x80 + s)]) := by
  have hc := toNat_lt c
  simp only [encodeChar]
  by_cases h₁ : c.toNat < 0x80
  · left
    exact ⟨h₁, by rw [if_pos h₁]⟩
  right
  by_cases h₂ : c.toNat < 0x800
  · left
    refine ⟨c.toNat / 64, c.toNat % 64, by omega, by omega, by omega, by omega, ?_⟩
    rw [if_neg h₁, if_pos h₂, Nat.div_one]
  right
  by_cases h₃ : c.toNat < 0x10000
  · left
    refine ⟨c.toNat / 4096, c.toNat / 64 % 64, c.toNat % 64, by omega, by omega, by omega,
      by omega, by omega, ?_⟩
    rw [if_neg h₁, if_neg h₂, if_pos h₃, Nat.div_one]
  · right
    refine ⟨c.toNat / 262144, c.toNat / 4096 % 64, c.toNat / 64 % 64, c.toNat % 64, by omega,
      by omega, by omega, by omega, by omega, by omega, ?_⟩
    rw [if_neg h₁, if_neg h₂, if_neg h₃, Nat.div_one]

theorem encodeChar_cons (c : Char) : ∃ x xs, encodeChar c = x :: xs := by
  rcases encodeChar_cases c with ⟨_, h⟩ | ⟨p, q, _, _, _, _, h⟩ | ⟨p, q, r, _, _, _, _, _, h⟩ |
      ⟨p, q, r, s, _, _, _, _, _, _, h⟩
  all_goals exact ⟨_, _, h⟩

/-- The bytes of a character that is no byte itself are none of those that are. -/
theorem le_of_mem_encodeChar {c : Char} (hc : 0x80 ≤ c.toNat) : ∀ b ∈ encodeChar c, 0x80 ≤ b.toNat := by
  rcases encodeChar_cases c with ⟨h, -⟩ | ⟨p, q, _, _, _, _, h⟩ | ⟨p, q, r, _, _, _, _, _, h⟩ |
      ⟨p, q, r, s, _, _, _, _, _, _, h⟩
  · omega
  all_goals
    rw [h]
    simp (disch := omega) only [List.forall_mem_cons, toNat_ofNat_of_lt, List.not_mem_nil,
      false_imp_iff, implies_true, and_true]
    omega

/-- The byte of a character is its number; where it has several they lie above those numbers. -/
theorem mem_encodeChar {c : Char} {b : UInt8} (h : b ∈ encodeChar c) :
    b.toNat = c.toNat ∨ 128 ≤ b.toNat := by
  by_cases hascii : c.toNat < 128
  · have hone : encodeChar c = [UInt8.ofNat c.toNat] := if_pos hascii
    rw [hone] at h
    rw [List.mem_singleton.mp h, toNat_ofNat_of_lt (by omega)]
    exact .inl rfl
  · exact .inr (le_of_mem_encodeChar (Nat.le_of_not_lt hascii) b h)

/-- No character's bytes start those of another, and they are ordered as the characters are. -/
theorem compareBytes_encodeChar_lt {a b : Char} (h : a.toNat < b.toNat) (as bs : Bytes) :
    compareBytes (encodeChar a ++ as) (encodeChar b ++ bs) = .lt := by
  rcases encodeChar_cases a with ⟨_, ha⟩ | ⟨p, q, _, _, _, _, ha⟩ | ⟨p, q, r, _, _, _, _, _, ha⟩ |
      ⟨p, q, r, s, _, _, _, _, _, _, ha⟩ <;>
    rcases encodeChar_cases b with ⟨_, hb⟩ | ⟨p', q', _, _, _, _, hb⟩ |
        ⟨p', q', r', _, _, _, _, _, hb⟩ | ⟨p', q', r', s', _, _, _, _, _, _, hb⟩ <;>
    rw [ha, hb] <;>
    simp (disch := omega) only [List.cons_append, List.nil_append, compareBytes_cons_lt,
      toNat_ofNat_of_lt] <;>
    omega

/-- No encoded character starts another, and encoded characters stand in the order of their
numbers. -/
theorem compareBytes_encodeChar (a b : Char) (as bs : Bytes) :
    compareBytes (encodeChar a ++ as) (encodeChar b ++ bs) =
      (compare a.toNat b.toNat).then (compareBytes as bs) := by
  rcases Nat.lt_trichotomy a.toNat b.toNat with h | h | h
  · rw [compareBytes_encodeChar_lt h, Nat.compare_eq_lt.mpr h]
    rfl
  · have he : a = b := Char.toNat_inj.mp h
    rw [he, compareBytes_append_left, Nat.compare_eq_eq.mpr rfl]
    rfl
  · rw [compareBytes_swap, compareBytes_encodeChar_lt h, Nat.compare_eq_gt.mpr h]
    rfl

/-- Texts are ordered by their code points as their encoded forms are by their bytes. -/
theorem compareBytes_encode (as bs : List Char) :
    compareBytes (encode as) (encode bs) = compareText as bs := by
  induction as generalizing bs with
  | nil =>
    cases bs with
    | nil => rfl
    | cons b bs =>
      obtain ⟨x, xs, hx⟩ := encodeChar_cons b
      simp [encode, hx, compareBytes, compareText]
  | cons a as ih =>
    cases bs with
    | nil =>
      obtain ⟨x, xs, hx⟩ := encodeChar_cons a
      simp [encode, hx, compareBytes, compareText]
    | cons b bs =>
      simp only [encode, List.flatMap_cons] at ih ⊢
      rw [compareBytes_encodeChar, compareText, ih]

theorem compareText_eq {as bs : List Char} (h : compareText as bs = .eq) : as = bs := by
  induction as generalizing bs with
  | nil =>
    cases bs with
    | nil => rfl
    | cons b bs => cases h
  | cons a as ih =>
    cases bs with
    | nil => cases h
    | cons b bs =>
      simp only [compareText, Ordering.then_eq_eq, Nat.compare_eq_eq] at h
      rw [Char.toNat_inj.mp h.1, ih h.2]

theorem compareBytes_self (as : Bytes) : compareBytes as as = .eq := by
  have h := compareBytes_append_left as [] []
  rwa [List.append_nil] at h

theorem compareText_swap (as bs : List Char) : compareText bs as = (compareText as bs).swap := by
  rw [← compareBytes_encode, ← compareBytes_encode, compareBytes_swap]

theorem compareText_trans {as bs cs : List Char} (h : compareText as bs = .lt)
    (h' : compareText bs cs = .lt) : compareText as cs = .lt := by
  induction as generalizing bs cs with
  | nil =>
    cases cs with
    | nil => cases bs <;> cases h'
    | cons c cs => rfl
  | cons a as ih =>
    cases bs with
    | nil => cases h
    | cons b bs =>
      cases cs with
      | nil => cases h'
      | cons c cs =>
        simp only [compareText, Ordering.then_eq_lt, Nat.compare_eq_lt, Nat.compare_eq_eq] at h h' ⊢
        rcases h with hlt | ⟨heq, hrest⟩
        · rcases h' with hlt' | ⟨heq', -⟩
          · exact .inl (Nat.lt_trans hlt hlt')
          · exact .inl (heq' ▸ hlt)
        · rcases h' with hlt' | ⟨heq', hrest'⟩
          · exact .inl (heq ▸ hlt')
          · exact .inr ⟨heq.trans heq', ih hrest hrest'⟩

end Segments.Text
