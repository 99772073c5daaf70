import Mathlib.Data.List.Nodup
import Mathlib.Data.List.Pairwise
import Segments.Text.Folding

namespace Segments.Text

def distinctFrom : Nat → List Nat → Bool
  | _, [] => true
  | seen, n :: ns => !seen.testBit n && distinctFrom (seen ||| 1 <<< n) ns

/-- The check keeps the numbers that it has seen as the bits of one number, which makes it fast
enough for the whole table. -/
theorem nodup_of_distinctFrom {seen : Nat} {ns : List Nat} (h : distinctFrom seen ns = true) :
    ns.Nodup ∧ ∀ n ∈ ns, seen.testBit n = false := by
  induction ns generalizing seen with
  | nil => simp
  | cons n ns ih =>
    simp only [distinctFrom, Bool.and_eq_true, Bool.not_eq_true'] at h
    obtain ⟨hnodup, hseen⟩ := ih h.2
    have hlater : ∀ m ∈ ns, seen.testBit m = false ∧ n ≠ m := by
      intro m hm
      have hbit := hseen m hm
      rw [Nat.testBit_or, Nat.one_shiftLeft, Nat.testBit_two_pow, Bool.or_eq_false_iff] at hbit
      exact ⟨hbit.1, of_decide_eq_false hbit.2⟩
    refine ⟨List.nodup_cons.mpr ⟨fun hmem => (hlater n hmem).2 rfl, hnodup⟩, ?_⟩
    rw [List.forall_mem_cons]
    exact ⟨h.1, fun m hm => (hlater m hm).1⟩

/-- The two cases of each ASCII letter stand in one orbit, and nothing before them in any. -/
def isSound (os : List (List Nat)) : Bool :=
  distinctFrom 0 os.flatten && os.flatten.all (65 ≤ ·) &&
    (List.range 26).all fun i => os.any fun o => o.contains (65 + i) && o.contains (97 + i)

theorem flatMap_ofList_cons (cs : List Char) (ss : List String) :
    (String.ofList cs :: ss).flatMap String.toList = cs ++ ss.flatMap String.toList := by
  rw [List.flatMap_cons, String.toList_ofList]

theorem isSound_orbits : isSound orbits = true := by
  unfold orbits packedOrbits
  -- a text is taken for its characters once and for all: to look each one up takes a minute
  repeat rw [flatMap_ofList_cons]
  rw [List.flatMap_nil]
  decide +kernel

theorem nodup_orbits : orbits.flatten.Nodup := by
  have h := isSound_orbits
  simp only [isSound, Bool.and_eq_true] at h
  exact (nodup_of_distinctFrom h.1.1).1

theorem le_of_mem_orbit {o : List Nat} (ho : o ∈ orbits) {n : Nat} (hn : n ∈ o) : 65 ≤ n := by
  have h := isSound_orbits
  simp only [isSound, Bool.and_eq_true, List.all_eq_true] at h
  exact of_decide_eq_true (h.1.2 n (List.mem_flatten.mpr ⟨o, ho, hn⟩))

theorem exists_orbit {i : Nat} (hi : i < 26) : ∃ o ∈ orbits, 65 + i ∈ o ∧ 97 + i ∈ o := by
  have h := isSound_orbits
  simp only [isSound, Bool.and_eq_true, List.all_eq_true, List.any_eq_true] at h
  obtain ⟨o, ho, hmem⟩ := h.2 i (List.mem_range.mpr hi)
  exact ⟨o, ho, List.contains_iff_mem.mp hmem.1, List.contains_iff_mem.mp hmem.2⟩

/-- A character stands in the orbit that is found for it, or in none and for itself. -/
theorem orbitOf_cases (c : Char) :
    (orbitOf c ∈ orbits ∧ c.toNat ∈ orbitOf c) ∨
      (orbitOf c = [c.toNat] ∧ ∀ o ∈ orbits, c.toNat ∉ o) := by
  unfold orbitOf
  cases h : orbits.find? fun o => o.contains c.toNat with
  | some o =>
    have hfound := List.find?_some h
    exact .inl ⟨List.mem_of_find?_eq_some h, List.contains_iff_mem.mp hfound⟩
  | none =>
    refine .inr ⟨rfl, fun o ho hmem => ?_⟩
    have hmissed := List.find?_eq_none.mp h o ho
    exact hmissed (List.contains_iff_mem.mpr hmem)

/-- The table was checked to have no number twice. -/
theorem orbit_unique {o o' : List Nat} (ho : o ∈ orbits) (ho' : o' ∈ orbits) {n : Nat} (hn : n ∈ o)
    (hn' : n ∈ o') : o = o' := by
  by_contra hne
  have hdisjoint := (List.nodup_flatten.mp nodup_orbits).2
  have hsymm : Std.Symm (List.Disjoint (α := Nat)) := ⟨fun _ _ h => List.disjoint_symm h⟩
  exact hdisjoint.forall ho ho' hne hn hn'

theorem self_mem_orbitOf (c : Char) : c.toNat ∈ orbitOf c := by
  rcases orbitOf_cases c with ⟨-, hmem⟩ | ⟨hself, -⟩
  · exact hmem
  · rw [hself]
    exact List.mem_singleton_self _

theorem orbitOf_eq {c : Char} {o : List Nat} (ho : o ∈ orbits) (hc : c.toNat ∈ o) :
    orbitOf c = o := by
  rcases orbitOf_cases c with ⟨hin, hmem⟩ | ⟨-, hnone⟩
  · exact orbit_unique hin ho hmem hc
  · exact absurd hc (hnone o ho)

/-- Two characters differ by case at most just if they stand for the same characters. -/
theorem mem_orbitOf {c d : Char} : d.toNat ∈ orbitOf c ↔ orbitOf c = orbitOf d := by
  constructor
  · intro h
    rcases orbitOf_cases c with ⟨hin, -⟩ | ⟨hself, -⟩
    · exact (orbitOf_eq hin h).symm
    · rw [hself, List.mem_singleton] at h
      rw [Char.toNat_inj.mp h]
  · intro h
    rw [h]
    exact self_mem_orbitOf d

theorem sameFold_iff {c d : Char} : sameFold c d = true ↔ orbitOf c = orbitOf d := by
  rw [sameFold, List.contains_iff_mem, mem_orbitOf]

/-- Digits and the signs of numbers have no case. -/
theorem orbitOf_of_lt {c : Char} (h : c.toNat < 65) : orbitOf c = [c.toNat] := by
  rcases orbitOf_cases c with ⟨hin, hmem⟩ | ⟨hself, -⟩
  · exact absurd (le_of_mem_orbit hin hmem) (by omega)
  · exact hself

theorem toNat_toLower (c : Char) :
    c.toLower.toNat = if 65 ≤ c.toNat ∧ c.toNat ≤ 90 then c.toNat + 32 else c.toNat := by
  have hval : c.toNat = c.val.toNat := rfl
  unfold Char.toLower
  split
  · next h =>
    have hrange : 65 ≤ c.val.toNat ∧ c.val.toNat ≤ 90 :=
      ⟨UInt32.le_iff_toNat_le.mp h.1, UInt32.le_iff_toNat_le.mp h.2⟩
    rw [if_pos (hval ▸ hrange)]
    have hstep : (32 : UInt32).toNat = 32 := rfl
    change (c.val + 32).toNat = c.val.toNat + 32
    rw [UInt32.toNat_add, hstep]
    omega
  · next h =>
    rw [if_neg]
    rintro ⟨hlow, hhigh⟩
    exact h ⟨UInt32.le_iff_toNat_le.mpr hlow, UInt32.le_iff_toNat_le.mpr hhigh⟩

theorem orbitOf_toLower (c : Char) : orbitOf c.toLower = orbitOf c := by
  have hlower := toNat_toLower c
  by_cases h : 65 ≤ c.toNat ∧ c.toNat ≤ 90
  · rw [if_pos h] at hlower
    obtain ⟨o, ho, hupper, hother⟩ := exists_orbit (i := c.toNat - 65) (by omega)
    have hc : c.toNat ∈ o := by
      have heq : 65 + (c.toNat - 65) = c.toNat := by omega
      rwa [heq] at hupper
    have hc' : c.toLower.toNat ∈ o := by
      have heq : 97 + (c.toNat - 65) = c.toLower.toNat := by omega
      rwa [heq] at hother
    rw [orbitOf_eq ho hc, orbitOf_eq ho hc']
  · rw [if_neg h] at hlower
    rw [Char.toNat_inj.mp hlower]

end Segments.Text
