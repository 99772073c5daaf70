import Mathlib.Data.List.Sort
import Segments.Text.CodeSet

namespace Segments.Text.CodeSet

abbrev Ascending (rs : List (Nat × Nat)) : Prop :=
  rs.Pairwise fun a b => a.1 ≤ b.1

def Within (rs : List (Nat × Nat)) (n : Nat) : Prop :=
  ∃ r ∈ rs, r.1 ≤ n ∧ n ≤ r.2

theorem containsCode_iff (s : CodeSet) (n : Nat) : s.containsCode n = true ↔ Within s.ranges n := by
  simp [containsCode, Within]

theorem within_cons {r : Nat × Nat} {rs : List (Nat × Nat)} {n : Nat} :
    Within (r :: rs) n ↔ (r.1 ≤ n ∧ n ≤ r.2) ∨ Within rs n := by
  simp [Within]

/-- The ranges come by ascending start: one that neither overlaps nor touches the first lets no
later one do so. -/
theorem within_joinFrom {r : Nat × Nat} {rs : List (Nat × Nat)} (h : Ascending (r :: rs)) (n : Nat) :
    Within (joinFrom r rs) n ↔ Within (r :: rs) n := by
  induction rs generalizing r with
  | nil => rfl
  | cons s rest ih =>
    obtain ⟨hr, hs⟩ := List.pairwise_cons.mp h
    unfold joinFrom
    split
    · next htouch =>
      have hnext : Ascending ((r.1, max r.2 s.2) :: rest) :=
        List.pairwise_cons.mpr ⟨fun t ht => hr t (List.mem_cons_of_mem s ht), hs.tail⟩
      have hfirst := hr s List.mem_cons_self
      rw [ih hnext, within_cons, within_cons, within_cons, ← or_assoc]
      refine or_congr_left ?_
      dsimp only
      omega
    · rw [within_cons, ih hs, ← within_cons]

theorem within_join {rs : List (Nat × Nat)} (h : Ascending rs) (n : Nat) :
    Within (join rs) n ↔ Within rs n := by
  cases rs with
  | nil => rfl
  | cons r rest => exact within_joinFrom h n

/-- Ranges that were given in any order hold what they held apart. -/
theorem containsCode_ofRanges (rs : List (Nat × Nat)) (n : Nat) :
    (ofRanges rs).containsCode n = true ↔ Within rs n := by
  have hsorted : Ascending (rs.mergeSort fun a b => a.1 ≤ b.1) := by
    have htotal : (rs.mergeSort fun a b => a.1 ≤ b.1).Pairwise fun a b =>
        decide (a.1 ≤ b.1) = true :=
      List.pairwise_mergeSort (fun a b c hab hbc => by simp at *; omega)
        (fun a b => by simp; omega) rs
    exact htotal.imp fun h => of_decide_eq_true h
  rw [containsCode_iff, ofRanges, within_join hsorted]
  simp [Within]

theorem containsCode_ofCodes (ns : List Nat) (n : Nat) :
    (ofCodes ns).containsCode n = true ↔ n ∈ ns := by
  rw [ofCodes, containsCode_ofRanges]
  constructor
  · rintro ⟨r, hr, hlow, hhigh⟩
    obtain ⟨m, hm, rfl⟩ := List.mem_map.mp hr
    exact le_antisymm hhigh hlow ▸ hm
  · intro h
    exact ⟨(n, n), List.mem_map.mpr ⟨n, h, rfl⟩, le_rfl, le_rfl⟩

theorem ofCodes_singleton (n : Nat) : ofCodes [n] = single n n := by
  simp [ofCodes, ofRanges, single, join, joinFrom]

end Segments.Text.CodeSet
