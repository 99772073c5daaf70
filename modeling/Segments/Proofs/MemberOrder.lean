import Segments.Json.Basic
import Segments.Proofs.ByteOrder

namespace Segments.Json

open Text

def Ordered (members : List (String × Json)) : Prop :=
  members.Pairwise fun a b => compareText a.1.toList b.1.toList = .lt

instance (members : List (String × Json)) : Decidable (Ordered members) :=
  inferInstanceAs (Decidable (List.Pairwise _ _))

theorem not_compareText_lt_self (s : List Char) : compareText s s ≠ .lt := by
  rw [← compareBytes_encode, compareBytes_self]
  decide

theorem Ordered.nodup {members : List (String × Json)} (h : Ordered members) :
    (members.map Prod.fst).Nodup := by
  refine List.pairwise_map.mpr (h.imp ?_)
  intro a b hlt heq
  rw [heq] at hlt
  exact not_compareText_lt_self _ hlt

/-- A member of a new name comes between those before it and those after it. -/
theorem insert_ordered {name : String} {v : Json} {members : List (String × Json)}
    (h : Ordered members) (hnew : name ∉ members.map Prod.fst) :
    Ordered (insert name v members) ∧ (insert name v members).Perm ((name, v) :: members) := by
  induction members with
  | nil => exact ⟨List.pairwise_singleton _ _, .refl _⟩
  | cons m members ih =>
    obtain ⟨other, w⟩ := m
    obtain ⟨hfirst, hrest⟩ := List.pairwise_cons.mp h
    rw [List.map_cons, List.mem_cons] at hnew
    unfold insert
    cases hcompare : compareText name.toList other.toList with
    | lt =>
      refine ⟨List.pairwise_cons.mpr ⟨?_, h⟩, .refl _⟩
      intro m hm
      rcases List.mem_cons.mp hm with rfl | hm
      · exact hcompare
      · exact compareText_trans hcompare (hfirst m hm)
    | eq => exact absurd (String.toList_inj.mp (compareText_eq hcompare)) fun heq => hnew (.inl heq)
    | gt =>
      obtain ⟨hordered, hperm⟩ := ih hrest fun hmem => hnew (.inr hmem)
      refine ⟨List.pairwise_cons.mpr ⟨?_, hordered⟩, (hperm.cons _).trans (.swap _ _ _)⟩
      intro m hm
      rcases List.mem_cons.mp (hperm.mem_iff.mp hm) with rfl | hm
      · rw [compareText_swap, hcompare]
        rfl
      · exact hfirst m hm

/-- With distinct names no member takes the place of another. -/
theorem foldl_insert {members done : List (String × Json)} (hdone : Ordered done)
    (h : ((members ++ done).map Prod.fst).Nodup) :
    Ordered (members.foldl (fun done m => insert m.1 m.2 done) done) ∧
      (members.foldl (fun done m => insert m.1 m.2 done) done).Perm (members ++ done) := by
  induction members generalizing done with
  | nil => exact ⟨hdone, .refl _⟩
  | cons m members ih =>
    obtain ⟨name, v⟩ := m
    rw [List.cons_append, List.map_cons, List.nodup_cons] at h
    have hnew : name ∉ done.map Prod.fst := by
      intro hmem
      apply h.1
      rw [List.map_append]
      exact List.mem_append_right _ hmem
    obtain ⟨hordered, hperm⟩ := insert_ordered (v := v) hdone hnew
    have hmiddle : (members ++ insert name v done).Perm ((name, v) :: (members ++ done)) :=
      (hperm.append_left members).trans List.perm_middle
    have hdistinct : ((members ++ insert name v done).map Prod.fst).Nodup :=
      (hmiddle.map Prod.fst).nodup_iff.mpr (List.nodup_cons.mpr h)
    obtain ⟨hresult, hall⟩ := ih hordered hdistinct
    exact ⟨hresult, hall.trans hmiddle⟩

/-- Members that are in order are the only order of themselves. -/
theorem ofMembers_eq {members written : List (String × Json)} (h : Ordered members)
    (hperm : written.Perm members) : ofMembers written = .object members := by
  have hdistinct : ((written ++ []).map Prod.fst).Nodup := by
    rw [List.append_nil]
    exact (hperm.map Prod.fst).nodup_iff.mpr h.nodup
  obtain ⟨hordered, hsame⟩ := foldl_insert List.Pairwise.nil hdistinct
  rw [List.append_nil] at hsame
  have hone : written.foldl (fun done m => insert m.1 m.2 done) [] = members := by
    refine List.Perm.eq_of_pairwise ?_ hordered h (hsame.trans hperm)
    intro a b _ _ hab hba
    exact absurd (compareText_trans hab hba) (not_compareText_lt_self _)
  rw [ofMembers, hone]

end Segments.Json
