import Segments.Sync.Ingest

namespace Segments

open Catalog

namespace Store

theorem get?_id {s : Store} {id : Int} {r : Record} (h : s.get? id = some r) : r.id = id := by
  simpa using List.find?_some h

theorem mem_of_get? {s : Store} {id : Int} {r : Record} (h : s.get? id = some r) :
    r ∈ s.records :=
  List.mem_of_find?_eq_some h

/-- Ids ascend, so that no other record of the id stands before it. -/
theorem find?_of_mem {rs : List Record} (ho : rs.Pairwise fun a b => a.id < b.id) {r : Record}
    (h : r ∈ rs) : (rs.find? fun s => s.id == r.id) = some r := by
  induction rs with
  | nil => cases h
  | cons s rest ih =>
    obtain ⟨first, later⟩ := List.pairwise_cons.mp ho
    rcases List.mem_cons.mp h with rfl | h
    · simp
    · have hne : s.id ≠ r.id := Int.ne_of_lt (first r h)
      simp [hne, ih later h]

theorem mem_iff_get? {s : Store} {r : Record} : r ∈ s.records ↔ s.get? r.id = some r :=
  ⟨find?_of_mem s.ordered, mem_of_get?⟩

/-- A record is put in place of the one of its id, and no other is touched. -/
theorem get?_insert (s : Store) (r : Record) (id : Int) :
    (s.insert r).get? id = if id = r.id then some r else s.get? id := by
  have hplace : ∀ rs : List Record, ((place r rs).find? fun t => t.id == id) =
      if id = r.id then some r else rs.find? fun t => t.id == id := by
    intro rs
    induction rs with
    | nil =>
      by_cases h : id = r.id
      · simp [place, h]
      · simp [place, h, Ne.symm h]
    | cons t rest ih =>
      simp only [place]
      by_cases h : id = r.id
      · subst h
        split
        · simp
        · split
          · simp
          · rename_i hne
            simp [Ne.symm hne, ih]
      · split
        · simp [Ne.symm h]
        · split
          · rename_i hsame
            simp [Ne.symm h, ← hsame]
          · simp [List.find?_cons, h, ih]
  exact hplace s.records

/-- After some records the store has of every id the one that came last. -/
theorem get?_foldl_insert (s : Store) (rs : List Record) (id : Int) :
    (rs.foldl insert s).get? id = (rs.reverse.find? fun r => r.id == id).or (s.get? id) := by
  induction rs generalizing s with
  | nil => simp
  | cons r rs ih =>
    rw [List.foldl_cons, ih, get?_insert, List.reverse_cons, List.find?_append, Option.or_assoc]
    by_cases h : r.id = id
    · simp [h]
    · simp [h, Ne.symm h]

/-- A store is what it has of every id. -/
theorem eq_of_get? {s t : Store} (h : ∀ id, s.get? id = t.get? id) : s = t := by
  have hmem : ∀ r, r ∈ s.records ↔ r ∈ t.records := by
    intro r
    rw [mem_iff_get?, mem_iff_get?, h]
  have hnodup : ∀ u : Store, u.records.Nodup := fun u =>
    u.ordered.imp fun hlt heq => Int.ne_of_lt hlt (congrArg Record.id heq)
  have hperm : s.records.Perm t.records :=
    (List.perm_ext_iff_of_nodup (hnodup s) (hnodup t)).mpr hmem
  have hrecords : s.records = t.records :=
    hperm.eq_of_pairwise (fun a b _ _ hab hba => absurd hab (Int.lt_asymm hba)) s.ordered t.ordered
  cases s
  cases t
  cases hrecords
  rfl

/-- Records that were written are written again to no effect. -/
theorem foldl_insert_again (s : Store) (rs : List Record) :
    rs.foldl insert (rs.foldl insert s) = rs.foldl insert s := by
  refine eq_of_get? fun id => ?_
  rw [get?_foldl_insert, get?_foldl_insert, ← Option.or_assoc, Option.or_self]

/-- What counts is the order of the records of one id. -/
theorem foldl_insert_of_filter {as bs : List Record} (s : Store)
    (h : ∀ id : Int, (as.filter fun r => r.id == id) = bs.filter fun r => r.id == id) :
    as.foldl insert s = bs.foldl insert s := by
  refine eq_of_get? fun id => ?_
  rw [get?_foldl_insert, get?_foldl_insert, ← List.getLast?_filter, ← List.getLast?_filter, h]

/-- A record may be replaced but does not get lost. -/
theorem isSome_get?_insert {s : Store} {id : Int} (h : (s.get? id).isSome = true) (r : Record) :
    ((s.insert r).get? id).isSome = true := by
  rw [get?_insert]
  split
  · rfl
  · exact h

theorem mem_insert {s : Store} {r t : Record} (h : t ∈ (s.insert r).records) :
    t = r ∨ t ∈ s.records :=
  mem_of_mem_place h

theorem find_subset {s : Store} {fs : List Filter} {rs : List Record} (h : s.find fs = .ok rs) :
    ∀ r ∈ rs, r ∈ s.records := by
  unfold find at h
  cases hms : fs.mapM Matcher.ofFilter with
  | error fault =>
    rw [hms] at h
    cases h
  | ok ms =>
    rw [hms] at h
    cases h
    exact fun r hr => (List.mem_filter.mp hr).1

end Store

namespace Access

theorem find_subset {a : Access} {s : Store} {fs : List Filter} {rs : List Record}
    (h : a.find s fs = .ok rs) : ∀ r ∈ rs, r ∈ s.records := by
  unfold find at h
  split at h
  · cases h
  · split at h
    · cases h
      rename_i hfind
      exact Store.find_subset hfind
    · cases h

end Access

end Segments
