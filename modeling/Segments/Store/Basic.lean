import Segments.Filter.Match

namespace Segments

open Catalog

def place (r : Record) : List Record → List Record
  | [] => [r]
  | s :: rest =>
    if r.id < s.id then r :: s :: rest
    else if r.id = s.id then r :: rest
    else s :: place r rest

theorem mem_of_mem_place {r s : Record} {rs : List Record} (h : s ∈ place r rs) :
    s = r ∨ s ∈ rs := by
  induction rs with
  | nil => simpa [place] using h
  | cons t rest ih =>
    simp only [place] at h
    split at h
    · simpa using h
    · split at h
      · rcases List.mem_cons.mp h with h | h
        · exact .inl h
        · exact .inr (List.mem_cons_of_mem _ h)
      · rcases List.mem_cons.mp h with h | h
        · exact .inr (h ▸ List.mem_cons_self)
        · exact (ih h).imp_right (List.mem_cons_of_mem _)

/-- By induction along the list: the record comes before the first larger id. -/
theorem pairwise_place {r : Record} {rs : List Record}
    (h : rs.Pairwise fun a b => a.id < b.id) : (place r rs).Pairwise fun a b => a.id < b.id := by
  induction rs with
  | nil => simp [place]
  | cons t rest ih =>
    obtain ⟨first, later⟩ := List.pairwise_cons.mp h
    simp only [place]
    split
    · rename_i less
      refine List.pairwise_cons.mpr ⟨fun s hs => ?_, h⟩
      rcases List.mem_cons.mp hs with hs | hs
      · exact hs ▸ less
      · exact Int.lt_trans less (first s hs)
    · split
      · rename_i same
        exact List.pairwise_cons.mpr ⟨fun s hs => same ▸ first s hs, later⟩
      · rename_i notLess notSame
        refine List.pairwise_cons.mpr ⟨fun s hs => ?_, ih later⟩
        rcases mem_of_mem_place hs with hs | hs
        · subst hs
          omega
        · exact first s hs

/-- At most one record of each id, by ascending id. -/
structure Store where
  records : List Record
  ordered : records.Pairwise fun a b => a.id < b.id

namespace Store

def empty : Store :=
  ⟨[], .nil⟩

def insert (s : Store) (r : Record) : Store :=
  ⟨place r s.records, pairwise_place s.ordered⟩

/-- Of several records with one id the last is kept. -/
def ofRecords (rs : List Record) : Store :=
  rs.foldl insert empty

def get? (s : Store) (id : Int) : Option Record :=
  s.records.find? fun r => r.id == id

def size (s : Store) : Nat :=
  s.records.length

def isEmpty (s : Store) : Bool :=
  s.records.isEmpty

/-- The records that every filter selects. Fails if a filter asks for a pattern that is none. -/
def find (s : Store) (filters : List Filter) : Except Pattern.Fault (List Record) := do
  let matchers ← filters.mapM Matcher.ofFilter
  .ok (s.records.filter fun r => matchers.all fun m => m.selects r)

def all (s : Store) : Except Pattern.Fault (List Record) :=
  s.find []

instance : Inhabited Store :=
  ⟨empty⟩

end Store

end Segments
