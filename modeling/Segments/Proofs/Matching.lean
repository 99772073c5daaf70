import Mathlib.Data.List.Forall2
import Segments.Segment

namespace Segments

open Catalog

namespace Matcher

/-- A matcher has a pattern just if its filter asks for one. -/
theorem ofFilter_cases {f : Filter} {m : Matcher} (h : ofFilter f = .ok m) :
    (f.comparison = .pattern ∧ ∃ p, Pattern.compile f.value.display = .ok p ∧
      m = ⟨Field.ofName? f.field, .pattern, f.value, some p⟩) ∨
    (f.comparison ≠ .pattern ∧ m = ⟨Field.ofName? f.field, f.comparison, f.value, none⟩) := by
  unfold ofFilter at h
  by_cases hc : f.comparison = .pattern
  · cases hp : Pattern.compile f.value.display with
    | error fault =>
      simp only [hc, hp] at h
      cases h
    | ok p =>
      simp only [hc, hp] at h
      cases h
      exact .inl ⟨hc, p, rfl, rfl⟩
  · refine .inr ⟨hc, ?_⟩
    cases hk : f.comparison with
    | pattern => exact absurd hk hc
    | _ =>
      simp only [hk] at h
      cases h
      rfl

/-- There are matchers for a list of filters just if there is one for each. -/
theorem mapM_ofFilter {fs : List Filter} {ms : List Matcher} :
    fs.mapM ofFilter = .ok ms ↔ List.Forall₂ (fun f m => ofFilter f = .ok m) fs ms := by
  induction fs generalizing ms with
  | nil =>
    rw [List.mapM_nil]
    constructor
    · intro h
      cases h
      exact .nil
    · intro h
      cases h
      rfl
  | cons f fs ih =>
    rw [List.mapM_cons]
    constructor
    · intro h
      cases hf : ofFilter f with
      | error fault =>
        rw [hf] at h
        cases h
      | ok m =>
        cases hfs : fs.mapM ofFilter with
        | error fault =>
          rw [hf, hfs] at h
          cases h
        | ok rest =>
          rw [hf, hfs] at h
          cases h
          exact .cons hf (ih.mp hfs)
    · intro h
      cases h with
      | cons hf hfs =>
        rw [hf, ih.mpr hfs]
        rfl

theorem exists_matchers {fs : List Filter} (h : ∀ f ∈ fs, ∃ m, ofFilter f = .ok m) :
    ∃ ms, List.Forall₂ (fun f m => ofFilter f = .ok m) fs ms := by
  induction fs with
  | nil => exact ⟨[], .nil⟩
  | cons f fs ih =>
    obtain ⟨m, hm⟩ := h f List.mem_cons_self
    obtain ⟨ms, hms⟩ := ih fun g hg => h g (List.mem_cons_of_mem f hg)
    exact ⟨m :: ms, .cons hm hms⟩

theorem exists_matcher {fs : List Filter} {ms : List Matcher}
    (h : List.Forall₂ (fun f m => ofFilter f = .ok m) fs ms) :
    ∀ f ∈ fs, ∃ m, ofFilter f = .ok m := by
  induction h with
  | nil => simp
  | @cons f m fs ms hm _ ih => simpa using ⟨⟨m, hm⟩, ih⟩

/-- What is asked of the matchers is asked of the matcher of each filter, wherever it stands. -/
theorem forall_matchers_iff {fs : List Filter} {ms : List Matcher}
    (h : List.Forall₂ (fun f m => ofFilter f = .ok m) fs ms) (p : Matcher → Prop) :
    (∀ m ∈ ms, p m) ↔ ∀ f ∈ fs, ∃ m, ofFilter f = .ok m ∧ p m := by
  induction h with
  | nil => simp
  | @cons f m fs ms hm _ ih => simp [ih, hm]

/-- A value that is no list is looked at as a whole. -/
theorem selects_of_ne_tags {m : Matcher} {f : Field} (hm : m.field = some f) (hf : f ≠ .tags)
    (r : Record) : m.selects r = m.matchesValue (r.get f) := by
  unfold selects
  rw [hm]
  cases f with
  | tags => exact absurd rfl hf
  | stockQuantity => cases hq : r.stockQuantity <;> simp [Record.get, hq, matchesField]
  | _ => rfl

end Matcher

namespace Segment

theorem filters_eq (texts : List String) :
    filters texts =
      (texts.filterMap fun t => (Condition.parse t).toOption).map Condition.toFilter := by
  rw [filters, Condition.compile, Condition.conditions_compileFrom]

theorem mem_filters {texts : List String} {f : Filter} :
    f ∈ filters texts ↔ ∃ t ∈ texts, ∃ c, Condition.parse t = .ok c ∧ c.toFilter = f := by
  rw [filters_eq]
  simp only [List.mem_map, List.mem_filterMap]
  constructor
  · rintro ⟨c, ⟨t, ht, hc⟩, rfl⟩
    cases hp : Condition.parse t with
    | error reason =>
      rw [hp] at hc
      cases hc
    | ok d =>
      rw [hp] at hc
      cases hc
      exact ⟨t, ht, c, hp, rfl⟩
  · rintro ⟨t, ht, c, hc, rfl⟩
    exact ⟨c, ⟨t, ht, by rw [hc]; rfl⟩, rfl⟩

end Segment

end Segments
