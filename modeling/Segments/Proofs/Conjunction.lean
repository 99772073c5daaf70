import Segments.Proofs.Matching

namespace Segments

open Catalog

namespace Catalog

def FieldValue.elements : FieldValue → List FieldValue
  | .textList items => items.map .text
  | .absent => []
  | v => [v]

end Catalog

namespace Condition

/-- What an operator asks of a value that is no list. A value that does not compare with the
literal, being of another type, passes none. -/
def HoldsOf (c : Condition) (v : FieldValue) : Prop :=
  match c.operator with
  | .equal => v.compare? c.value = some .eq
  | .greater => v.compare? c.value = some .gt
  | .greaterOrEqual => v.compare? c.value = some .gt ∨ v.compare? c.value = some .eq
  | .less => v.compare? c.value = some .lt
  | .lessOrEqual => v.compare? c.value = some .lt ∨ v.compare? c.value = some .eq
  | .matching => ∃ text p, v.textForm? = some text ∧
      Pattern.compile (Pattern.portable c.value.display) = .ok p ∧ p.isMatch text = true

/-- A condition holds of a record if it is about a field of records and some value in the field
is as asked. -/
def Holds (c : Condition) (r : Record) : Prop :=
  ∃ f, Field.ofName? c.field = some f ∧ ∃ v ∈ (r.get f).elements, c.HoldsOf v

end Condition

namespace Matcher

theorem matchesField_iff (m : Matcher) (v : FieldValue) :
    m.matchesField v = true ↔ ∃ w ∈ v.elements, m.matchesValue w = true := by
  cases v with
  | textList items => simp [matchesField, FieldValue.elements]
  | absent =>
    cases hp : m.pattern <;>
      simp [matchesField, FieldValue.elements, matchesValue, hp, FieldValue.textForm?,
        FieldValue.compare?]
  | _ => simp [matchesField, FieldValue.elements]

/-- The matcher of a condition asks of a value what the condition says of it. -/
theorem matchesValue_iff {c : Condition} {m : Matcher} (hm : ofFilter c.toFilter = .ok m)
    (v : FieldValue) : m.matchesValue v = true ↔ c.HoldsOf v := by
  obtain ⟨field, operator, value⟩ := c
  cases operator with
  | matching =>
    obtain ⟨-, p, hp, rfl⟩ | ⟨hc, -⟩ := ofFilter_cases hm
    · have hp : Pattern.compile (Pattern.portable value.display) = .ok p := hp
      simp only [Condition.HoldsOf, matchesValue, hp, Except.ok.injEq, Option.any_eq_true]
      constructor
      · rintro ⟨text, ht, hmatch⟩
        exact ⟨text, p, ht, rfl, hmatch⟩
      · rintro ⟨text, _, ht, rfl, hmatch⟩
        exact ⟨text, ht, hmatch⟩
    · exact absurd rfl hc
  | _ =>
    obtain ⟨hc, -⟩ | ⟨-, rfl⟩ := ofFilter_cases hm
    · cases hc
    · simp only [Condition.toFilter, Comparison.ofOperator, Condition.HoldsOf, matchesValue]
      rcases v.compare? value with _ | _ | _ | _ <;> simp [Comparison.accepts]

theorem selects_iff {c : Condition} {m : Matcher} (hm : ofFilter c.toFilter = .ok m)
    (r : Record) : m.selects r = true ↔ c.Holds r := by
  have hf : m.field = Field.ofName? c.field := by
    obtain ⟨-, _, -, rfl⟩ | ⟨-, rfl⟩ := ofFilter_cases hm <;> rfl
  unfold selects Condition.Holds
  rw [hf]
  cases Field.ofName? c.field with
  | none => simp
  | some f => simp [matchesField_iff, matchesValue_iff hm]

end Matcher

namespace Segment

/-- If a text is a condition, it holds of the record. -/
def Passes (text : String) (r : Record) : Prop :=
  ∀ c, Condition.parse text = .ok c → c.Holds r

/-- If a text is a condition with a pattern, the pattern can be searched for. -/
def Searchable (text : String) : Prop :=
  ∀ c, Condition.parse text = .ok c → ∃ m, Matcher.ofFilter c.toFilter = .ok m

theorem forall_searchable (texts : List String) :
    (∀ t ∈ texts, Searchable t) ↔ ∀ f ∈ filters texts, ∃ m, Matcher.ofFilter f = .ok m := by
  constructor
  · intro h f hf
    obtain ⟨t, ht, c, hc, rfl⟩ := mem_filters.mp hf
    exact h t ht c hc
  · intro h t ht c hc
    exact h c.toFilter (mem_filters.mpr ⟨t, ht, c, hc, rfl⟩)

/-- All matchers select a record just if every text that is a condition holds of it. -/
theorem selects_iff {texts : List String} {ms : List Matcher}
    (h : List.Forall₂ (fun f m => Matcher.ofFilter f = .ok m) (filters texts) ms) (r : Record) :
    (∀ m ∈ ms, m.selects r = true) ↔ ∀ t ∈ texts, Passes t r := by
  rw [Matcher.forall_matchers_iff h]
  constructor
  · intro hall t ht c hc
    obtain ⟨m, hm, hselects⟩ := hall c.toFilter (mem_filters.mpr ⟨t, ht, c, hc, rfl⟩)
    exact (Matcher.selects_iff hm r).mp hselects
  · intro hall f hf
    obtain ⟨m, hm⟩ := Matcher.exists_matcher h f hf
    obtain ⟨t, ht, c, hc, rfl⟩ := mem_filters.mp hf
    exact ⟨m, hm, (Matcher.selects_iff hm r).mpr (hall t ht c hc)⟩

open Classical in
/-- A segment that can be evaluated keeps from the store just the records that all texts let
pass. -/
theorem evaluate_eq_ok {a : Access} {s : Store} {texts : List String} {rs : List Record} :
    evaluate a s (some texts) = .ok rs ↔ a.down = false ∧ (∀ t ∈ texts, Searchable t) ∧
      rs = s.records.filter fun r => ∀ t ∈ texts, Passes t r := by
  have hfilter : ∀ {ms : List Matcher},
      List.Forall₂ (fun f m => Matcher.ofFilter f = .ok m) (filters texts) ms →
      (s.records.filter fun r => ms.all fun m => m.selects r) =
        s.records.filter fun r => ∀ t ∈ texts, Passes t r := by
    intro ms hms
    refine List.filter_congr fun r _ => ?_
    rw [Bool.eq_iff_iff, List.all_eq_true, decide_eq_true_iff]
    exact selects_iff hms r
  unfold evaluate Access.find Store.find
  cases hdown : a.down with
  | true => simp
  | false =>
    constructor
    · intro h
      cases hms : (filters texts).mapM Matcher.ofFilter with
      | error fault => simp [hms, bind, Except.bind] at h
      | ok ms =>
        have hall := Matcher.mapM_ofFilter.mp hms
        simp only [hms, bind, Except.bind, if_false, Except.ok.injEq, Bool.false_eq_true] at h
        exact ⟨rfl, (forall_searchable texts).mpr (Matcher.exists_matcher hall), h ▸ hfilter hall⟩
    · rintro ⟨-, hs, rfl⟩
      obtain ⟨ms, hms⟩ := Matcher.exists_matchers ((forall_searchable texts).mp hs)
      simp [Matcher.mapM_ofFilter.mpr hms, bind, Except.bind, hfilter hms]

/-- A text that is no condition changes nothing, wherever it stands. -/
theorem evaluate_insert (a : Access) (s : Store) (texts rest : List String) {t : String}
    (h : ∀ c, Condition.parse t ≠ .ok c) :
    evaluate a s (some (texts ++ t :: rest)) = evaluate a s (some (texts ++ rest)) := by
  have hfilters : filters (texts ++ t :: rest) = filters (texts ++ rest) := by
    cases ht : Condition.parse t with
    | ok c => exact absurd ht (h c)
    | error reason => simp [filters_eq, ht, Except.toOption]
  simp only [evaluate, hfilters]

/-- Neither the order of the texts nor how often each stands there counts. -/
theorem evaluate_congr {a : Access} {s : Store} {texts others : List String} {rs : List Record}
    (h : ∀ t, t ∈ texts ↔ t ∈ others) :
    evaluate a s (some texts) = .ok rs ↔ evaluate a s (some others) = .ok rs := by
  classical
  have hfilter : (s.records.filter fun r => ∀ t ∈ texts, Passes t r) =
      s.records.filter fun r => ∀ t ∈ others, Passes t r :=
    List.filter_congr fun r _ => decide_eq_decide.mpr (by simp only [h])
  rw [evaluate_eq_ok, evaluate_eq_ok, hfilter]
  simp only [h]

/-- Two lists that are asked for at once give the records that each of them gives. -/
theorem evaluate_append {a : Access} {s : Store} {texts others : List String} {rs : List Record} :
    evaluate a s (some (texts ++ others)) = .ok rs ↔
      ∃ as bs, evaluate a s (some texts) = .ok as ∧ evaluate a s (some others) = .ok bs ∧
        rs = as.filter fun r => r ∈ bs := by
  classical
  have hfilter : (s.records.filter fun r => ∀ t ∈ texts ++ others, Passes t r) =
      (s.records.filter fun r => ∀ t ∈ texts, Passes t r).filter fun r =>
        r ∈ s.records.filter fun r => ∀ t ∈ others, Passes t r := by
    rw [List.filter_filter]
    refine List.filter_congr fun r hr => ?_
    rw [Bool.eq_iff_iff, Bool.and_eq_true, decide_eq_true_iff, decide_eq_true_iff,
      decide_eq_true_iff, List.mem_filter, decide_eq_true_iff, List.forall_mem_append]
    exact ⟨fun h => ⟨⟨hr, h.2⟩, h.1⟩, fun h => ⟨h.2, h.1.2⟩⟩
  simp only [evaluate_eq_ok]
  constructor
  · rintro ⟨hd, hs, rfl⟩
    obtain ⟨hs, ht⟩ := List.forall_mem_append.mp hs
    exact ⟨_, _, ⟨hd, hs, rfl⟩, ⟨hd, ht, rfl⟩, hfilter⟩
  · rintro ⟨_, _, ⟨hd, hs, rfl⟩, ⟨-, ht, rfl⟩, rfl⟩
    exact ⟨hd, List.forall_mem_append.mpr ⟨hs, ht⟩, hfilter.symm⟩

/-- Evaluation is conjunction over the texts that are conditions. -/
theorem evaluate_conjunction (a : Access) (s : Store) :
    (∀ texts rs, evaluate a s (some texts) = .ok rs →
      (rs.Pairwise fun x y => x.id < y.id) ∧
      ∀ r, r ∈ rs ↔ r ∈ s.records ∧ ∀ t ∈ texts, ∀ c, Condition.parse t = .ok c → c.Holds r) ∧
    (∀ texts rest t, (∀ c, Condition.parse t ≠ .ok c) →
      evaluate a s (some (texts ++ t :: rest)) = evaluate a s (some (texts ++ rest))) ∧
    (∀ texts, a.down = false → (∀ t ∈ texts, ∀ c, Condition.parse t ≠ .ok c) →
      evaluate a s (some texts) = .ok s.records) ∧
    (∀ texts others, (∀ t, t ∈ texts ↔ t ∈ others) → ∀ rs,
      evaluate a s (some texts) = .ok rs ↔ evaluate a s (some others) = .ok rs) ∧
    (∀ texts others rs, evaluate a s (some (texts ++ others)) = .ok rs ↔
      ∃ xs ys, evaluate a s (some texts) = .ok xs ∧ evaluate a s (some others) = .ok ys ∧
        rs = xs.filter fun r => r ∈ ys) := by
  classical
  refine ⟨?_, fun texts rest t => evaluate_insert a s texts rest, ?_,
    fun texts others h rs => evaluate_congr h, fun texts others rs => evaluate_append⟩
  · intro texts rs h
    obtain ⟨-, -, rfl⟩ := evaluate_eq_ok.mp h
    refine ⟨s.ordered.filter _, fun r => ?_⟩
    rw [List.mem_filter, decide_eq_true_iff]
    rfl
  · intro texts hd h
    refine evaluate_eq_ok.mpr ⟨hd, fun t ht c hc => absurd hc (h t ht c), ?_⟩
    rw [List.filter_eq_self.mpr]
    intro r _
    exact decide_eq_true fun t ht c hc => absurd hc (h t ht c)

def boots : Record :=
  ⟨7, "Boots", .ofRatio false 25 2, "instock", none, "Shoes", ["red", "x"], true, ⟨0, 0⟩⟩

def socks : Record :=
  ⟨3, "Socks", .ofInt 4, "instock", some 12, "Shoes", ["x"], false, ⟨0, 0⟩⟩

def shelf : Store :=
  .ofRecords [boots, socks]

theorem evaluate_conjunction_shelf :
    (∀ r, r ∈ [boots] ↔ r ∈ shelf.records ∧ ∀ t ∈ ["price > 10", "oops", "category = Shoes"],
      ∀ c, Condition.parse t = .ok c → c.Holds r) ∧
    evaluate .open_ shelf (some ["price > 10", "oops", "category = Shoes"]) =
      evaluate .open_ shelf (some ["price > 10", "category = Shoes"]) ∧
    evaluate .open_ shelf (some ["oops"]) = .ok [socks, boots] ∧
    evaluate .open_ shelf (some ["category = Shoes", "category = Shoes"]) = .ok [socks, boots] := by
  obtain ⟨hmem, hinsert, hnone, hcongr, -⟩ := evaluate_conjunction .open_ shelf
  have hparse : ∀ c, Condition.parse "oops" ≠ .ok c := by
    intro c hc
    have h : Condition.parse "oops" = .error .noOperator := by decide +kernel
    rw [h] at hc
    cases hc
  have hrecords : shelf.records = [socks, boots] := by decide +kernel
  refine ⟨(hmem _ _ ?_).2, hinsert ["price > 10"] ["category = Shoes"] "oops" hparse, ?_, ?_⟩
  · rfl
  · rw [← hrecords]
    exact hnone _ rfl (by simpa using hparse)
  · refine (hcongr ["category = Shoes"] _ (by simp) _).mp ?_
    rfl

end Segment

end Segments
