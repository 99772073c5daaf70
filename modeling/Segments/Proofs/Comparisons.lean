import Segments.Proofs.Scale

namespace Segments

open Catalog

namespace Comparison

open Point

def Asks : Comparison → Point → Point → Prop
  | .equal, p, q => p = q
  | .greater, p, q => Less q p
  | .greaterOrEqual, p, q => Less q p ∨ p = q
  | .less, p, q => Less p q
  | .lessOrEqual, p, q => Less p q ∨ p = q
  | .pattern, _, _ => False

theorem asks_iff {o : Ordering} {p q : Point} (h : Tells o p q) (c : Comparison) :
    c.Asks p q ↔ c.accepts o = true := by
  have htells : ∀ o', Tells o' p q ↔ o' = o := fun o' => ⟨fun h' => h'.unique h, fun heq => heq ▸ h⟩
  have hless : Less p q ↔ .lt = o := htells .lt
  have hequal : p = q ↔ .eq = o := htells .eq
  have hgreater : Less q p ↔ .gt = o := htells .gt
  cases c <;> simp only [Asks, hless, hequal, hgreater] <;> cases o <;> decide

end Comparison

namespace Filter

open Point

/-- The filter keeps the record. -/
def Selects (f : Filter) (r : Record) : Prop :=
  ∃ m, Matcher.ofFilter f = .ok m ∧ m.selects r = true

theorem ofFilter_comparison {name : String} {c : Comparison} (hc : c ≠ .pattern) (v : Literal) :
    Matcher.ofFilter ⟨name, c, v⟩ = .ok ⟨Field.ofName? name, c, v, none⟩ := by
  cases c with
  | pattern => exact absurd rfl hc
  | _ => rfl

/-- A comparison keeps the records that have a point in the field which stands to the point of the
literal as asked. -/
theorem selects_iff_points {name : String} {c : Comparison} (hc : c ≠ .pattern) (w : Literal)
    (r : Record) : Selects ⟨name, c, w⟩ r ↔ ∃ f, Field.ofName? name = some f ∧
      ∃ p ∈ r.points f, ∃ q, w.point? f.kind = some q ∧ c.Asks p q := by
  have hmatches : ∀ f, ∀ v ∈ (r.get f).elements,
      (v.compare? w).any c.accepts = true ↔
        ∃ p, v.point? = some p ∧ ∃ q, w.point? f.kind = some q ∧ c.Asks p q := by
    intro f v hv
    have hkind := Record.isOf_of_mem hv
    constructor
    · intro h
      cases hp : v.point? with
      | none =>
        rw [FieldValue.compare?_no_point hkind (.inl hp)] at h
        cases h
      | some p =>
        cases hq : w.point? f.kind with
        | none =>
          rw [FieldValue.compare?_no_point hkind (.inr hq)] at h
          cases h
        | some q =>
          obtain ⟨o, ho, htells⟩ := FieldValue.compare?_points hkind hp hq
          rw [ho] at h
          exact ⟨p, rfl, q, rfl, (Comparison.asks_iff htells c).mpr h⟩
    · rintro ⟨p, hp, q, hq, hasks⟩
      obtain ⟨o, ho, htells⟩ := FieldValue.compare?_points hkind hp hq
      rw [ho]
      exact (Comparison.asks_iff htells c).mp hasks
  unfold Selects
  simp only [ofFilter_comparison hc, Except.ok.injEq, exists_eq_left', Matcher.selects]
  cases hf : Field.ofName? name with
  | none => simp
  | some f =>
    simp only [Option.some.injEq, exists_eq_left', Matcher.matchesField_iff, Matcher.matchesValue,
      Record.points, List.mem_filterMap]
    constructor
    · rintro ⟨v, hv, h⟩
      obtain ⟨p, hp, hasks⟩ := (hmatches f v hv).mp h
      exact ⟨p, ⟨v, hv, hp⟩, hasks⟩
    · rintro ⟨p, ⟨v, hv, hp⟩, hasks⟩
      exact ⟨v, hv, (hmatches f v hv).mpr ⟨p, hp, hasks⟩⟩

/-- All three filters look at the same points, so that what holds of comparisons holds of
filters. -/
theorem selects_or {c a b : Comparison} (hc : c ≠ .pattern) (ha : a ≠ .pattern) (hb : b ≠ .pattern)
    (h : ∀ p q, c.Asks p q ↔ a.Asks p q ∨ b.Asks p q) (name : String) (v : Literal) (r : Record) :
    Selects ⟨name, c, v⟩ r ↔ Selects ⟨name, a, v⟩ r ∨ Selects ⟨name, b, v⟩ r := by
  rw [selects_iff_points hc, selects_iff_points ha, selects_iff_points hb]
  constructor
  · rintro ⟨f, hf, p, hp, q, hq, hasks⟩
    exact ((h p q).mp hasks).imp (fun hasks => ⟨f, hf, p, hp, q, hq, hasks⟩)
      fun hasks => ⟨f, hf, p, hp, q, hq, hasks⟩
  · rintro (⟨f, hf, p, hp, q, hq, hasks⟩ | ⟨f, hf, p, hp, q, hq, hasks⟩)
    · exact ⟨f, hf, p, hp, q, hq, (h p q).mpr (.inl hasks)⟩
    · exact ⟨f, hf, p, hp, q, hq, (h p q).mpr (.inr hasks)⟩

/-- What is asked of the later of two literals is asked of the earlier one too, if the comparison looks
for what comes after. -/
theorem selects_of_atMost {c : Comparison} (hc : c ≠ .pattern)
    (h : ∀ {p q q' : Point}, Less q q' ∨ q = q' → c.Asks p q' → c.Asks p q) {name : String} {f : Field}
    (hf : Field.ofName? name = some f) {v w : Literal} (hle : v.AtMost f.kind w) {r : Record}
    (hw : Selects ⟨name, c, w⟩ r) : Selects ⟨name, c, v⟩ r := by
  rw [selects_iff_points hc] at hw ⊢
  obtain ⟨f', hf', p, hp, q', hq', hasks⟩ := hw
  obtain ⟨a, b, ha, hb, hle⟩ := hle
  rw [hf, Option.some.injEq] at hf'
  subst hf'
  rw [hb, Option.some.injEq] at hq'
  subst hq'
  exact ⟨f, hf, p, hp, a, ha, h hle hasks⟩

theorem less_of_le {p q r : Point} (h : Less p q ∨ p = q) (h' : Less q r) : Less p r := by
  rcases h with h | rfl
  · exact h.trans h'
  · exact h'

/-- The three comparisons of which no two hold of the same points. -/
def apart : List Comparison :=
  [.less, .equal, .greater]

theorem ne_pattern_of_apart {c : Comparison} (h : c ∈ apart) : c ≠ .pattern := by
  rintro rfl
  exact absurd h (by decide)

theorem asks_apart {c d : Comparison} (hc : c ∈ apart) (hd : d ∈ apart) {p q : Point}
    (h : c.Asks p q) (h' : d.Asks p q) : c = d := by
  have htells : ∀ {c}, c ∈ apart → c.Asks p q → ∃ o, Tells o p q ∧ ∀ d ∈ apart,
      d.accepts o = true → d = c := by
    intro c hc h
    simp only [apart, List.mem_cons, List.not_mem_nil, or_false] at hc
    rcases hc with rfl | rfl | rfl
    · exact ⟨.lt, h, by decide⟩
    · exact ⟨.eq, h, by decide⟩
    · exact ⟨.gt, h, by decide⟩
  obtain ⟨o, ho, honly⟩ := htells hc h
  exact (honly d hd ((Comparison.asks_iff ho d).mp h')).symm

/-- Of two points that compare, one of the three holds. -/
theorem exists_asks_apart {o : Ordering} {p q : Point} (h : Tells o p q) :
    ∃ c ∈ apart, c.Asks p q := by
  cases o with
  | lt => exact ⟨.less, by decide, h⟩
  | eq => exact ⟨.equal, by decide, h⟩
  | gt => exact ⟨.greater, by decide, h⟩

/-- Of a field with one value at most one of the three keeps the record, whatever the literal. -/
theorem eq_of_selects_apart {f : Field} (hkind : f.kind ≠ .textList) {name : String}
    (hf : Field.ofName? name = some f) {c d : Comparison} (hc : c ∈ apart) (hd : d ∈ apart)
    {v : Literal} {r : Record} (h : Selects ⟨name, c, v⟩ r) (h' : Selects ⟨name, d, v⟩ r) : c = d := by
  rw [selects_iff_points (ne_pattern_of_apart hc)] at h
  rw [selects_iff_points (ne_pattern_of_apart hd)] at h'
  obtain ⟨g, hg, p, hp, q, hq, hasks⟩ := h
  obtain ⟨g', hg', p', hp', q', hq', hasks'⟩ := h'
  rw [hf, Option.some.injEq] at hg hg'
  subst hg hg'
  rw [hq, Option.some.injEq] at hq'
  subst hq'
  rw [Record.points_single hkind hp hp'] at hasks
  exact asks_apart hc hd hasks hasks'

theorem exists_selects_apart {f : Field} (hkind : f.kind ≠ .textList) {name : String}
    (hf : Field.ofName? name = some f) {v : Literal} (hv : v ≠ .number .nan)
    (hcompatible : v.Compatible f.kind) {r : Record} (hprice : r.price ≠ .nan)
    (hpresent : r.get f ≠ .absent) : ∃ c ∈ apart, Selects ⟨name, c, v⟩ r := by
  obtain ⟨p, hp⟩ := Record.exists_point hprice hkind hpresent
  obtain ⟨q, hq⟩ := (Literal.compatible_iff hv).mp hcompatible
  obtain ⟨w, hw, hwp⟩ := List.mem_filterMap.mp hp
  obtain ⟨o, -, htells⟩ := FieldValue.compare?_points (Record.isOf_of_mem hw) hwp hq
  obtain ⟨c, hc, hasks⟩ := exists_asks_apart htells
  exact ⟨c, hc, (selects_iff_points (ne_pattern_of_apart hc) v r).mpr ⟨f, hf, p, hp, q, hq, hasks⟩⟩

/-- Without a point in the field, or without one for the literal, there is nothing to compare. -/
theorem not_selects {name : String} {v : Literal} (hv : v ≠ .number .nan) {r : Record}
    (h : ∀ f, Field.ofName? name = some f → r.get f = .absent ∨ ¬ v.Compatible f.kind)
    {c : Comparison} (hc : c ≠ .pattern) : ¬ Selects ⟨name, c, v⟩ r := by
  rw [selects_iff_points hc]
  rintro ⟨f, hf, p, hp, q, hq, -⟩
  rcases h f hf with habsent | hincompatible
  · rw [Record.points, habsent] at hp
    cases hp
  · exact hincompatible ((Literal.compatible_iff hv).mpr ⟨q, hq⟩)

/-- The five comparisons of a field with a literal, neither being a NaN. What they ask is the order of
points. To be at least or at most as much is to be more or less or equal; of less, equal and more exactly one
holds of a field with one value, if it has a value and is compared with such literals, and no more than
one holds else; by a literal of another type, or without a value or a field, nothing is selected; and
what comes after a literal comes after every earlier one. -/
theorem comparisons_coherent {r : Record} (hprice : r.price ≠ .nan) {v : Literal}
    (hv : v ≠ .number .nan) (name : String) :
    (∀ c, c ≠ .pattern → (Selects ⟨name, c, v⟩ r ↔ ∃ f, Field.ofName? name = some f ∧
      ∃ p ∈ r.points f, ∃ q, v.point? f.kind = some q ∧ c.Asks p q)) ∧
    (Selects ⟨name, .greaterOrEqual, v⟩ r ↔
      Selects ⟨name, .greater, v⟩ r ∨ Selects ⟨name, .equal, v⟩ r) ∧
    (Selects ⟨name, .lessOrEqual, v⟩ r ↔
      Selects ⟨name, .less, v⟩ r ∨ Selects ⟨name, .equal, v⟩ r) ∧
    (∀ f, Field.ofName? name = some f → f.kind ≠ .textList →
      (∀ c ∈ apart, ∀ d ∈ apart, Selects ⟨name, c, v⟩ r → Selects ⟨name, d, v⟩ r → c = d) ∧
      (r.get f ≠ .absent → v.Compatible f.kind → ∃ c ∈ apart, Selects ⟨name, c, v⟩ r)) ∧
    ((∀ f, Field.ofName? name = some f → r.get f = .absent ∨ ¬ v.Compatible f.kind) →
      ∀ c, c ≠ .pattern → ¬ Selects ⟨name, c, v⟩ r) ∧
    (∀ w f, Field.ofName? name = some f → v.AtMost f.kind w →
      (Selects ⟨name, .greater, w⟩ r → Selects ⟨name, .greater, v⟩ r) ∧
      (Selects ⟨name, .greaterOrEqual, w⟩ r → Selects ⟨name, .greaterOrEqual, v⟩ r)) := by
  refine ⟨fun c hc => selects_iff_points hc v r, ?_, ?_, fun f hf hkind => ⟨?_, ?_⟩,
    fun h c hc => not_selects hv h hc, fun w f hf hle => ⟨?_, ?_⟩⟩
  · exact selects_or (by decide) (by decide) (by decide) (fun p q => Iff.rfl) name v r
  · exact selects_or (by decide) (by decide) (by decide) (fun p q => Iff.rfl) name v r
  · intro c hc d hd
    exact eq_of_selects_apart hkind hf hc hd
  · intro hpresent hcompatible
    exact exists_selects_apart hkind hf hv hcompatible hprice hpresent
  · refine selects_of_atMost (by decide) (fun hle h => ?_) hf hle
    exact less_of_le hle h
  · refine selects_of_atMost (by decide) (fun hle h => ?_) hf hle
    rcases h with h | rfl
    · exact .inl (less_of_le hle h)
    · exact hle.imp_right Eq.symm

/-- Boots come before shoes, so what is as late as shoes is as late as boots; the price stands in one way
to twelve; and of stock that is not tracked nothing is said. -/
theorem comparisons_coherent_boots :
    (Segment.boots.price ≠ .nan ∧ (Literal.text "Boots").AtMost .text (.text "Shoes") ∧
      Selects ⟨"category", .greaterOrEqual, .text "Boots"⟩ Segment.boots) ∧
    (∃ c ∈ apart, Selects ⟨"price", c, .number (.ofInt 12)⟩ Segment.boots) ∧
    (Segment.boots.get .stockQuantity = .absent ∧
      ¬ Selects ⟨"stock_quantity", .lessOrEqual, .number (.ofInt 12)⟩ Segment.boots) := by
  have hprice : Segment.boots.price ≠ .nan := by decide
  have hle : (Literal.text "Boots").AtMost .text (.text "Shoes") :=
    ⟨_, _, rfl, rfl, .inl (.text (by decide))⟩
  have hshoes : Selects ⟨"category", .greaterOrEqual, .text "Shoes"⟩ Segment.boots :=
    ⟨_, rfl, by decide⟩
  obtain ⟨-, -, -, -, -, hmono⟩ :=
    @comparisons_coherent Segment.boots hprice (.text "Boots") (by decide) "category"
  obtain ⟨-, -, -, hone, -⟩ :=
    @comparisons_coherent Segment.boots hprice (.number (.ofInt 12)) (by decide) "price"
  obtain ⟨-, -, -, -, hnone, -⟩ :=
    @comparisons_coherent Segment.boots hprice (.number (.ofInt 12)) (by decide) "stock_quantity"
  refine ⟨⟨hprice, hle, (hmono _ .category (by decide) hle).2 hshoes⟩,
    (hone .price (by decide) (by decide)).2 (by decide) trivial, rfl, ?_⟩
  refine hnone (fun f hf => .inl ?_) _ (by decide)
  have hfield : Field.ofName? "stock_quantity" = some .stockQuantity := by decide
  rw [hfield, Option.some.injEq] at hf
  rw [← hf]
  rfl

end Filter

end Segments
