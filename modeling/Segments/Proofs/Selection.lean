import Segments.Proofs.Matching
import Segments.Proofs.Portable
import Segments.Proofs.QueryText

namespace Segments

open Catalog Query

theorem Comparison.token?_isSome {c : Comparison} (h : c ≠ .pattern) : c.token?.isSome = true := by
  cases c with
  | pattern => exact absurd rfl h
  | _ => rfl

namespace Double

theorem readFinite?_ne_nan {cs : List Char} {x : Double} (h : readFinite? cs = some x) :
    x ≠ .nan := by
  rw [readFinite?, Option.filter_eq_some_iff] at h
  rintro rfl
  exact absurd h.2 (by decide)

end Double

theorem Literal.ofChars_ne_nan (cs : List Char) : ofChars cs ≠ .number .nan := by
  unfold ofChars ofWord
  simp only
  split
  · simp
  · split
    · simp
    · split
      · rename_i x hx
        intro h
        exact Double.readFinite?_ne_nan hx (Literal.number.inj h)
      · simp

/-- No condition writes a literal that is not a number; only records can have one. -/
theorem Condition.value_ne_nan {text : String} {c : Condition} (h : parse text = .ok c) :
    c.value ≠ .number .nan := by
  unfold parse Condition.ofChars at h
  simp only at h
  split at h
  · cases h
  · split at h
    · cases h
    · split at h
      · cases h
      · split at h
        · cases h
        · cases h
          exact Literal.ofChars_ne_nan _

/-- A number is to be searched for a pattern; its text form is for each store to choose. -/
def Filter.searchesNumber (f : Filter) : Bool :=
  f.comparison == .pattern && (Field.ofName? f.field).any fun field => field.kind.isNumeric

/-- What holds of the filters of conditions that were read from texts. -/
structure Filter.Sound (f : Filter) : Prop where
  number : f.value ≠ .number .nan
  pattern : f.comparison = .pattern → ∃ text, f.value = .text (Pattern.portable text)

theorem Condition.toFilter_sound {c : Condition} (h : c.value ≠ .number .nan) :
    c.toFilter.Sound := by
  unfold toFilter
  cases c.operator with
  | matching => exact ⟨by simp [Comparison.ofOperator], fun _ => ⟨_, rfl⟩⟩
  | _ => exact ⟨h, by simp [Comparison.ofOperator]⟩

theorem Segment.filters_sound {texts : List String} {f : Filter} (hf : f ∈ filters texts) :
    f.Sound := by
  obtain ⟨text, -, c, hc, rfl⟩ := mem_filters.mp hf
  exact Condition.toFilter_sound (Condition.value_ne_nan hc)

namespace Query

/-- Numbers compare as they do in the program; what is not a number has no order there. -/
theorem Engine.compareNumbers_of_ne_nan {e : Engine} {x y : Double} (hx : x ≠ .nan)
    (hy : y ≠ .nan) : e.compareNumbers x y = x.compare? y := by
  cases x with
  | nan => exact absurd rfl hx
  | number s p =>
    cases y with
    | nan => exact absurd rfl hy
    | number t q => rfl

/-- What only the database makes of a filter: it ranks a price that is not a number, as it ranks
them all, and finds the filter's comparison true. -/
def Engine.Ranks (e : Engine) (m : Matcher) (r : Record) : Prop :=
  r.price = .nan ∧ m.field = some .price ∧
    ∃ y, m.value = .number y ∧ (e.besideNan .nan y).any m.comparison.accepts = true

theorem Engine.not_ranks_of_field {e : Engine} {m : Matcher} {r : Record}
    (h : m.field ≠ some .price) : ¬ e.Ranks m r :=
  fun hranks => h hranks.2.1

theorem Engine.not_ranks_of_value {e : Engine} {m : Matcher} {r : Record}
    (h : ∀ y, m.value ≠ .number y) : ¬ e.Ranks m r := by
  rintro ⟨-, -, y, hy, -⟩
  exact h y hy

/-- A price that is a number has its place in every database. -/
theorem Engine.not_ranks_of_price {e : Engine} {m : Matcher} {r : Record}
    (h : r.price ≠ .nan) : ¬ e.Ranks m r :=
  fun hranks => h hranks.1

theorem accepts?_token {c : Comparison} {token : String} (h : c.token? = some token)
    (o : Ordering) : accepts? token o = some (c.accepts o) := by
  rcases Comparison.token_cases h with
    ⟨rfl, rfl⟩ | ⟨rfl, rfl⟩ | ⟨rfl, rfl⟩ | ⟨rfl, rfl⟩ | ⟨rfl, rfl⟩ <;>
    cases o <;> rfl

variable {e : Engine} {ps : List Parameter} {r : Record} {element : Option String}

/-- A comparison is true if its outcome is one that is asked for. -/
theorem Test.truth?_compared {t : Test} {c : Comparison} {d : Datum} {p : Parameter}
    {o : Option Ordering} (ht : c.token? = some t.operator)
    (hd : t.left.value? e r element = some d) (hp : parameter? ps t.mark = some p)
    (ho : compared? e d p = some o) :
    ∃ u, t.truth? e ps r element = some u ∧ (u = .yes ↔ o.any c.accepts = true) := by
  have hne : t.operator ≠ "~*" := by
    rcases Comparison.token_cases ht with ⟨_, h⟩ | ⟨_, h⟩ | ⟨_, h⟩ | ⟨_, h⟩ | ⟨_, h⟩ <;>
      rw [h] <;> decide
  cases o with
  | none => exact ⟨.unknown, by simp [truth?, hd, hp, hne, ho], by simp⟩
  | some o =>
    refine ⟨.ofBool (c.accepts o), by simp [truth?, hd, hp, hne, ho, accepts?_token ht], ?_⟩
    rw [Truth.ofBool_eq_yes, Option.any_some]

/-- The database finds the pattern where it is found here, by what is asked of it. -/
theorem Test.truth?_searched {t : Test} {s text : String} {pattern : Pattern}
    (he : e.Agrees) (hpat : Pattern.compile text = .ok pattern) (ht : t.operator = "~*")
    (hd : t.left.value? e r element = some (.text s))
    (hp : parameter? ps t.mark = some (.text text)) :
    ∃ u, t.truth? e ps r element = some u ∧ (u = .yes ↔ pattern.isMatch s = true) := by
  refine ⟨.ofBool (e.found text s), by simp [truth?, hd, hp, ht, searched?], ?_⟩
  rw [he.found _ _ _ hpat, Truth.ofBool_eq_yes]

theorem mapM_truth {f : String → Option Truth} {passes : String → Bool} {items : List String}
    (h : ∀ s ∈ items, ∃ u, f s = some u ∧ (u = .yes ↔ passes s = true)) :
    ∃ us, items.mapM f = some us ∧ us.any (· == .yes) = items.any passes := by
  induction items with
  | nil => exact ⟨[], rfl, rfl⟩
  | cons s items ih =>
    obtain ⟨u, hf, hu⟩ := h s List.mem_cons_self
    obtain ⟨us, hm, hany⟩ := ih fun t ht => h t (List.mem_cons_of_mem _ ht)
    refine ⟨u :: us, by simp [hf, hm], ?_⟩
    have hb : (u == .yes) = passes s := by
      rw [Bool.eq_iff_iff, beq_iff_eq, hu]
    simp [hb, hany]

/-- Some element passes if the test is true of it. -/
theorem Term.truth?_anyOf {t : Test} {passes : String → Bool}
    (h : ∀ s, ∃ u, t.truth? e ps r (some s) = some u ∧ (u = .yes ↔ passes s = true)) :
    ∃ u, (Term.anyOf .tags t).truth? e ps r = some u ∧
      (u = .yes ↔ r.tags.any passes = true) := by
  obtain ⟨us, hm, hany⟩ := @mapM_truth _ _ r.tags fun s _ => h s
  refine ⟨.ofBool (us.any (· == .yes)), by simp [truth?, Datum.ofRecord, hm], ?_⟩
  rw [Truth.ofBool_eq_yes, hany]

/-- Whole numbers in columns compare with numbers as those of records do. -/
theorem compared?_integer {f : Field} (hf : f.kind = .integer) {y : Double} (hy : y ≠ .nan) :
    compared? e (.ofRecord r f) (.number y) = some ((r.get f).compare? (.number y)) := by
  cases f with
  | id => exact congrArg some (Engine.compareNumbers_of_ne_nan (Double.ofInt_ne_nan _) hy)
  | stockQuantity =>
    cases hq : r.stockQuantity with
    | none => simp [Datum.ofRecord, Record.get, hq, compared?, FieldValue.compare?]
    | some n =>
      simp [Datum.ofRecord, Record.get, hq, compared?, FieldValue.compare?,
        Engine.compareNumbers_of_ne_nan (Double.ofInt_ne_nan _) hy]
  | _ => cases hf

/-- A price compares with a number as that of the record does, or as the database ranks what is
not a number. -/
theorem compared?_price {c : Comparison} {y : Double} (hy : y ≠ .nan) :
    ((e.compareNumbers r.price y).any c.accepts = true ↔
      (r.price.compare? y).any c.accepts = true ∨
        e.Ranks (Matcher.mk (some .price) c (.number y) none) r) := by
  by_cases hprice : r.price = .nan
  · have hbeside : e.compareNumbers r.price y = e.besideNan .nan y := by
      rw [hprice]
      rfl
    have hnone : r.price.compare? y = none := by
      rw [hprice]
      rfl
    rw [hbeside, hnone]
    constructor
    · intro h
      exact .inr ⟨hprice, rfl, y, rfl, h⟩
    · rintro (h | ⟨-, -, z, hz, h⟩)
      · cases h
      · cases hz
        exact h
  · rw [Engine.compareNumbers_of_ne_nan hprice hy]
    exact (or_iff_left (Engine.not_ranks_of_price hprice)).symm

/-- Texts compare by their bytes as they do by their characters. -/
theorem compared?_bytes (s t : String) :
    compared? e (.bytes s) (.text t) = some ((FieldValue.text s).compare? (.text t)) := by
  simp [compared?, FieldValue.compare?, Text.compareBytes_encode]

end Query

namespace Clause

theorem parameter?_number {k : Kind} (hk : k.isNumeric = true) {v : Literal} {p : Parameter}
    (h : parameter? k v = some p) : ∃ y, v = .number y ∧ p = .number y := by
  cases k <;> cases v <;> simp_all [parameter?, Kind.isNumeric]

variable {e : Engine} {ps : List Parameter} {r : Record} {before : Nat}

/-- Only of a price may a database think otherwise. -/
theorem truth?_compared {c : Comparison} {token : String} (hc : c.token? = some token)
    {field : Field} (hfield : field ≠ .price) {v : Literal} {p : Parameter}
    (hv : v ≠ .number .nan) (hp : parameter? field.kind v = some p) (hps : ps[before]? = some p) :
    ∃ u, ((compared field token p).term before).truth? e ps r = some u ∧
      (u = .yes ↔ (Matcher.mk (some field) c v none).selects r = true) := by
  have hm : Query.parameter? ps (before + 1) = some p := hps
  cases field with
  | price => exact absurd rfl hfield
  | id | stockQuantity =>
    obtain ⟨y, rfl, rfl⟩ := parameter?_number rfl hp
    have hy : y ≠ .nan := fun h => hv (congrArg _ h)
    rw [Matcher.selects_of_ne_tags rfl (by decide)]
    exact Test.truth?_compared hc rfl hm (compared?_integer rfl hy)
  | title | stockStatus | category =>
    cases v with
    | text s =>
      cases hp
      exact Test.truth?_compared hc rfl hm (compared?_bytes _ _)
    | _ => cases hp
  | tags =>
    cases v with
    | text s =>
      cases hp
      exact Term.truth?_anyOf fun t => Test.truth?_compared hc rfl hm (compared?_bytes t _)
    | _ => cases hp
  | onSale =>
    cases v with
    | boolean b =>
      cases hp
      have ho : compared? e (.boolean r.onSale) (.boolean b) =
          some ((FieldValue.boolean r.onSale).compare? (.boolean b)) := rfl
      exact Test.truth?_compared hc rfl hm ho
    | _ => cases hp
  | createdAt =>
    cases v with
    | text s =>
      cases hi : Time.Instant.read? s with
      | none => simp [parameter?, Field.kind, hi] at hp
      | some i =>
        simp only [parameter?, Field.kind, hi, Option.map_some, Option.some.injEq] at hp
        subst hp
        have ho : compared? e (.timestamp r.createdAt) (.timestamp i) =
            some ((FieldValue.timestamp r.createdAt).compare? (.text s)) := by
          simp [compared?, FieldValue.compare?, hi]
        exact Test.truth?_compared hc rfl hm ho
    | _ => cases hp

/-- Prices compare as numbers do; of one that is not a number the database has the say. -/
theorem truth?_price {c : Comparison} {token : String} (hc : c.token? = some token)
    {v : Literal} {p : Parameter} (hv : v ≠ .number .nan)
    (hp : parameter? Field.price.kind v = some p) (hps : ps[before]? = some p) :
    ∃ u, ((compared .price token p).term before).truth? e ps r = some u ∧
      (u = .yes ↔ (Matcher.mk (some .price) c v none).selects r = true ∨
        e.Ranks (Matcher.mk (some .price) c v none) r) := by
  obtain ⟨y, rfl, rfl⟩ := parameter?_number rfl hp
  have hy : y ≠ .nan := fun h => hv (congrArg _ h)
  have hm : Query.parameter? ps (before + 1) = some (.number y) := hps
  have ho : compared? e (.double r.price) (.number y) = some (e.compareNumbers r.price y) := rfl
  obtain ⟨u, hu, hyes⟩ : ∃ u,
      ((compared .price token (.number y)).term before).truth? e ps r = some u ∧
        (u = .yes ↔ (e.compareNumbers r.price y).any c.accepts = true) :=
    Test.truth?_compared hc rfl hm ho
  refine ⟨u, hu, ?_⟩
  rw [hyes, compared?_price hy, Matcher.selects_of_ne_tags rfl (by decide)]
  rfl

theorem truth?_searched (he : e.Agrees) {field : Field} (hf : field.kind.isNumeric = false)
    {text : String} {pattern : Pattern} (hpat : Pattern.compile text = .ok pattern)
    (hps : ps[before]? = some (.text text)) (c : Comparison) (v : Literal) :
    ∃ u, ((searched field text).term before).truth? e ps r = some u ∧
      (u = .yes ↔ (Matcher.mk (some field) c v (some pattern)).selects r = true) := by
  have hm : Query.parameter? ps (before + 1) = some (.text text) := hps
  cases field with
  | id | price | stockQuantity => cases hf
  | title | stockStatus | category =>
    exact Test.truth?_searched he hpat rfl rfl hm
  | tags => exact Term.truth?_anyOf fun t => Test.truth?_searched he hpat rfl rfl hm
  | onSale => exact Test.truth?_searched he hpat rfl rfl hm
  | createdAt =>
    have hd : (Operand.laidOut (.column .createdAt) Engine.wholeSeconds).value? e r none =
        some (.text r.createdAt.renderWhole) := by
      simp [Operand.value?, Datum.ofRecord, he.layOut]
    exact Test.truth?_searched he hpat rfl hd hm

/-- A literal that no parameter is made of compares with nothing in the field. -/
theorem selects_of_parameter?_none {field : Field} {v : Literal}
    (h : parameter? field.kind v = none) (c : Comparison) :
    (Matcher.mk (some field) c v none).selects r = false := by
  cases field with
  | id | price | stockQuantity =>
    rw [Matcher.selects_of_ne_tags rfl (by decide)]
    cases v with
    | number y => cases h
    | _ =>
      cases hq : r.stockQuantity <;>
        simp [Matcher.matchesValue, Record.get, hq, FieldValue.compare?]
  | title | stockStatus | category =>
    cases v with
    | text s => cases h
    | _ => rfl
  | tags =>
    cases v with
    | text s => cases h
    | _ =>
      simp [Matcher.selects, Matcher.matchesField, Matcher.matchesValue, Record.get,
        FieldValue.compare?]
  | onSale =>
    cases v with
    | boolean b => cases h
    | _ => rfl
  | createdAt =>
    cases v with
    | text s =>
      have hi : Time.Instant.read? s = none := by simpa [parameter?, Field.kind] using h
      simp [Matcher.selects, Matcher.matchesField, Matcher.matchesValue, Record.get,
        FieldValue.compare?, hi]
    | _ => rfl

/-- The clause of a filter is true of a row just if the filter selects its record, or the database
ranks the price. -/
theorem truth?_ofFilter (he : e.Agrees) (r : Record) {f : Filter} (hf : f.Sound)
    (hs : f.searchesNumber = false) {m : Matcher} (hm : Matcher.ofFilter f = .ok m)
    (hps : (ofFilter f).parameters <+: ps.drop before) :
    ∃ u, ((ofFilter f).term before).truth? e ps r = some u ∧
      (u = .yes ↔ m.selects r = true ∨ e.Ranks m r) := by
  have hhead : ∀ {p : Parameter}, (ofFilter f).parameters = [p] → ps[before]? = some p := by
    intro p hp
    rw [hp] at hps
    obtain ⟨rest, hrest⟩ := hps
    have h0 : (ps.drop before)[0]? = some p := by rw [← hrest]; rfl
    simpa using h0
  cases hfield : Field.ofName? f.field with
  | none =>
    have hnever : ofFilter f = .never := by simp [ofFilter, hfield]
    rw [hnever]
    refine ⟨.no, rfl, ?_⟩
    have hm : m.field = none := by
      rcases Matcher.ofFilter_cases hm with ⟨_, _, _, rfl⟩ | ⟨_, rfl⟩ <;> exact hfield
    have hranks : ¬ e.Ranks m r := Engine.not_ranks_of_field (by simp [hm])
    simp [Matcher.selects, hm, hranks]
  | some field =>
    rcases Matcher.ofFilter_cases hm with ⟨hc, pattern, hp, rfl⟩ | ⟨hc, rfl⟩
    · obtain ⟨text, hv⟩ := hf.pattern hc
      rw [hv] at hp
      replace hp : Pattern.compile (Pattern.portable text) = .ok pattern := hp
      have hclause : ofFilter f = .searched field (Pattern.portable text) := by
        simp [ofFilter, hfield, hc, Comparison.token?, hv, Literal.display,
          Pattern.portable_portable hp]
      have hk : field.kind.isNumeric = false := by
        simpa [Filter.searchesNumber, hc, hfield] using hs
      have hranks : ¬ e.Ranks ⟨Field.ofName? f.field, .pattern, f.value, some pattern⟩ r :=
        Engine.not_ranks_of_value (by simp [hv])
      rw [hclause] at hhead ⊢
      rw [or_iff_left hranks, hfield]
      exact truth?_searched he hk hp (hhead rfl) _ _
    · obtain ⟨token, ht⟩ := Option.isSome_iff_exists.mp (Comparison.token?_isSome hc)
      cases hparam : parameter? field.kind f.value with
      | none =>
        have hnever : ofFilter f = .never := by simp [ofFilter, hfield, ht, hparam]
        have hranks : ¬ e.Ranks ⟨some field, f.comparison, f.value, none⟩ r := by
          rintro ⟨-, hprice, y, hy, -⟩
          cases hprice
          rw [show f.value = .number y from hy] at hparam
          cases hparam
        rw [hnever, hfield, or_iff_left hranks, selects_of_parameter?_none hparam]
        exact ⟨.no, rfl, by simp⟩
      | some p =>
        have hclause : ofFilter f = .compared field token p := by
          simp [ofFilter, hfield, ht, hparam]
        rw [hclause] at hhead ⊢
        rw [hfield]
        by_cases hprice : field = .price
        · subst hprice
          exact truth?_price ht hf.number hparam (hhead rfl)
        · rw [or_iff_left (Engine.not_ranks_of_field (by simpa using hprice))]
          exact truth?_compared ht hprice hf.number hparam (hhead rfl)

end Clause

/-- The induction is on the filters, with the number of parameters that come before. -/
theorem truth?_termsOf {e : Engine} {ps : List Parameter} {r : Record} (he : e.Agrees)
    {fs : List Filter} {ms : List Matcher}
    (hms : List.Forall₂ (fun f m => Matcher.ofFilter f = .ok m) fs ms)
    (hfs : ∀ f ∈ fs, f.Sound ∧ f.searchesNumber = false) {before : Nat}
    (hps : (fs.map Clause.ofFilter).flatMap Clause.parameters <+: ps.drop before) :
    ∃ us, (termsOf before (fs.map Clause.ofFilter)).mapM (fun t => t.truth? e ps r) = some us ∧
      (Truth.all us = .yes ↔ ∀ m ∈ ms, m.selects r = true ∨ e.Ranks m r) := by
  induction hms generalizing before with
  | nil => exact ⟨[], rfl, by simp [Truth.all]⟩
  | @cons f m fs ms hm hms ih =>
    obtain ⟨hf, hs⟩ := hfs f List.mem_cons_self
    simp only [List.map_cons, List.flatMap_cons] at hps
    have hhead : (Clause.ofFilter f).parameters <+: ps.drop before :=
      (List.prefix_append _ _).trans hps
    have htail : (fs.map Clause.ofFilter).flatMap Clause.parameters <+:
        ps.drop (before + (Clause.ofFilter f).parameters.length) := by
      obtain ⟨rest, hrest⟩ := hps
      refine ⟨rest, ?_⟩
      rw [← List.drop_drop, ← hrest, List.append_assoc, List.drop_left]
    obtain ⟨u, hu, hyes⟩ := Clause.truth?_ofFilter he r hf hs hm hhead
    obtain ⟨us, hus, hall⟩ := ih (fun g hg => hfs g (List.mem_cons_of_mem _ hg)) htail
    refine ⟨u :: us, by simp [termsOf, hu, hus], ?_⟩
    rw [List.forall_mem_cons, ← hall, ← hyes]
    exact Truth.and_eq_yes

namespace Segment

/-- The filters of the texts, less those that search the text form of a number. -/
def portableFilters (texts : List String) : List Filter :=
  (filters texts).filter fun f => !f.searchesNumber

/-- The matchers of filters and the statement that is made of them select the same records, except
that a database may rank prices that are not a number. -/
theorem truth?_statement {e : Engine} (he : e.Agrees) {texts : List String} {ms : List Matcher}
    (hms : (portableFilters texts).mapM Matcher.ofFilter = .ok ms) (r : Record) :
    ∃ u, Query.truth? e (Statement.ofFilters (portableFilters texts)).text
        (Statement.ofFilters (portableFilters texts)).parameters r = some u ∧
      (u = .yes ↔ ∀ m ∈ ms, m.selects r = true ∨ e.Ranks m r) := by
  have hfs : ∀ f ∈ portableFilters texts, f.Sound ∧ f.searchesNumber = false := by
    intro f hf
    obtain ⟨hf, hs⟩ := List.mem_filter.mp hf
    exact ⟨filters_sound hf, by simpa using hs⟩
  generalize portableFilters texts = fs at hms hfs ⊢
  have hlegal : ∀ c ∈ fs.map Clause.ofFilter, c.Legal := by
    intro c hc
    obtain ⟨f, -, rfl⟩ := List.mem_map.mp hc
    exact Clause.legal_ofFilter f
  have hps : (fs.map Clause.ofFilter).flatMap Clause.parameters <+:
      (Statement.ofFilters fs).parameters.drop 0 := List.prefix_rfl
  obtain ⟨us, hus, hall⟩ := truth?_termsOf he (Matcher.mapM_ofFilter.mp hms) hfs hps
  have hterms := Statement.terms?_text hlegal
  cases fs with
  | nil =>
    cases Matcher.mapM_ofFilter.mp hms
    refine ⟨.yes, ?_, by simp⟩
    simp only [Query.truth?, Statement.ofFilters, hterms]
    rfl
  | cons f fs =>
    refine ⟨Truth.all us, ?_, hall⟩
    simp only [Query.truth?, Statement.ofFilters, hterms]
    refine Option.bind_eq_some_iff.mpr ⟨_, rfl, ?_⟩
    exact Option.bind_eq_some_iff.mpr ⟨us, hus, rfl⟩

/-- A database that agrees, and puts what is not a number above all numbers. -/
def plainEngine : Engine where
  found pattern subject :=
    match Pattern.compile pattern with
    | .ok p => p.isMatch subject
    | .error _ => false
  collated s t := Text.compareText s.toList t.toList
  besideNan x y := some (compare (x == .nan).toNat (y == .nan).toNat)
  written _ := ""
  layOut _ i := i.renderWhole

theorem plainEngine_agrees : plainEngine.Agrees where
  found pattern p subject h := by simp [plainEngine, h]
  layOut _ := rfl

def sampleTexts : List String :=
  ["price >= 12.5", "no condition", "tags |= ^.$", "category = Shoes"]

def sampleRecord : Record :=
  ⟨7, "Boots", .ofRatio false 25 2, "instock", none, "Shoes", ["red", "x"], true, ⟨0, 0⟩⟩

theorem truth?_statement_sample :
    ∃ ms, (portableFilters sampleTexts).mapM Matcher.ofFilter = .ok ms ∧ ms.length = 3 ∧
      Query.truth? plainEngine (Statement.ofFilters (portableFilters sampleTexts)).text
        (Statement.ofFilters (portableFilters sampleTexts)).parameters sampleRecord = some .yes ∧
      ∀ m ∈ ms, m.selects sampleRecord = true := by
  have htruth : Query.truth? plainEngine (Statement.ofFilters (portableFilters sampleTexts)).text
      (Statement.ofFilters (portableFilters sampleTexts)).parameters sampleRecord = some .yes := by
    decide +kernel
  have hlength : ((portableFilters sampleTexts).mapM Matcher.ofFilter).toOption.map List.length =
      some 3 := by decide +kernel
  cases hms : (portableFilters sampleTexts).mapM Matcher.ofFilter with
  | error fault =>
    rw [hms] at hlength
    cases hlength
  | ok ms =>
    rw [hms] at hlength
    have hprice : sampleRecord.price ≠ .nan := by decide
    obtain ⟨u, hu, hiff⟩ := truth?_statement plainEngine_agrees hms sampleRecord
    rw [htruth] at hu
    cases hu
    refine ⟨ms, rfl, Option.some.inj hlength, htruth, ?_⟩
    intro m hm
    exact (or_iff_left (Engine.not_ranks_of_price hprice)).mp (hiff.mp rfl m hm)

/-- A price that is not a number is above ten in the database, and not so to the matcher. -/
theorem truth?_statement_unranked :
    plainEngine.Agrees ∧
    ∃ ms, (portableFilters ["price > 10"]).mapM Matcher.ofFilter = .ok ms ∧
      Query.truth? plainEngine (Statement.ofFilters (portableFilters ["price > 10"])).text
        (Statement.ofFilters (portableFilters ["price > 10"])).parameters
        { sampleRecord with price := .nan } = some .yes ∧
      ∃ m ∈ ms, m.selects { sampleRecord with price := .nan } = false := by
  have hselects : ((portableFilters ["price > 10"]).mapM Matcher.ofFilter).toOption.map
      (·.map fun m => m.selects { sampleRecord with price := .nan }) = some [false] := by
    decide +kernel
  refine ⟨plainEngine_agrees, ?_⟩
  cases hms : (portableFilters ["price > 10"]).mapM Matcher.ofFilter with
  | error fault =>
    rw [hms] at hselects
    cases hselects
  | ok ms =>
    rw [hms] at hselects
    have hlist : ms.map (fun m => m.selects { sampleRecord with price := .nan }) = [false] :=
      Option.some.inj hselects
    refine ⟨ms, rfl, by decide +kernel, ?_⟩
    obtain ⟨m, hm, hfalse⟩ := List.mem_map.mp (hlist ▸ List.mem_singleton_self false)
    exact ⟨m, hm, hfalse⟩

end Segment

end Segments
