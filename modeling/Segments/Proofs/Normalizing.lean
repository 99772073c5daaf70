import Segments.Proofs.Numerals
import Segments.Proofs.Shapes

namespace Segments.Storefront

open Json Text

def integer? : Json → Option Int
  | .number n => n.toInt64?
  | _ => none

def text? : Json → Option String
  | .text s => some s
  | _ => none

def boolean? : Json → Option Bool
  | .boolean b => some b
  | _ => none

def price? : Json → Option Price
  | .number n => some (.number n.toDouble)
  | .text s => some (.text s)
  | _ => none

def isName : Json → Bool
  | .null => true
  | .text _ => true
  | _ => false

/-- A term is an object, of which the name alone matters, or an array of the name or of nothing. -/
def isTerm : Json → Bool
  | .object members => members.all fun m => m.1 != "name" || isName m.2
  | .array [] => true
  | .array [v] => isName v
  | _ => false

def termName? : Json → Option String
  | .object members => (given? "name" (.object members)).bind text?
  | .array (v :: _) => text? v
  | _ => none

/-- The names of the terms in a list, none for a term without one. -/
def terms? : Json → Option (List (Option String))
  | .array items => if items.all isTerm then some (items.map termName?) else none
  | _ => none

/-- Nothing that a value has under a name is other than null or of the kind that is asked for. -/
def Admits {α : Type} (raw : Json) (name : String) (value? : Json → Option α) : Prop :=
  ∀ members, raw = .object members → ∀ v, (name, v) ∈ members → v = .null ∨ ∃ a, value? v = some a

structure Typed (raw : Json) : Prop where
  id : Admits raw "id" integer?
  name : Admits raw "name" text?
  price : Admits raw "price" price?
  stockStatus : Admits raw "stock_status" text?
  stockQuantity : Admits raw "stock_quantity" integer?
  categories : Admits raw "categories" terms?
  tags : Admits raw "tags" terms?
  onSale : Admits raw "on_sale" boolean?
  created : Admits raw "date_created" text?
  createdUniversal : Admits raw "date_created_gmt" text?

def Keyed (raw : Json) (id : Int) : Prop :=
  (given? "id" raw).bind integer? = some id

/-- The price is a number, or a text that writes one between blanks. -/
inductive Priced (raw : Json) : Double → Prop
  | number {n : Json.Number} : given? "price" raw = some (.number n) → Priced raw n.toDouble
  | text {s : String} {x : Double} : given? "price" raw = some (.text s) →
      Double.Written (trim s.toList) x → Priced raw x

def Usable (x : Double) : Prop :=
  x.isFinite = true ∧ x.compare? (.ofInt 0) ≠ some .lt

inductive PriceFault (raw : Json) : String → Prop
  | absent : given? "price" raw = none → PriceFault raw "<missing>"
  | unreadable {s : String} : given? "price" raw = some (.text s) →
      (∀ x, ¬ Double.Written (trim s.toList) x) → PriceFault raw s
  | unusable {x : Double} : Priced raw x → ¬ Usable x → PriceFault raw x.render

/-- The date, for which the universal one stands in only where there is no other. -/
def createdText? (raw : Json) : Option String :=
  ((given? "date_created" raw).or (given? "date_created_gmt" raw)).bind text?

inductive DateFault (raw : Json) : String → Prop
  | absent : createdText? raw = none → DateFault raw "<missing>"
  | unreadable {s : String} : createdText? raw = some s → Time.Instant.read? s = none →
      DateFault raw s

structure Stands (raw : Json) (r : Catalog.Record) : Prop where
  id : Keyed raw r.id
  price : Priced raw r.price
  usable : Usable r.price
  createdAt : ∃ s, createdText? raw = some s ∧ Time.Instant.read? s = some r.createdAt
  title : r.title = ((given? "name" raw).bind text?).getD ""
  stockStatus : r.stockStatus = ((given? "stock_status" raw).bind text?).getD ""
  stockQuantity : r.stockQuantity = (given? "stock_quantity" raw).bind integer?
  category : r.category = (((given? "categories" raw).bind terms?).getD []).head?.join.getD ""
  tags : r.tags = (((given? "tags" raw).bind terms?).getD []).filterMap fun name => name
  onSale : r.onSale = ((given? "on_sale" raw).bind boolean?).getD false

theorem optional_eq_ok {α : Type} {decode : Decoder α} {v : Json} {a : Option α} :
    Decode.optional decode v = .ok a ↔
      v = .null ∧ a = none ∨ v ≠ .null ∧ ∃ b, decode v = .ok b ∧ a = some b := by
  by_cases hnull : v = .null
  · subst hnull
    simp [Decode.optional, eq_comm]
  · have hsome : Decode.optional decode v = (decode v).map some := by
      cases v with
      | null => exact absurd rfl hnull
      | _ => rfl
    rw [hsome]
    cases decode v with
    | ok b => simp [hnull, Except.map, eq_comm]
    | error e => simp [hnull, Except.map]

theorem int64_eq_ok (v : Json) (n : Int) : Decode.int64 v = .ok n ↔ integer? v = some n := by
  constructor
  · intro h
    obtain ⟨number, rfl, hnumber⟩ := Decode.int64_eq_ok h
    exact hnumber
  · intro h
    cases v with
    | number number =>
      obtain ⟨hn, hword⟩ := Option.filter_eq_some_iff.mp (show number.toInt64? = some n from h)
      have hrange := Word.isInt64_iff.mp hword
      cases number with
      | natural k =>
        cases hn
        exact if_pos hrange.2
      | negative k =>
        cases hn
        exact if_pos hrange.1
      | float x => cases hn
    | _ => cases h

theorem text_eq_ok (v : Json) (s : String) : Decode.text v = .ok s ↔ text? v = some s := by
  cases v <;> simp [Decode.text, text?]

theorem boolean_eq_ok (v : Json) (b : Bool) : Decode.boolean v = .ok b ↔ boolean? v = some b := by
  cases v <;> simp [Decode.boolean, boolean?]

theorem price_eq_ok (v : Json) (p : Price) : Price.decode v = .ok p ↔ price? v = some p := by
  cases v <;> simp [Price.decode, price?]

section Member

variable {α : Type} {m : Member (Option α)} {decode : Decoder α} {value? : Json → Option α}
  {members : List (String × Json)}

/-- A known member is at fault only if it is there, is not null, and is of another type. -/
theorem fits_iff (hm : m.decode = Decode.optional decode)
    (hvalue : ∀ v a, decode v = .ok a ↔ value? v = some a) :
    m.Fits members ↔ Admits (.object members) m.name value? := by
  have hok : ∀ v, (∃ a, m.decode v = .ok a) ↔ v = .null ∨ ∃ a, value? v = some a := by
    intro v
    simp only [hm, optional_eq_ok, hvalue]
    by_cases hnull : v = .null
    · simp [hnull]
    · simp [hnull, and_comm]
  constructor
  · rintro h _ ⟨⟩ v hv
    exact (hok v).mp (h v hv)
  · intro h v hv
    exact (hok v).mpr (h members rfl v hv)

/-- What a member is read as, once it fits. -/
theorem reads_iff (hm : m.decode = Decode.optional decode) (habsent : m.absent = some none)
    (hvalue : ∀ v a, decode v = .ok a ↔ value? v = some a) (hfits : m.Fits members)
    {a : Option α} :
    m.Reads members a ↔ a = (given? m.name (.object members)).bind value? := by
  unfold Member.Reads
  cases hlookup : lookup m.name members with
  | none => simp [given?_of_absent hlookup, habsent, eq_comm]
  | some v =>
    simp only [hm, optional_eq_ok]
    by_cases hnull : v = .null
    · subst hnull
      simp [given?_of_null hlookup]
    · obtain ⟨b, hb⟩ := hfits v (mem_of_lookup hlookup)
      rw [hm, optional_eq_ok] at hb
      obtain ⟨c, hc, -⟩ := (hb.resolve_left fun h => hnull h.1).2
      have hsome : value? v = some c := (hvalue v c).mp hc
      rw [given?_of_lookup hlookup hnull, Option.bind_some, hsome, hc]
      simp [hnull]

end Member

theorem name_eq_ok {v : Json} {t : Option String} :
    Decode.optional Decode.text v = .ok t ↔ isName v = true ∧ t = text? v := by
  rw [optional_eq_ok]
  simp only [text_eq_ok]
  cases v <;> simp [isName, text?]

theorem isTerm_object {members : List (String × Json)} :
    isTerm (.object members) = true ↔ Admits (.object members) "name" text? := by
  have hname : ∀ v, isName v = true ↔ v = .null ∨ ∃ s, text? v = some s := by
    intro v
    cases v <;> simp [isName, text?]
  unfold isTerm
  rw [List.all_eq_true]
  simp only [Bool.or_eq_true, bne_iff_ne, hname]
  constructor
  · rintro h _ ⟨⟩ v hv
    exact (h ("name", v) hv).resolve_left fun hne => hne rfl
  · intro h m hm
    by_cases heq : m.1 = "name"
    · exact .inr (h members rfl m.2 (heq ▸ hm))
    · exact .inl heq

/-- A term is read just if it is one, and as its name. -/
theorem term_eq_ok {v : Json} {t : Option String} :
    Term.decode v = .ok t ↔ isTerm v = true ∧ t = termName? v := by
  have hrow : Term.decode v = .ok t ↔ Term.shape.decode "NamedTerm" v = .ok (t, ()) := by
    unfold Term.decode
    cases Term.shape.decode "NamedTerm" v with
    | error e => simp [bind, Except.bind]
    | ok row =>
      obtain ⟨a, ⟨⟩⟩ := row
      simp [bind, Except.bind]
  rw [hrow]
  cases v with
  | object members =>
    rw [Shape.decode_object (by decide), isTerm_object]
    constructor
    · rintro ⟨⟨hfits, -⟩, hreads, -⟩
      exact ⟨(fits_iff rfl text_eq_ok).mp hfits, (reads_iff rfl rfl text_eq_ok hfits).mp hreads⟩
    · rintro ⟨hadmits, hname⟩
      have hfits : (Member.withDefault "name" (Decode.optional Decode.text) none).Fits members :=
        (fits_iff rfl text_eq_ok).mpr hadmits
      exact ⟨⟨hfits, trivial⟩, (reads_iff rfl rfl text_eq_ok hfits).mpr hname, trivial⟩
  | array items =>
    cases items with
    | nil =>
      rw [show Term.shape.decode "NamedTerm" (.array []) = .ok (none, ()) from rfl]
      simp [isTerm, termName?, eq_comm]
    | cons v items =>
      have htake : ∀ a, Decode.optional Decode.text v = .ok a ↔ isName v = true ∧ a = text? v :=
        fun a => name_eq_ok
      cases items with
      | nil =>
        rw [show isTerm (.array [v]) = isName v from rfl, show termName? (.array [v]) = text? v from rfl,
          ← htake]
        simp only [Shape.decode, Shape.take, Term.shape, Member.withDefault]
        cases Decode.optional Decode.text v <;> simp [bind, Except.bind]
      | cons w items =>
        simp only [Shape.decode, Shape.take, Term.shape, Member.withDefault, isTerm]
        cases Decode.optional Decode.text v <;> simp [bind, Except.bind]
  | _ => simp [Shape.decode, isTerm]

theorem mapM_term_eq_ok {items : List Json} {ts : List (Option String)} :
    items.mapM Term.decode = .ok ts ↔ items.all isTerm = true ∧ items.map termName? = ts := by
  induction items generalizing ts with
  | nil => simp [pure, Except.pure]
  | cons v items ih =>
    rw [List.mapM_cons]
    constructor
    · intro h
      obtain ⟨name, hname, h⟩ := bind_eq_ok.mp h
      obtain ⟨names, hnames, h⟩ := bind_eq_ok.mp h
      cases h
      obtain ⟨hterm, rfl⟩ := term_eq_ok.mp hname
      obtain ⟨hall, rfl⟩ := ih.mp hnames
      exact ⟨by rw [List.all_cons, hterm, hall]; rfl, rfl⟩
    · rintro ⟨hall, rfl⟩
      obtain ⟨hterm, hrest⟩ := Bool.and_eq_true_iff.mp (List.all_cons ▸ hall)
      rw [term_eq_ok.mpr ⟨hterm, rfl⟩, ih.mpr ⟨hrest, rfl⟩]
      rfl

theorem terms_eq_ok (v : Json) (ts : List (Option String)) :
    Decode.list Term.decode v = .ok ts ↔ terms? v = some ts := by
  cases v with
  | array items =>
    have hterms : terms? (.array items) = some ts ↔
        items.all isTerm = true ∧ items.map termName? = ts := by
      rw [terms?]
      by_cases hall : items.all isTerm = true
      · rw [if_pos hall, Option.some.injEq]
        exact ⟨fun h => ⟨hall, h⟩, fun h => h.2⟩
      · rw [if_neg hall]
        exact ⟨fun h => (nomatch h), fun h => absurd h.1 hall⟩
    rw [hterms, ← mapM_term_eq_ok]
    rfl
  | _ => simp [Decode.list, terms?]

def product (raw : Json) : Product where
  id := (given? "id" raw).bind integer?
  name := (given? "name" raw).bind text?
  price := (given? "price" raw).bind price?
  stockStatus := (given? "stock_status" raw).bind text?
  stockQuantity := (given? "stock_quantity" raw).bind integer?
  categories := (given? "categories" raw).bind terms?
  tags := (given? "tags" raw).bind terms?
  onSale := (given? "on_sale" raw).bind boolean?
  created := (given? "date_created" raw).bind text?
  createdUniversal := (given? "date_created_gmt" raw).bind text?

theorem typed_iff {members : List (String × Json)} :
    Product.shape.Fits members ↔ Typed (.object members) := by
  constructor
  · rintro ⟨hid, hname, hprice, hstatus, hquantity, hcategories, htags, hsale, hcreated, huniversal, -⟩
    exact ⟨(fits_iff rfl int64_eq_ok).mp hid, (fits_iff rfl text_eq_ok).mp hname,
      (fits_iff rfl price_eq_ok).mp hprice, (fits_iff rfl text_eq_ok).mp hstatus,
      (fits_iff rfl int64_eq_ok).mp hquantity, (fits_iff rfl terms_eq_ok).mp hcategories,
      (fits_iff rfl terms_eq_ok).mp htags, (fits_iff rfl boolean_eq_ok).mp hsale,
      (fits_iff rfl text_eq_ok).mp hcreated, (fits_iff rfl text_eq_ok).mp huniversal⟩
  · rintro ⟨hid, hname, hprice, hstatus, hquantity, hcategories, htags, hsale, hcreated, huniversal⟩
    exact ⟨(fits_iff rfl int64_eq_ok).mpr hid, (fits_iff rfl text_eq_ok).mpr hname,
      (fits_iff rfl price_eq_ok).mpr hprice, (fits_iff rfl text_eq_ok).mpr hstatus,
      (fits_iff rfl int64_eq_ok).mpr hquantity, (fits_iff rfl terms_eq_ok).mpr hcategories,
      (fits_iff rfl terms_eq_ok).mpr htags, (fits_iff rfl boolean_eq_ok).mpr hsale,
      (fits_iff rfl text_eq_ok).mpr hcreated, (fits_iff rfl text_eq_ok).mpr huniversal, trivial⟩

/-- A product is decoded just if its members are of their types, and member by member. -/
theorem decode_eq_ok {members : List (String × Json)} {p : Product} :
    Product.decode (.object members) = .ok p ↔
      Typed (.object members) ∧ p = product (.object members) := by
  have hrow : Product.decode (.object members) = .ok p ↔
      Product.shape.decode "UpstreamProduct" (.object members) = .ok
        (p.id, p.name, p.price, p.stockStatus, p.stockQuantity, p.categories, p.tags, p.onSale,
          p.created, p.createdUniversal, ()) := by
    unfold Product.decode
    cases Product.shape.decode "UpstreamProduct" (.object members) with
    | error e => simp [bind, Except.bind]
    | ok row =>
      obtain ⟨id, name, price, stockStatus, stockQuantity, categories, tags, onSale, created,
        createdUniversal, ⟨⟩⟩ := row
      cases p
      simp [bind, Except.bind]
  rw [hrow, Shape.decode_object (by decide), ← typed_iff]
  refine and_congr_right fun hfits => ?_
  obtain ⟨hid, hname, hprice, hstatus, hquantity, hcategories, htags, hsale, hcreated, huniversal, -⟩ :=
    hfits
  refine Iff.trans (and_congr (reads_iff rfl rfl int64_eq_ok hid) <|
    and_congr (reads_iff rfl rfl text_eq_ok hname) <|
    and_congr (reads_iff rfl rfl price_eq_ok hprice) <|
    and_congr (reads_iff rfl rfl text_eq_ok hstatus) <|
    and_congr (reads_iff rfl rfl int64_eq_ok hquantity) <|
    and_congr (reads_iff rfl rfl terms_eq_ok hcategories) <|
    and_congr (reads_iff rfl rfl terms_eq_ok htags) <|
    and_congr (reads_iff rfl rfl boolean_eq_ok hsale) <|
    and_congr (reads_iff rfl rfl text_eq_ok hcreated) <|
    and_congr (reads_iff rfl rfl text_eq_ok huniversal) (iff_true_intro trivial)) ?_
  cases p
  simp [product, Product.member, Member.withDefault, Member.optional]

theorem usable_iff {x : Double} : (x.isFinite && !x.isNegative) = true ↔ Usable x := by
  have hzero : Double.ofInt 0 = .number false (Double.clamp 0) := rfl
  unfold Usable
  rw [Bool.and_eq_true, Bool.not_eq_true']
  refine and_congr_right fun _ => ⟨Double.compare?_zero, fun h => ?_⟩
  cases x with
  | nan => rfl
  | number s p =>
    by_contra hnegative
    refine h ?_
    obtain ⟨rfl, hplace⟩ : s = true ∧ p.val ≠ 0 := by simpa [Double.isNegative] using hnegative
    have hkey : Double.key true p.val < Double.key false (Double.clamp 0).val := by
      have hclamp : (Double.clamp 0).val = 0 := rfl
      simp only [Double.key, hclamp, if_true, Bool.false_eq_true, if_false]
      omega
    rw [hzero, Double.compare?, Int.compare_eq_lt.mpr hkey]

theorem check_eq (id : Int) (x : Double) :
    Usable x ∧ Product.readPrice.check id x = .ok x ∨
      ¬ Usable x ∧ Product.readPrice.check id x = .error (.price id x.render) := by
  unfold Product.readPrice.check
  by_cases h : (x.isFinite && !x.isNegative) = true
  · exact .inl ⟨usable_iff.mp h, if_pos h⟩
  · exact .inr ⟨mt usable_iff.mpr h, if_neg h⟩

section Typed

variable {raw : Json}

theorem Admits.given {α : Type} {name : String} {value? : Json → Option α}
    (h : Admits raw name value?) {v : Json} (hv : given? name raw = some v) :
    ∃ a, value? v = some a := by
  obtain ⟨members, rfl, hlookup, hnull⟩ := given?_eq_some hv
  exact (h members rfl v (mem_of_lookup hlookup)).resolve_left hnull

theorem Priced.read {x : Double} (h : Priced raw x) (id : Int) :
    Product.readPrice id (product raw).price = Product.readPrice.check id x := by
  cases h with
  | number hgiven =>
    simp only [product, hgiven, Option.bind_some, price?]
    rfl
  | text hgiven hwritten =>
    simp only [product, hgiven, Option.bind_some, price?, Product.readPrice,
      Double.read?_eq_some.mpr hwritten]

theorem PriceFault.read {given : String} (h : PriceFault raw given) (id : Int) :
    Product.readPrice id (product raw).price = .error (.price id given) := by
  cases h with
  | absent hgiven =>
    simp only [product, hgiven, Option.bind_none]
    rfl
  | unreadable hgiven hwritten =>
    have hread : Double.read? (trim given.toList) = none := by
      cases hread : Double.read? (trim given.toList) with
      | none => rfl
      | some x => exact absurd (Double.read?_eq_some.mp hread) (hwritten x)
    simp only [product, hgiven, Option.bind_some, price?, Product.readPrice, hread]
  | unusable hpriced husable =>
    next x =>
    rw [hpriced.read]
    exact ((check_eq id x).resolve_left fun h => husable h.1).2

/-- A price that cannot be used has one form in which messages show it. -/
theorem price_cases (htyped : Typed raw) :
    (∃ x, Priced raw x ∧ Usable x) ∨ ∃ given, PriceFault raw given := by
  have hpriced : ∀ {x}, Priced raw x →
      (∃ x, Priced raw x ∧ Usable x) ∨ ∃ given, PriceFault raw given := by
    intro x hx
    by_cases husable : Usable x
    · exact .inl ⟨x, hx, husable⟩
    · exact .inr ⟨_, .unusable hx husable⟩
  cases hgiven : given? "price" raw with
  | none => exact .inr ⟨_, .absent hgiven⟩
  | some v =>
    obtain ⟨p, hp⟩ := htyped.price.given hgiven
    cases v with
    | number n => exact hpriced (.number hgiven)
    | text s =>
      by_cases hwritten : ∃ x, Double.Written (trim s.toList) x
      · obtain ⟨x, hx⟩ := hwritten
        exact hpriced (.text hgiven hx)
      · exact .inr ⟨s, .unreadable hgiven fun x hx => hwritten ⟨x, hx⟩⟩
    | _ => cases hp

theorem readPrice_eq_ok_iff (htyped : Typed raw) {id : Int} {x : Double} :
    Product.readPrice id (product raw).price = .ok x ↔ Priced raw x ∧ Usable x := by
  constructor
  · intro h
    rcases price_cases htyped with ⟨y, hy, husable⟩ | ⟨given, hfault⟩
    · rw [hy.read, ((check_eq id y).resolve_right fun h => h.1 husable).2] at h
      cases h
      exact ⟨hy, husable⟩
    · rw [hfault.read] at h
      cases h
  · rintro ⟨hx, husable⟩
    rw [hx.read]
    exact ((check_eq id x).resolve_right fun h => h.1 husable).2

theorem readPrice_eq_error_iff (htyped : Typed raw) {id : Int} {e : Rejection} :
    Product.readPrice id (product raw).price = .error e ↔
      ∃ given, PriceFault raw given ∧ e = .price id given := by
  constructor
  · intro h
    rcases price_cases htyped with ⟨y, hy, husable⟩ | ⟨given, hfault⟩
    · rw [hy.read, ((check_eq id y).resolve_right fun h => h.1 husable).2] at h
      cases h
    · rw [hfault.read] at h
      cases h
      exact ⟨given, hfault, rfl⟩
  · rintro ⟨given, hfault, rfl⟩
    exact hfault.read id

/-- A date that is there keeps the universal one from being looked at. -/
theorem created_eq (htyped : Typed raw) :
    (product raw).created.or (product raw).createdUniversal = createdText? raw := by
  unfold createdText?
  cases hcreated : given? "date_created" raw with
  | none => simp [product, hcreated]
  | some v =>
    obtain ⟨s, hs⟩ := htyped.created.given hcreated
    simp [product, hcreated, hs]

theorem readCreated_eq_ok_iff {id : Int} {i : Time.Instant} :
    Product.readCreated id (createdText? raw) = .ok i ↔
      ∃ s, createdText? raw = some s ∧ Time.Instant.read? s = some i := by
  cases createdText? raw with
  | none => simp [Product.readCreated]
  | some s => cases hread : Time.Instant.read? s <;> simp [Product.readCreated, hread]

theorem readCreated_eq_error_iff {id : Int} {e : Rejection} :
    Product.readCreated id (createdText? raw) = .error e ↔
      ∃ given, DateFault raw given ∧ e = .date id given := by
  cases hcreated : createdText? raw with
  | none =>
    constructor
    · rintro ⟨⟩
      exact ⟨_, .absent hcreated, rfl⟩
    · rintro ⟨given, hfault, rfl⟩
      cases hfault with
      | absent => rfl
      | unreadable hother =>
        rw [hcreated] at hother
        cases hother
  | some s =>
    cases hread : Time.Instant.read? s with
    | none =>
      simp only [Product.readCreated, hread, Except.error.injEq]
      constructor
      · rintro rfl
        exact ⟨s, .unreadable hcreated hread, rfl⟩
      · rintro ⟨given, hfault, rfl⟩
        cases hfault with
        | absent hother =>
          rw [hcreated] at hother
          cases hother
        | unreadable hother =>
          rw [hcreated] at hother
          cases hother
          rfl
    | some i =>
      simp only [Product.readCreated, hread, reduceCtorEq, false_iff]
      rintro ⟨given, hfault, -⟩
      cases hfault with
      | absent hother =>
        rw [hcreated] at hother
        cases hother
      | unreadable hother hnone =>
        rw [hcreated] at hother
        cases hother
        rw [hread] at hnone
        cases hnone

def recordOf (p : Product) (id : Int) (price : Double) (createdAt : Time.Instant) : Catalog.Record :=
  { id, price, createdAt
    title := p.name.getD ""
    stockStatus := p.stockStatus.getD ""
    stockQuantity := p.stockQuantity
    category := (p.categories.getD []).head?.join.getD ""
    tags := (p.tags.getD []).filterMap fun name => name
    onSale := p.onSale.getD false }

theorem toRecord_eq {p : Product} {id : Int} (hid : p.id = some id) : p.toRecord =
    (Product.readPrice id p.price >>= fun price =>
      Product.readCreated id (p.created.or p.createdUniversal) >>= fun createdAt =>
        .ok (recordOf p id price createdAt)) := by
  unfold Product.toRecord
  rw [hid]
  rfl

/-- The id is asked for first. -/
theorem normalize_unkeyed (h : given? "id" raw = none) :
    normalize raw = .error (.unkeyed "missing id") := by
  unfold given? at h
  unfold normalize
  split at h
  · next hnull => rw [hnull]
  · rw [h]

theorem normalize_keyed {v : Json} (h : given? "id" raw = some v) :
    normalize raw = match Product.decode raw with
      | .error e => .error (.malformed e.message)
      | .ok p => p.toRecord := by
  unfold given? at h
  unfold normalize
  split at h
  · cases h
  · next hnull =>
    rw [h]
    cases v with
    | null => exact absurd h hnull
    | _ => rfl

/-- The types of the members come before the price and the date. -/
theorem normalize_malformed {v : Json} (h : given? "id" raw = some v) (htyped : ¬ Typed raw) :
    ∃ reason, normalize raw = .error (.malformed reason) := by
  rw [normalize_keyed h]
  obtain ⟨members, rfl, -, -⟩ := given?_eq_some h
  cases hdecode : Product.decode (.object members) with
  | error e => exact ⟨e.message, rfl⟩
  | ok p => exact absurd (decode_eq_ok.mp hdecode).1 htyped

theorem normalize_typed {v : Json} (h : given? "id" raw = some v) (htyped : Typed raw) :
    normalize raw = (product raw).toRecord := by
  rw [normalize_keyed h]
  obtain ⟨members, rfl, -, -⟩ := given?_eq_some h
  rw [decode_eq_ok.mpr ⟨htyped, rfl⟩]

theorem Keyed.given {id : Int} (h : Keyed raw id) : ∃ v, given? "id" raw = some v := by
  obtain ⟨v, hv, -⟩ := Option.bind_eq_some_iff.mp h
  exact ⟨v, hv⟩

/-- A product with an id and members of their types comes to the reading of its price and then to
that of its date. -/
theorem normalize_eq {id : Int} (hid : Keyed raw id) (htyped : Typed raw) : normalize raw =
    (Product.readPrice id (product raw).price >>= fun price =>
      Product.readCreated id (createdText? raw) >>= fun createdAt =>
        .ok (recordOf (product raw) id price createdAt)) := by
  obtain ⟨v, hv⟩ := hid.given
  have hproduct : (product raw).id = some id := hid
  rw [normalize_typed hv htyped, toRecord_eq hproduct, created_eq htyped]

theorem stands_recordOf {id : Int} {price : Double} {createdAt : Time.Instant} (hid : Keyed raw id)
    (hprice : Priced raw price) (husable : Usable price)
    (hcreated : ∃ s, createdText? raw = some s ∧ Time.Instant.read? s = some createdAt) :
    Stands raw (recordOf (product raw) id price createdAt) :=
  ⟨hid, hprice, husable, hcreated, rfl, rfl, rfl, rfl, rfl, rfl⟩

/-- Once id, price and date are known, the product leaves nothing open. -/
theorem Stands.eq_recordOf {r : Catalog.Record} (h : Stands raw r) :
    r = recordOf (product raw) r.id r.price r.createdAt := by
  obtain ⟨-, -, -, -, htitle, hstatus, hquantity, hcategory, htags, hsale⟩ := h
  cases r
  simp_all [recordOf, product]

/-- The price is asked for before the date, so that of two faults its own is told. -/
theorem normalize_eq_error_iff {id : Int} (hid : Keyed raw id) (htyped : Typed raw)
    {e : Rejection} : normalize raw = .error e ↔
      (∃ given, PriceFault raw given ∧ e = .price id given) ∨
        (∃ x, Priced raw x ∧ Usable x) ∧ ∃ given, DateFault raw given ∧ e = .date id given := by
  rw [normalize_eq hid htyped, bind_eq_error, readPrice_eq_error_iff htyped]
  refine or_congr_right ?_
  constructor
  · rintro ⟨x, hx, hrest⟩
    rcases bind_eq_error.mp hrest with hdate | ⟨createdAt, -, hok⟩
    · exact ⟨⟨x, (readPrice_eq_ok_iff htyped).mp hx⟩, readCreated_eq_error_iff.mp hdate⟩
    · cases hok
  · rintro ⟨⟨x, hx⟩, hdate⟩
    exact ⟨x, (readPrice_eq_ok_iff htyped).mpr hx,
      bind_eq_error.mpr (.inl (readCreated_eq_error_iff.mpr hdate))⟩

theorem Keyed.unique {id other : Int} (h : Keyed raw id) (h' : Keyed raw other) : other = id := by
  rw [Keyed, h] at h'
  exact (Option.some.inj h').symm

theorem normalize_eq_ok_iff {id : Int} (hid : Keyed raw id) (htyped : Typed raw)
    {r : Catalog.Record} : normalize raw = .ok r ↔ Stands raw r := by
  rw [normalize_eq hid htyped, bind_eq_ok]
  constructor
  · rintro ⟨x, hx, hrest⟩
    obtain ⟨createdAt, hdate, hok⟩ := bind_eq_ok.mp hrest
    cases hok
    obtain ⟨hpriced, husable⟩ := (readPrice_eq_ok_iff htyped).mp hx
    exact stands_recordOf hid hpriced husable (readCreated_eq_ok_iff.mp hdate)
  · intro h
    have hprice : Product.readPrice id (product raw).price = .ok r.price :=
      (readPrice_eq_ok_iff htyped).mpr ⟨h.price, h.usable⟩
    refine ⟨r.price, hprice, bind_eq_ok.mpr ⟨r.createdAt, readCreated_eq_ok_iff.mpr h.createdAt, ?_⟩⟩
    rw [← hid.unique h.id, ← h.eq_recordOf]

end Typed

/-- A value has no id, or has a member of another type, or has neither fault. -/
theorem keyed_typed_cases (raw : Json) :
    given? "id" raw = none ∨ given? "id" raw ≠ none ∧ ¬ Typed raw ∨ ∃ id, Keyed raw id ∧ Typed raw := by
  by_cases htyped : Typed raw
  · cases hgiven : given? "id" raw with
    | none => exact .inl rfl
    | some v =>
      obtain ⟨id, hid⟩ := htyped.id.given hgiven
      exact .inr (.inr ⟨id, by rw [Keyed, hgiven]; exact hid, htyped⟩)
  · by_cases hgiven : given? "id" raw = none
    · exact .inl hgiven
    · exact .inr (.inl ⟨hgiven, htyped⟩)

/-- A listed value is refused for the first thing that it lacks, in this order: an id, members of
their types, a usable price, a readable date. Otherwise it becomes the one record that it stands
for. -/
theorem normalize_iff (raw : Json) :
    (∀ reason, normalize raw = .error (.unkeyed reason) ↔
      given? "id" raw = none ∧ reason = "missing id") ∧
    ((∃ reason, normalize raw = .error (.malformed reason)) ↔
      given? "id" raw ≠ none ∧ ¬ Typed raw) ∧
    (∀ id given, normalize raw = .error (.price id given) ↔
      Typed raw ∧ Keyed raw id ∧ PriceFault raw given) ∧
    (∀ id given, normalize raw = .error (.date id given) ↔
      Typed raw ∧ Keyed raw id ∧ (∃ x, Priced raw x ∧ Usable x) ∧ DateFault raw given) ∧
    (∀ r, normalize raw = .ok r ↔ Typed raw ∧ Stands raw r) := by
  have hgiven : ∀ {id}, Keyed raw id → given? "id" raw ≠ none := by
    intro id hid hnone
    obtain ⟨v, hv⟩ := hid.given
    rw [hnone] at hv
    cases hv
  rcases keyed_typed_cases raw with hnone | ⟨hsome, htyped⟩ | ⟨id, hid, htyped⟩
  · rw [normalize_unkeyed hnone]
    have hkey : ∀ id, ¬ Keyed raw id := fun id hid => hgiven hid hnone
    refine ⟨fun reason => ?_, ?_, fun id given => ?_, fun id given => ?_, fun r => ?_⟩
    · simp [hnone, eq_comm]
    · simp [hnone]
    · simp [hkey]
    · simp [hkey]
    · simp only [reduceCtorEq, false_iff]
      exact fun h => hkey r.id h.2.id
  · obtain ⟨v, hv⟩ := Option.ne_none_iff_exists'.mp hsome
    obtain ⟨reason, hreason⟩ := normalize_malformed hv htyped
    rw [hreason]
    simp [hsome, htyped]
  · have herror := fun e => normalize_eq_error_iff hid htyped (e := e)
    refine ⟨fun reason => ?_, ?_, fun other given => ?_, fun other given => ?_, fun r => ?_⟩
    · simp [herror, hgiven hid]
    · simp [herror, htyped]
    · rw [herror]
      constructor
      · rintro (⟨_, hfault, heq⟩ | ⟨-, _, -, heq⟩)
        · cases heq
          exact ⟨htyped, hid, hfault⟩
        · cases heq
      · rintro ⟨-, hother, hfault⟩
        rw [hid.unique hother]
        exact .inl ⟨given, hfault, rfl⟩
    · rw [herror]
      constructor
      · rintro (⟨_, -, heq⟩ | ⟨hprice, _, hfault, heq⟩)
        · cases heq
        · cases heq
          exact ⟨htyped, hid, hprice, hfault⟩
      · rintro ⟨-, hother, hprice, hfault⟩
        rw [hid.unique hother]
        exact .inr ⟨hprice, given, hfault, rfl⟩
    · rw [normalize_eq_ok_iff hid htyped]
      exact ⟨fun h => ⟨htyped, h⟩, fun h => h.2⟩

/-- The universal date does not help where the other one cannot be read. -/
example : normalize (.object [("date_created", .text "soon"), ("date_created_gmt", .text "2024-03-01"),
    ("id", .number (.natural 7)), ("price", .text "12")]) = .error (.date 7 "soon") := by
  rfl

end Segments.Storefront
