import Segments.Catalog.Codec
import Segments.Filter.Codec
import Segments.Proofs.InstantText
import Segments.Proofs.JsonText
import Segments.Proofs.Shapes

namespace Segments

open Json

/-- What a text of JSON is read as, if it is a value of the type. -/
def Json.decodeText? {α : Type} (decode : Decoder α) (text : String) : Option α :=
  (readText text).toOption.bind fun v => (decode v).toOption

/-- The number comes back from its JSON text. The reader scales by powers of ten that are themselves
rounded, so that the last place of a number can be lost. -/
def Double.ReadsBack (x : Double) : Prop :=
  readText (write (.ofDouble x)) = .ok (.ofDouble x)

def Json.number? : Json → Option Json.Number
  | .number n => some n
  | _ => none

theorem Double.readsBack_of_number {x : Double} (hx : x.isFinite = true)
    (h : ((readText (write (.ofDouble x))).toOption.bind number?) = some (.float x)) :
    x.ReadsBack := by
  unfold ReadsBack
  cases hread : readText (write (.ofDouble x)) with
  | error e =>
    rw [hread] at h
    cases h
  | ok v =>
    rw [hread] at h
    cases v with
    | number n =>
      cases h
      rw [Json.ofDouble, if_pos hx]
    | _ => cases h

namespace Json

theorem int64_ofInt {n : Int} (h : Word.isInt64 n = true) : Decode.int64 (.ofInt n) = .ok n := by
  obtain ⟨hleast, hmost⟩ := Word.isInt64_iff.mp h
  unfold Json.ofInt
  by_cases hnegative : n < 0
  · have hn : -(n.natAbs : Int) = n := by omega
    rw [if_pos hnegative]
    simp only [Decode.int64, Decode.whole, hn]
    rw [if_pos (show Word.minInt64 ≤ n by unfold Word.minInt64; omega)]
  · have hn : (n.toNat : Int) = n := by omega
    rw [if_neg hnegative]
    simp only [Decode.int64, Decode.whole, hn]
    rw [if_pos (show n ≤ Word.maxInt64 by unfold Word.maxInt64; omega)]

theorem kept_ofInt {n : Int} (h : Word.isInt64 n = true) (depth : Nat) :
    Kept (depth + 1) (.ofInt n) := by
  obtain ⟨hleast, hmost⟩ := Word.isInt64_iff.mp h
  unfold Json.ofInt
  split
  · exact ⟨by omega, by omega⟩
  · show n.toNat ≤ maxNatural
    unfold maxNatural Word.maxNatural64
    omega

theorem double_ofDouble {x : Double} (h : x.isFinite = true) :
    Decode.double (.ofDouble x) = .ok x := by
  rw [Json.ofDouble, if_pos h]
  rfl

theorem kept_ofDouble {x : Double} (h : x.isFinite = true) (hback : x.ReadsBack) (depth : Nat) :
    Kept (depth + 1) (.ofDouble x) := by
  unfold Double.ReadsBack at hback
  rw [Json.ofDouble, if_pos h] at hback ⊢
  exact hback

theorem list_texts (ss : List String) : Decode.list Decode.text (.texts ss) = .ok ss := by
  show (ss.map Json.text).mapM Decode.text = .ok ss
  induction ss with
  | nil => rfl
  | cons s ss ih =>
    rw [List.map_cons, List.mapM_cons, ih]
    rfl

theorem kept_texts (ss : List String) (depth : Nat) : Kept (depth + 2) (.texts ss) := by
  refine ⟨Nat.succ_ne_zero depth, ?_⟩
  intro v hv
  obtain ⟨s, -, rfl⟩ := List.mem_map.mp hv
  trivial

theorem optional_ofOption {α : Type} {decode : Decoder α} {toJson : α → Json} {q : Option α}
    (h : ∀ a, q = some a → decode (toJson a) = .ok a ∧ toJson a ≠ .null) :
    Decode.optional decode (.ofOption toJson q) = .ok q := by
  cases q with
  | none => rfl
  | some a =>
    obtain ⟨hread, hnull⟩ := h a rfl
    unfold Decode.optional Json.ofOption
    split
    · next heq => exact absurd heq hnull
    · rw [hread]
      rfl

theorem choice_name {α : Type} {name : α → String} {all : List α} {a : α}
    (h : all.find? (fun b => name b == name a) = some a) :
    Decode.choice name all (.text (name a)) = .ok a := by
  simp only [Decode.choice, h]

section Member

variable {α : Type} {name : String} {decode : Decoder α} {members : List (String × Json)} {v : Json}

theorem reads_required {a : α} (hdistinct : (members.map Prod.fst).Nodup)
    (hmem : (name, v) ∈ members) (h : decode v = .ok a) :
    (Member.required name decode).Reads members a := by
  have hfound : lookup (Member.required name decode).name members = some v :=
    lookup_of_mem hdistinct hmem
  unfold Member.Reads
  rw [hfound]
  exact h

theorem reads_optional {q : Option α} (hdistinct : (members.map Prod.fst).Nodup)
    (hmem : (name, v) ∈ members) (h : Decode.optional decode v = .ok q) :
    (Member.optional name decode).Reads members q := by
  have hfound : lookup (Member.optional name decode).name members = some v :=
    lookup_of_mem hdistinct hmem
  unfold Member.Reads
  rw [hfound]
  exact h

end Member

/-- A structure comes back from the text of an object, in whatever order its members are written, and
from the text of a list of their values in the order in which the type has them. -/
def Returns {αs : List Type} {α : Type} (s : Shape αs) (decode : Decoder α) (v : Json) (a : α) : Prop :=
  ∃ members, v = .object members ∧
    (∀ written, written.Perm members → decodeText? decode (write (.object written)) = some a) ∧
    decodeText? decode (write (.array (s.items members))) = some a

/-- What an object is read as, a list of the values of its members is read as, if none is missing. -/
def ListsAlike {αs : List Type} {α : Type} (s : Shape αs) (decode : Decoder α) : Prop :=
  ∀ members a, decode (.object members) = .ok a → (∀ n ∈ s.names, lookup n members ≠ none) →
    decode (.array (s.items members)) = .ok a

section Structure

variable {αs : List Type} {α : Type} {s : Shape αs} {decode : Decoder α} {name : String}
  {make : Row αs → Except Misfit α} {members : List (String × Json)}

/-- A list has no names, so that none of its values may be left out. -/
theorem listsAlike (hs : s.names.Nodup) (hdecode : ∀ v, decode v = s.decode name v >>= make) :
    ListsAlike s decode := by
  intro members a h hall
  rw [hdecode] at h ⊢
  obtain ⟨row, hrow, hmake⟩ := bind_eq_ok.mp h
  have hlists := ((Shape.decode_object hs).mp hrow).2.lists hall
  rw [hlists.decode name]
  exact hmake

/-- What is written of a structure has its members in the order of their names, and each is read. -/
theorem returns_of_reads {a : α} (hdecode : ∀ v, decode v = s.decode name v >>= make) (row : Row αs)
    (hmake : make row = .ok a) (names : List String) (hnames : members.map Prod.fst = names)
    (hsorted : names.Pairwise fun a b => Text.compareText a.toList b.toList = .lt)
    (hs : s.names.Perm names) (hkept : ∀ m ∈ members, Kept 127 m.2)
    (hreads : (members.map Prod.fst).Nodup → s.Reads members row) :
    Returns s decode (.object members) a := by
  have hordered : Ordered members := by
    rw [← hnames] at hsorted
    exact List.pairwise_map.mp hsorted
  have hdistinct := hordered.nodup
  have hnodup : s.names.Nodup := hs.nodup_iff.mpr (hnames ▸ hdistinct)
  have hread := hreads hdistinct
  have hobject : decode (.object members) = .ok a := by
    rw [hdecode, (Shape.decode_object hnodup).mpr ⟨hread.fits hdistinct, hread⟩]
    exact hmake
  have hpresent : ∀ n ∈ s.names, lookup n members ≠ none := by
    intro n hn hnone
    rw [hs.mem_iff, ← hnames] at hn
    obtain ⟨⟨_, v⟩, hmem, rfl⟩ := List.mem_map.mp hn
    rw [lookup_of_mem hdistinct hmem] at hnone
    cases hnone
  have hwhole : (object members).Kept maxDepth := ⟨by decide, hordered, hkept⟩
  have hlist : (array (s.items members)).Kept maxDepth := by
    refine ⟨by decide, ?_⟩
    intro v hv
    obtain ⟨n, hmem⟩ := Shape.mem_items hv
    exact hkept (n, v) hmem
  refine ⟨members, rfl, fun written hperm => ?_, ?_⟩
  · rw [decodeText?, readText_write_object hwhole hperm]
    simp only [Except.toOption, Option.bind_some, hobject]
  · rw [decodeText?, readText_write hlist]
    simp only [Except.toOption, Option.bind_some, listsAlike hnodup hdecode members a hobject hpresent]

end Structure

end Json

/-- A number is finite and comes back from its text. -/
def Literal.ReadsBack : Literal → Prop
  | .number x => x.isFinite = true ∧ x.ReadsBack
  | _ => True

theorem Literal.decode_toJson {v : Literal} (h : v.ReadsBack) : decode v.toJson = .ok v := by
  cases v with
  | boolean b => rfl
  | text s => rfl
  | number x =>
    show decode (.ofDouble x) = _
    rw [Json.ofDouble, if_pos h.1]
    rfl

theorem Literal.kept_toJson {v : Literal} (h : v.ReadsBack) (depth : Nat) : Kept (depth + 1) v.toJson := by
  cases v with
  | boolean b => trivial
  | text s => trivial
  | number x => exact kept_ofDouble h.1 h.2 depth

theorem Comparison.decode_toJson (c : Comparison) : decode c.toJson = .ok c :=
  choice_name (by cases c <;> decide)

theorem Operator.decode_toJson (op : Operator) : decode op.toJson = .ok op :=
  choice_name (by cases op <;> decide)

/-- The shape of filters and of conditions, which differ in their operators. -/
theorem returns_comparison {α Op : Type} {decodeOp : Decoder Op} {decode : Decoder α} {name : String}
    {make : Row [String, Op, Literal] → Except Misfit α} {field : String} {op : Op} {written : Json}
    {value : Literal} {a : α}
    (hdecode : ∀ v, decode v = (Shape.cons (.required "field" Decode.text) <|
      .cons (.required "operator" decodeOp) <|
        .cons (.required "value" Literal.decode) .nil).decode name v >>= make)
    (hmake : make (field, op, value, ()) = .ok a) (hop : decodeOp written = .ok op)
    (hkept : Kept 127 written) (hvalue : value.ReadsBack) :
    Returns (Shape.cons (.required "field" Decode.text) <| .cons (.required "operator" decodeOp) <|
        .cons (.required "value" Literal.decode) .nil) decode
      (.object [("field", .text field), ("operator", written), ("value", value.toJson)]) a := by
  refine returns_of_reads hdecode (field, op, value, ()) hmake ["field", "operator", "value"] rfl
    (by decide) (List.Perm.refl _) ?_ fun hdistinct => ⟨?_, ?_, ?_, trivial⟩
  · simp only [List.forall_mem_cons]
    exact ⟨trivial, hkept, Literal.kept_toJson hvalue _, fun _ hm => nomatch hm⟩
  · exact reads_required hdistinct (v := .text field) (by simp) rfl
  · exact reads_required hdistinct (v := written) (by simp) hop
  · exact reads_required hdistinct (v := value.toJson) (by simp) (Literal.decode_toJson hvalue)

theorem Filter.returns {f : Filter} (h : f.value.ReadsBack) : Returns shape decode f.toJson f :=
  returns_comparison (fun _ => rfl) rfl f.comparison.decode_toJson trivial h

theorem Condition.returns {c : Condition} (h : c.value.ReadsBack) : Returns shape decode c.toJson c :=
  returns_comparison (fun _ => rfl) rfl c.operator.decode_toJson trivial h

namespace Catalog

/-- Whole numbers of 64 bits, and an instant of the calendar. -/
structure Record.Representable (r : Record) : Prop where
  id : Word.isInt64 r.id = true
  stockQuantity : ∀ n, r.stockQuantity = some n → Word.isInt64 n = true
  createdAt : r.createdAt.Valid

theorem decode_render {i : Time.Instant} (h : i.Valid) :
    Time.Instant.decode (.text i.render) = .ok i := by
  simp only [Time.Instant.decode, Time.Instant.readWire_render h]

theorem ofInt_ne_null (n : Int) : Json.ofInt n ≠ .null := by
  unfold Json.ofInt
  split
  · exact Json.noConfusion
  · exact Json.noConfusion

/-- The members are read back one by one, each in its own form. -/
theorem Record.returns {r : Record} (h : r.Representable) (hfinite : r.price.isFinite = true)
    (hback : r.price.ReadsBack) : Returns shape decode r.toJson r := by
  have hquantity : Decode.optional Decode.int64 (.ofOption .ofInt r.stockQuantity) =
      .ok r.stockQuantity :=
    optional_ofOption fun n hn => ⟨int64_ofInt (h.stockQuantity n hn), ofInt_ne_null n⟩
  have hkept : Kept 127 (.ofOption .ofInt r.stockQuantity) := by
    cases hn : r.stockQuantity with
    | none => trivial
    | some n => exact kept_ofInt (h.stockQuantity n hn) _
  refine returns_of_reads (fun _ => rfl)
    (r.id, r.title, r.price, r.stockStatus, r.stockQuantity, r.category, r.tags, r.onSale,
      r.createdAt, ()) rfl
    ["category", "created_at", "id", "on_sale", "price", "stock_quantity", "stock_status", "tags",
      "title"]
    rfl (by decide) (by decide) ?_
    fun hdistinct => ⟨?_, ?_, ?_, ?_, ?_, ?_, ?_, ?_, ?_, trivial⟩
  · simp only [List.forall_mem_cons]
    exact ⟨trivial, trivial, kept_ofInt h.id _, trivial, kept_ofDouble hfinite hback _, hkept, trivial,
      kept_texts r.tags _, trivial, fun _ hm => nomatch hm⟩
  · exact reads_required hdistinct (v := .ofInt r.id) (by simp) (int64_ofInt h.id)
  · exact reads_required hdistinct (v := .text r.title) (by simp) rfl
  · exact reads_required hdistinct (v := .ofDouble r.price) (by simp) (double_ofDouble hfinite)
  · exact reads_required hdistinct (v := .text r.stockStatus) (by simp) rfl
  · exact reads_optional hdistinct (v := .ofOption .ofInt r.stockQuantity) (by simp) hquantity
  · exact reads_required hdistinct (v := .text r.category) (by simp) rfl
  · exact reads_required hdistinct (v := .texts r.tags) (by simp) (list_texts r.tags)
  · exact reads_required hdistinct (v := .boolean r.onSale) (by simp) rfl
  · exact reads_required hdistinct (v := .text r.createdAt.render) (by simp)
      (decode_render h.createdAt)

end Catalog

/-- Records, filters and conditions come back from their JSON text, and a literal as the kind of literal
that it was. -/
theorem returns_toJson :
    (∀ r : Catalog.Record, r.Representable → r.price.isFinite = true → r.price.ReadsBack →
        Returns Catalog.Record.shape Catalog.Record.decode r.toJson r) ∧
      (∀ f : Filter, f.value.ReadsBack → Returns Filter.shape Filter.decode f.toJson f) ∧
      (∀ c : Condition, c.value.ReadsBack → Returns Condition.shape Condition.decode c.toJson c) ∧
      ListsAlike Catalog.Record.shape Catalog.Record.decode ∧ ListsAlike Filter.shape Filter.decode ∧
      ListsAlike Condition.shape Condition.decode :=
  ⟨fun _ h hfinite hback => Catalog.Record.returns h hfinite hback, fun _ h => Filter.returns h,
    fun _ h => Condition.returns h, listsAlike (by decide) fun _ => rfl,
    listsAlike (by decide) fun _ => rfl, listsAlike (by decide) fun _ => rfl⟩

/-- A record of a leap second, and texts that spell a truth value and a number. -/
theorem returns_toJson_leap_second :
    Returns Catalog.Record.shape Catalog.Record.decode
        (Catalog.Record.toJson ⟨-1, "\"15\"", .ofDecimal false 1999 (-2), "", none, "", ["true"], false,
          ⟨1483228799, 1500000000⟩⟩)
        ⟨-1, "\"15\"", .ofDecimal false 1999 (-2), "", none, "", ["true"], false,
          ⟨1483228799, 1500000000⟩⟩ ∧
      Returns Filter.shape Filter.decode (Filter.toJson ⟨"title", .equal, .text "true"⟩)
        ⟨"title", .equal, .text "true"⟩ ∧
      Returns Condition.shape Condition.decode
        (Condition.toJson ⟨"price", .less, .number (.ofDecimal false 1999 (-2))⟩)
        ⟨"price", .less, .number (.ofDecimal false 1999 (-2))⟩ := by
  have hfinite : (Double.ofDecimal false 1999 (-2)).isFinite = true := by decide +kernel
  have hback : (Double.ofDecimal false 1999 (-2)).ReadsBack :=
    Double.readsBack_of_number hfinite (by decide +kernel)
  have hinstant : (Time.Instant.mk 1483228799 1500000000).Valid :=
    ⟨by decide, by decide, by decide, fun _ => by decide⟩
  exact ⟨returns_toJson.1 _ ⟨by decide, (fun _ hn => nomatch hn), hinstant⟩ hfinite hback,
    returns_toJson.2.1 _ trivial, returns_toJson.2.2.1 _ ⟨hfinite, hback⟩⟩

end Segments
