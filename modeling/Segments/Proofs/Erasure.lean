import Mathlib.Data.List.Forall2
import Segments.Filter.Statement

namespace Segments

open Catalog

namespace Clause

def erase : Clause → Clause
  | .never => .never
  | .compared field token _ => .compared field token (.text "")
  | .searched field _ => .searched field ""

def blanks : List Clause :=
  .never :: Field.all.flatMap fun field =>
    .searched field "" ::
      (Comparison.all.filterMap Comparison.token?).map fun token => .compared field token (.text "")

/-- The text of a clause is made without its value. -/
theorem render_erase (before : Nat) (c : Clause) : c.erase.render before = c.render before := by
  cases c <;> rfl

theorem length_parameters_erase (c : Clause) :
    c.erase.parameters.length = c.parameters.length := by
  cases c <;> rfl

theorem renderClauses_erase (before : Nat) (cs : List Clause) :
    renderClauses before (cs.map erase) = renderClauses before cs := by
  induction cs generalizing before with
  | nil => rfl
  | cons c cs ih =>
    rw [List.map_cons, renderClauses, renderClauses, render_erase, length_parameters_erase, ih]

theorem text_erase (cs : List Clause) :
    (Statement.ofClauses (cs.map erase)).text = (Statement.ofClauses cs).text := by
  unfold Statement.ofClauses
  simp only [renderClauses_erase, List.isEmpty_map]

theorem erase_mem_blanks (f : Filter) : (ofFilter f).erase ∈ blanks := by
  have hcompared : ∀ (field : Field) (c : Comparison) (token : String), c.token? = some token →
      Clause.compared field token (.text "") ∈ blanks := by
    intro field c token hc
    cases c with
    | pattern => cases hc
    | _ =>
      cases hc
      cases field <;> decide
  have hsearched : ∀ field : Field, Clause.searched field "" ∈ blanks := by
    intro field
    cases field <;> decide
  unfold ofFilter
  split
  · exact List.mem_cons_self
  · split
    · exact hsearched _
    · rename_i token hc
      split
      · exact hcompared _ _ token hc
      · exact List.mem_cons_self

/-- Whether there is a parameter for a literal depends on its type and, where a moment is asked for,
on whether its text is one. -/
theorem isSome_parameter? (kind : Kind) {v w : Literal} (htype : v.typeName = w.typeName)
    (hmoment : ∀ s t, kind = .timestamp → v = .text s → w = .text t →
      (Time.Instant.read? s).isSome = (Time.Instant.read? t).isSome) :
    (parameter? kind v).isSome = (parameter? kind w).isSome := by
  cases v with
  | boolean a =>
    cases w with
    | boolean b => cases kind <;> rfl
    | _ => simp [Literal.typeName] at htype
  | number x =>
    cases w with
    | number y => cases kind <;> rfl
    | _ => simp [Literal.typeName] at htype
  | text s =>
    cases w with
    | text t =>
      cases kind with
      | timestamp => simpa [parameter?] using hmoment s t rfl rfl rfl
      | _ => rfl
    | _ => simp [Literal.typeName] at htype

end Clause

/-- Two filters that agree in what may be seen of them: the field, or that there is none of the
name, the comparison, and for what is compared with a field the type of the literal and, where a
moment is asked for, whether its text is one. -/
structure Filter.Alike (f g : Filter) : Prop where
  field : Field.ofName? f.field = Field.ofName? g.field
  comparison : f.comparison = g.comparison
  literal : ∀ field, Field.ofName? f.field = some field → f.comparison ≠ .pattern →
    f.value.typeName = g.value.typeName
  moment : ∀ s t, Field.ofName? f.field = some .createdAt → f.comparison ≠ .pattern →
    f.value = .text s → g.value = .text t →
    (Time.Instant.read? s).isSome = (Time.Instant.read? t).isSome

/-- Filters that agree in what may be seen of them have the same clause but for the value. -/
theorem Filter.Alike.erase {f g : Filter} (h : f.Alike g) :
    (Clause.ofFilter f).erase = (Clause.ofFilter g).erase := by
  unfold Clause.ofFilter
  rw [← h.field, ← h.comparison]
  cases hfield : Field.ofName? f.field with
  | none => rfl
  | some field =>
    cases htoken : f.comparison.token? with
    | none => rfl
    | some token =>
      have hpattern : f.comparison ≠ .pattern := by
        intro hc
        rw [hc] at htoken
        cases htoken
      have hkind : field.kind = .timestamp → field = .createdAt := by
        cases field <;> simp [Field.kind]
      have hsome := Clause.isSome_parameter? field.kind (h.literal field hfield hpattern)
        fun s t hk => h.moment s t (hkind hk ▸ hfield) hpattern
      simp only
      cases hv : Clause.parameter? field.kind f.value with
      | none =>
        have hnone : Clause.parameter? field.kind g.value = none := by simpa [hv] using hsome.symm
        rw [hnone]
      | some p =>
        rw [hv] at hsome
        obtain ⟨q, hq⟩ := Option.isSome_iff_exists.mp hsome.symm
        rw [hq]
        rfl

namespace Statement

/-- Filters that are alike make the same text, whatever names of no field, texts, numbers and
patterns are in them: a text is that of its clauses with every value taken out, and without values
there are only these clauses. -/
theorem text_alike :
    (∀ fs gs, List.Forall₂ Filter.Alike fs gs → (ofFilters fs).text = (ofFilters gs).text) ∧
    (∀ fs, (ofFilters fs).text =
      (ofClauses (fs.map fun f => (Clause.ofFilter f).erase)).text) ∧
    (∀ f, (Clause.ofFilter f).erase ∈ Clause.blanks) := by
  have herase : ∀ fs : List Filter, (ofFilters fs).text =
      (ofClauses (fs.map fun f => (Clause.ofFilter f).erase)).text := by
    intro fs
    rw [ofFilters, ← Clause.text_erase, List.map_map]
    rfl
  refine ⟨fun fs gs h => ?_, herase, Clause.erase_mem_blanks⟩
  have hsame : (fs.map fun f => (Clause.ofFilter f).erase) =
      gs.map fun g => (Clause.ofFilter g).erase := by
    induction h with
    | nil => rfl
    | cons hfg _ ih => rw [List.map_cons, List.map_cons, hfg.erase, ih]
  rw [herase, herase, hsame]

/-- Filters as a form sends them, and as somebody does who tries to write into the statement. -/
def plainFilters : List Filter :=
  [⟨"brand", .equal, .text "acme"⟩, ⟨"title", .pattern, .text "boot"⟩,
    ⟨"created_at", .greater, .text "2024-01-01"⟩, ⟨"category", .equal, .text "Shoes"⟩]

def craftedFilters : List Filter :=
  [⟨"id = id OR price", .equal, .text "1"⟩, ⟨"title", .pattern, .text "' OR TRUE --"⟩,
    ⟨"created_at", .greater, .text "1999-12-31"⟩,
    ⟨"category", .equal, .text "$1; DROP TABLE products"⟩]

theorem text_alike_crafted :
    List.Forall₂ Filter.Alike plainFilters craftedFilters ∧
    (ofFilters craftedFilters).text = (ofFilters plainFilters).text ∧
    (ofFilters plainFilters).text =
      "FALSE AND title ~* $1 AND created_at > $2 AND category COLLATE \"C\" = $3" := by
  have halike : List.Forall₂ Filter.Alike plainFilters craftedFilters := by
    have hmoment : (Time.Instant.read? "2024-01-01").isSome =
        (Time.Instant.read? "1999-12-31").isSome := by decide +kernel
    refine .cons ?_ (.cons ?_ (.cons ?_ (.cons ?_ .nil)))
    · exact ⟨by decide, rfl, fun _ _ _ => rfl, fun _ _ h => absurd h (by decide)⟩
    · exact ⟨rfl, rfl, fun _ _ _ => rfl, fun _ _ h => absurd h (by decide)⟩
    · refine ⟨rfl, rfl, fun _ _ _ => rfl, fun s t _ _ hs ht => ?_⟩
      cases hs
      cases ht
      exact hmoment
    · exact ⟨rfl, rfl, fun _ _ _ => rfl, fun _ _ h => absurd h (by decide)⟩
  exact ⟨halike, (text_alike.1 _ _ halike).symm, by decide +kernel⟩

end Statement

end Segments
