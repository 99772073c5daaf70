import Segments.Proofs.QueryText

namespace Segments

open Catalog Query Text

namespace Query

def marks : List Char → List String
  | [] => []
  | c :: cs => if c = '$' then String.ofList (cs.takeWhile isDigit) :: marks cs else marks cs

theorem marks_append_of_not_mem {as : List Char} (h : '$' ∉ as) (bs : List Char) :
    marks (as ++ bs) = marks bs := by
  induction as with
  | nil => rfl
  | cons a as ih =>
    rw [List.mem_cons, not_or] at h
    rw [List.cons_append, marks, if_neg (Ne.symm h.1), ih h.2]

/-- A number after a dollar sign is taken whole, whatever comes after it that is no digit. -/
theorem marks_number (n : Nat) {rest : List Char} (h : rest.takeWhile isDigit = []) :
    marks ('$' :: (toString n).toList ++ rest) = toString n :: marks rest := by
  have hdigits : (toString n).toList = Nat.toDigits 10 n := by simp [Nat.toList_repr]
  have hall : ∀ d ∈ (toString n).toList, isDigit d = true := by
    intro d hd
    rw [hdigits] at hd
    exact Nat.isDigit_of_mem_toDigits (b := 10) (by decide) (by decide) hd
  have hnone : '$' ∉ (toString n).toList := by
    intro hd
    exact absurd (hall _ hd) (by decide)
  rw [List.cons_append, marks, if_pos rfl, List.takeWhile_append_of_pos hall, h, List.append_nil,
    String.ofList_toList, marks_append_of_not_mem hnone]

def Operand.column? : Operand → Option Field
  | .column f => some f
  | .element => none
  | .asText o | .bytewise o | .laidOut o _ => o.column?

def Term.about? : Term → Option (Field × String × Nat)
  | .constant _ => none
  | .test t => t.left.column?.map fun f => (f, t.operator, t.mark)
  | .anyOf list t => some (list, t.operator, t.mark)

end Query

/-- The parameter that a filter on a field gives to its clause: every pattern is a text, and for a
comparison the literal has to be of the type that the field has. -/
inductive Filter.Gives (f : Filter) (field : Field) : Parameter → Prop
  | pattern (hc : f.comparison = .pattern) : f.Gives field (.text (Pattern.portable f.value.display))
  | number {x : Double} (hc : f.comparison ≠ .pattern) (hk : field.kind.isNumeric = true)
      (hv : f.value = .number x) : f.Gives field (.number x)
  | text {s : String} (hc : f.comparison ≠ .pattern)
      (hk : field.kind = .text ∨ field.kind = .textList) (hv : f.value = .text s) :
      f.Gives field (.text s)
  | boolean {b : Bool} (hc : f.comparison ≠ .pattern) (hk : field.kind = .boolean)
      (hv : f.value = .boolean b) : f.Gives field (.boolean b)
  | moment {s : String} {i : Time.Instant} (hc : f.comparison ≠ .pattern)
      (hk : field.kind = .timestamp) (hv : f.value = .text s) (hi : Time.Instant.read? s = some i) :
      f.Gives field (.timestamp i)

namespace Clause

theorem dollar_not_mem_comparedSource (field : Field) : '$' ∉ (comparedSource field).toList := by
  cases field <;> decide

theorem dollar_not_mem_searchedSource (field : Field) : '$' ∉ (searchedSource field).toList := by
  cases field <;> decide

theorem dollar_not_mem_operator {operator : String} (h : IsOperator operator) :
    '$' ∉ operator.toList := by
  rcases h with rfl | ⟨c, hc⟩
  · decide
  · rcases Comparison.token_cases hc with ⟨_, rfl⟩ | ⟨_, rfl⟩ | ⟨_, rfl⟩ | ⟨_, rfl⟩ | ⟨_, rfl⟩ <;>
      decide

theorem marks_clause {source operator : String} (field : Field) (n : Nat)
    (hs : '$' ∉ source.toList) (ho : IsOperator operator) {rest : List Char}
    (hrest : rest.takeWhile isDigit = []) :
    marks ((source ++ ask operator ++ (toString n ++ trail field)).toList ++ rest) =
      toString n :: marks rest := by
  have hlead : '$' ∉ source.toList ++ ([' '] ++ operator.toList ++ [' ']) := by
    simp only [List.mem_append, List.mem_singleton, not_or]
    exact ⟨hs, ⟨by decide, dollar_not_mem_operator ho⟩, by decide⟩
  have htrail : '$' ∉ (trail field).toList ∧ ((trail field).toList ++ rest).takeWhile isDigit = [] := by
    by_cases hk : field.kind = .textList
    · have ht : (trail field).toList = [')'] := by simp [trail, hk]
      rw [ht]
      exact ⟨by decide, rfl⟩
    · have ht : (trail field).toList = [] := by simp [trail, hk]
      rw [ht]
      exact ⟨by decide, hrest⟩
  have htext : (source ++ ask operator ++ (toString n ++ trail field)).toList ++ rest =
      (source.toList ++ ([' '] ++ operator.toList ++ [' '])) ++
        ('$' :: (toString n).toList ++ ((trail field).toList ++ rest)) := by
    simp [ask, List.append_assoc]
  rw [htext, marks_append_of_not_mem hlead, marks_number n htrail.2,
    marks_append_of_not_mem htrail.1]

/-- A clause has a mark for its parameter, if it has one. -/
theorem marks_render (before : Nat) {c : Clause} (h : c.Legal) {rest : List Char}
    (hrest : rest.takeWhile isDigit = []) :
    marks ((c.render before).toList ++ rest) =
      (List.range' (before + 1) c.parameters.length).map toString ++ marks rest := by
  cases c with
  | never =>
    have hnone : '$' ∉ "FALSE".toList := by decide
    exact marks_append_of_not_mem hnone rest
  | compared field token value =>
    rw [render_compared]
    exact marks_clause field _ (dollar_not_mem_comparedSource field) (.inr h) hrest
  | searched field pattern =>
    rw [render_searched]
    exact marks_clause field _ (dollar_not_mem_searchedSource field) (.inl rfl) hrest

/-- A clause has as many marks as it has parameters, numbered on from those before. -/
theorem marks_render_alone (before : Nat) {c : Clause} (h : c.Legal) :
    marks (c.render before).toList =
      (List.range' (before + 1) c.parameters.length).map toString := by
  have hmarks := marks_render before h (@List.takeWhile_nil Char isDigit)
  simpa [marks] using hmarks

theorem about?_term (before : Nat) (c : Clause) : (c.term before).about? =
    match c with
    | .never => none
    | .compared field token _ => some (field, token, before + 1)
    | .searched field _ => some (field, "~*", before + 1) := by
  cases c with
  | never => rfl
  | compared field token value => cases field <;> rfl
  | searched field pattern => cases field <;> rfl

theorem terms?_render (before : Nat) {c : Clause} (h : c.Legal) :
    terms? (c.render before) = some [c.term before] := by
  rw [terms?, tokens?_render before h]
  simp [splitAnd_of_not_mem (c.and_not_mem_tokens before), readTerm?_tokens before h]

/-- For a comparison, what a filter gives is what its clause takes. -/
theorem gives_iff {f : Filter} (hc : f.comparison ≠ .pattern) {field : Field} {p : Parameter} :
    f.Gives field p ↔ parameter? field.kind f.value = some p := by
  constructor
  · intro h
    cases h with
    | pattern h => exact absurd h hc
    | number _ hk hv =>
      rw [hv]
      cases hkind : field.kind <;> simp_all [Kind.isNumeric, parameter?]
    | text _ hk hv =>
      rw [hv]
      rcases hk with hk | hk <;> rw [hk] <;> rfl
    | boolean _ hk hv =>
      rw [hv, hk]
      rfl
    | moment _ hk hv hi =>
      rw [hv, hk, parameter?, hi]
      rfl
  · intro h
    unfold parameter? at h
    split at h
    · rename_i hk hv
      cases h
      exact .number hc (by rw [hk]; rfl) hv
    · rename_i hk hv
      cases h
      exact .number hc (by rw [hk]; rfl) hv
    · rename_i hk hv
      cases h
      exact .text hc (.inl hk) hv
    · rename_i hk hv
      cases h
      exact .text hc (.inr hk) hv
    · rename_i hk hv
      cases h
      exact .boolean hc hk hv
    · rename_i s hk hv
      cases hi : Time.Instant.read? s with
      | none =>
        rw [hi] at h
        cases h
      | some i =>
        rw [hi] at h
        cases h
        exact .moment hc hk hv hi
    · cases h

/-- A clause is never true where its filter gives nothing, and else has what the filter gives for
its parameter and is about the filter's field. -/
theorem ofFilter_gives (f : Filter) :
    (ofFilter f = .never ∧ ∀ field p, Field.ofName? f.field = some field → ¬ f.Gives field p) ∨
    ∃ field p, Field.ofName? f.field = some field ∧ f.Gives field p ∧
      (ofFilter f).parameters = [p] ∧
      ∀ before, ((ofFilter f).term before).about? =
        some (field, f.comparison.token?.getD "~*", before + 1) := by
  unfold ofFilter
  cases hfield : Field.ofName? f.field with
  | none => exact .inl ⟨rfl, fun _ _ h => by cases h⟩
  | some field =>
    cases htoken : f.comparison.token? with
    | none =>
      have hc : f.comparison = .pattern := by
        cases hc : f.comparison <;> simp [hc, Comparison.token?] at htoken
        rfl
      exact .inr ⟨field, _, rfl, .pattern hc, rfl, fun before => about?_term before _⟩
    | some token =>
      have hc : f.comparison ≠ .pattern := by
        intro hc
        rw [hc] at htoken
        cases htoken
      cases hp : parameter? field.kind f.value with
      | none =>
        refine .inl ⟨by simp only [hp], fun other p hother hgives => ?_⟩
        cases hother
        rw [gives_iff hc, hp] at hgives
        cases hgives
      | some p =>
        simp only [hp]
        exact .inr ⟨field, p, rfl, (gives_iff hc).mpr hp, rfl, fun before => about?_term before _⟩

/-- The clause without a parameter is the one that is never true. -/
theorem render_ne_false (before : Nat) {c : Clause} (h : c.Legal) :
    c.render before ≠ "FALSE" ↔ c.parameters.length = 1 := by
  have hmarks := marks_render_alone before h
  cases c with
  | never => simp [render, parameters]
  | _ =>
    refine iff_of_true (fun heq => ?_) rfl
    rw [heq] at hmarks
    cases hmarks

end Clause

section

variable {cs : List Clause}

/-- The marks of a clause follow those of all clauses before it. -/
theorem getElem?_renderClauses (before : Nat) (cs : List Clause) (i : Nat) :
    (renderClauses before cs)[i]? =
      cs[i]?.map fun c => c.render (before + ((cs.take i).flatMap Clause.parameters).length) := by
  induction cs generalizing before i with
  | nil => simp [renderClauses]
  | cons c cs ih =>
    cases i with
    | zero => simp [renderClauses]
    | succ i => simp [renderClauses, ih, Nat.add_assoc]

theorem take_renderClauses (before : Nat) (cs : List Clause) (i : Nat) :
    (renderClauses before cs).take i = renderClauses before (cs.take i) := by
  induction cs generalizing before i with
  | nil => simp [renderClauses]
  | cons c cs ih =>
    cases i with
    | zero => simp [renderClauses]
    | succ i => simp [renderClauses, ih]

theorem length_renderClauses (before : Nat) (cs : List Clause) :
    (renderClauses before cs).length = cs.length := by
  induction cs generalizing before with
  | nil => rfl
  | cons c cs ih => rw [renderClauses, List.length_cons, ih, List.length_cons]

/-- There is one parameter for each clause that can be true. -/
theorem countP_renderClauses (before : Nat) (h : ∀ c ∈ cs, c.Legal) :
    (renderClauses before cs).countP (· ≠ "FALSE") = (cs.flatMap Clause.parameters).length := by
  induction cs generalizing before with
  | nil => rfl
  | cons c cs ih =>
    have hc := Clause.render_ne_false before (h c List.mem_cons_self)
    have hlength : c.parameters.length = 0 ∨ c.parameters.length = 1 := by
      cases c <;> simp [Clause.parameters]
    rw [renderClauses, List.countP_cons, ih _ fun d hd => h d (List.mem_cons_of_mem _ hd),
      List.flatMap_cons, List.length_append]
    simp only [decide_eq_true_eq, hc]
    rcases hlength with hl | hl
    · simp [hl]
    · simp [hl, Nat.add_comm]

theorem getElem?_parameters {i : Nat} {c : Clause} (hc : cs[i]? = some c) {p : Parameter}
    (hp : c.parameters = [p]) :
    (cs.flatMap Clause.parameters)[((cs.take i).flatMap Clause.parameters).length]? = some p := by
  obtain ⟨hi, rfl⟩ := List.getElem?_eq_some_iff.mp hc
  have hall : cs.flatMap Clause.parameters = (cs.take i).flatMap Clause.parameters ++
      p :: (cs.drop (i + 1)).flatMap Clause.parameters := by
    calc
      cs.flatMap Clause.parameters = (cs.take i ++ cs.drop i).flatMap Clause.parameters := by
        rw [List.take_append_drop]
      _ = _ := by
        rw [List.drop_eq_getElem_cons hi, List.flatMap_append, List.flatMap_cons, hp]
        rfl
  rw [hall, List.getElem?_append_right (Nat.le_refl _), Nat.sub_self]
  rfl

/-- The marks of clauses go on from those before them. -/
theorem marks_renderClauses (before : Nat) (h : ∀ c ∈ cs, c.Legal) :
    marks (" AND ".intercalate (renderClauses before cs)).toList =
      (List.range' (before + 1) (cs.flatMap Clause.parameters).length).map toString := by
  induction cs generalizing before with
  | nil => rfl
  | cons c cs ih =>
    have hc := h c List.mem_cons_self
    have hcs : ∀ d ∈ cs, d.Legal := fun d hd => h d (List.mem_cons_of_mem _ hd)
    cases cs with
    | nil => simpa [renderClauses] using Clause.marks_render_alone before hc
    | cons d ds =>
      have hjoin : '$' ∉ " AND ".toList := by decide
      have hrest := ih (before + c.parameters.length) hcs
      simp only [renderClauses, String.intercalate_cons_cons, String.toList_append] at hrest ⊢
      have hlength : ((c :: d :: ds).flatMap Clause.parameters).length =
          c.parameters.length + ((d :: ds).flatMap Clause.parameters).length := by
        rw [List.flatMap_cons, List.length_append]
      rw [List.append_assoc, Clause.marks_render before hc rfl, marks_append_of_not_mem hjoin, hrest,
        ← List.map_append, Nat.add_right_comm, List.range'_append_1, hlength]

end

namespace Statement

/-- A statement has one clause for each filter, in their order. Its marks are the numbers of its
parameters, in their order. A clause that is never true has no mark and no parameter; any other has
one mark, that of the parameter which its filter gives, and compares the filter's field with it. -/
theorem marks_parameters (fs : List Filter) :
    let s := ofFilters fs
    marks s.text.toList = (List.range s.parameters.length).map (fun k => toString (k + 1)) ∧
    ∃ clauses : List String, clauses.length = fs.length ∧
      s.text = (if fs.isEmpty then "TRUE" else " AND ".intercalate clauses) ∧
      s.parameters.length = clauses.countP (· ≠ "FALSE") ∧
      ∀ i f clause, fs[i]? = some f → clauses[i]? = some clause →
        (clause = "FALSE" ∧ marks clause.toList = [] ∧
          ∀ field p, Field.ofName? f.field = some field → ¬ f.Gives field p) ∨
        ∃ k field p term, k = (clauses.take i).countP (· ≠ "FALSE") ∧
          Field.ofName? f.field = some field ∧ f.Gives field p ∧ s.parameters[k]? = some p ∧
          marks clause.toList = [toString (k + 1)] ∧ terms? clause = some [term] ∧
          term.about? = some (field, f.comparison.token?.getD "~*", k + 1) := by
  intro s
  have hlegal : ∀ c ∈ fs.map Clause.ofFilter, c.Legal := by
    intro c hc
    obtain ⟨f, -, rfl⟩ := List.mem_map.mp hc
    exact Clause.legal_ofFilter f
  have htext : s.text = if fs.isEmpty then "TRUE"
      else " AND ".intercalate (renderClauses 0 (fs.map Clause.ofFilter)) := by
    have h : s = ofClauses (fs.map Clause.ofFilter) := rfl
    rw [h, ofClauses, List.isEmpty_map]
  constructor
  · have hrange : (List.range s.parameters.length).map (fun k => toString (k + 1)) =
        (List.range' (0 + 1) s.parameters.length).map toString := by
      rw [List.range'_eq_map_range, List.map_map]
      exact List.map_congr_left fun k _ => by rw [Function.comp_apply, Nat.zero_add, Nat.add_comm]
    rw [hrange, htext]
    cases fs with
    | nil => decide
    | cons f fs => exact marks_renderClauses 0 hlegal
  · refine ⟨_, by rw [length_renderClauses, List.length_map], htext,
      (countP_renderClauses 0 hlegal).symm, fun i f clause hf hclause => ?_⟩
    have hc : (fs.map Clause.ofFilter)[i]? = some (Clause.ofFilter f) := by
      rw [List.getElem?_map, hf]
      rfl
    have hfirst : ∀ c ∈ (fs.map Clause.ofFilter).take i, c.Legal := fun c h =>
      hlegal c (List.mem_of_mem_take h)
    rw [getElem?_renderClauses, hc, Option.map_some, Nat.zero_add,
      ← countP_renderClauses 0 hfirst, ← take_renderClauses] at hclause
    cases hclause
    generalize hk : ((renderClauses 0 (fs.map Clause.ofFilter)).take i).countP (· ≠ "FALSE") = k
    have hmarks := Clause.marks_render_alone k (Clause.legal_ofFilter f)
    rcases Clause.ofFilter_gives f with ⟨hnever, hnone⟩ | ⟨field, p, hfield, hgives, hp, habout⟩
    · rw [hnever] at hmarks ⊢
      exact .inl ⟨rfl, hmarks, hnone⟩
    · have hlookup := getElem?_parameters hc hp
      rw [← countP_renderClauses 0 hfirst, ← take_renderClauses, hk] at hlookup
      rw [hp] at hmarks
      exact .inr ⟨k, field, p, _, rfl, hfield, hgives, hlookup, hmarks,
        Clause.terms?_render k (Clause.legal_ofFilter f), habout k⟩

/-- A field that no record has, a list, a moment that is none, a pattern and a truth value. -/
def mixedFilters : List Filter :=
  [⟨"brand", .equal, .text "$7"⟩, ⟨"tags", .less, .text "$2"⟩, ⟨"created_at", .less, .text "soon"⟩,
    ⟨"price", .pattern, .text "^1"⟩, ⟨"on_sale", .equal, .boolean true⟩]

theorem marks_parameters_mixed :
    marks (ofFilters mixedFilters).text.toList = ["1", "2", "3"] ∧
    ∃ (clause : String) (k : Nat), marks clause.toList = [toString (k + 1)] ∧
      (ofFilters mixedFilters).parameters[k]? = some (.boolean true) := by
  obtain ⟨hmarks, clauses, hlength, -, -, hclauses⟩ := marks_parameters mixedFilters
  obtain ⟨clause, hclause⟩ : ∃ clause, clauses[4]? = some clause :=
    ⟨_, List.getElem?_eq_getElem (by rw [hlength]; decide)⟩
  have hgives : Filter.Gives ⟨"on_sale", .equal, .boolean true⟩ .onSale (.boolean true) :=
    .boolean (by decide) rfl rfl
  refine ⟨hmarks.trans (by decide +kernel), clause, ?_⟩
  rcases hclauses 4 _ clause rfl hclause with
    ⟨-, -, hnone⟩ | ⟨k, field, p, -, -, hfield, hp, hlookup, hmark, -⟩
  · exact absurd hgives (hnone .onSale _ (by decide))
  · have hvalue : p = .boolean true := by
      cases hp with
      | boolean _ _ hv =>
        cases hv
        rfl
      | pattern hc => cases hc
      | number _ _ hv => cases hv
      | text _ _ hv => cases hv
      | moment _ _ hv => cases hv
    exact ⟨k, hmark, hvalue ▸ hlookup⟩

end Statement

end Segments
