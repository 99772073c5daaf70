import Segments.Filter.Statement
import Segments.Proofs.QueryMeaning

namespace Segments

open Catalog Query

namespace Comparison

/-- The five tokens of comparisons that have one. -/
theorem token_cases {c : Comparison} {token : String} (h : c.token? = some token) :
    (c = .equal ∧ token = "=") ∨ (c = .greater ∧ token = ">") ∨
      (c = .greaterOrEqual ∧ token = ">=") ∨ (c = .less ∧ token = "<") ∨
      (c = .lessOrEqual ∧ token = "<=") := by
  cases c <;> simp_all [token?]

end Comparison

namespace Clause

def Legal : Clause → Prop
  | .compared _ token _ => ∃ c : Comparison, c.token? = some token
  | _ => True

theorem legal_ofFilter (f : Filter) : (ofFilter f).Legal := by
  unfold ofFilter
  split
  · trivial
  · split
    · trivial
    · rename_i token ht
      split
      · exact ⟨f.comparison, ht⟩
      · trivial

/-- A clause about some element of a list of texts, up to what is asked of the element. -/
def someLead (column : String) : String :=
  "EXISTS (SELECT 1 FROM unnest(" ++ column ++ ") AS t(tag) WHERE t.tag"

theorem someElement_eq (column test : String) :
    someElement column test = someLead column ++ test ++ ")" := rfl

def comparedSource (field : Field) : String :=
  match field.kind with
  | .text => field.name ++ " COLLATE \"C\""
  | .textList => someLead field.name ++ " COLLATE \"C\""
  | _ => field.name

def searchedSource (field : Field) : String :=
  match field.kind with
  | .text => field.name
  | .textList => someLead field.name
  | .timestamp =>
    "to_char(" ++ field.name ++ " AT TIME ZONE 'UTC', 'YYYY-MM-DD\"T\"HH24:MI:SS\"+00:00\"')"
  | _ => field.name ++ "::text"

def trail (field : Field) : String :=
  if field.kind = .textList then ")" else ""

def ask (operator : String) : String :=
  " " ++ operator ++ " " ++ "$"

/-- Texts of values have no part in the text of a clause. -/
theorem render_compared (before : Nat) (field : Field) (token : String) (value : Parameter) :
    (compared field token value).render before =
      comparedSource field ++ ask token ++ (toString (before + 1) ++ trail field) := by
  cases field <;>
    simp only [render, comparedSource, ask, trail, Field.kind, someElement_eq, placeholder,
      String.append_assoc, String.append_empty, if_true, if_false, reduceCtorEq]

theorem render_searched (before : Nat) (field : Field) (pattern : String) :
    (searched field pattern).render before =
      searchedSource field ++ ask "~*" ++ (toString (before + 1) ++ trail field) := by
  have ht : ask "~*" = " ~* " ++ "$" := by decide
  cases field <;>
    simp only [render, searchedSource, ht, trail, Field.kind, someElement_eq, placeholder,
      String.append_assoc, String.append_empty, if_true, if_false, reduceCtorEq]

def someTokens (column : String) : List Token :=
  [.word "exists", .sign "(", .word "select", .whole 1, .word "from", .word "unnest", .sign "(",
    .word column, .sign ")", .word "as", .word "t", .sign "(", .word "tag", .sign ")",
    .word "where", .word "t", .sign ".", .word "tag"]

def comparedTokens (field : Field) : List Token :=
  match field.kind with
  | .text => [.word field.name, .word "collate", .quoted "C"]
  | .textList => someTokens field.name ++ [.word "collate", .quoted "C"]
  | _ => [.word field.name]

def searchedTokens (field : Field) : List Token :=
  match field.kind with
  | .text => [.word field.name]
  | .textList => someTokens field.name
  | .timestamp =>
    [.word "to_char", .sign "(", .word field.name, .word "at", .word "time", .word "zone",
      .literal "UTC", .sign ",", .literal Engine.wholeSeconds, .sign ")"]
  | _ => [.word field.name, .sign "::", .word "text"]

def trailTokens (field : Field) : List Token :=
  if field.kind = .textList then [.sign ")"] else []

theorem tokens?_comparedSource (field : Field) :
    tokens? (comparedSource field).toList = some (comparedTokens field) := by
  cases field <;> decide +kernel

theorem tokens?_searchedSource (field : Field) :
    tokens? (searchedSource field).toList = some (searchedTokens field) := by
  cases field <;> decide +kernel

def IsOperator (operator : String) : Prop :=
  operator = "~*" ∨ ∃ c : Comparison, c.token? = some operator

theorem scan?_ask {operator : String} (h : IsOperator operator) {p : Place} {last : List Token}
    (hp : p.close? = some last) :
    p.scan? (ask operator).toList = some (last ++ [.sign operator], .inMark []) := by
  have hrest : Place.between.scan? (operator ++ " " ++ "$").toList =
      some ([.sign operator], .inMark []) := by
    rcases h with rfl | ⟨c, hc⟩
    · decide +kernel
    · rcases Comparison.token_cases hc with ⟨_, rfl⟩ | ⟨_, rfl⟩ | ⟨_, rfl⟩ | ⟨_, rfl⟩ | ⟨_, rfl⟩ <;>
        decide +kernel
  have hask : (ask operator).toList = [' '] ++ (operator ++ " " ++ "$").toList := by
    simp [ask, String.append_assoc]
  rw [hask]
  exact Place.scan?_append (Place.scan?_blank hp) hrest

theorem tokens?_clause {source operator : String} {ts : List Token} (field : Field) (n : Nat)
    (hs : tokens? source.toList = some ts) (ho : IsOperator operator) :
    tokens? (source ++ ask operator ++ (toString n ++ trail field)).toList =
      some (ts ++ .sign operator :: .mark n :: trailTokens field) := by
  obtain ⟨ended, p, last, hscan, hp, rfl⟩ := tokens?_eq_some.mp hs
  have hdigits : (toString n).toList = Nat.toDigits 10 n := by simp [Nat.toList_repr]
  simp only [String.toList_append, hdigits]
  have hnumber := Place.scan?_append (Place.scan?_append hscan (scan?_ask ho hp)) (scan?_toDigits n)
  have hclose := close?_toDigits n
  refine tokens?_eq_some.mpr ?_
  rw [← List.append_assoc]
  by_cases hk : field.kind = .textList
  · have htrail : (trail field).toList = [')'] := by simp [trail, hk]
    refine ⟨_, _, _, Place.scan?_append hnumber (htrail ▸ Place.scan?_closing hclose), rfl, ?_⟩
    simp [trailTokens, hk]
  · have htrail : (trail field).toList = [] := by simp [trail, hk]
    refine ⟨_, _, _, (by rw [htrail, List.append_nil]; exact hnumber), hclose, ?_⟩
    simp [trailTokens, hk]

def tokens (before : Nat) : Clause → List Token
  | .never => [.word "false"]
  | .compared field token _ =>
    comparedTokens field ++ .sign token :: .mark (before + 1) :: trailTokens field
  | .searched field _ =>
    searchedTokens field ++ .sign "~*" :: .mark (before + 1) :: trailTokens field

/-- The text of a clause falls into the tokens that it was made of. -/
theorem tokens?_render (before : Nat) {c : Clause} (h : c.Legal) :
    tokens? (c.render before).toList = some (c.tokens before) := by
  cases c with
  | never =>
    show tokens? "FALSE".toList = some [.word "false"]
    decide +kernel
  | compared field token value =>
    rw [render_compared]
    exact tokens?_clause field _ (tokens?_comparedSource field) (.inr h)
  | searched field pattern =>
    rw [render_searched]
    exact tokens?_clause field _ (tokens?_searchedSource field) (.inl rfl)

/-- No clause has an AND of its own, so that a statement falls apart between its clauses. -/
theorem and_not_mem_tokens (before : Nat) (c : Clause) : .word "and" ∉ c.tokens before := by
  cases c with
  | never => simp [tokens]
  | compared field token value =>
    cases field <;> simp [tokens, comparedTokens, trailTokens, someTokens, Field.kind, Field.name]
  | searched field pattern =>
    cases field <;> simp [tokens, searchedTokens, trailTokens, someTokens, Field.kind, Field.name]

def term (before : Nat) : Clause → Term
  | .never => .constant false
  | .compared field token _ =>
    match field.kind with
    | .text => .test ⟨.bytewise (.column field), token, before + 1⟩
    | .textList => .anyOf field ⟨.bytewise .element, token, before + 1⟩
    | _ => .test ⟨.column field, token, before + 1⟩
  | .searched field _ =>
    match field.kind with
    | .text => .test ⟨.column field, "~*", before + 1⟩
    | .textList => .anyOf field ⟨.element, "~*", before + 1⟩
    | .timestamp => .test ⟨.laidOut (.column field) Engine.wholeSeconds, "~*", before + 1⟩
    | _ => .test ⟨.asText (.column field), "~*", before + 1⟩

theorem readTerm?_tokens (before : Nat) {c : Clause} (h : c.Legal) :
    readTerm? (c.tokens before) = some (c.term before) := by
  cases c with
  | never => rfl
  | compared field token value =>
    obtain ⟨c, hc⟩ := h
    rcases Comparison.token_cases hc with ⟨_, rfl⟩ | ⟨_, rfl⟩ | ⟨_, rfl⟩ | ⟨_, rfl⟩ | ⟨_, rfl⟩ <;>
      cases field <;> rfl
  | searched field pattern => cases field <;> rfl

end Clause

def termsOf (before : Nat) : List Clause → List Term
  | [] => []
  | c :: cs => c.term before :: termsOf (before + c.parameters.length) cs

theorem tokens?_renderClauses (before : Nat) {c : Clause} {cs : List Clause}
    (h : ∀ d ∈ c :: cs, d.Legal) :
    ∃ ts, tokens? (" AND ".intercalate (renderClauses before (c :: cs))).toList = some ts ∧
      (splitAnd ts).mapM readTerm? = some (termsOf before (c :: cs)) := by
  have hc := h c List.mem_cons_self
  induction cs generalizing before c with
  | nil =>
    refine ⟨c.tokens before, ?_, ?_⟩
    · simpa [renderClauses] using Clause.tokens?_render before hc
    · rw [splitAnd_of_not_mem (c.and_not_mem_tokens before)]
      simp [Clause.readTerm?_tokens before hc, termsOf]
  | cons d ds ih =>
    have hrest : ∀ e ∈ d :: ds, e.Legal := fun e he => h e (List.mem_cons_of_mem _ he)
    obtain ⟨ts, ht, hm⟩ :=
      ih (before + c.parameters.length) hrest (hrest d List.mem_cons_self)
    refine ⟨c.tokens before ++ .word "and" :: ts, ?_, ?_⟩
    · simp only [renderClauses, String.intercalate_cons_cons, String.toList_append] at ht ⊢
      rw [List.append_assoc]
      exact tokens?_and (Clause.tokens?_render before hc) ht
    · rw [splitAnd_append (c.and_not_mem_tokens before)]
      simp [Clause.readTerm?_tokens before hc, hm, termsOf]

namespace Statement

/-- What a database reads are the terms of the clauses, in their order; a statement without clauses is
always true. -/
theorem terms?_text {cs : List Clause} (h : ∀ c ∈ cs, c.Legal) :
    terms? (ofClauses cs).text = some (if cs.isEmpty then [.constant true] else termsOf 0 cs) := by
  cases cs with
  | nil =>
    show terms? "TRUE" = some [.constant true]
    decide +kernel
  | cons c cs =>
    obtain ⟨ts, ht, hm⟩ := tokens?_renderClauses 0 h
    have htext : (ofClauses (c :: cs)).text = " AND ".intercalate (renderClauses 0 (c :: cs)) := rfl
    rw [htext, terms?, ht]
    exact hm

end Statement

end Segments
