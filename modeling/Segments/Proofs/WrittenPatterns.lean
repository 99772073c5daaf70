import Segments.Filter.Statement
import Segments.Proofs.DisplayedConditions
import Segments.Proofs.NumberPatterns

namespace Segments

open Catalog Text

namespace Pattern

/-- A text that is kept, or can be searched for as it stands. -/
def Settles (text : String) : Prop :=
  ¬ Kept text → ∃ p, compile (escape text) = .ok p

/-- A text that is not kept can still be too large to stand for itself. -/
theorem compile_portable_iff (text : String) :
    (∃ p, compile (portable text) = .ok p) ↔ Settles text := by
  unfold Settles
  by_cases hkept : Kept text
  · rw [portable_of_kept hkept]
    exact iff_of_true hkept.1 fun hno => absurd hkept hno
  · rw [portable_of_not_kept hkept]
    exact ⟨fun hp _ => hp, fun h => h hkept⟩

/-- A text that is made portable twice is made portable once. So the pattern that a statement binds,
which is made portable again, is the one that the records of a store are searched for. -/
theorem portable_stable :
    (∀ text, Settles text → portable (portable text) = portable text) ∧
      ∀ (c : Condition) (field : Field), c.operator = .matching →
        Field.ofName? c.field = some field →
          (Matcher.ofFilter c.toFilter = (compile (portable c.value.display)).map fun p =>
              ⟨some field, .pattern, .text (portable c.value.display), some p⟩) ∧
            ((∃ m, Matcher.ofFilter c.toFilter = .ok m) ↔ Settles c.value.display) ∧
              (Settles c.value.display →
                (Statement.ofFilters [c.toFilter]).parameters =
                  [.text (portable c.value.display)]) := by
  have htwice : ∀ text, Settles text → portable (portable text) = portable text := by
    intro text h
    obtain ⟨p, hp⟩ := (compile_portable_iff text).mpr h
    exact portable_portable hp
  refine ⟨htwice, fun c field hop hfield => ?_⟩
  obtain ⟨name, operator, value⟩ := c
  cases hop
  change Field.ofName? name = some field at hfield
  have hmatcher : Matcher.ofFilter (Condition.toFilter ⟨name, .matching, value⟩) =
      (compile (portable value.display)).map fun p =>
        ⟨some field, .pattern, .text (portable value.display), some p⟩ := by
    rw [Matcher.ofFilter_pattern rfl, ← hfield]
    rfl
  refine ⟨hmatcher, ?_, fun hsettles => ?_⟩
  · rw [hmatcher, ← compile_portable_iff]
    cases compile (portable value.display) <;> simp [Except.map]
  · have hclause : Clause.ofFilter (Condition.toFilter ⟨name, .matching, value⟩) =
        .searched field (portable (portable value.display)) := by
      simp only [Clause.ofFilter, Condition.toFilter, hfield]
      rfl
    simp [Statement.ofFilters, Statement.ofClauses, hclause, Clause.parameters, htwice _ hsettles]

/-- A bracket that is not closed is searched for behind a backslash, in every store. -/
theorem portable_stable_bracket : portable (portable "(15") = "\\(15" ∧
    (Statement.ofFilters [Condition.toFilter ⟨"title", .matching, .text "(15"⟩]).parameters =
      [.text "\\(15"] := by
  have hsettles : Settles "(15" := fun _ => compile_escape_bracket
  have hescape : portable "(15" = "\\(15" := by
    rw [portable_of_not_kept not_kept_bracket]
    decide
  obtain ⟨htwice, hbound⟩ := portable_stable
  rw [htwice _ hsettles, ← hescape]
  exact ⟨rfl, (hbound ⟨"title", .matching, .text "(15"⟩ .title rfl (by decide)).2.2 hsettles⟩

/-- Case does not count where a text stands for itself. -/
theorem ofText_lower (cs : List Char) : Expr.ofText (lowerAscii cs) = Expr.ofText cs := by
  have hcaseless : ∀ c : Char, caseless c.toLower = caseless c := fun c => by
    rw [caseless, caseless, orbitOf_toLower]
  -- no character, one, or a text of several
  rcases cs with _ | ⟨a, _ | ⟨b, cs⟩⟩
  · rfl
  · simp [lowerAscii, Expr.ofText, hcaseless]
  · simp [lowerAscii, Expr.ofText, hcaseless]

theorem portable_plain {text : String} (hplain : ∀ c ∈ text.toList, isMeta c = false) :
    portable text = text := by
  by_cases hkept : Kept text
  · exact portable_of_kept hkept
  · rw [portable_of_not_kept hkept, escape_plain hplain]

/-- Letters in any case are searched for as the same pattern. -/
theorem compile_lower {word name : String} (hname : ∀ c ∈ name.toList, c.isLower = true)
    (h : lowerAscii word.toList = name.toList) :
    compile (portable word) = compile (portable name) := by
  have hword : ∀ c ∈ word.toList, isMeta c = false := by
    intro c hc
    have hlower : c.toLower.isLower = true := by
      refine hname _ ?_
      rw [← h]
      exact List.mem_map.mpr ⟨c, hc, rfl⟩
    exact isMeta_eq_false (p := fun c => c.toLower.isLower) hlower (by decide)
  have hplain : ∀ c ∈ name.toList, isMeta c = false := fun c hc =>
    isMeta_eq_false (hname c hc) (by decide)
  rw [portable_plain hword, portable_plain hplain, ← escape_plain hword, ← escape_plain hplain,
    compile_escape, compile_escape, ← h, ofText_lower]

end Pattern

/-- Some text in the field of the record is one that the pattern is found in; of a list of texts one
is enough. -/
def Catalog.Record.Matches (r : Record) (field pattern : String) : Prop :=
  ∃ f, Field.ofName? field = some f ∧ ∃ v ∈ (r.get f).elements, ∃ text, v.textForm? = some text ∧
    Pattern.Finds pattern text

namespace Literal

open Pattern

/-- A word is searched for as it was written just if it is no number or is displayed as it was
written. -/
theorem finds_display_ofWord {word : String}
    (hcompiles : ∃ p, compile (portable (ofWord word.toList).display) = .ok p) :
    (∀ s, Finds (portable (ofWord word.toList).display) s ↔ Finds (portable word) s) ↔
      ∀ x, ofWord word.toList = .number x → x.display = word := by
  have hcase : ∀ name : String, (∀ c ∈ name.toList, c.isLower = true) →
      lowerAscii word.toList = name.toList →
        ∀ s, Finds (portable name) s ↔ Finds (portable word) s := by
    intro name hname h s
    rw [Finds, Finds, compile_lower hname h]
  by_cases htrue : lowerAscii word.toList = "true".toList
  · rw [ofWord_true htrue]
    exact iff_of_true (hcase "true" (List.all_eq_true.mp (by decide)) htrue) nofun
  by_cases hfalse : lowerAscii word.toList = "false".toList
  · rw [ofWord_false hfalse]
    exact iff_of_true (hcase "false" (List.all_eq_true.mp (by decide)) hfalse) nofun
  rw [ofWord_else htrue hfalse] at hcompiles ⊢
  cases hread : Double.readFinite? word.toList with
  | none =>
    have hself : (Literal.text (String.ofList word.toList)).display = word := String.ofList_toList
    rw [Option.elim_none, hself]
    exact iff_of_true (fun s => Iff.rfl) nofun
  | some x =>
    rw [hread, Option.elim_some] at hcompiles
    rw [Option.elim_some, display, finds_display_iff hread hcompiles]
    simp only [Literal.number.injEq, forall_eq']

end Literal

namespace Condition

open Pattern

theorem holds_matching {c : Condition} (hop : c.operator = .matching) (r : Record) :
    c.Holds r ↔ r.Matches c.field (portable c.value.display) := by
  obtain ⟨field, operator, value⟩ := c
  cases hop
  have hof : ∀ v, HoldsOf ⟨field, .matching, value⟩ v ↔
      ∃ text, v.textForm? = some text ∧ Finds (portable value.display) text := by
    intro v
    simp only [HoldsOf, Finds]
    constructor
    · rintro ⟨text, p, htext, hp, hmatch⟩
      exact ⟨text, htext, p, hp, hmatch⟩
    · rintro ⟨text, htext, p, hp, hmatch⟩
      exact ⟨text, p, htext, hp, hmatch⟩
  simp only [Holds, Record.Matches, hof]

/-- The parts of a text that is read as a condition. -/
theorem exists_parts {text : String} {c : Condition} (h : Condition.parse text = .ok c) :
    ∃ p : Parts, p.WellFormed ∧ p.text = text.toList ∧ c = p.condition := by
  rcases parts_or_lacks text.toList with ⟨p, hp, htext⟩ | ⟨reason, hlacks⟩
  · have hread := hp.ofChars_text
    rw [htext] at hread
    exact ⟨p, hp, htext, Except.ok.inj (h.symm.trans hread)⟩
  · cases h.symm.trans (ofChars_lacks hlacks)

theorem Parts.WellFormed.value_eq {p : Parts} (hp : p.WellFormed) : p.condition.value =
    .ofWord (String.ofList (Literal.unquote p.value)).toList := by
  rw [String.toList_ofList, Parts.condition, Literal.read, String.toList_ofList, Literal.ofChars,
    hp.value.2.trim]

/-- A condition with a pattern selects the records in which the pattern is found that its value is
displayed as. That is the pattern that was written, but for numbers: a number finds the same texts as
what was written just if it is displayed as it was written. -/
theorem matching_written {text : String} {c : Condition} (h : Condition.parse text = .ok c)
    (hop : c.operator = .matching) :
    ∃ p : Parts, p.WellFormed ∧ p.text = text.toList ∧ c = p.condition ∧
      ∀ m, Matcher.ofFilter c.toFilter = .ok m →
        (∀ r, m.selects r = true ↔ r.Matches c.field (portable c.value.display)) ∧
          ((∀ s, Finds (portable c.value.display) s ↔
              Finds (portable (String.ofList (Literal.unquote p.value))) s) ↔
            ∀ x, c.value = .number x → x.display = String.ofList (Literal.unquote p.value)) := by
  obtain ⟨p, hp, htext, rfl⟩ := exists_parts h
  refine ⟨p, hp, htext, rfl, fun m hm => ⟨fun r => ?_, ?_⟩⟩
  · rw [Matcher.selects_iff hm, holds_matching hop]
  · have hcompiles : ∃ q, Pattern.compile (portable p.condition.value.display) = .ok q := by
      rcases Matcher.ofFilter_toFilter p.condition with ⟨-, hok⟩ | ⟨hfault, -⟩
      · rcases compile_portable p.condition.value.display with ⟨-, hq⟩ | ⟨hno, -⟩
        · exact hq
        · exact absurd (hok hop) hno
      · cases hfault.symm.trans hm
    rw [hp.value_eq] at hcompiles ⊢
    exact Literal.finds_display_ofWord hcompiles

/-- A plus sign at the front of a number is lost, and texts without it are found. -/
theorem matching_written_plus :
    Condition.parse "title |= +5" = .ok ⟨"title", .matching, .number (.ofInt 5)⟩ ∧
      ∃ m, Matcher.ofFilter (toFilter ⟨"title", .matching, .number (.ofInt 5)⟩) = .ok m ∧
        m.selects { Segment.boots with title := "Size 5" } = true ∧
        ¬ ∀ s, Finds (portable "5") s ↔ Finds (portable "+5") s := by
  have hparse : Condition.parse "title |= +5" = .ok ⟨"title", .matching, .number (.ofInt 5)⟩ := by
    decide +kernel
  have hdisplay : (Literal.number (.ofInt 5)).display = "5" := by decide +kernel
  have hfits : LiteralFits "5" := literalFits_of_lt (by decide) (by decide)
  have hplain : ∀ c ∈ "5".toList, isMeta c = false := by simp [isMeta]
  obtain ⟨m, hm⟩ :
      ∃ m, Matcher.ofFilter (toFilter ⟨"title", .matching, .number (.ofInt 5)⟩) = .ok m := by
    rcases Matcher.ofFilter_toFilter ⟨"title", .matching, .number (.ofInt 5)⟩ with
      ⟨hm, -⟩ | ⟨-, -, hno⟩
    · exact hm
    · rw [hdisplay] at hno
      exact absurd (.inr hfits) hno
  obtain ⟨p, hp, htext, -, hsearch⟩ := matching_written hparse rfl
  have hparts : p = Segment.titled ['+', '5'] :=
    hp.eq_of_text (Segment.wellFormed_titled (by decide) (.of_ink (by simp [isBlank])))
      (htext.trans (by decide))
  obtain ⟨hselects, hsame⟩ := hsearch m hm
  rw [hdisplay] at hselects hsame
  subst hparts
  refine ⟨hparse, m, hm, (hselects _).mpr ⟨.title, by decide, .text "Size 5", ?_, "Size 5", rfl, ?_⟩,
    fun hall => ?_⟩
  · exact List.mem_singleton_self _
  · rw [portable_plain hplain, ← escape_plain hplain]
    refine finds_escape.mpr ⟨compile_escape_of_fits hfits, "5".toList, ?_, ?_⟩
    · exact ⟨"Size ".toList, [], by simp⟩
    · exact List.forall₂_same.mpr fun c _ => sameFold_iff.mpr rfl
  · have hdisplayed := hsame.mp hall _ rfl
    revert hdisplayed
    decide +kernel

end Condition

end Segments
