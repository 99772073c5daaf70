import Segments.Proofs.ConditionGrammar
import Segments.Proofs.Numerals

namespace Segments

open Text

namespace Double

/-- A number has neither blanks nor quotes. -/
theorem Numeral.ink {cs : List Char} {negative : Bool} {digits : Nat} {scale : Int}
    (h : Numeral cs negative digits scale) : ∀ c ∈ cs, isBlank c = false ∧ c ≠ '"' ∧ c ≠ '\'' := by
  intro c hc
  rcases h.char_cases hc with hdigit | hsymbol
  · have hword : Condition.isWordChar c = true := by
      have hd : c.isDigit = true := hdigit
      simp [Condition.isWordChar, Char.isAlphanum, hd]
    exact ⟨Condition.isBlank_of_isWordChar hword, ne_of_isDigit hdigit rfl, ne_of_isDigit hdigit rfl⟩
  · simp only [List.mem_cons, List.not_mem_nil, or_false] at hsymbol
    rcases hsymbol with rfl | rfl | rfl | rfl | rfl <;> decide

/-- What is equal to a finite number is finite. -/
theorem isFinite_of_compare? {x y : Double} (hy : y.isFinite = true)
    (h : y.compare? x = some .eq) : x.isFinite = true := by
  cases x with
  | nan => cases y <;> cases h
  | number s p =>
    cases y with
    | nan => cases hy
    | number t q =>
      have hq : q.val < infinity := by simpa [isFinite] using hy
      have hkeys : key t q.val = key s p.val := by simpa [compare?] using h
      have hp : p.val = q.val := by
        unfold key at hkeys
        split at hkeys <;> split at hkeys <;> omega
      simpa [isFinite, hp] using hq

end Double

namespace Literal

/-- The same literal, where numbers are the same if they compare as equal. -/
def Same : Literal → Literal → Prop
  | .number x, .number y => x.compare? y = some .eq
  | a, b => a = b

/-- A pair of equal straight quotes stands around the text. -/
def Enclosed (cs : List Char) : Prop :=
  ∃ quote inner, (quote = '"' ∨ quote = '\'') ∧ cs = quote :: (inner ++ [quote])

/-- The text writes a number that a finite one lies nearest to. -/
def Numeric (cs : List Char) : Prop :=
  ∃ negative digits scale p, Double.Numeral cs negative digits scale ∧
    Double.Rounds (digits * 10 ^ scale) p ∧ p < Double.infinity

/-- A text that is taken for nothing else, and of which nothing is taken off. -/
structure Plain (cs : List Char) : Prop where
  nonempty : cs ≠ []
  trimmed : Trimmed cs
  bare : ¬ Enclosed cs
  word : lowerAscii cs ≠ "true".toList ∧ lowerAscii cs ≠ "false".toList
  number : ¬ Numeric cs

def Canonical : Literal → Prop
  | .boolean _ => True
  | .number x => x.isFinite = true
  | .text s => Plain s.toList

theorem same_text {a : Literal} {s : String} : a.Same (.text s) ↔ a = .text s := by
  cases a <;> simp [Same]

theorem same_boolean {a : Literal} {b : Bool} : a.Same (.boolean b) ↔ a = .boolean b := by
  cases a <;> simp [Same]

theorem same_number {a : Literal} {x : Double} :
    a.Same (.number x) ↔ ∃ y, a = .number y ∧ y.compare? x = some .eq := by
  cases a <;> simp [Same]

theorem unquote_enclosed {quote : Char} {inner : List Char} (h : quote = '"' ∨ quote = '\'') :
    unquote (quote :: (inner ++ [quote])) = inner := by
  have hlast : (quote :: (inner ++ [quote])).getLast? = some quote := by
    rw [← List.cons_append, List.getLast?_append]
    rfl
  have hquote : (quote == '"' || quote == '\'') = true := by
    rcases h with rfl | rfl <;> rfl
  obtain ⟨c, cs, hcons⟩ : ∃ c cs, inner ++ [quote] = c :: cs :=
    List.exists_cons_of_ne_nil (by simp)
  rw [hcons] at hlast ⊢
  simp only [unquote, hlast, hquote, beq_self_eq_true, Bool.and_self, if_true]
  rw [← hcons, List.dropLast_concat]

theorem unquote_bare {cs : List Char} (h : ¬ Enclosed cs) : unquote cs = cs := by
  unfold unquote
  split
  · next c d rest last hlast =>
    split
    · next hpair =>
      refine absurd ⟨c, (d :: rest).dropLast, ?_, ?_⟩ h
      · simpa using (Bool.and_eq_true_iff.mp hpair).1
      · have hc : last = c := by simpa using (Bool.and_eq_true_iff.mp hpair).2
        have hlast' : (d :: rest).getLast? = some last := by simpa using hlast
        rw [← hc]
        exact congrArg _ (List.dropLast_append_getLast? last hlast').symm
    · rfl
  · rfl

/-- Whatever takes something off makes the text shorter; so a text that stays the same had nothing
to take off. -/
theorem unquote_cases (cs : List Char) :
    ¬ Enclosed cs ∧ unquote cs = cs ∨ (unquote cs).length < cs.length := by
  by_cases h : Enclosed cs
  · obtain ⟨quote, inner, hquote, rfl⟩ := h
    right
    rw [unquote_enclosed hquote]
    simp only [List.length_cons, List.length_append, List.length_nil]
    omega
  · exact .inl ⟨h, unquote_bare h⟩

theorem trim_cases (cs : List Char) : Trimmed cs ∧ trim cs = cs ∨ (trim cs).length < cs.length := by
  obtain ⟨lead, rest, rfl, hlead, hrest⟩ := exists_run isBlank cs
  obtain ⟨body, tail, rfl, hbody, htail⟩ := exists_trimmed_append hrest
  rw [← List.append_assoc, trim_append hlead hbody htail]
  by_cases hblank : lead ++ tail = []
  · obtain ⟨rfl, rfl⟩ := List.append_eq_nil_iff.mp hblank
    exact .inl ⟨by simpa using hbody, by simp⟩
  · right
    have hlength := List.length_pos_of_ne_nil hblank
    simp only [List.length_append] at hlength ⊢
    omega

theorem readFinite?_eq_none {cs : List Char} : Double.readFinite? cs = none ↔ ¬ Numeric cs := by
  constructor
  · rintro hnone ⟨negative, digits, scale, p, hnumeral, hrounds, hp⟩
    have hsome := Double.readFinite?_eq_some.mpr ⟨negative, digits, scale, p, hnumeral, hrounds, hp, rfl⟩
    rw [hnone] at hsome
    cases hsome
  · intro h
    cases hread : Double.readFinite? cs with
    | none => rfl
    | some x =>
      obtain ⟨negative, digits, scale, p, hnumeral, hrounds, hp, -⟩ := Double.readFinite?_eq_some.mp hread
      exact absurd ⟨negative, digits, scale, p, hnumeral, hrounds, hp⟩ h

theorem ofWord_true {word : List Char} (h : lowerAscii word = "true".toList) :
    ofWord word = .boolean true := by
  simp only [ofWord, h, beq_self_eq_true, if_true]

theorem ofWord_false {word : List Char} (h : lowerAscii word = "false".toList) :
    ofWord word = .boolean false := by
  have hother : ("false".toList == "true".toList) = false := by decide
  simp only [ofWord, h, hother, beq_self_eq_true, if_true, Bool.false_eq_true, if_false]

theorem ofWord_else {word : List Char} (htrue : lowerAscii word ≠ "true".toList)
    (hfalse : lowerAscii word ≠ "false".toList) : ofWord word =
      (Double.readFinite? word).elim (.text (String.ofList word)) .number := by
  unfold ofWord
  simp only [beq_eq_false_iff_ne.mpr htrue, beq_eq_false_iff_ne.mpr hfalse, Bool.false_eq_true,
    if_false]
  cases Double.readFinite? word <;> rfl

/-- A word is kept just if it is neither a truth value nor a number. -/
theorem ofWord_eq_text {word : List Char} {s : String} : ofWord word = .text s ↔
    (lowerAscii word ≠ "true".toList ∧ lowerAscii word ≠ "false".toList) ∧ ¬ Numeric word ∧
      s.toList = word := by
  have hs : String.ofList word = s ↔ s.toList = word := by
    constructor
    · rintro rfl
      exact String.toList_ofList
    · rintro rfl
      exact String.ofList_toList
  rw [← readFinite?_eq_none, ← hs]
  by_cases htrue : lowerAscii word = "true".toList
  · simp only [ofWord_true htrue, reduceCtorEq, htrue, ne_eq, not_true_eq_false, false_and]
  · by_cases hfalse : lowerAscii word = "false".toList
    · simp only [ofWord_false hfalse, reduceCtorEq, hfalse, ne_eq, not_true_eq_false, and_false,
        false_and]
    · rw [ofWord_else htrue hfalse]
      cases Double.readFinite? word with
      | none => simp only [Option.elim_none, Literal.text.injEq, htrue, hfalse, ne_eq,
          not_false_eq_true, and_self, true_and]
      | some x => simp only [Option.elim_some, reduceCtorEq, false_and, and_false]

/-- A text is read as itself just if it is plain; the empty text is too, but is nowhere read. -/
theorem ofChars_eq_text {s : String} (hne : s ≠ "") :
    ofChars s.toList = .text s ↔ Plain s.toList := by
  unfold ofChars
  rw [ofWord_eq_text]
  constructor
  · rintro ⟨hword, hnumber, hself⟩
    -- whatever is taken off makes the text shorter, so nothing is
    have hlength := congrArg List.length hself
    rcases trim_cases s.toList with ⟨htrimmed, htrim⟩ | hshort
    · rcases unquote_cases s.toList with ⟨hbare, hquotes⟩ | hshort
      · rw [htrim, hquotes] at hword hnumber
        exact ⟨by simpa using hne, htrimmed, hbare, hword, hnumber⟩
      · rw [htrim] at hlength
        omega
    · rcases unquote_cases (trim s.toList) with ⟨-, hquotes⟩ | hshorter
      · rw [hquotes] at hlength
        omega
      · omega
  · rintro ⟨-, htrimmed, hbare, hword, hnumber⟩
    rw [htrimmed.trim, unquote_bare hbare]
    exact ⟨hword, hnumber, rfl⟩

theorem ofChars_number {cs : List Char} {x : Double} (h : Double.readFinite? cs = some x) :
    ofChars cs = .number x := by
  obtain ⟨negative, digits, scale, p, hnumeral, -⟩ := Double.readFinite?_eq_some.mp h
  have hbare : ¬ Enclosed cs := by
    rintro ⟨quote, inner, hquote, rfl⟩
    have hfirst := (hnumeral.ink quote List.mem_cons_self).2
    exact hquote.elim hfirst.1 hfirst.2
  rw [ofChars, (Trimmed.of_ink fun c hc => (hnumeral.ink c hc).1).trim, unquote_bare hbare,
    ofWord_else (hnumeral.lowerAscii_ne (.inr (.inl (by decide))))
      (hnumeral.lowerAscii_ne (.inr (.inr (by decide)))), h]
  rfl

/-- The names of infinity and of not-a-number are kept as texts. -/
theorem isFinite_of_ofChars {cs : List Char} {x : Double} (h : ofChars cs = .number x) :
    x.isFinite = true := by
  unfold ofChars ofWord at h
  simp only at h
  split at h
  · cases h
  · split at h
    · cases h
    · split at h
      · next y hy =>
        cases h
        exact (Option.filter_eq_some_iff.mp hy).2
      · cases h

end Literal

namespace Condition

/-- The display of a condition has its parts; which literal its value is read as depends on the text
of the value alone. -/
theorem ofChars_display {c : Condition} (hname : c.field ≠ "")
    (hword : ∀ d ∈ c.field.toList, isWordChar d = true) : ofChars c.display.toList =
      if trim c.value.display.toList = [] then .error .missingValue
      else .ok ⟨c.field, c.operator, .ofChars c.value.display.toList⟩ := by
  have hfield : c.field.toList ≠ [] := by simpa using hname
  have htext : c.display.toList = c.field.toList ++ [' '] ++ c.operator.token.toList ++ [' '] ++
      c.value.display.toList := by
    simp [display, String.toList_append]
  have hspace : Blanks [' '] := by simp [Blanks, isBlank]
  obtain ⟨lead, rest, hvalue, hlead, hrest⟩ := exists_run isBlank c.value.display.toList
  obtain ⟨body, tail, rfl, hbody, htail⟩ := exists_trimmed_append hrest
  rw [← List.append_assoc] at hvalue
  have htrim := trim_append hlead hbody htail
  rw [htext, hvalue, htrim]
  obtain ⟨o, os, htoken, hink, hpunct⟩ := c.operator.token_cons
  cases body with
  | nil =>
    rw [if_pos rfl]
    have hblanks : Blanks ([' '] ++ (lead ++ tail)) := hspace.append (Blanks.append hlead htail)
    have hopens : Opens (c.field.toList ++ [' '] ++ c.operator.token.toList ++ [' '] ++
        (lead ++ [] ++ tail)) [] c.field.toList [' ']
        (c.operator.token.toList ++ ([' '] ++ (lead ++ tail))) := by
      refine ⟨by simp [List.append_assoc], .nil, ⟨hfield, hword⟩, ?_, hspace, ?_⟩
      · intro d hd
        cases hd
        rfl
      · intro d hd
        rw [htoken] at hd
        cases hd
        exact hink
    have hmunches : c.operator.Munches ([' '] ++ (lead ++ tail)) := by
      rintro ⟨-, hhead⟩
      cases hhead
    exact ofChars_lacks (show Lacks _ .missingValue from ⟨_, _, _, _, hopens, c.operator, _, rfl,
      fun other hother => hmunches.longest hother, hblanks⟩)
  | cons b bs =>
    let parts : Parts := ⟨[], c.field.toList, [' '], c.operator, ' ' :: lead, b :: bs, tail⟩
    have hparts : parts.WellFormed := {
      lead := .nil
      field := ⟨hfield, hword⟩
      gap := hspace
      space := hspace.append hlead
      value := ⟨List.cons_ne_nil b bs, hbody⟩
      tail := htail
      munches := fun h => List.cons_ne_nil _ _ h.2.1 }
    have hliteral : Literal.ofChars (lead ++ b :: bs ++ tail) = Literal.ofChars (b :: bs) := by
      rw [Literal.ofChars, Literal.ofChars, htrim, hbody.trim]
    have hread := hparts.ofChars_text
    rw [if_neg (List.cons_ne_nil b bs), hliteral]
    simpa [parts, Parts.text, Parts.condition, Literal.read, List.append_assoc] using hread

/-- A condition is read back from its display just if its value is canonical, which every finite
number is; and the display of a finite number, whatever its size, is read as that number. -/
theorem read_display {c : Condition} (hname : c.field ≠ "")
    (hword : ∀ d ∈ c.field.toList, isWordChar d = true) :
    ((∃ read, Condition.read c.display = .ok read ∧ read.field = c.field ∧
        read.operator = c.operator ∧ read.value.Same c.value) ↔ c.value.Canonical) ∧
      ∀ x : Double, x.isFinite = true →
        ∃ y, Literal.read x.display = .number y ∧ y.compare? x = some .eq := by
  -- a finite number is read from its digits as well on its own as behind an operator
  have hnumber : ∀ x : Double, x.isFinite = true →
      ∃ y, Literal.ofChars x.display.toList = .number y ∧ y.compare? x = some .eq := by
    intro x hx
    obtain ⟨y, hy, hsame⟩ := Double.readFinite?_display hx
    exact ⟨y, Literal.ofChars_number hy, hsame⟩
  refine ⟨?_, hnumber⟩
  have hread : (∃ read, Condition.read c.display = .ok read ∧ read.field = c.field ∧
      read.operator = c.operator ∧ read.value.Same c.value) ↔
      trim c.value.display.toList ≠ [] ∧ (Literal.ofChars c.value.display.toList).Same c.value := by
    rw [read_eq, ofChars_display hname hword]
    by_cases hblank : trim c.value.display.toList = []
    · simp [hblank, Except.mapError]
    · simp [hblank, Except.mapError]
  rw [hread]
  cases c.value with
  | boolean b =>
    cases b
    · exact ⟨fun _ => trivial, fun _ => ⟨by decide, Literal.same_boolean.mpr (by decide)⟩⟩
    · exact ⟨fun _ => trivial, fun _ => ⟨by decide, Literal.same_boolean.mpr (by decide)⟩⟩
  | number x =>
    constructor
    · rintro ⟨-, hsame⟩
      obtain ⟨y, hy, heq⟩ := Literal.same_number.mp hsame
      exact Double.isFinite_of_compare? (Literal.isFinite_of_ofChars hy) heq
    · intro hx
      obtain ⟨y, hy, heq⟩ := hnumber x hx
      refine ⟨?_, Literal.same_number.mpr ⟨y, hy, heq⟩⟩
      intro hblank
      have hempty : Literal.ofWord (Literal.unquote []) = .text "" := by decide
      change Literal.ofChars x.display.toList = .number y at hy
      rw [Literal.ofChars, show trim x.display.toList = [] from hblank, hempty] at hy
      cases hy
  | text s =>
    change trim s.toList ≠ [] ∧ (Literal.ofChars s.toList).Same (.text s) ↔ Literal.Plain s.toList
    rw [Literal.same_text]
    constructor
    · rintro ⟨hblank, hself⟩
      have hne : s ≠ "" := by
        rintro rfl
        exact hblank rfl
      exact (Literal.ofChars_eq_text hne).mp hself
    · intro hplain
      have hne : s ≠ "" := by simpa using hplain.nonempty
      refine ⟨?_, (Literal.ofChars_eq_text hne).mpr hplain⟩
      rw [hplain.trimmed.trim]
      exact hplain.nonempty

/-- The least number above zero, of which the display has more than three hundred digits. -/
theorem read_display_least :
    ∃ read, Condition.read (display ⟨"price", .less, .number (.ofPlace false 1)⟩) = .ok read ∧
      read.field = "price" ∧ read.operator = .less ∧
      read.value.Same (.number (.ofPlace false 1)) :=
  (read_display (c := ⟨"price", .less, .number (.ofPlace false 1)⟩) (by decide)
    (List.all_eq_true.mp (by decide))).1.mpr (show (Double.ofPlace false 1).isFinite = true by decide)

/-- Quotes around a text come off, and what was in them is read. -/
example : read (display ⟨"name", .equal, .text "'a'"⟩) = .ok ⟨"name", .equal, .text "a"⟩ := by
  decide

end Condition

end Segments
