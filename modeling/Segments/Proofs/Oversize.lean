import Segments.Proofs.ByteOrder
import Segments.Proofs.ConditionGrammar
import Segments.Proofs.Conjunction
import Segments.Proofs.Literals

namespace Segments

namespace Pattern

open Text

/-- A text that is searched for as a pattern. -/
def Kept (text : String) : Prop :=
  (∃ p, compile text = .ok p) ∧ isPortable text = true

/-- A text that can be searched for as it stands. -/
def LiteralFits (text : String) : Prop :=
  (literalSize text.toList).forward ≤ maxSize ∧ (literalSize text.toList).backward ≤ maxSize

theorem portable_of_kept {text : String} (h : Kept text) : portable text = text := by
  obtain ⟨⟨p, hp⟩, hportable⟩ := h
  simp [portable, hp, hportable]

/-- What is no pattern that every store takes stands for itself. -/
theorem portable_of_not_kept {text : String} (h : ¬ Kept text) : portable text = escape text := by
  unfold portable
  cases hp : compile text with
  | error fault => rfl
  | ok p =>
    have hportable : isPortable text ≠ true := fun hportable => h ⟨⟨p, hp⟩, hportable⟩
    simp [hportable]

theorem compile_escape_of_fits {text : String} (h : LiteralFits text) :
    ∃ p, compile (escape text) = .ok p := by
  rw [compile_escape, if_pos ((fits_ofText _).mpr h)]
  exact ⟨_, rfl⟩

theorem compile_escape_of_not_fits {text : String} (h : ¬ LiteralFits text) :
    compile (escape text) = .error .tooLarge := by
  rw [compile_escape, if_neg (mt (fits_ofText _).mp h)]

/-- A text without special characters stands for itself. -/
theorem escape_plain {text : String} (hplain : ∀ c ∈ text.toList, isMeta c = false) :
    escape text = text := by
  have hchars : text.toList.flatMap escapedChar = text.toList := by
    generalize text.toList = cs at hplain
    induction cs with
    | nil => rfl
    | cons c cs ih =>
      rw [List.flatMap_cons, ih fun d hd => hplain d (List.mem_cons_of_mem c hd)]
      simp [escapedChar, hplain c List.mem_cons_self]
  rw [← String.toList_inj, toList_escape, hchars]

/-- The portable form of a text is never malformed. -/
theorem compile_portable (text : String) :
    (Kept text ∨ LiteralFits text) ∧ (∃ p, compile (portable text) = .ok p) ∨
      ¬ (Kept text ∨ LiteralFits text) ∧ compile (portable text) = .error .tooLarge := by
  by_cases hkept : Kept text
  · rw [portable_of_kept hkept]
    exact .inl ⟨.inl hkept, hkept.1⟩
  · rw [portable_of_not_kept hkept]
    by_cases hfits : LiteralFits text
    · exact .inl ⟨.inr hfits, compile_escape_of_fits hfits⟩
    · exact .inr ⟨not_or.mpr ⟨hkept, hfits⟩, compile_escape_of_not_fits hfits⟩

end Pattern

namespace Matcher

theorem ofFilter_pattern {f : Filter} (h : f.comparison = .pattern) :
    ofFilter f = (Pattern.compile f.value.display).map fun p =>
      ⟨Catalog.Field.ofName? f.field, .pattern, f.value, some p⟩ := by
  unfold ofFilter
  rw [h]
  cases Pattern.compile f.value.display <;> rfl

/-- The one thing for which the filter of a condition is refused. -/
theorem ofFilter_toFilter (c : Condition) :
    (∃ m, ofFilter c.toFilter = .ok m) ∧
        (c.operator = .matching →
          Pattern.Kept c.value.display ∨ Pattern.LiteralFits c.value.display) ∨
      ofFilter c.toFilter = .error .tooLarge ∧ c.operator = .matching ∧
        ¬ (Pattern.Kept c.value.display ∨ Pattern.LiteralFits c.value.display) := by
  obtain ⟨field, operator, value⟩ := c
  cases operator with
  | matching =>
    have htext : (Condition.toFilter ⟨field, .matching, value⟩).value.display =
      Pattern.portable value.display := rfl
    rw [ofFilter_pattern rfl, htext]
    rcases Pattern.compile_portable value.display with ⟨hok, p, hp⟩ | ⟨hno, hp⟩
    · rw [hp]
      exact .inl ⟨⟨_, rfl⟩, fun _ => hok⟩
    · rw [hp]
      exact .inr ⟨rfl, rfl, hno⟩
  | _ => exact .inl ⟨⟨_, rfl⟩, fun h => nomatch h⟩

end Matcher

namespace Literal

open Text

end Literal

namespace Segment

def titled (word : List Char) : Condition.Parts :=
  ⟨[], "title".toList, [' '], .matching, [' '], word, []⟩

theorem wellFormed_titled {word : List Char} (hne : word ≠ []) (h : Text.Trimmed word) :
    (titled word).WellFormed :=
  have hspace : Text.Blanks [' '] := by simp [Text.Blanks, Text.isBlank]
  { lead := .nil
    field := by simp [titled, Condition.isWordChar]
    gap := hspace
    space := hspace
    value := ⟨hne, h⟩
    tail := .nil
    munches := by simp [titled] }

end Segment

end Segments
