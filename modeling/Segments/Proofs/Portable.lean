import Segments.Pattern.Portable

namespace Segments.Pattern

def metas : List Char :=
  ['\\', '.', '+', '*', '?', '(', ')', '|', '[', ']', '\x7b', '\x7d', '^', '$', '#', '&', '-', '~']

theorem mem_metas {c : Char} (h : isMeta c = true) : c ∈ metas := by
  simpa [isMeta, metas, or_assoc] using h

/-- What is checked of each special character holds of them all. -/
theorem of_isMeta {p : Char → Bool} {c : Char} (h : isMeta c = true) (hall : metas.all p = true) :
    p c = true :=
  List.all_eq_true.mp hall c (mem_metas h)

/-- A character that passes a check that every special one fails is not special. -/
theorem isMeta_eq_false {p : Char → Bool} {c : Char} (h : p c = true)
    (hall : metas.any p = false) : isMeta c = false := by
  refine Bool.eq_false_iff.mpr fun hmeta => ?_
  exact List.any_eq_false.mp hall c (mem_metas hmeta) h

theorem isPortableEscape_of_isMeta {c : Char} (h : isMeta c = true) :
    isPortableEscape false c = true :=
  of_isMeta h (by decide)

/-- Outside brackets an escaped text goes on as it began: every special character is one that a
backslash before it makes plain. -/
theorem isPortableFrom_escape (fuel : Nat) (cs : List Char) :
    isPortableFrom fuel false (cs.flatMap fun c => if isMeta c then ['\\', c] else [c]) = true := by
  induction cs generalizing fuel with
  | nil => cases fuel <;> rfl
  | cons c cs ih =>
    rw [List.flatMap_cons]
    cases fuel with
    | zero => cases h : isMeta c <;> rfl
    | succ fuel =>
      cases h : isMeta c with
      | true => simp [isPortableFrom, isPortableEscape_of_isMeta h, ih]
      | false =>
        have hne : c ≠ '\\' ∧ c ≠ '(' ∧ c ≠ '[' := by
          refine ⟨?_, ?_, ?_⟩
          all_goals
            rintro rfl
            exact absurd h (by decide)
        simp [isPortableFrom, hne.1, hne.2.1, hne.2.2, ih]

theorem isPortable_escape (text : String) : isPortable (escape text) = true := by
  unfold isPortable escape
  rw [String.toList_ofList]
  exact isPortableFrom_escape _ _

/-- A portable pattern is its own portable form, if it is a pattern at all. -/
theorem portable_portable {text : String} {p : Pattern}
    (h : compile (portable text) = .ok p) : portable (portable text) = portable text := by
  have hkeep : isPortable (portable text) = true := by
    unfold portable
    split
    · split
      · assumption
      · exact isPortable_escape text
    · exact isPortable_escape text
  generalize portable text = pattern at h hkeep ⊢
  simp [portable, h, hkeep]

end Segments.Pattern
