import Segments.Filter.Match
import Segments.Proofs.CaseOrbits
import Segments.Proofs.CodeSets
import Segments.Proofs.Oversize
import Segments.Proofs.SearchMeaning

namespace Segments

namespace Pattern

open Text

/-- Somewhere in the text stands a run of as many characters, each of which is the character in its
place but for case. -/
def Occurs (literal text : List Char) : Prop :=
  ∃ run, run <:+: text ∧ List.Forall₂ (fun c d => sameFold c d = true) literal run

theorem contains_caseless (c d : Char) : (caseless c).contains d = true ↔ sameFold c d = true := by
  rw [CodeSet.contains, caseless, CodeSet.containsCode_ofCodes, sameFold, List.contains_iff_mem]

theorem spans_ofParts (subject : Subject) (es : List Expr) (i j : Nat) :
    (Expr.ofParts es).Spans subject i j ↔ Expr.Spans.inTurn subject es i j := by
  match es with
  | [] => simp only [Expr.ofParts, Expr.Spans, Expr.Spans.inTurn]
  | [e] => simp [Expr.ofParts, Expr.Spans.inTurn]
  | a :: b :: es => simp only [Expr.ofParts, Expr.Spans]

theorem found_ofParts (es : List Expr) (cs : List Char) : (Expr.ofParts es).found cs = true ↔
    ∃ i j, i ≤ cs.length ∧ Expr.Spans.inTurn (.ofChars cs) es i j := by
  rw [Expr.found_iff]
  simp only [spans_ofParts]

/-- Characters in a row are found where they stand in a row, case apart. -/
theorem found_ofText (literal text : List Char) :
    (Expr.ofText literal).found text = true ↔ Occurs literal text := by
  rw [ofText_eq, found_ofParts]
  simp only [Expr.inTurn_ones, List.forall₂_map_left_iff, contains_caseless]
  constructor
  · rintro ⟨i, -, -, -, run, hrun, hall⟩
    exact ⟨run, hrun.isInfix.trans (List.drop_suffix i text).isInfix, hall⟩
  · rintro ⟨run, ⟨before, rest, rfl⟩, hall⟩
    refine ⟨before.length, _, by simp, rfl, run, ?_, hall⟩
    simp [Subject.ofChars, List.append_assoc]

def Finds (pattern text : String) : Prop :=
  ∃ p, compile pattern = .ok p ∧ p.isMatch text = true

/-- What stands for a text is the sequence of its characters and nothing else. -/
theorem expr_of_escape {text : String} {p : Pattern} (h : compile (escape text) = .ok p) :
    p = ⟨.ofText text.toList⟩ := by
  rw [compile_escape] at h
  split at h
  · exact (Except.ok.inj h).symm
  · cases h

theorem finds_escape {text s : String} : Finds (escape text) s ↔
    (∃ p, compile (escape text) = .ok p) ∧ Occurs text.toList s.toList := by
  constructor
  · rintro ⟨p, hp, hmatch⟩
    rw [expr_of_escape hp] at hmatch
    exact ⟨⟨p, hp⟩, (found_ofText _ _).mp hmatch⟩
  · rintro ⟨⟨p, hp⟩, hoccurs⟩
    refine ⟨p, hp, ?_⟩
    rw [expr_of_escape hp]
    exact (found_ofText _ _).mpr hoccurs

/-- A character without case that is encoded as one byte takes one state. -/
theorem ofSet_caseless {c : Char} (h : c.toNat < 65) :
    Size.ofSet (caseless c) = .both Size.state := by
  have hset : caseless c = .single c.toNat c.toNat := by
    rw [caseless, orbitOf_of_lt h, CodeSet.ofCodes_singleton]
  have hone : CodeSet.one? (.single c.toNat c.toNat) = some c.toNat := by
    simp [CodeSet.one?, CodeSet.single]
  have hbyte : (encodeChar c).length = 1 := by
    rw [encodeChar, if_pos (by omega)]
    rfl
  rw [hset, Size.ofSet, hone]
  simp [CodeSet.single, hbyte]

/-- Short texts of such characters can be searched for as they stand. -/
theorem literalFits_of_lt {text : String} (hchars : (text.toList.all fun c => c.toNat < 65) = true)
    (hlength : text.toList.length ≤ 300000) : LiteralFits text := by
  have hsum : ∀ cs : List Char, (∀ c ∈ cs, c.toNat < 65) →
      (cs.map fun c => Size.ofSet (caseless c)).foldr Size.add (.both 0) =
        .both (Size.state * cs.length) := by
    intro cs hcs
    induction cs with
    | nil => rfl
    | cons c cs ih =>
      rw [List.forall_mem_cons] at hcs
      rw [List.map_cons, List.foldr_cons, ih hcs.2, ofSet_caseless hcs.1]
      simp [Size.add, Size.both, Nat.mul_succ, Nat.add_comm]
  unfold LiteralFits literalSize
  rw [hsum _ fun c hc => of_decide_eq_true (List.all_eq_true.mp hchars c hc)]
  simp only [Size.add, Size.both, Size.state, frameSize, Size.edge, Size.branch, maxSize]
  omega

/-- A bracket that is not closed makes a text that is no pattern. -/
theorem not_kept_bracket : ¬ Kept "(15" := by
  have hread : (Tree.read? "(15".toList).isNone = true := by decide +kernel
  rintro ⟨⟨p, hp⟩, -⟩
  rw [compile, Option.isNone_iff_eq_none.mp hread] at hp
  cases hp

theorem compile_escape_bracket : ∃ p, compile (escape "(15") = .ok p :=
  compile_escape_of_fits (literalFits_of_lt (by decide) (by decide))

end Pattern

namespace Matcher

open Pattern Text

/-- A text whose portable form is its escaped form is found just where it occurs as it stands, case
apart. -/
theorem ofFilter_literal {text : String} (hescaped : portable text = escape text)
    (hcompiles : ∃ p, compile (escape text) = .ok p) (field : String) :
    ∃ m, ofFilter ⟨field, .pattern, .text (portable text)⟩ = .ok m ∧
      ∀ s, m.matchesValue (.text s) = true ↔ Occurs text.toList s.toList := by
  obtain ⟨p, hp⟩ := hcompiles
  refine ⟨⟨Catalog.Field.ofName? field, .pattern, .text (portable text), some p⟩, ?_, fun s => ?_⟩
  · rw [ofFilter_pattern rfl]
    have hdisplay : (Literal.text (portable text)).display = escape text := hescaped
    simp only [hdisplay, hp]
    rfl
  · rw [expr_of_escape hp]
    exact found_ofText text.toList s.toList

/-- A bracket that is not closed is found where it is, and only there. -/
theorem ofFilter_literal_bracket :
    ∃ m, ofFilter ⟨"title", .pattern, .text (portable "(15")⟩ = .ok m ∧
      m.matchesValue (.text "Screen (15 in)") = true ∧ m.matchesValue (.text "15") = false := by
  obtain ⟨m, hm, hiff⟩ :=
    ofFilter_literal (portable_of_not_kept not_kept_bracket) compile_escape_bracket "title"
  refine ⟨m, hm, ?_, ?_⟩
  · refine (hiff _).mpr ⟨"(15".toList, ⟨"Screen ".toList, " in)".toList, by simp⟩, ?_⟩
    exact List.forall₂_same.mpr fun c _ => sameFold_iff.mpr rfl
  · rw [Bool.eq_false_iff, Ne, hiff]
    rintro ⟨run, hrun, hall⟩
    have hlength := hall.length_eq.trans_le hrun.length_le
    simp at hlength

end Matcher

end Segments
