import Mathlib.Data.List.Forall2
import Segments.Proofs.Portable

namespace Segments.Pattern

open Text

def Expr.ofParts : List Expr → Expr
  | [] => .empty
  | [e] => e
  | es => .concat es

theorem ofReversed_reverse (s t : Tree) (ts : List Tree) :
    Tree.ofReversed (s :: t :: ts).reverse = .concat (s :: t :: ts) := by
  unfold Tree.ofReversed
  split
  · next h => simp at h
  · next h =>
    have hlength := congrArg List.length h
    simp at hlength
  · rw [List.reverse_reverse]

theorem ofTree?_ofReversed {ts : List Tree} {es : List Expr}
    (h : List.Forall₂ (fun t e => Expr.ofTree? .start t = some (e, .start)) ts es) :
    Expr.ofTree? .start (.ofReversed ts.reverse) = some (.ofParts es, .start) := by
  have hall : ∀ {ts : List Tree} {es : List Expr},
      List.Forall₂ (fun t e => Expr.ofTree? .start t = some (e, .start)) ts es →
        Expr.ofTree?.all .start ts = some (es, .start) := by
    intro ts es h
    induction h with
    | nil => rfl
    | cons ht _ ih => simp [Expr.ofTree?.all, ht, ih]
  cases h with
  | nil => rfl
  | cons ht hts =>
    cases hts with
    | nil => exact ht
    | cons ht' hts =>
      rw [ofReversed_reverse, Expr.ofTree?, hall (.cons ht (.cons ht' hts))]
      rfl

/-- A sequence is one deeper than its deepest part, so that no text is too deep to stand for
itself. -/
theorem depth_ofReversed {ts : List Tree} {n : Nat} (h : ∀ t ∈ ts, t.depth ≤ n) :
    (Tree.ofReversed ts.reverse).depth ≤ n + 1 := by
  have hdepths : ∀ ts : List Tree, (∀ t ∈ ts, t.depth ≤ n) → Tree.depth.depths ts ≤ n := by
    intro ts hts
    induction ts with
    | nil => exact Nat.zero_le n
    | cons t ts ih =>
      rw [List.forall_mem_cons] at hts
      exact Nat.max_le.mpr ⟨hts.1, ih hts.2⟩
  match ts with
  | [] => exact Nat.zero_le _
  | [t] => exact Nat.le_succ_of_le (h t List.mem_cons_self)
  | s :: t :: ts =>
    rw [ofReversed_reverse, Tree.depth]
    exact Nat.succ_le_succ (hdepths _ h)

/-- What a text is read as that has only flat parts. -/
theorem read?_parts {cs : List Char} {ts : List Tree}
    (hread : readBranches (cs.length + 1) [] [] ⟨cs, false, []⟩ =
      some (.ofReversed ts.reverse, ⟨[], false, []⟩))
    (hdepth : ∀ t ∈ ts, t.depth ≤ 1) : Tree.read? cs = some (.ofReversed ts.reverse) := by
  have hflat : (Tree.ofReversed ts.reverse).depth ≤ maxDepth :=
    Nat.le_trans (depth_ofReversed hdepth) (by decide)
  rw [Tree.read?, hread]
  simp only [Option.bind_eq_bind, Option.bind_some, List.isEmpty_nil, Bool.true_and,
    decide_eq_true_eq]
  exact if_pos hflat

def escapedChar (c : Char) : List Char :=
  if isMeta c then ['\\', c] else [c]

theorem toList_escape (text : String) :
    (escape text).toList = text.toList.flatMap escapedChar := by
  unfold escape escapedChar
  rw [String.toList_ofList]

def treeOf (c : Char) : Tree :=
  literal (if isMeta c then .escaped else .plain) c

theorem isEscapable_of_isMeta {c : Char} (h : isMeta c = true) : isEscapable c = true :=
  of_isMeta h (by decide)

/-- One step of the reader over an escaped text takes one character. -/
theorem readBranches_escapedChar (fuel : Nat) (parts : List Tree) (c : Char) (rest : List Char) :
    readBranches (fuel + 1) [] parts ⟨escapedChar c ++ rest, false, []⟩ =
      readBranches fuel [] (treeOf c :: parts) ⟨rest, false, []⟩ := by
  unfold escapedChar treeOf
  cases h : isMeta c with
  | true =>
    simp [readBranches, skip, readPart, readPart.push, readEscape, isEscapable_of_isMeta h]
  | false =>
    have hne : ∀ d, isMeta d = true → c ≠ d := by
      rintro d hd rfl
      rw [h] at hd
      cases hd
    have hpart : readPart false parts (c :: rest) = some (literal .plain c :: parts, rest) := by
      unfold readPart
      simp only
      split
      case h_10 => rfl
      all_goals exact absurd h (by decide)
    simp only [Bool.false_eq_true, if_false, List.cons_append, List.nil_append, readBranches, skip]
    split
    · rename_i heq
      cases heq
    · rename_i heq
      exact absurd (List.cons.inj heq).1 (hne _ (by decide))
    · rename_i heq
      exact absurd (List.cons.inj heq).1 (hne _ (by decide))
    · rename_i heq
      exact absurd (List.cons.inj heq).1 (hne _ (by decide))
    · rw [hpart]
      rfl

/-- Each character is read as one part, with a backslash or without. -/
theorem readBranches_escape (cs : List Char) (fuel : Nat) (parts : List Tree)
    (hfuel : (cs.flatMap escapedChar).length < fuel) :
    readBranches fuel [] parts ⟨cs.flatMap escapedChar, false, []⟩ =
      some (.ofReversed ((cs.map treeOf).reverse ++ parts), ⟨[], false, []⟩) := by
  induction cs generalizing fuel parts with
  | nil =>
    cases fuel with
    | zero => cases hfuel
    | succ fuel => rfl
  | cons c cs ih =>
    cases fuel with
    | zero => cases hfuel
    | succ fuel =>
      have hlength : 1 ≤ (escapedChar c).length := by
        unfold escapedChar
        split <;> simp
      have hrest : (cs.flatMap escapedChar).length < fuel := by
        rw [List.flatMap_cons, List.length_append] at hfuel
        omega
      rw [List.flatMap_cons, readBranches_escapedChar, ih fuel _ hrest, List.map_cons,
        List.reverse_cons, List.append_assoc]
      rfl

def Tree.ofText (cs : List Char) : Tree :=
  .ofReversed (cs.map treeOf).reverse

/-- The set of the characters that a character stands for when case does not count. -/
def caseless (c : Char) : CodeSet :=
  .ofCodes (orbitOf c)

def Expr.ofText : List Char → Expr
  | [] => .empty
  | [c] => .one (caseless c)
  | cs => .concat (cs.map fun c => .one (caseless c))

theorem ofText_eq (cs : List Char) : Expr.ofText cs = .ofParts ((cs.map caseless).map .one) := by
  match cs with
  | [] => rfl
  | [c] => rfl
  | a :: b :: cs =>
    rw [List.map_map]
    rfl

theorem ofTree?_treeOf (c : Char) :
    Expr.ofTree? .start (treeOf c) = some (.one (caseless c), .start) := by
  simp [treeOf, literal, Expr.ofTree?, Flags.character?, Flags.start, caseless]

theorem ofTree?_ofText (cs : List Char) :
    Expr.ofTree? .start (Tree.ofText cs) = some (.ofText cs, .start) := by
  rw [ofText_eq]
  refine ofTree?_ofReversed ?_
  rw [List.map_map, List.forall₂_map_left_iff, List.forall₂_map_right_iff]
  exact List.forall₂_same.mpr fun c _ => ofTree?_treeOf c

theorem read?_escape (text : String) :
    Tree.read? (escape text).toList = some (.ofText text.toList) := by
  have hread := readBranches_escape text.toList _ [] (Nat.lt_succ_self _)
  rw [List.append_nil] at hread
  rw [toList_escape]
  refine read?_parts hread fun t ht => ?_
  obtain ⟨c, -, rfl⟩ := List.mem_map.mp ht
  exact Nat.zero_le 1

/-- An escaped text is always well formed; all that it can be is too large. -/
theorem compile_escape (text : String) :
    compile (escape text) =
      if (Expr.ofText text.toList).fits then .ok ⟨.ofText text.toList⟩ else .error .tooLarge := by
  simp only [compile, read?_escape, Option.bind_some, ofTree?_ofText]

theorem Size.add_zero (a : Size) : a.add (.both 0) = a := by
  cases a
  rfl

def literalSize (cs : List Char) : Size :=
  ((cs.map fun c => Size.ofSet (caseless c)).foldr Size.add (.both 0)).add frameSize

theorem tidy_ofText (cs : List Char) : (Expr.ofText cs).tidy = .ofText cs := by
  have hall : ∀ cs : List Char, Expr.tidy.all (cs.map fun c => .one (caseless c)) =
      cs.map fun c => .one (caseless c) := by
    intro cs
    induction cs with
    | nil => rfl
    | cons c cs ih => simp [Expr.tidy.all, Expr.tidy, ih]
  have hparts : ∀ cs : List Char, (cs.map fun c => Expr.one (caseless c)).flatMap Expr.parts =
      cs.map fun c => .one (caseless c) := by
    intro cs
    induction cs with
    | nil => rfl
    | cons c cs ih => simp [Expr.parts, ih]
  match cs with
  | [] => rfl
  | [c] => rfl
  | a :: b :: cs =>
    rw [Expr.ofText, Expr.tidy, hall, Expr.concatOf, hparts]
    · rfl
    · simp
    · simp

/-- Characters in a row take the room that they take one by one. -/
theorem size_ofText {cs : List Char} (h : cs ≠ []) :
    (Expr.ofText cs).size = (cs.map fun c => Size.ofSet (caseless c)).foldr Size.add (.both 0) := by
  have hsum : ∀ cs : List Char, Expr.size.sum (cs.map fun c => .one (caseless c)) =
      (cs.map fun c => Size.ofSet (caseless c)).foldr Size.add (.both 0) := by
    intro cs
    induction cs with
    | nil => rfl
    | cons c cs ih => simp [Expr.size.sum, Expr.size, ih]
  match cs with
  | [] => exact absurd rfl h
  | [c] =>
    simp only [Expr.ofText, Expr.size, List.map_cons, List.map_nil, List.foldr_cons,
      List.foldr_nil]
    -- by name: a sum of sizes that is unfolded takes the table of cases with it
    rw [Size.add_zero]
  | a :: b :: cs =>
    rw [Expr.ofText, Expr.size, hsum]
    · simp
    · simp

theorem isWordList_ofText : ∀ cs : List Char, (Expr.ofText cs).isWordList = false
  | [] | [_] | _ :: _ :: _ => rfl

/-- A text itself is a pattern unless it is too long. -/
theorem fits_ofText (cs : List Char) :
    (Expr.ofText cs).fits = true ↔
      (literalSize cs).forward ≤ maxSize ∧ (literalSize cs).backward ≤ maxSize := by
  cases cs with
  | nil => decide
  | cons c cs =>
    rw [Expr.fits, tidy_ofText, isWordList_ofText, Expr.isSmall,
      size_ofText (List.cons_ne_nil c cs)]
    simp [literalSize]

end Segments.Pattern
