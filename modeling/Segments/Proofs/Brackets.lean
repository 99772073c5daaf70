import Segments.Pattern.Portable

namespace Segments.Pattern

def marks (inside : Bool) (start rest : List Char) : List Bool :=
  List.replicate (start.length - rest.length) inside

/-- The scan of a text, with the marks. It ends without them where it finds what is not portable. -/
def scanFrom : Nat → Bool → List Char → Option (List Bool)
  | _, _, [] => some []
  | 0, bracketed, _ :: cs => some (bracketed :: cs.map fun _ => bracketed)
  | fuel + 1, bracketed, c :: cs =>
    if c == '\\' then
      match cs with
      | [] => none
      | e :: rest =>
        if isPortableEscape bracketed e then
          (scanFrom fuel bracketed rest).map ([bracketed, bracketed] ++ ·)
        else none
    else if bracketed then
      if c == '[' then none else (scanFrom fuel (c != ']') cs).map (true :: ·)
    else if c == '(' then
      if cs.head? != some '?' then (scanFrom fuel false cs).map (false :: ·) else none
    else if c == '[' then
      (scanFrom fuel true (afterBracket cs)).map (false :: marks true cs (afterBracket cs) ++ ·)
    else (scanFrom fuel false cs).map (false :: ·)

def scan? (cs : List Char) : Option (List Bool) :=
  scanFrom cs.length false cs

/-- The scan with the marks stops where the scan without them does. -/
theorem isSome_scanFrom (fuel : Nat) (bracketed : Bool) (cs : List Char) :
    (scanFrom fuel bracketed cs).isSome = isPortableFrom fuel bracketed cs := by
  induction fuel generalizing bracketed cs with
  | zero => cases cs <;> rfl
  | succ fuel ih =>
    cases cs with
    | nil => rfl
    | cons c cs =>
      unfold scanFrom isPortableFrom
      by_cases hescape : (c == '\\') = true
      · simp only [hescape, if_true]
        cases cs with
        | nil => rfl
        | cons e rest => cases hportable : isPortableEscape bracketed e <;> simp [hportable, ih]
      · simp only [hescape, Bool.false_eq_true, if_false]
        cases bracketed with
        | true => by_cases hopen : (c == '[') = true <;> simp [hopen, ih]
        | false =>
          by_cases hgroup : (c == '(') = true
          · cases cs.head? != some '?' <;> simp [hgroup, ih]
          · by_cases hopen : (c == '[') = true <;> simp [hgroup, hopen, ih]

theorem isSome_scan? (text : String) : (scan? text.toList).isSome = isPortable text :=
  isSome_scanFrom _ _ _

/-- The scan step by step: whether it stands inside brackets, what is left, and the marks to come. -/
inductive Scan : Bool → List Char → List Bool → Prop
  | nil {bracketed : Bool} : Scan bracketed [] []
  | escape {bracketed : Bool} {c : Char} {cs : List Char} {ms : List Bool} :
      isPortableEscape bracketed c = true → Scan bracketed cs ms →
        Scan bracketed ('\\' :: c :: cs) (bracketed :: bracketed :: ms)
  | close {cs : List Char} {ms : List Bool} : Scan false cs ms → Scan true (']' :: cs) (true :: ms)
  | member {c : Char} {cs : List Char} {ms : List Bool} : c ≠ '\\' → c ≠ '[' → c ≠ ']' →
      Scan true cs ms → Scan true (c :: cs) (true :: ms)
  | group {cs : List Char} {ms : List Bool} : cs.head? ≠ some '?' → Scan false cs ms →
      Scan false ('(' :: cs) (false :: ms)
  | bracket {cs : List Char} {ms : List Bool} : Scan true (afterBracket cs) ms →
      Scan false ('[' :: cs) (false :: (marks true cs (afterBracket cs) ++ ms))
  | other {c : Char} {cs : List Char} {ms : List Bool} : c ≠ '\\' → c ≠ '(' → c ≠ '[' →
      Scan false cs ms → Scan false (c :: cs) (false :: ms)

def cutCaret : List Char → Bool × List Char
  | '^' :: rest => (true, rest)
  | rest => (false, rest)

def dropClose : List Char → List Char
  | ']' :: rest => rest
  | rest => rest

theorem dropClose_close (rest : List Char) : dropClose (']' :: rest) = rest :=
  rfl

theorem dropClose_cons {c : Char} {rest : List Char} (h : c ≠ ']') :
    dropClose (c :: rest) = c :: rest := by
  unfold dropClose
  split
  · next heq => exact absurd (List.cons.inj heq).1 h
  · rfl

theorem dropClose_suffix (cs : List Char) : dropClose cs <:+ cs := by
  unfold dropClose
  split
  · exact List.suffix_cons _ _
  · exact List.suffix_refl _

theorem cutCaret_suffix (cs : List Char) : (cutCaret cs).2 <:+ cs := by
  unfold cutCaret
  split
  · exact List.suffix_cons _ _
  · exact List.suffix_refl _

theorem afterBracket_eq (cs : List Char) : afterBracket cs = dropClose (cutCaret cs).2 := by
  by_cases hcaret : ∃ rest, cs = '^' :: rest
  · obtain ⟨rest, rfl⟩ := hcaret
    rfl
  · have hcut : cutCaret cs = (false, cs) := by
      unfold cutCaret
      split
      · next rest => exact absurd ⟨rest, rfl⟩ hcaret
      · rfl
    rw [hcut]
    unfold afterBracket
    split
    · next rest => exact absurd ⟨rest, rfl⟩ hcaret
    · rfl

theorem afterBracket_suffix (cs : List Char) : afterBracket cs <:+ cs := by
  rw [afterBracket_eq]
  exact (dropClose_suffix _).trans (cutCaret_suffix cs)

/-- With a step of fuel for each character the scan goes to the end. -/
theorem scan_of_scanFrom {fuel : Nat} {bracketed : Bool} {cs : List Char} {ms : List Bool}
    (hfuel : cs.length ≤ fuel) (h : scanFrom fuel bracketed cs = some ms) :
    Scan bracketed cs ms := by
  induction fuel generalizing bracketed cs ms with
  | zero =>
    cases cs with
    | nil =>
      cases h
      exact .nil
    | cons c cs => simp at hfuel
  | succ fuel ih =>
    cases cs with
    | nil =>
      cases h
      exact .nil
    | cons c cs =>
      have hfuel : cs.length ≤ fuel := by simpa using hfuel
      unfold scanFrom at h
      by_cases hescape : c = '\\'
      · simp only [hescape, beq_self_eq_true, if_true] at h
        cases cs with
        | nil => cases h
        | cons e rest =>
          simp only at h
          split at h
          · next hportable =>
            obtain ⟨left, hleft, rfl⟩ := Option.map_eq_some_iff.mp h
            have hrest : rest.length ≤ fuel := by
              rw [List.length_cons] at hfuel
              omega
            rw [hescape]
            exact .escape hportable (ih hrest hleft)
          · cases h
      · have hplain : (c == '\\') = false := by simpa using hescape
        simp only [hplain, Bool.false_eq_true, if_false] at h
        cases bracketed with
        | true =>
          simp only [if_true] at h
          split at h
          · cases h
          · next hopen =>
            obtain ⟨left, hleft, rfl⟩ := Option.map_eq_some_iff.mp h
            by_cases hclose : c = ']'
            · rw [hclose] at hleft ⊢
              exact .close (ih hfuel hleft)
            · have hinside : (c != ']') = true := by simpa using hclose
              rw [hinside] at hleft
              exact .member hescape (by simpa using hopen) hclose (ih hfuel hleft)
        | false =>
          simp only [Bool.false_eq_true, if_false] at h
          split at h
          · next hgroup =>
            split at h
            · next hspecial =>
              obtain ⟨left, hleft, rfl⟩ := Option.map_eq_some_iff.mp h
              have hgroup : c = '(' := by simpa using hgroup
              rw [hgroup]
              exact .group (by simpa using hspecial) (ih hfuel hleft)
            · cases h
          · next hgroup =>
            split at h
            · next hopen =>
              obtain ⟨left, hleft, rfl⟩ := Option.map_eq_some_iff.mp h
              have hopen : c = '[' := by simpa using hopen
              rw [hopen]
              exact .bracket (ih (Nat.le_trans (afterBracket_suffix cs).length_le hfuel) hleft)
            · next hopen =>
              obtain ⟨left, hleft, rfl⟩ := Option.map_eq_some_iff.mp h
              exact .other hescape (by simpa using hgroup) (by simpa using hopen) (ih hfuel hleft)

/-- The marks of a part: a bracket expression stands inside brackets after the one that opens it. -/
def partMarks (start rest : List Char) : List Bool :=
  match start with
  | '[' :: body => false :: marks true body rest
  | _ => marks false start rest

/-- A tree, where the reader is after it, and the marks of what was read. -/
abbrev Marked := Tree × Cursor × List Bool

def Marked.after (before : List Bool) (m : Marked) : Marked :=
  (m.1, m.2.1, before ++ m.2.2)

def closed? : List Char → Option (List Char)
  | ')' :: rest => some rest
  | _ => none

theorem closed?_eq_some {cs rest : List Char} (h : closed? cs = some rest) : cs = ')' :: rest := by
  unfold closed? at h
  split at h
  · cases h
    rfl
  · cases h

def readMarked : Nat → List Tree → List Tree → Cursor → Option Marked
  | 0, _, _, _ => none
  | fuel + 1, branches, parts, cursor =>
    match skip cursor.spaced cursor.rest with
    | [] =>
      some (.ofBranches branches parts, { cursor with rest := [] }, marks false cursor.rest [])
    | ')' :: rest =>
      some (.ofBranches branches parts, { cursor with rest := ')' :: rest },
        marks false cursor.rest (')' :: rest))
    | '|' :: rest =>
      (readMarked fuel (.ofReversed parts :: branches) [] { cursor with rest }).map
        (Marked.after (marks false cursor.rest rest))
    | '(' :: rest => do
      let (opening, rest) ← readOpening cursor.spaced rest
      match opening with
      | .settings settings =>
        (readMarked fuel branches (.settings settings :: parts)
          { cursor with rest, spaced := settingOf .spaced cursor.spaced settings }).map
            (Marked.after (marks false cursor.rest rest))
      | .group kind => do
        let inner ← readBranches.enter kind { cursor with rest }
        let (body, after, ms) ← readMarked fuel [] [] inner
        let following ← closed? after.rest
        (readMarked fuel branches (.group kind body :: parts)
          { after with rest := following, spaced := cursor.spaced }).map
            (Marked.after (marks false cursor.rest rest ++ ms ++ [false]))
    | start => do
      let (parts, rest) ← readPart cursor.spaced parts start
      (readMarked fuel branches parts { cursor with rest }).map
        (Marked.after (marks false cursor.rest start ++ partMarks start rest))

/-- A part begins here that is neither a group nor the end of a branch. -/
def StartsPart (cs : List Char) : Prop :=
  cs ≠ [] ∧ ∀ rest, cs ≠ ')' :: rest ∧ cs ≠ '|' :: rest ∧ cs ≠ '(' :: rest

/-- One character decides what the reader of branches does next. -/
theorem start_cases (cs : List Char) : cs = [] ∨ (∃ rest, cs = ')' :: rest) ∨
    (∃ rest, cs = '|' :: rest) ∨ (∃ rest, cs = '(' :: rest) ∨ StartsPart cs := by
  cases cs with
  | nil => exact .inl rfl
  | cons c rest =>
    by_cases hclose : c = ')'
    · exact .inr (.inl ⟨rest, by rw [hclose]⟩)
    by_cases hbar : c = '|'
    · exact .inr (.inr (.inl ⟨rest, by rw [hbar]⟩))
    by_cases hopen : c = '('
    · exact .inr (.inr (.inr (.inl ⟨rest, by rw [hopen]⟩)))
    refine .inr (.inr (.inr (.inr ⟨List.cons_ne_nil c rest, fun other => ⟨?_, ?_, ?_⟩⟩)))
    · exact fun h => hclose (List.cons.inj h).1
    · exact fun h => hbar (List.cons.inj h).1
    · exact fun h => hopen (List.cons.inj h).1

section Part

variable {fuel : Nat} {branches parts : List Tree} {cursor : Cursor}

theorem readBranches_part (h : StartsPart (skip cursor.spaced cursor.rest)) :
    readBranches (fuel + 1) branches parts cursor =
      (readPart cursor.spaced parts (skip cursor.spaced cursor.rest)).bind fun part =>
        readBranches fuel branches part.1 { cursor with rest := part.2 } := by
  rw [readBranches]
  obtain ⟨hend, hother⟩ := h
  split
  · next heq => exact absurd heq hend
  · next rest heq => exact absurd heq (hother rest).1
  · next rest heq => exact absurd heq (hother rest).2.1
  · next rest heq => exact absurd heq (hother rest).2.2
  · rfl

theorem readMarked_part (h : StartsPart (skip cursor.spaced cursor.rest)) :
    readMarked (fuel + 1) branches parts cursor =
      (readPart cursor.spaced parts (skip cursor.spaced cursor.rest)).bind fun part =>
        (readMarked fuel branches part.1 { cursor with rest := part.2 }).map
          (Marked.after (marks false cursor.rest (skip cursor.spaced cursor.rest) ++
            partMarks (skip cursor.spaced cursor.rest) part.2)) := by
  rw [readMarked]
  obtain ⟨hend, hother⟩ := h
  split
  · next heq => exact absurd heq hend
  · next rest heq => exact absurd heq (hother rest).1
  · next rest heq => exact absurd heq (hother rest).2.1
  · next rest heq => exact absurd heq (hother rest).2.2
  · rfl

end Part

/-- Without the marks it is the reader. -/
theorem readMarked_forget (fuel : Nat) (branches parts : List Tree) (cursor : Cursor) :
    (readMarked fuel branches parts cursor).map (fun m => (m.1, m.2.1)) =
      readBranches fuel branches parts cursor := by
  induction fuel generalizing branches parts cursor with
  | zero => rfl
  | succ fuel ih =>
    have hafter : ∀ (before : List Bool) (r : Option Marked),
        (r.map (Marked.after before)).map (fun m => (m.1, m.2.1)) =
          r.map (fun m => (m.1, m.2.1)) := by
      intro before r
      cases r <;> rfl
    rcases start_cases (skip cursor.spaced cursor.rest) with h | ⟨rest, h⟩ | ⟨rest, h⟩ | ⟨rest, h⟩ | h
    · rw [readMarked, readBranches, h]
      rfl
    · rw [readMarked, readBranches, h]
      rfl
    · rw [readMarked, readBranches, h]
      exact (hafter _ _).trans (ih _ _ _)
    · rw [readMarked, readBranches, h]
      refine Option.map_bind.trans (congrArg (Option.bind _) (funext fun opened => ?_))
      obtain ⟨opening, rest⟩ := opened
      cases opening with
      | settings settings => exact (hafter _ _).trans (ih _ _ _)
      | group kind =>
        refine Option.map_bind.trans (congrArg (Option.bind _) (funext fun inner => ?_))
        dsimp only [Function.comp]
        rw [← ih [] [] inner]
        cases readMarked fuel [] [] inner with
        | none => rfl
        | some body =>
          obtain ⟨body, ⟨after, spaced, names⟩, ms⟩ := body
          simp only [Option.map_some, Option.bind_eq_bind, Option.bind_some]
          by_cases hclosed : ∃ following, after = ')' :: following
          · obtain ⟨following, rfl⟩ := hclosed
            exact (hafter _ _).trans (ih _ _ _)
          · have hopen : closed? after = none := by
              unfold closed?
              split
              · next following => exact absurd ⟨following, rfl⟩ hclosed
              · rfl
            rw [hopen]
            split
            · next following => exact absurd ⟨following, rfl⟩ hclosed
            · rfl
    · rw [readMarked_part h, readBranches_part h, Option.map_bind]
      exact congrArg (Option.bind _) (funext fun part => (hafter _ _).trans (ih _ _ _))

/-- The tree of a pattern text, with a mark for each character: whether the grammar has it inside
brackets. -/
def Tree.readMarked? (cs : List Char) : Option (Tree × List Bool) := do
  let (tree, cursor, ms) ← readMarked (cs.length + 1) [] [] ⟨cs, false, []⟩
  if cursor.rest.isEmpty && tree.depth ≤ maxDepth then some (tree, ms) else none

/-- Without the marks it is the reader of patterns. -/
theorem Tree.readMarked?_forget (cs : List Char) :
    (Tree.readMarked? cs).map Prod.fst = Tree.read? cs := by
  unfold Tree.readMarked? Tree.read?
  rw [← readMarked_forget]
  cases readMarked (cs.length + 1) [] [] ⟨cs, false, []⟩ with
  | none => rfl
  | some m =>
    obtain ⟨tree, cursor, ms⟩ := m
    simp only [Option.bind_eq_bind, Option.bind_some, Option.map_some]
    split <;> rfl

example : (Tree.readMarked? "a[^]b]c".toList).map Prod.snd =
    some [false, false, true, true, true, true, false] := by
  rfl

end Segments.Pattern
