import Segments.Proofs.Brackets
import Segments.Proofs.Oversize

namespace Segments.Pattern

open Text

/-- A character that stands for itself, with or without a backslash. -/
def Character.Shared (c : Character) : Prop :=
  c.spelling = .plain ∨ c.spelling = .escaped

/-- Between brackets: characters, ranges, the three classes, and what these add up to. Set operations
only where they are let in. -/
inductive Members.Shared (operations : Prop) : Members → Prop
  | nothing : Members.Shared operations .nothing
  | character {c : Character} : c.Shared → Members.Shared operations (.character c)
  | range {first last : Character} : first.Shared → last.Shared →
      Members.Shared operations (.range first last)
  | shorthand {cls : Shorthand} : Members.Shared operations (.shorthand cls false)
  | union {items : List Members} : (∀ m ∈ items, Members.Shared operations m) →
      Members.Shared operations (.union items)
  | operation {op : SetOperation} {left right : Members} : operations →
      Members.Shared operations left → Members.Shared operations right →
        Members.Shared operations (.operation op left right)

/-- The parts that every search takes in the same way. -/
inductive Tree.Shared (operations : Prop) : Tree → Prop
  | nothing : Tree.Shared operations .nothing
  | character {c : Character} : c.Shared → Tree.Shared operations (.character c)
  | anyChar : Tree.Shared operations .anyChar
  | lineStart : Tree.Shared operations (.boundary .lineStart)
  | lineEnd : Tree.Shared operations (.boundary .lineEnd)
  | shorthand {cls : Shorthand} {negated : Bool} : Tree.Shared operations (.shorthand cls negated)
  | bracketed {members : Members} {negated : Bool} : members.Shared operations →
      Tree.Shared operations (.bracketed members negated)
  | repetition {count : Count} {isLazy : Bool} {body : Tree} : Tree.Shared operations body →
      Tree.Shared operations (.repetition count isLazy body)
  | group {body : Tree} : Tree.Shared operations body →
      Tree.Shared operations (.group .numbered body)
  | concat {parts : List Tree} : (∀ t ∈ parts, Tree.Shared operations t) →
      Tree.Shared operations (.concat parts)
  | alternation {branches : List Tree} : (∀ t ∈ branches, Tree.Shared operations t) →
      Tree.Shared operations (.alternation branches)

/-- The sign of a set operation stands twice inside brackets. -/
def Doubled (cs : List Char) (ms : List Bool) : Prop :=
  ∃ before sign after, (sign = '&' ∨ sign = '-' ∨ sign = '~') ∧
    cs.zip ms = before ++ (sign, true) :: (sign, true) :: after

variable {operations : Prop}

theorem Members.Shared.ofReversed {items : List Members}
    (h : ∀ m ∈ items, m.Shared operations) : (Members.ofReversed items).Shared operations := by
  unfold Members.ofReversed
  split
  · exact .nothing
  · next item => exact h item List.mem_cons_self
  · refine .union ?_
    intro m hm
    exact h m (List.mem_reverse.mp hm)

theorem Tree.Shared.ofReversed {parts : List Tree} (h : ∀ t ∈ parts, t.Shared operations) :
    (Tree.ofReversed parts).Shared operations := by
  unfold Tree.ofReversed
  split
  · exact .nothing
  · next part => exact h part List.mem_cons_self
  · refine .concat ?_
    intro t ht
    exact h t (List.mem_reverse.mp ht)

theorem Tree.Shared.ofBranches {branches parts : List Tree}
    (hbranches : ∀ t ∈ branches, t.Shared operations) (hparts : ∀ t ∈ parts, t.Shared operations) :
    (Tree.ofBranches branches parts).Shared operations := by
  unfold Tree.ofBranches
  split
  · exact .ofReversed hparts
  · refine .alternation ?_
    intro t ht
    rcases List.mem_append.mp ht with hbranch | hlast
    · exact hbranches t (List.mem_reverse.mp hbranch)
    · rw [List.mem_singleton.mp hlast]
      exact .ofReversed hparts

/-- From one place of a text to a later one, over characters that have these marks. -/
structure Crossed (cs : List Char) (ms : List Bool) (rest : List Char) (left marked : List Bool) :
    Prop where
  text : ∃ run, cs = run ++ rest ∧ run.length = marked.length
  marks : ms = marked ++ left

namespace Crossed

variable {a b c : List Char} {ma mb mc m m' : List Bool}

theorem refl : Crossed a ma a ma [] :=
  ⟨⟨[], rfl, rfl⟩, rfl⟩

theorem step {char : Char} {inside : Bool} : Crossed (char :: a) (inside :: ma) a ma [inside] :=
  ⟨⟨[char], rfl, rfl⟩, rfl⟩

theorem trans (h : Crossed a ma b mb m) (h' : Crossed b mb c mc m') : Crossed a ma c mc (m ++ m') := by
  obtain ⟨⟨run, rfl, hrun⟩, rfl⟩ := h
  obtain ⟨⟨run', rfl, hrun'⟩, rfl⟩ := h'
  refine ⟨⟨run ++ run', by rw [List.append_assoc], ?_⟩, by rw [List.append_assoc]⟩
  rw [List.length_append, List.length_append, hrun, hrun']

theorem doubled (h : Crossed a ma b mb m) (hdoubled : Doubled b mb) : Doubled a ma := by
  obtain ⟨⟨run, rfl, hrun⟩, rfl⟩ := h
  obtain ⟨before, sign, after, hsign, hzip⟩ := hdoubled
  refine ⟨run.zip m ++ before, sign, after, hsign, ?_⟩
  rw [List.zip_append hrun, hzip, List.append_assoc]

theorem length_eq (h : Crossed a ma b mb m) : m.length = a.length - b.length := by
  obtain ⟨⟨run, rfl, hrun⟩, -⟩ := h
  rw [List.length_append, ← hrun]
  omega

end Crossed

/-- All characters between two places are inside brackets, or all are outside. -/
def Passed (inside : Bool) (cs : List Char) (ms : List Bool) (rest : List Char) (left : List Bool) :
    Prop :=
  Crossed cs ms rest left (marks inside cs rest)

namespace Passed

variable {inside : Bool} {a b c : List Char} {ma mb mc : List Bool}

theorem of_crossed {n : Nat} (h : Crossed a ma b mb (List.replicate n inside)) :
    Passed inside a ma b mb := by
  have hlength := h.length_eq
  rw [List.length_replicate] at hlength
  unfold Passed marks
  rwa [← hlength]

theorem refl : Passed inside a ma a ma :=
  of_crossed (n := 0) .refl

theorem step {char : Char} : Passed inside (char :: a) (inside :: ma) a ma :=
  of_crossed (n := 1) .step

theorem trans (h : Passed inside a ma b mb) (h' : Passed inside b mb c mc) :
    Passed inside a ma c mc := by
  have hboth := Crossed.trans h h'
  unfold marks at hboth
  rw [← List.replicate_add] at hboth
  exact of_crossed hboth

end Passed

section Inside

variable {c : Char} {cs rest : List Char} {ms : List Bool}

/-- A closing bracket is the last character inside. -/
theorem Scan.close_inv (h : Scan true (']' :: cs) ms) : ∃ left, Scan false cs left ∧
    Passed true (']' :: cs) ms cs left := by
  cases h with
  | close hscan => exact ⟨_, hscan, .step⟩
  | member _ _ hclose _ => exact absurd rfl hclose

/-- Inside brackets no second one is let pass. -/
theorem Scan.member_inv (h : Scan true (c :: cs) ms) (hescape : c ≠ '\\') (hclose : c ≠ ']') :
    c ≠ '[' ∧ ∃ left, ms = true :: left ∧ Scan true cs left := by
  cases h with
  | escape => exact absurd rfl hescape
  | close => exact absurd rfl hclose
  | member _ hopen _ hscan => exact ⟨hopen, _, rfl, hscan⟩

/-- Of the escapes only those are let pass that every store takes. -/
theorem Scan.escape_inv {inside : Bool} {e : Char} (h : Scan inside ('\\' :: e :: cs) ms) :
    isPortableEscape inside e = true ∧
      ∃ left, Scan inside cs left ∧ Passed inside ('\\' :: e :: cs) ms cs left := by
  cases h with
  | escape hportable hscan => exact ⟨hportable, _, hscan, .trans .step .step⟩
  | member hescape => exact absurd rfl hescape
  | other hescape => exact absurd rfl hescape

theorem Scan.escape_nil {inside : Bool} (h : Scan inside ['\\'] ms) : False := by
  cases h with
  | member hescape => exact absurd rfl hescape
  | other hescape => exact absurd rfl hescape

/-- What a portable escape starts is a class, which is no complement between brackets, or the
character itself. -/
theorem readEscape_of_portable {inside : Bool} {e : Char} {t : Tree}
    (hportable : isPortableEscape inside e = true)
    (h : readEscape false (e :: cs) = some (t, rest)) : rest = cs ∧
      ((∃ cls negated, t = .shorthand cls negated ∧ (inside = true → negated = false)) ∨
        t = literal .escaped e) := by
  have hclass : ∀ (cls : Shorthand) (negated : Bool),
      readEscape false (e :: cs) = some (.shorthand cls negated, cs) →
        (inside = true → negated = false) → rest = cs ∧
          ((∃ cls negated, t = .shorthand cls negated ∧ (inside = true → negated = false)) ∨
            t = literal .escaped e) := by
    intro cls negated hread hplain
    rw [hread] at h
    cases h
    exact ⟨rfl, .inl ⟨cls, negated, rfl, hplain⟩⟩
  unfold isPortableEscape at hportable
  simp only [Bool.or_eq_true, Bool.and_eq_true, beq_iff_eq, Bool.not_eq_true', bne_iff_ne] at hportable
  rcases hportable with (((hd | hs) | hw) | ⟨hinside, hcomplement⟩) | ⟨⟨hpunctuation, hless⟩, hmore⟩
  · subst hd
    exact hclass .digit false rfl fun _ => rfl
  · subst hs
    exact hclass .space false rfl fun _ => rfl
  · subst hw
    exact hclass .word false rfl fun _ => rfl
  · have houtside : inside = true → True = False := by
      intro htrue
      rw [hinside] at htrue
      cases htrue
    have hno : ∀ {b : Bool}, inside = true → b = false := fun h => (houtside h ▸ trivial : False).elim
    rcases hcomplement with (hd | hs) | hw
    · subst hd
      exact hclass .digit true rfl hno
    · subst hs
      exact hclass .space true rfl hno
    · subst hw
      exact hclass .word true rfl hno
  · have hescapable : isEscapable e = true := by
      unfold isPunctuation at hpunctuation
      unfold isEscapable
      simp only [Bool.and_eq_true, decide_eq_true_eq, Bool.not_eq_true', bne_iff_ne] at hpunctuation ⊢
      obtain ⟨⟨hmost, -⟩, hsign⟩ := hpunctuation
      exact ⟨⟨⟨by omega, hsign⟩, hless⟩, hmore⟩
    have hread : readEscape false (e :: cs) = some (literal .escaped e, cs) := by
      simp only [readEscape, hescapable, if_true]
    rw [hread] at h
    cases h
    exact ⟨rfl, .inr rfl⟩

def IsAtom (t : Tree) : Prop :=
  (∃ c : Character, t = .character c ∧ c.Shared) ∨ ∃ cls, t = .shorthand cls false

theorem readAtom_scan {t : Tree} (h : readAtom false cs = some (t, rest)) (hscan : Scan true cs ms)
    (hclose : cs.head? ≠ some ']') :
    IsAtom t ∧ ∃ left, Scan true rest left ∧ Passed true cs ms rest left := by
  cases cs with
  | nil => cases h
  | cons c cs =>
    by_cases hescape : c = '\\'
    · subst hescape
      cases cs with
      | nil => exact hscan.escape_nil.elim
      | cons e cs =>
        obtain ⟨hportable, left, hleft, hpassed⟩ := hscan.escape_inv
        have hread : readEscape false (e :: cs) = some (t, rest) := h
        obtain ⟨rfl, hkind⟩ := readEscape_of_portable hportable hread
        refine ⟨?_, left, hleft, hpassed⟩
        rcases hkind with ⟨cls, negated, rfl, hplain⟩ | rfl
        · rw [hplain rfl]
          exact .inr ⟨cls, rfl⟩
        · exact .inl ⟨_, rfl, .inr rfl⟩
    · have hplain : readAtom false (c :: cs) = some (literal .plain c, cs) := by
        unfold readAtom
        split
        · next heq => cases heq
        · next heq => exact absurd (List.cons.inj heq).1 hescape
        · next heq =>
          cases heq
          rfl
      rw [hplain] at h
      cases h
      have hopen : c ≠ ']' := by
        intro hc
        exact hclose (by rw [hc]; rfl)
      obtain ⟨-, left, rfl, hleft⟩ := hscan.member_inv hescape hopen
      exact ⟨.inl ⟨_, rfl, .inl rfl⟩, left, hleft, .step⟩

theorem IsAtom.member {t : Tree} {m : Members} (h : IsAtom t) (hm : Members.ofTree? t = some m) :
    m.Shared operations := by
  rcases h with ⟨c, rfl, hc⟩ | ⟨cls, rfl⟩
  · cases hm
    exact .character hc
  · cases hm
    exact .shorthand

/-- Reader and scan stay at the same place: what is read as a member was all inside. -/
theorem readMember_scan {m : Members} (h : readMember false cs = some (m, rest))
    (hscan : Scan true cs ms) (hclose : cs.head? ≠ some ']') :
    m.Shared operations ∧ ∃ left, Scan true rest left ∧ Passed true cs ms rest left := by
  unfold readMember at h
  cases hfirst : readAtom false cs with
  | none =>
    rw [hfirst] at h
    cases h
  | some first =>
    obtain ⟨first, next⟩ := first
    obtain ⟨hatom, left, hleft, hpassed⟩ := readAtom_scan hfirst hscan hclose
    rw [hfirst] at h
    simp only [Option.bind_eq_bind, Option.bind_some, skip, Bool.false_eq_true, if_false, peek] at h
    cases next with
    | nil => cases h
    | cons c after =>
      simp only at h
      split at h
      · -- no range: the member ends here
        obtain ⟨item, hitem, heq⟩ := Option.bind_eq_some_iff.mp h
        cases heq
        exact ⟨hatom.member hitem, left, hleft, hpassed⟩
      · next hrange =>
        simp only [Bool.or_eq_true, bne_iff_ne, beq_iff_eq, not_or, not_not] at hrange
        obtain ⟨⟨rfl, hnext⟩, -⟩ := hrange
        split at h
        · cases h
        · next start =>
          obtain ⟨-, inner, rfl, hinner⟩ := hleft.member_inv (by decide) (by decide)
          obtain ⟨⟨last, final⟩, hlast, hrest⟩ := Option.bind_eq_some_iff.mp h
          obtain ⟨hatom', left', hleft', hpassed'⟩ := readAtom_scan hlast hinner hnext
          have hall : Passed true cs ms final left' := (hpassed.trans .step).trans hpassed'
          rcases hatom with ⟨a, rfl, ha⟩ | ⟨cls, rfl⟩
          · rcases hatom' with ⟨b, rfl, hb⟩ | ⟨cls, rfl⟩
            · simp only at hrest
              split at hrest
              · cases hrest
                exact ⟨.range ha hb, left', hleft', hall⟩
              · cases hrest
            · cases hrest
          · cases hrest

/-- What waits for the right side of an operation is shared syntax. -/
def Pending.Shared (operations : Prop) (pending : Pending) : Prop :=
  ∀ op left, pending = some (op, left) → operations ∧ left.Shared operations

theorem Pending.Shared.close {pending : Pending} (h : pending.Shared operations) {right : Members}
    (hright : right.Shared operations) : (pending.close right).Shared operations := by
  unfold Pending.close
  split
  · next op left =>
    obtain ⟨hoperations, hleft⟩ := h op left rfl
    exact .operation hoperations hleft hright
  · exact hright

/-- The sign of an operation is doubled, and both of its characters are passed inside brackets. -/
theorem setOperation?_scan {op : SetOperation} (h : setOperation? cs = some (op, rest))
    (hscan : Scan true cs ms) :
    Doubled cs ms ∧ ∃ left, Scan true rest left ∧ Passed true cs ms rest left := by
  have hsigns : ∃ sign, (sign = '&' ∨ sign = '-' ∨ sign = '~') ∧ cs = sign :: sign :: rest := by
    unfold setOperation? at h
    split at h
    · cases h
      exact ⟨'&', .inl rfl, rfl⟩
    · cases h
      exact ⟨'-', .inr (.inl rfl), rfl⟩
    · cases h
      exact ⟨'~', .inr (.inr rfl), rfl⟩
    · cases h
  obtain ⟨sign, hsign, rfl⟩ := hsigns
  have hplain : sign ≠ '\\' ∧ sign ≠ ']' := by
    rcases hsign with rfl | rfl | rfl <;> decide
  obtain ⟨-, inner, rfl, hinner⟩ := hscan.member_inv hplain.1 hplain.2
  obtain ⟨-, left, rfl, hleft⟩ := hinner.member_inv hplain.1 hplain.2
  exact ⟨⟨[], sign, rest.zip left, hsign, rfl⟩, left, hleft, .trans .step .step⟩

/-- The reader of members stays inside brackets until it passes the one that closes them, and so does
the scan. -/
theorem readMembers_scan {fuel : Nat} {pending : Pending} {items : List Members} {m : Members}
    (h : readMembers false fuel pending items cs = some (m, rest)) (hscan : Scan true cs ms)
    (hoperations : Doubled cs ms → operations) (hpending : pending.Shared operations)
    (hitems : ∀ item ∈ items, item.Shared operations) :
    m.Shared operations ∧ ∃ left, Scan false rest left ∧ Passed true cs ms rest left := by
  induction fuel generalizing pending items cs ms with
  | zero => cases h
  | succ fuel ih =>
    unfold readMembers at h
    simp only [skip, Bool.false_eq_true, if_false] at h
    cases cs with
    | nil => cases h
    | cons c cs =>
      simp only at h
      by_cases hopen : c = '['
      · -- the scan refuses brackets in brackets
        subst hopen
        exact absurd rfl (hscan.member_inv (by decide) (by decide)).1
      have hno : (c == '[') = false := by simpa using hopen
      simp only [hno, Bool.false_eq_true, if_false] at h
      by_cases hclose : c = ']'
      · subst hclose
        simp only [beq_self_eq_true, if_true, Option.some.injEq, Prod.mk.injEq] at h
        obtain ⟨rfl, rfl⟩ := h
        exact ⟨hpending.close (.ofReversed hitems), hscan.close_inv⟩
      have hnot : (c == ']') = false := by simpa using hclose
      simp only [hnot, Bool.false_eq_true, if_false] at h
      cases hop : setOperation? (c :: cs) with
      | some found =>
        obtain ⟨op, next⟩ := found
        rw [hop] at h
        obtain ⟨hdoubled, left, hleft, hpassed⟩ := setOperation?_scan hop hscan
        have hallowed := hoperations hdoubled
        obtain ⟨hm, final, hfinal, hrest⟩ := ih h hleft (fun _ => hallowed)
          (by
            intro op' left' heq
            cases heq
            exact ⟨hallowed, hpending.close (.ofReversed hitems)⟩)
          (by
            intro item hitem
            cases hitem)
        exact ⟨hm, final, hfinal, hpassed.trans hrest⟩
      | none =>
        rw [hop] at h
        obtain ⟨⟨item, next⟩, hmember, hrest⟩ := Option.bind_eq_some_iff.mp h
        have hfirst : (c :: cs).head? ≠ some ']' := by simpa using hclose
        obtain ⟨hitem, left, hleft, hpassed⟩ := readMember_scan hmember hscan hfirst
        obtain ⟨hm, final, hfinal, hrest⟩ := ih hrest hleft
          (fun hdoubled => hoperations (Crossed.doubled hpassed hdoubled)) hpending
          (by
            intro other hother
            rcases List.mem_cons.mp hother with rfl | hother
            · exact hitem
            · exact hitems other hother)
        exact ⟨hm, final, hfinal, hpassed.trans hrest⟩

theorem readHyphens_scan {fuel : Nat} {done items : List Members}
    (h : readHyphens false fuel done cs = (items, rest)) (hscan : Scan true cs ms)
    (hdone : ∀ item ∈ done, item.Shared operations) :
    (∀ item ∈ items, item.Shared operations) ∧
      ∃ left, Scan true rest left ∧ Passed true cs ms rest left := by
  induction fuel generalizing done cs ms with
  | zero =>
    cases h
    exact ⟨hdone, ms, hscan, .refl⟩
  | succ fuel ih =>
    unfold readHyphens at h
    split at h
    · obtain ⟨-, inner, rfl, hinner⟩ := hscan.member_inv (by decide) (by decide)
      have hmore : ∀ item ∈ Members.character ⟨'-', .plain⟩ :: done, item.Shared operations := by
        intro item hitem
        rcases List.mem_cons.mp hitem with rfl | hitem
        · exact .character (.inl rfl)
        · exact hdone item hitem
      obtain ⟨hitems, left, hleft, hpassed⟩ := ih h hinner hmore
      exact ⟨hitems, left, hleft, Passed.trans .step hpassed⟩
    · cases h
      exact ⟨hdone, ms, hscan, .refl⟩

theorem readHyphens_length {fuel : Nat} {done items : List Members}
    (h : readHyphens false fuel done cs = (items, rest)) : done.length ≤ items.length := by
  induction fuel generalizing done cs with
  | zero =>
    cases h
    exact Nat.le_refl _
  | succ fuel ih =>
    unfold readHyphens at h
    split at h
    · exact Nat.le_of_succ_le (ih h)
    · cases h
      exact Nat.le_refl _

/-- The opening of a bracket expression once its caret is passed. -/
def openBody (negated : Bool) (body : List Char) : Option (Bool × List Members × List Char) :=
  let (items, rest) := readHyphens false (body.length + 1) [] body
  match items, rest with
  | _, [] => none
  | [], ']' :: rest =>
    match rest with
    | [] => none
    | rest => some (negated, [.character ⟨']', .plain⟩], rest)
  | items, rest => some (negated, items, rest)

theorem openBracket_eq (cs : List Char) :
    openBracket false cs = openBody (cutCaret cs).1 (cutCaret cs).2 :=
  rfl

/-- Both leave a caret out, and take a closing bracket that comes first for a member. -/
theorem openBracket_scan {negated : Bool} {items : List Members}
    (h : openBracket false cs = some (negated, items, rest)) (hscan : Scan true (afterBracket cs) ms) :
    (∀ item ∈ items, item.Shared operations) ∧
      ∃ left, Scan true rest left ∧ Passed true (afterBracket cs) ms rest left := by
  rw [openBracket_eq] at h
  cases hcaret : (cutCaret cs).2 with
  | nil =>
    rw [hcaret] at h
    cases h
  | cons c body =>
    have hafter := afterBracket_eq cs
    rw [hcaret] at h hafter
    by_cases hclose : c = ']'
    · rw [hclose] at h hafter
      rw [dropClose_close] at hafter
      rw [hafter] at hscan ⊢
      cases body with
      | nil => cases h
      | cons d body =>
        cases h
        refine ⟨?_, ms, hscan, .refl⟩
        intro item hitem
        rw [List.mem_singleton.mp hitem]
        exact .character (.inl rfl)
    · rw [dropClose_cons hclose] at hafter
      rw [hafter] at hscan ⊢
      unfold openBody at h
      cases hhyphens : readHyphens false ((c :: body).length + 1) [] (c :: body) with
      | mk first next =>
        obtain ⟨hitems, left, hleft, hpassed⟩ := readHyphens_scan hhyphens hscan
          (fun _ hitem => nomatch hitem : ∀ item ∈ [], Members.Shared operations item)
        rw [hhyphens] at h
        dsimp only at h
        cases next with
        | nil => cases first <;> cases h
        | cons d next =>
          have hfirst : first = [] → d ≠ ']' := by
            rintro rfl hd
            by_cases hhyphen : c = '-'
            · rw [hhyphen] at hhyphens
              have hone : readHyphens false (body.length + 1) [.character ⟨'-', .plain⟩] body =
                  ([], d :: next) := hhyphens
              exact absurd (readHyphens_length hone) (by simp)
            · -- without a hyphen the reader is still at a character that closes nothing
              unfold readHyphens at hhyphens
              split at hhyphens
              · next heq => exact absurd (List.cons.inj heq).1 hhyphen
              · cases hhyphens
                exact hclose hd
          split at h
          · next heq => cases heq
          · next heq => exact absurd (List.cons.inj heq).1 (hfirst rfl)
          · cases h
            exact ⟨hitems, left, hleft, hpassed⟩

/-- The reader and the scan pass a bracket expression together. -/
theorem readBracket_scan {t : Tree} (h : readBracket false cs = some (t, rest))
    (hscan : Scan false ('[' :: cs) ms) (hoperations : Doubled ('[' :: cs) ms → operations) :
    t.Shared operations ∧ ∃ left, Scan false rest left ∧
      Crossed ('[' :: cs) ms rest left (false :: marks true cs rest) := by
  obtain ⟨after, hms, hafter⟩ : ∃ after, ms = false :: (marks true cs (afterBracket cs) ++ after) ∧
      Scan true (afterBracket cs) after := by
    cases hscan with
    | bracket hscan => exact ⟨_, rfl, hscan⟩
    | other _ _ hopen => exact absurd rfl hopen
  obtain ⟨⟨negated, first, next⟩, hopen, hrest⟩ := Option.bind_eq_some_iff.mp h
  obtain ⟨⟨members, final⟩, hmembers, heq⟩ := Option.bind_eq_some_iff.mp hrest
  cases heq
  have hstart : Passed true cs (marks true cs (afterBracket cs) ++ after) (afterBracket cs) after := by
    obtain ⟨run, hrun⟩ := afterBracket_suffix cs
    refine ⟨⟨run, hrun.symm, ?_⟩, rfl⟩
    have hlength := congrArg List.length hrun
    rw [List.length_append] at hlength
    rw [marks, List.length_replicate]
    omega
  obtain ⟨hfirst, middle, hmiddle, hopened⟩ :
      (∀ item ∈ first, item.Shared operations) ∧ ∃ left, Scan true next left ∧
        Passed true (afterBracket cs) after next left := openBracket_scan hopen hafter
  have hinside : Passed true cs (marks true cs (afterBracket cs) ++ after) next middle :=
    hstart.trans hopened
  have hdoubled : Doubled next middle → operations := by
    intro hdoubled
    have hcs := Crossed.doubled hinside hdoubled
    rw [hms] at hoperations
    exact hoperations (Crossed.doubled .step hcs)
  obtain ⟨hshared, left, hleft, hclosed⟩ := readMembers_scan hmembers hmiddle hdoubled
    (fun _ _ h => nomatch h) hfirst
  refine ⟨.bracketed hshared, left, hleft, ?_⟩
  rw [hms]
  exact Crossed.trans .step (hinside.trans hclosed)

end Inside

section Outside

variable {cs rest : List Char} {ms : List Bool}

def IsPlain (c : Char) : Prop :=
  c ≠ '\\' ∧ c ≠ '(' ∧ c ≠ '['

instance : DecidablePred IsPlain := fun c =>
  inferInstanceAs (Decidable (c ≠ '\\' ∧ c ≠ '(' ∧ c ≠ '['))

theorem Scan.plain_inv {c : Char} (h : Scan false (c :: cs) ms) (hc : IsPlain c) :
    ∃ left, Scan false cs left ∧ Passed false (c :: cs) ms cs left := by
  cases h with
  | escape => exact absurd rfl hc.1
  | group => exact absurd rfl hc.2.1
  | bracket => exact absurd rfl hc.2.2
  | other _ _ _ hscan => exact ⟨_, hscan, .step⟩

def Plainly (cs rest : List Char) : Prop :=
  ∃ run, cs = run ++ rest ∧ ∀ c ∈ run, IsPlain c

theorem Plainly.refl : Plainly cs cs :=
  ⟨[], rfl, fun _ hc => nomatch hc⟩

theorem Plainly.trans {next : List Char} (h : Plainly cs next) (h' : Plainly next rest) :
    Plainly cs rest := by
  obtain ⟨run, rfl, hrun⟩ := h
  obtain ⟨run', rfl, hrun'⟩ := h'
  refine ⟨run ++ run', by rw [List.append_assoc], ?_⟩
  intro c hc
  rcases List.mem_append.mp hc with hc | hc
  · exact hrun c hc
  · exact hrun' c hc

theorem Plainly.cons {c : Char} (hc : IsPlain c) (h : Plainly cs rest) : Plainly (c :: cs) rest := by
  refine Plainly.trans ⟨[c], rfl, ?_⟩ h
  intro d hd
  rw [List.mem_singleton.mp hd]
  exact hc

theorem Plainly.dropWhile {p : Char → Bool} (hp : ∀ c, p c = true → IsPlain c) (cs : List Char) :
    Plainly cs (cs.dropWhile p) :=
  ⟨cs.takeWhile p, List.takeWhile_append_dropWhile.symm, fun c hc => hp c (List.mem_takeWhile_imp hc)⟩

/-- The scan goes over such characters one by one and stays outside. -/
theorem Plainly.scan (h : Plainly cs rest) (hscan : Scan false cs ms) :
    ∃ left, Scan false rest left ∧ Passed false cs ms rest left := by
  obtain ⟨run, rfl, hrun⟩ := h
  induction run generalizing ms with
  | nil => exact ⟨ms, hscan, .refl⟩
  | cons c run ih =>
    obtain ⟨left, hleft, hstep⟩ := hscan.plain_inv (hrun c List.mem_cons_self)
    obtain ⟨final, hfinal, hrest⟩ := ih (fun d hd => hrun d (List.mem_cons_of_mem c hd)) hleft
    exact ⟨final, hfinal, hstep.trans hrest⟩

theorem isPlain_of_isBlank {c : Char} (h : isBlank c = true) : IsPlain c := by
  refine ⟨?_, ?_, ?_⟩
  all_goals
    rintro rfl
    exact absurd h (by decide)

theorem isPlain_of_isDigit {c : Char} (h : isDigit c = true) : IsPlain c := by
  refine ⟨?_, ?_, ?_⟩
  all_goals
    rintro rfl
    exact absurd h (by decide)

theorem takeDecimal_plainly {fuel : Nat} {ds : List Char}
    (h : takeDecimal false fuel cs = (ds, rest)) : Plainly cs rest := by
  induction fuel generalizing cs ds with
  | zero =>
    cases h
    exact .refl
  | succ fuel ih =>
    cases cs with
    | nil =>
      cases h
      exact .refl
    | cons c cs =>
      unfold takeDecimal at h
      by_cases hdigit : isDigit c = true
      · rw [if_pos hdigit] at h
        simp only [skip, Bool.false_eq_true, if_false] at h
        cases hmore : takeDecimal false fuel cs with
        | mk more next =>
          rw [hmore] at h
          cases h
          exact .cons (isPlain_of_isDigit hdigit) (ih hmore)
      · rw [if_neg hdigit] at h
        cases h
        exact .refl

theorem readDecimal_plainly {n : Option Nat} (h : readDecimal false cs = (n, rest)) :
    Plainly cs rest := by
  unfold readDecimal at h
  cases hdigits : takeDecimal false (cs.length + 1) (cs.dropWhile isBlank) with
  | mk ds next =>
    rw [hdigits] at h
    simp only [skip, Bool.false_eq_true, if_false, Prod.mk.injEq] at h
    rw [← h.2]
    have hblanks := Plainly.dropWhile (p := isBlank) fun c hc => isPlain_of_isBlank hc
    exact (((hblanks cs).trans (takeDecimal_plainly hdigits)).trans (hblanks _)).trans (hblanks _)

/-- The bounds of a repetition open nothing. -/
theorem readCount_plainly {count : Count} (h : readCount false cs = some (count, rest)) :
    Plainly cs rest := by
  unfold readCount at h
  simp only [skip, Bool.false_eq_true, if_false] at h
  split at h
  · cases h
  · split at h
    · next hleast =>
      cases h
      exact (readDecimal_plainly hleast).trans (.cons (by decide) .refl)
    · next hleast =>
      have hcomma := (readDecimal_plainly hleast).trans (.cons (by decide : IsPlain ',') .refl)
      split at h
      · cases h
        exact hcomma.trans (.cons (by decide) .refl)
      · split at h
        · next hmost =>
          split at h
          · cases h
            exact (hcomma.trans (readDecimal_plainly hmost)).trans (.cons (by decide) .refl)
          · cases h
        · cases h
    · cases h

theorem readLazy_plainly {isLazy : Bool} (h : readLazy cs = (isLazy, rest)) : Plainly cs rest := by
  unfold readLazy at h
  split at h
  · cases h
    exact .cons (by decide) .refl
  · cases h
    exact .refl

theorem repeatLast?_shared {count : Count} {isLazy : Bool} {parts parts' : List Tree}
    (h : repeatLast? count isLazy parts = some parts') (hparts : ∀ t ∈ parts, t.Shared operations) :
    ∀ t ∈ parts', t.Shared operations := by
  unfold repeatLast? at h
  split at h
  · cases h
  · cases h
  · cases h
  · next part parts _ _ =>
    cases h
    intro t ht
    rcases List.mem_cons.mp ht with rfl | ht
    · exact .repetition (hparts part List.mem_cons_self)
    · exact hparts t (List.mem_cons_of_mem part ht)

theorem mark_plainly {parts parts' : List Tree} {count : Count}
    (h : readPart.mark parts count cs = some (parts', rest))
    (hparts : ∀ t ∈ parts, t.Shared operations) :
    (∀ t ∈ parts', t.Shared operations) ∧ Plainly cs rest := by
  unfold readPart.mark at h
  cases hlazy : readLazy cs with
  | mk isLazy next =>
    rw [hlazy] at h
    obtain ⟨more, hmore, heq⟩ := Option.map_eq_some_iff.mp h
    cases heq
    exact ⟨repeatLast?_shared hmore hparts, readLazy_plainly hlazy⟩

theorem shared_cons {t : Tree} {parts : List Tree} (ht : t.Shared operations)
    (hparts : ∀ t ∈ parts, t.Shared operations) : ∀ u ∈ t :: parts, u.Shared operations := by
  intro u hu
  rcases List.mem_cons.mp hu with rfl | hu
  · exact ht
  · exact hparts u hu

/-- The reader and the scan pass a part together, with the same marks. -/
theorem readPart_scan {parts parts' : List Tree} (h : readPart false parts cs = some (parts', rest))
    (hscan : Scan false cs ms) (hgroup : cs.head? ≠ some '(')
    (hoperations : Doubled cs ms → operations) (hparts : ∀ t ∈ parts, t.Shared operations) :
    (∀ t ∈ parts', t.Shared operations) ∧
      ∃ left, Scan false rest left ∧ Crossed cs ms rest left (partMarks cs rest) := by
  cases cs with
  | nil => cases h
  | cons c cs =>
    by_cases hbracket : c = '['
    · subst hbracket
      obtain ⟨⟨t, next⟩, hread, heq⟩ := Option.map_eq_some_iff.mp h
      cases heq
      obtain ⟨hshared, left, hleft, hcrossed⟩ := readBracket_scan hread hscan hoperations
      exact ⟨shared_cons hshared hparts, left, hleft, hcrossed⟩
    have hmarks : partMarks (c :: cs) rest = marks false (c :: cs) rest := by
      unfold partMarks
      split
      · next heq => exact absurd (List.cons.inj heq).1 hbracket
      · rfl
    rw [hmarks]
    by_cases hescape : c = '\\'
    · subst hescape
      obtain ⟨⟨t, next⟩, hread, heq⟩ := Option.map_eq_some_iff.mp h
      cases heq
      cases cs with
      | nil => exact hscan.escape_nil.elim
      | cons e cs =>
        obtain ⟨hportable, left, hleft, hpassed⟩ := hscan.escape_inv
        obtain ⟨rfl, hkind⟩ := readEscape_of_portable hportable hread
        refine ⟨shared_cons ?_ hparts, left, hleft, hpassed⟩
        rcases hkind with ⟨cls, negated, rfl, -⟩ | rfl
        · exact .shorthand
        · exact .character (.inr rfl)
    have hplain : IsPlain c := ⟨hescape, fun hc => hgroup (by rw [hc]; rfl), hbracket⟩
    suffices hread : (∀ t ∈ parts', t.Shared operations) ∧ Plainly cs rest by
      obtain ⟨left, hleft, hpassed⟩ := (Plainly.cons hplain hread.2).scan hscan
      exact ⟨hread.1, left, hleft, hpassed⟩
    unfold readPart at h
    dsimp only at h
    split at h
    · exact mark_plainly h hparts
    · exact mark_plainly h hparts
    · exact mark_plainly h hparts
    · obtain ⟨⟨count, next⟩, hcount, hmark⟩ := Option.bind_eq_some_iff.mp h
      obtain ⟨hshared, hrest⟩ := mark_plainly hmark hparts
      exact ⟨hshared, (readCount_plainly hcount).trans hrest⟩
    · exact absurd rfl hbracket
    · exact absurd rfl hescape
    · cases h
      exact ⟨shared_cons .anyChar hparts, .refl⟩
    · cases h
      exact ⟨shared_cons .lineStart hparts, .refl⟩
    · cases h
      exact ⟨shared_cons .lineEnd hparts, .refl⟩
    · cases h
      exact ⟨shared_cons (.character (.inl rfl)) hparts, .refl⟩

theorem readOpening_plain (h : cs.head? ≠ some '?') :
    readOpening false cs = some (.group .numbered, cs) := by
  have hno : ∀ rest, cs ≠ '?' :: rest := by
    rintro rest rfl
    exact h rfl
  unfold readOpening
  simp only [skip, Bool.false_eq_true, if_false]
  split
  · exact absurd rfl (hno _)
  · exact absurd rfl (hno _)
  · exact absurd rfl (hno _)
  · exact absurd rfl (hno _)
  · exact absurd rfl (hno _)
  · exact absurd rfl (hno _)
  · exact absurd rfl (hno _)
  · rfl

/-- No parenthesis with a question mark is let pass, so that every group is a plain one. -/
theorem Scan.group_inv (h : Scan false ('(' :: cs) ms) : cs.head? ≠ some '?' ∧
    ∃ left, Scan false cs left ∧ Passed false ('(' :: cs) ms cs left := by
  cases h with
  | group hspecial hscan => exact ⟨hspecial, _, hscan, .step⟩
  | other _ hgroup => exact absurd rfl hgroup

/-- The reader and the scan pass the branches together. -/
theorem readMarked_scan {fuel : Nat} {branches parts : List Tree} {names : List String} {tree : Tree}
    {after : Cursor} {marked : List Bool}
    (h : readMarked fuel branches parts ⟨cs, false, names⟩ = some (tree, after, marked))
    (hscan : Scan false cs ms) (hoperations : Doubled cs ms → operations)
    (hbranches : ∀ t ∈ branches, t.Shared operations) (hparts : ∀ t ∈ parts, t.Shared operations) :
    tree.Shared operations ∧ after.spaced = false ∧
      ∃ left, Scan false after.rest left ∧ Crossed cs ms after.rest left marked := by
  induction fuel generalizing branches parts names tree after marked cs ms with
  | zero => cases h
  | succ fuel ih =>
    unfold readMarked at h
    simp only [skip, Bool.false_eq_true, if_false] at h
    split at h
    · cases h
      exact ⟨.ofBranches hbranches hparts, rfl, ms, hscan, .refl⟩
    · next rest =>
      cases h
      have hnone : marks false (')' :: rest) (')' :: rest) = [] := by
        rw [marks, Nat.sub_self]
        rfl
      rw [hnone]
      exact ⟨.ofBranches hbranches hparts, rfl, ms, hscan, .refl⟩
    · next rest =>
      obtain ⟨⟨tree', after', marked'⟩, hread, heq⟩ := Option.map_eq_some_iff.mp h
      cases heq
      obtain ⟨left, hleft, hpassed⟩ := hscan.plain_inv (by decide)
      obtain ⟨htree, hspaced, final, hfinal, hcrossed⟩ := ih hread hleft
        (fun hdoubled => hoperations (Crossed.doubled hpassed hdoubled))
        (shared_cons (.ofReversed hparts) hbranches) (fun _ ht => nomatch ht)
      exact ⟨htree, hspaced, final, hfinal, Crossed.trans hpassed hcrossed⟩
    · next rest =>
      obtain ⟨hspecial, left, hleft, hpassed⟩ := hscan.group_inv
      rw [readOpening_plain hspecial] at h
      simp only [Option.bind_eq_bind, Option.bind_some, readBranches.enter] at h
      obtain ⟨⟨body, inner, marked₁⟩, hbody, h⟩ := Option.bind_eq_some_iff.mp h
      obtain ⟨hshared, -, middle, hmiddle, hcrossed⟩ := ih hbody hleft
        (fun hdoubled => hoperations (Crossed.doubled hpassed hdoubled)) (fun _ ht => nomatch ht)
        (fun _ ht => nomatch ht)
      have hopened := Crossed.trans hpassed hcrossed
      obtain ⟨innerRest, innerSpaced, innerNames⟩ := inner
      obtain ⟨following, hfollowing, h⟩ := Option.bind_eq_some_iff.mp h
      obtain rfl : innerRest = ')' :: following := closed?_eq_some hfollowing
      obtain ⟨⟨tree', after', marked'⟩, hread, heq⟩ := Option.map_eq_some_iff.mp h
      cases heq
      obtain ⟨closed, hclosed, hstep⟩ := hmiddle.plain_inv (by decide)
      have hgroup := Crossed.trans hopened hstep
      obtain ⟨htree, hspaced, final, hfinal, hrest⟩ := ih hread hclosed
        (fun hdoubled => hoperations (hgroup.doubled hdoubled)) hbranches
        (shared_cons (.group hshared) hparts)
      refine ⟨htree, hspaced, final, hfinal, ?_⟩
      have hone : marks false (')' :: following) following = [false] := by
        rw [marks, List.length_cons, Nat.add_sub_cancel_left]
        rfl
      rw [hone] at hgroup
      exact hgroup.trans hrest
    · next hend hclose hbar hopen =>
      obtain ⟨⟨parts', next⟩, hpart, h⟩ := Option.bind_eq_some_iff.mp h
      obtain ⟨⟨tree', after', marked'⟩, hread, heq⟩ := Option.map_eq_some_iff.mp h
      cases heq
      have hgroup : cs.head? ≠ some '(' := by
        intro hhead
        obtain ⟨rest, hrest⟩ := List.head?_eq_some_iff.mp hhead
        exact hopen rest hrest
      obtain ⟨hshared, left, hleft, hcrossed⟩ := readPart_scan hpart hscan hgroup hoperations hparts
      obtain ⟨htree, hspaced, final, hfinal, hrest⟩ := ih hread hleft
        (fun hdoubled => hoperations (hcrossed.doubled hdoubled)) hbranches hshared
      refine ⟨htree, hspaced, final, hfinal, ?_⟩
      have hnone : marks false cs cs = [] := by
        rw [marks, Nat.sub_self]
        rfl
      rw [hnone]
      exact hcrossed.trans hrest

end Outside

/-- The tree of a pattern that the scan lets pass has shared parts only, set operations apart, which
there are none of unless the sign of one stands twice inside brackets. At every character the scan and
the grammar agree on whether it is inside brackets. -/
theorem kept_shared {text : String} {tree : Tree} (hread : Tree.read? text.toList = some tree)
    (hportable : isPortable text = true) : ∃ ms,
    tree.Shared (Doubled text.toList ms) ∧ Tree.readMarked? text.toList = some (tree, ms) ∧
      scan? text.toList = some ms ∧ ms.length = text.toList.length := by
  have hforget := Tree.readMarked?_forget text.toList
  rw [hread] at hforget
  obtain ⟨⟨tree', marked⟩, hmarked, heq⟩ := Option.map_eq_some_iff.mp hforget
  cases heq
  rw [← isSome_scan?, Option.isSome_iff_exists] at hportable
  obtain ⟨ms, hms⟩ := hportable
  have hscan : Scan false text.toList ms := scan_of_scanFrom (Nat.le_refl _) hms
  obtain ⟨⟨tree'', after, marked'⟩, hbranches, hwhole⟩ := Option.bind_eq_some_iff.mp hmarked
  obtain ⟨hshared, -, left, hleft, hcrossed⟩ := readMarked_scan hbranches hscan
    (fun hdoubled => hdoubled) (fun _ ht => nomatch ht) (fun _ ht => nomatch ht)
  -- the whole text is read, so that the marks are those of all its characters
  simp only at hwhole
  split at hwhole
  · next hend =>
    cases hwhole
    have hrest : after.rest = [] := by simpa using (Bool.and_eq_true_iff.mp hend).1
    rw [hrest] at hleft hcrossed
    cases hleft
    have hsame : ms = marked := by rw [hcrossed.marks, List.append_nil]
    have hlength := hcrossed.length_eq
    rw [← hsame] at hmarked hlength
    exact ⟨ms, hshared, hmarked, hms, hlength⟩
  · cases hwhole

theorem fold_empty : CodeSet.empty.fold = .empty := by
  have hnone : (orbits.filter fun o => o.any CodeSet.empty.containsCode) = [] := by
    rw [List.filter_eq_nil_iff]
    intro o _
    simp [CodeSet.containsCode, CodeSet.empty]
  rw [CodeSet.fold, hnone, List.flatMap_nil, CodeSet.ofCodes, List.map_nil, CodeSet.ofRanges,
    List.mergeSort_nil]
  simp [CodeSet.union, CodeSet.empty, CodeSet.interleave, CodeSet.join]

/-- The sign of an intersection alone is a pattern for nothing in common with nothing. -/
theorem read?_intersection : Tree.read? "[&&]".toList =
    some (.bracketed (.operation .intersection .nothing .nothing) false) :=
  rfl

theorem kept_intersection : Kept "[&&]" := by
  have hinter : CodeSet.empty.inter .empty = .empty := by
    simp [CodeSet.inter, CodeSet.union, CodeSet.complement, CodeSet.empty, CodeSet.gaps,
      CodeSet.lastCode, CodeSet.interleave, CodeSet.join, CodeSet.joinFrom]
  have hexpr : Expr.ofTree? .start (.bracketed (.operation .intersection .nothing .nothing) false) =
      some (.one .empty, .start) := by
    simp [Expr.ofTree?, Flags.members?, Flags.finish?, Flags.fold, Flags.start,
      SetOperation.apply, fold_empty, hinter]
  refine ⟨⟨⟨.one .empty⟩, ?_⟩, by decide⟩
  simp only [compile, read?_intersection, Option.bind_some, hexpr]
  rfl

theorem kept_shared_intersection : ∃ tree ms, Tree.read? "[&&]".toList = some tree ∧
    tree.Shared (Doubled "[&&]".toList ms) ∧ Tree.readMarked? "[&&]".toList = some (tree, ms) ∧
      scan? "[&&]".toList = some ms ∧ ms.length = "[&&]".toList.length := by
  obtain ⟨ms, hshared, hmarked, hscan, hlength⟩ := kept_shared read?_intersection (by decide)
  exact ⟨_, ms, read?_intersection, hshared, hmarked, hscan, hlength⟩

/-- An intersection is kept as it stands, though not every search takes it for one. -/
theorem portable_intersection : portable "[&&]" = "[&&]" ∧ Kept "[&&]" ∧
    ∃ tree, Tree.read? "[&&]".toList = some tree ∧ ¬ tree.Shared False := by
  refine ⟨portable_of_kept kept_intersection, kept_intersection, _, read?_intersection, ?_⟩
  intro hshared
  cases hshared with
  | bracketed hmembers =>
    cases hmembers with
    | operation hfalse => exact hfalse

end Segments.Pattern
