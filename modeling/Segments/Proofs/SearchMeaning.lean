import Mathlib.Data.List.Basic
import Mathlib.Data.List.Zip
import Segments.Pattern.Search

namespace Segments.Pattern

open Text

inductive Steps (R : Nat → Nat → Prop) : Nat → Nat → Nat → Prop
  | stay {i : Nat} : Steps R 0 i i
  | step {i j k n : Nat} : R i j → Steps R n j k → Steps R (n + 1) i k

namespace Steps

variable {R : Nat → Nat → Prop} {i j k m n : Nat}

theorem le (hR : ∀ i j, R i j → i ≤ j) (h : Steps R n i j) : i ≤ j := by
  induction h with
  | stay => exact Nat.le_refl _
  | step hstep _ ih => exact Nat.le_trans (hR _ _ hstep) ih

theorem closed {P : Nat → Prop} (hP : ∀ a b, P a → R a b → P b) (h : Steps R n i j) (hi : P i) :
    P j := by
  induction h with
  | stay => exact hi
  | step hstep _ ih => exact ih (hP _ _ hi hstep)

theorem add_iff : Steps R (m + n) i j ↔ ∃ k, Steps R m i k ∧ Steps R n k j := by
  induction m generalizing i with
  | zero =>
    rw [Nat.zero_add]
    constructor
    · intro h
      exact ⟨i, .stay, h⟩
    · rintro ⟨k, hstay, h⟩
      cases hstay
      exact h
  | succ m ih =>
    rw [Nat.succ_add]
    constructor
    · intro h
      cases h with
      | step hstep hrest =>
        obtain ⟨k, hfirst, hlast⟩ := ih.mp hrest
        exact ⟨k, .step hstep hfirst, hlast⟩
    · rintro ⟨k, hfirst, hlast⟩
      cases hfirst with
      | step hstep hrest => exact .step hstep (ih.mpr ⟨k, hrest, hlast⟩)

/-- Of more steps than there are places between, one does not advance: it can be left out, and made
once more. -/
theorem shift (hR : ∀ i j, R i j → i ≤ j) (h : Steps R (n + 1) i j) (hmany : j ≤ i + n) :
    Steps R n i j ∧ Steps R (n + 2) i j := by
  induction n generalizing i with
  | zero =>
    have hle := h.le hR
    have hsame : i = j := by omega
    subst hsame
    cases h with
    | step hstep hrest =>
      cases hrest
      exact ⟨.stay, .step hstep (.step hstep .stay)⟩
  | succ n ih =>
    cases h with
    | @step _ k _ _ hstep hrest =>
      have hle := hR _ _ hstep
      by_cases hstay : k = i
      · subst hstay
        exact ⟨hrest, .step hstep (.step hstep hrest)⟩
      · obtain ⟨hfewer, hmore⟩ := ih hrest (by omega)
        exact ⟨.step hstep hfewer, .step hstep hmore⟩

/-- Of more steps than places some do not advance, and can be left out. -/
theorem fewer (hR : ∀ i j, R i j → i ≤ j) (h : Steps R n i j) (hm : m ≤ n) (hmany : j ≤ i + m) :
    Steps R m i j := by
  induction n, hm using Nat.le_induction with
  | base => exact h
  | succ n hn ih => exact ih (h.shift hR (by omega)).1

/-- Among more steps than places there is one that does not advance, and it can be repeated. -/
theorem more (hR : ∀ i j, R i j → i ≤ j) (h : Steps R m i j) (hm : m ≤ n) (hmany : j < i + m) :
    Steps R n i j := by
  have hle := h.le hR
  induction n, hm using Nat.le_induction with
  | base => exact h
  | succ n hn ih =>
    obtain ⟨k, rfl⟩ : ∃ k, n = k + 1 := ⟨n - 1, by omega⟩
    exact (ih.shift hR (by omega)).2

def extra (count : Count) (bound : Nat) : Nat :=
  match count.most with
  | some m => min (m - count.least) bound
  | none => bound

/-- Bounds on the number of steps that are cut at the number of places allow the same. -/
theorem cut (hR : ∀ i j, R i j → i ≤ j) (count : Count) {bound : Nat} (hj : j < bound) :
    (∃ n, count.least ≤ n ∧ (∀ m, count.most = some m → n ≤ max m count.least) ∧ Steps R n i j) ↔
      ∃ n ≤ extra count bound, Steps R (min count.least bound + n) i j := by
  constructor
  · rintro ⟨n, hleast, hmost, hsteps⟩
    refine ⟨min (n - count.least) bound, ?_, ?_⟩
    · unfold extra
      split
      · next m hm =>
        have hn := hmost m hm
        omega
      · exact Nat.min_le_right _ _
    · by_cases hall : min count.least bound + min (n - count.least) bound = n
      · rwa [hall]
      · exact hsteps.fewer hR (by omega) (by omega)
  · rintro ⟨n, hn, hsteps⟩
    have hmost : ∀ m, count.most = some m → min count.least bound + n ≤ max m count.least := by
      intro m hm
      simp only [extra, hm] at hn
      omega
    by_cases hleast : count.least ≤ min count.least bound + n
    · exact ⟨_, hleast, hmost, hsteps⟩
    · exact ⟨count.least, Nat.le_refl _, fun m _ => Nat.le_max_right _ _,
        hsteps.more hR (by omega) (by omega)⟩

end Steps

/-- No part of a text ends before it starts, or beyond the end of the text. -/
structure Forward (n : Nat) (R : Nat → Nat → Prop) : Prop where
  le : ∀ i j, R i j → i ≤ j
  bound : ∀ i j, R i j → i ≤ n → j ≤ n

def Places.Has (ps : Places) (i : Nat) : Prop :=
  ps[i]? = some true

namespace Places

variable {a b ps : Places} {i : Nat}

theorem Has.lt_length (h : ps.Has i) : i < ps.length :=
  (List.getElem?_eq_some_iff.mp h).1

theorem getElem?_both {α β : Type} {as : List α} {bs : List β} (h : as.length = bs.length)
    (i : Nat) :
    (∃ x y, as[i]? = some x ∧ bs[i]? = some y) ∨ as[i]? = none ∧ bs[i]? = none := by
  by_cases hi : i < as.length
  · exact .inl ⟨as[i], bs[i], List.getElem?_eq_getElem hi, List.getElem?_eq_getElem (h ▸ hi)⟩
  · exact .inr ⟨List.getElem?_eq_none (by omega), List.getElem?_eq_none (by omega)⟩

theorem has_either (h : a.length = b.length) : (either a b).Has i ↔ a.Has i ∨ b.Has i := by
  rcases getElem?_both h i with ⟨x, y, hx, hy⟩ | ⟨hx, hy⟩ <;>
    simp [Has, either, List.getElem?_zipWith, hx, hy]

theorem has_without (h : a.length = b.length) : (without a b).Has i ↔ a.Has i ∧ ¬ b.Has i := by
  rcases getElem?_both h i with ⟨x, y, hx, hy⟩ | ⟨hx, hy⟩ <;>
    simp [Has, without, List.getElem?_zipWith, hx, hy]

theorem length_either (h : a.length = b.length) : (either a b).length = b.length := by
  simp [either, h]

theorem length_without (h : a.length = b.length) : (without a b).length = b.length := by
  simp [without, h]

theorem not_has_nowhere : ¬ (nowhere ps).Has i := by
  intro h
  have hmem := List.mem_of_getElem? h
  simp [nowhere] at hmem

theorem any_iff : ps.any id = true ↔ ∃ i, ps.Has i := by
  rw [List.any_eq_true]
  simp only [id_eq, exists_eq_right, List.mem_iff_getElem?, Has]

end Places

/-- From places in a text of `n` characters, the search goes to those that the relation leads to. -/
structure Computes (n : Nat) (search : Places → Places) (R : Nat → Nat → Prop) : Prop where
  length : ∀ starts : Places, starts.length = n + 1 → (search starts).length = n + 1
  reached : ∀ starts : Places, starts.length = n + 1 →
    ∀ j, (search starts).Has j ↔ ∃ i, starts.Has i ∧ R i j

namespace Computes

variable {n : Nat} {search : Places → Places} {R : Nat → Nat → Prop} {starts latest reached : Places}

theorem after (h : Computes n search R) (k : Nat) : Computes n (after search k) (Steps R k) := by
  induction k with
  | zero =>
    refine ⟨fun starts hs => hs, fun starts _ j => ?_⟩
    constructor
    · intro hj
      exact ⟨j, hj, .stay⟩
    · rintro ⟨i, hi, hsteps⟩
      cases hsteps
      exact hi
  | succ k ih =>
    refine ⟨fun starts hs => ih.length _ (h.length _ hs), fun starts hs j => ?_⟩
    rw [Pattern.after, ih.reached _ (h.length _ hs)]
    constructor
    · rintro ⟨m, hm, hsteps⟩
      obtain ⟨i, hi, hstep⟩ := (h.reached _ hs m).mp hm
      exact ⟨i, hi, .step hstep hsteps⟩
    · rintro ⟨i, hi, hsteps⟩
      cases hsteps with
      | step hstep hrest => exact ⟨_, (h.reached _ hs _).mpr ⟨i, hi, hstep⟩, hrest⟩

/-- What has been searched so far: one step from a place before the latest leads nowhere new. -/
structure Searched (n : Nat) (R : Nat → Nat → Prop) (latest reached : Places) : Prop where
  latest_length : latest.length = n + 1
  reached_length : reached.length = n + 1
  latest_reached : ∀ i, latest.Has i → reached.Has i
  earlier : ∀ i j, reached.Has i → ¬ latest.Has i → R i j → reached.Has j

theorem Searched.first (h : starts.length = n + 1) : Searched n R starts starts :=
  ⟨h, h, fun _ hi => hi, fun _ _ hi hno _ => absurd hi hno⟩

/-- One step from any place that was reached leads to one that was, or to a fresh one. -/
theorem Searched.step (h : Computes n search R) (hs : Searched n R latest reached) {i j : Nat}
    (hi : reached.Has i) (hstep : R i j) :
    reached.Has j ∨ (without (search latest) reached).Has j := by
  have hlength := h.length _ hs.latest_length
  rw [Places.has_without (hlength.trans hs.reached_length.symm)]
  by_cases hlatest : latest.Has i
  · have hj := (h.reached _ hs.latest_length j).mpr ⟨i, hlatest, hstep⟩
    exact (em _).imp_right fun hno => ⟨hj, hno⟩
  · exact .inl (hs.earlier i j hi hlatest hstep)

theorem Searched.next (h : Computes n search R) (hs : Searched n R latest reached) :
    Searched n R (without (search latest) reached)
      (either reached (without (search latest) reached)) := by
  have hlength := (h.length _ hs.latest_length).trans hs.reached_length.symm
  have hfresh := Places.length_without hlength
  refine ⟨hfresh.trans hs.reached_length, (Places.length_either hfresh.symm).trans
    (hfresh.trans hs.reached_length), fun i hi => ?_, fun i j hi hno hstep => ?_⟩
  · exact (Places.has_either hfresh.symm).mpr (.inr hi)
  · rw [Places.has_either hfresh.symm] at hi ⊢
    exact hs.step h (hi.resolve_right hno) hstep

/-- As many steps as are allowed lead from the places that were reached to those that are found. -/
theorem within_iff (h : Computes n search R) (k : Nat) (hs : Searched n R latest reached) (j : Nat) :
    (within search k latest reached).Has j ↔ ∃ i, reached.Has i ∧ ∃ m ≤ k, Steps R m i j := by
  induction k generalizing latest reached with
  | zero =>
    constructor
    · intro hj
      exact ⟨j, hj, 0, Nat.le_refl _, .stay⟩
    · rintro ⟨i, hi, m, hm, hsteps⟩
      cases Nat.le_zero.mp hm
      cases hsteps
      exact hi
  | succ k ih =>
    have hlength := (h.length _ hs.latest_length).trans hs.reached_length.symm
    have heither := fun i => Places.has_either (i := i) (Places.length_without hlength).symm
    unfold Pattern.within
    simp only
    split
    · rw [ih (hs.next h)]
      constructor
      · rintro ⟨i, hi, m, hm, hsteps⟩
        rcases (heither i).mp hi with hi | hi
        · exact ⟨i, hi, m, by omega, hsteps⟩
        · rw [Places.has_without hlength, h.reached _ hs.latest_length] at hi
          obtain ⟨⟨i', hi', hstep⟩, -⟩ := hi
          exact ⟨i', hs.latest_reached i' hi', m + 1, by omega, .step hstep hsteps⟩
      · rintro ⟨i, hi, m, hm, hsteps⟩
        cases hsteps with
        | stay => exact ⟨_, (heither _).mpr (.inl hi), 0, Nat.zero_le _, .stay⟩
        | step hstep hrest =>
          exact ⟨_, (heither _).mpr (hs.step h hi hstep), _, by omega, hrest⟩
    · next hnone =>
      -- nothing was fresh, so that no number of steps leads anywhere new
      rw [Places.any_iff] at hnone
      constructor
      · intro hj
        exact ⟨j, hj, 0, Nat.zero_le _, .stay⟩
      · rintro ⟨i, hi, m, -, hsteps⟩
        exact hsteps.closed (fun a b ha hstep =>
          (hs.step h ha hstep).resolve_right fun hfresh => hnone ⟨b, hfresh⟩) hi

theorem length_within (h : Computes n search R) (k : Nat) (hs : Searched n R latest reached) :
    (within search k latest reached).length = n + 1 := by
  induction k generalizing latest reached with
  | zero => exact hs.reached_length
  | succ k ih =>
    unfold Pattern.within
    simp only
    split
    · exact ih (hs.next h)
    · exact hs.reached_length

/-- A count of steps that is cut at the number of places finds what the count itself would. -/
theorem repeated (h : Computes n search R) (hR : Forward n R) (count : Count) :
    Computes n (repeated search count) fun i j =>
      ∃ m, count.least ≤ m ∧ (∀ most, count.most = some most → m ≤ max most count.least) ∧
        Steps R m i j := by
  have hfirst := h.after (min count.least (n + 1))
  have hlength : ∀ starts : Places, starts.length = n + 1 →
      (Pattern.repeated search count starts).length = n + 1 := by
    intro starts hs
    unfold Pattern.repeated
    rw [hs]
    exact h.length_within _ (.first (hfirst.length _ hs))
  refine ⟨hlength, fun starts hs j => ?_⟩
  by_cases hj : j < n + 1
  · have hcut := fun i => Steps.cut (i := i) hR.le count hj
    have hfound : (Pattern.repeated search count starts).Has j ↔
        ∃ k, (Pattern.after search (min count.least (n + 1)) starts).Has k ∧
          ∃ m ≤ Steps.extra count (n + 1), Steps R m k j := by
      unfold Pattern.repeated
      rw [hs]
      exact h.within_iff _ (.first (hfirst.length _ hs)) j
    simp only [hcut, hfound, hfirst.reached _ hs, Steps.add_iff]
    constructor
    · rintro ⟨k, ⟨i, hi, hleast⟩, m, hm, hrest⟩
      exact ⟨i, hi, m, hm, k, hleast, hrest⟩
    · rintro ⟨i, hi, m, hm, k, hleast, hrest⟩
      exact ⟨k, ⟨i, hi, hleast⟩, m, hm, hrest⟩
  · refine iff_of_false (fun h => hj (hlength starts hs ▸ h.lt_length)) ?_
    rintro ⟨i, hi, m, -, -, hsteps⟩
    have hstart := hi.lt_length
    rw [hs] at hstart
    have hend := hsteps.closed (P := fun k => k ≤ n) (fun a b ha hstep => hR.bound a b hstep ha)
      (Nat.lt_succ_iff.mp hstart)
    omega

theorem stay (n : Nat) : Computes n (fun starts => starts) (· = ·) :=
  ⟨fun _ hs => hs, fun _ _ j => by simp⟩

theorem advance {chars : List Char} (s : CodeSet) :
    Computes chars.length (advance s chars) fun i j =>
      j = i + 1 ∧ ∃ c, chars[i]? = some c ∧ s.contains c = true := by
  refine ⟨fun starts hs => by simp [Pattern.advance, hs], fun starts hs j => ?_⟩
  unfold Pattern.advance Places.Has
  cases j with
  | zero => simp
  | succ j =>
    have hboth : (List.zipWith (fun here c => here && s.contains c) starts chars)[j]? = some true ↔
        starts[j]? = some true ∧ ∃ c, chars[j]? = some c ∧ s.contains c = true := by
      rw [List.getElem?_zipWith]
      cases starts[j]? <;> cases chars[j]? <;> simp
    rw [List.getElem?_cons_succ, hboth]
    simp

theorem onlyWhere {around : List Surroundings} (hlength : around.length = n + 1) (kind : Look) :
    Computes n (onlyWhere kind around) fun i j =>
      i = j ∧ ∃ p, around[i]? = some p ∧ kind.holds p = true := by
  refine ⟨fun starts hs => by simp [Pattern.onlyWhere, hs, hlength], fun starts hs j => ?_⟩
  unfold Pattern.onlyWhere Places.Has
  rw [List.getElem?_zipWith]
  simp only [and_left_comm, exists_eq_left]
  cases starts[j]? <;> cases around[j]? <;> simp

theorem nowhere (n : Nat) : Computes n nowhere fun _ _ => False :=
  ⟨fun starts hs => by simp [Pattern.nowhere, hs], fun starts _ j => by
    simp [Places.not_has_nowhere]⟩

variable {search' : Places → Places} {R' : Nat → Nat → Prop}

theorem either (h : Computes n search R) (h' : Computes n search' R') :
    Computes n (fun starts => either (search starts) (search' starts)) fun i j =>
      R i j ∨ R' i j := by
  have hlength := fun starts hs => (h.length starts hs).trans (h'.length starts hs).symm
  refine ⟨fun starts hs => (Places.length_either (hlength starts hs)).trans (h'.length starts hs),
    fun starts hs j => ?_⟩
  rw [Places.has_either (hlength starts hs), h.reached starts hs, h'.reached starts hs]
  simp only [and_or_left, exists_or]

/-- One search after the other goes where the two relations lead in turn. -/
theorem trans (h : Computes n search R) (h' : Computes n search' R') :
    Computes n (fun starts => search' (search starts)) fun i j => ∃ k, R i k ∧ R' k j := by
  refine ⟨fun starts hs => h'.length _ (h.length starts hs), fun starts hs j => ?_⟩
  rw [h'.reached _ (h.length starts hs)]
  simp only [h.reached starts hs]
  constructor
  · rintro ⟨k, ⟨i, hi, hfirst⟩, hlast⟩
    exact ⟨i, hi, k, hfirst, hlast⟩
  · rintro ⟨i, hi, k, hfirst, hlast⟩
    exact ⟨k, ⟨i, hi, hfirst⟩, hlast⟩

end Computes

/-- The part of the text between two places is one that the expression stands for. A most number of
repetitions that is below the least is taken to be the least. -/
def Expr.Spans (subject : Subject) : Expr → Nat → Nat → Prop
  | .empty, i, j => i = j
  | .one s, i, j => j = i + 1 ∧ ∃ c, subject.chars[i]? = some c ∧ s.contains c = true
  | .look kind, i, j => i = j ∧ ∃ p, subject.around[i]? = some p ∧ kind.holds p = true
  | .capture body, i, j => body.Spans subject i j
  | .repetition count body, i, j =>
    ∃ n, count.least ≤ n ∧ (∀ m, count.most = some m → n ≤ max m count.least) ∧
      Steps (fun a b => body.Spans subject a b) n i j
  | .concat parts, i, j => inTurn parts i j
  | .alternation branches, i, j => oneOf branches i j
where
  inTurn : List Expr → Nat → Nat → Prop
    | [], i, j => i = j
    | e :: rest, i, j => ∃ k, e.Spans subject i k ∧ inTurn rest k j
  oneOf : List Expr → Nat → Nat → Prop
    | [], _, _ => False
    | e :: rest, i, j => e.Spans subject i j ∨ oneOf rest i j

namespace Expr

variable {subject : Subject}

mutual

/-- What an expression stands for lies between two places of the text, the first before the
second. -/
theorem forward : ∀ e : Expr, Forward subject.chars.length (e.Spans subject)
  | .empty => ⟨by simp [Spans], by simp [Spans]⟩
  | .one s => by
    refine ⟨fun i j h => ?_, fun i j h _ => ?_⟩
    all_goals
      simp only [Spans] at h
      obtain ⟨rfl, c, hc, -⟩ := h
    · exact Nat.le_succ i
    · exact (List.getElem?_eq_some_iff.mp hc).1
  | .look kind => ⟨by simp +contextual [Spans], by simp +contextual [Spans]⟩
  | .capture body => by
    have h := forward body
    exact ⟨fun i j => by simpa [Spans] using h.le i j, fun i j => by simpa [Spans] using h.bound i j⟩
  | .repetition count body => by
    have h := forward body
    refine ⟨fun i j => ?_, fun i j => ?_⟩
    all_goals simp only [Spans]
    · rintro ⟨m, -, -, hsteps⟩
      exact hsteps.le h.le
    · rintro ⟨m, -, -, hsteps⟩ hi
      exact hsteps.closed (P := fun k => k ≤ _) (fun a b ha hstep => h.bound a b hstep ha) hi
  | .concat parts => by
    have h := forward_inTurn parts
    exact ⟨fun i j => by simpa [Spans] using h.le i j, fun i j => by simpa [Spans] using h.bound i j⟩
  | .alternation branches => by
    have h := forward_oneOf branches
    exact ⟨fun i j => by simpa [Spans] using h.le i j, fun i j => by simpa [Spans] using h.bound i j⟩

theorem forward_inTurn : ∀ parts : List Expr,
    Forward subject.chars.length (Spans.inTurn subject parts)
  | [] => ⟨by simp [Spans.inTurn], by simp [Spans.inTurn]⟩
  | e :: rest => by
    have h := forward e
    have hrest := forward_inTurn rest
    refine ⟨fun i j => ?_, fun i j => ?_⟩
    all_goals simp only [Spans.inTurn]
    · rintro ⟨k, hfirst, hlast⟩
      exact Nat.le_trans (h.le _ _ hfirst) (hrest.le _ _ hlast)
    · rintro ⟨k, hfirst, hlast⟩ hi
      exact hrest.bound _ _ hlast (h.bound _ _ hfirst hi)

theorem forward_oneOf : ∀ branches : List Expr,
    Forward subject.chars.length (Spans.oneOf subject branches)
  | [] => ⟨by simp [Spans.oneOf], by simp [Spans.oneOf]⟩
  | e :: rest => by
    have h := forward e
    have hrest := forward_oneOf rest
    refine ⟨fun i j => ?_, fun i j => ?_⟩
    all_goals simp only [Spans.oneOf]
    · exact fun hspans => hspans.elim (h.le i j) (hrest.le i j)
    · exact fun hspans hi => hspans.elim (h.bound i j · hi) (hrest.bound i j · hi)

end

mutual

/-- The search goes from places to those where a part that the expression stands for may end. -/
theorem computes (hsubject : subject.around.length = subject.chars.length + 1) : ∀ e : Expr,
    Computes subject.chars.length (fun starts => e.ends subject starts) (e.Spans subject)
  | .empty => by simpa only [ends, Spans] using Computes.stay _
  | .one s => by simpa only [ends, Spans] using Computes.advance s
  | .look kind => by simpa only [ends, Spans] using Computes.onlyWhere hsubject kind
  | .capture body => by simpa only [ends, Spans] using computes hsubject body
  | .repetition count body => by
    simpa only [ends, Spans] using (computes hsubject body).repeated (forward body) count
  | .concat parts => by simpa only [ends, Spans] using computes_inTurn hsubject parts
  | .alternation branches => by simpa only [ends, Spans] using computes_oneOf hsubject branches

theorem computes_inTurn (hsubject : subject.around.length = subject.chars.length + 1) :
    ∀ parts : List Expr, Computes subject.chars.length
      (fun starts => ends.inTurn subject starts parts) (Spans.inTurn subject parts)
  | [] => by simpa only [ends.inTurn, Spans.inTurn] using Computes.stay _
  | e :: rest => by
    simpa only [ends.inTurn, Spans.inTurn] using
      (computes hsubject e).trans (computes_inTurn hsubject rest)

theorem computes_oneOf (hsubject : subject.around.length = subject.chars.length + 1) :
    ∀ branches : List Expr, Computes subject.chars.length
      (fun starts => ends.oneOf subject starts branches) (Spans.oneOf subject branches)
  | [] => by simpa only [ends.oneOf, Spans.oneOf] using Computes.nowhere _
  | e :: rest => by
    simpa only [ends.oneOf, Spans.oneOf] using
      (computes hsubject e).either (computes_oneOf hsubject rest)

end

theorem length_surroundings (before : Option Char) (cs : List Char) :
    (surroundings before cs).length = cs.length + 1 := by
  induction cs generalizing before with
  | nil => rfl
  | cons c cs ih => simp [surroundings, ih]

/-- An expression is found in a text just if it stands for some part of it. -/
theorem found_iff (e : Expr) (cs : List Char) :
    e.found cs = true ↔ ∃ i j, i ≤ cs.length ∧ e.Spans (.ofChars cs) i j := by
  have haround : (Subject.ofChars cs).around.length = (Subject.ofChars cs).chars.length + 1 :=
    length_surroundings none cs
  have hlength : (true :: cs.map fun _ => true).length = cs.length + 1 := by simp
  have hstarts : ∀ i, Places.Has (true :: cs.map fun _ => true) i ↔ i ≤ cs.length := by
    intro i
    unfold Places.Has
    cases i with
    | zero => simp
    | succ i =>
      simp only [List.getElem?_cons_succ, List.getElem?_eq_some_iff, List.getElem_map,
        List.length_map, exists_prop, and_true, Nat.succ_le_iff]
  rw [found, Places.any_iff]
  simp only [(computes haround e).reached _ hlength, hstarts]
  exact exists_comm

/-- Sets of characters in turn stand for as many characters, each from its set. -/
theorem inTurn_ones {sets : List CodeSet} {i j : Nat} :
    Spans.inTurn subject (sets.map .one) i j ↔
      j = i + sets.length ∧ ∃ run, run <+: subject.chars.drop i ∧
        List.Forall₂ (fun s c => s.contains c = true) sets run := by
  induction sets generalizing i with
  | nil =>
    simp only [List.map_nil, Spans.inTurn, List.length_nil, Nat.add_zero, List.forall₂_nil_left_iff,
      exists_eq_right, List.nil_prefix, and_true]
    exact eq_comm
  | cons s sets ih =>
    simp only [List.map_cons, Spans.inTurn, Spans, ih, List.length_cons]
    constructor
    · rintro ⟨k, ⟨rfl, c, hc, hs⟩, rfl, run, hrun, hall⟩
      refine ⟨by omega, c :: run, ?_, .cons hs hall⟩
      obtain ⟨hi, rfl⟩ := List.getElem?_eq_some_iff.mp hc
      rw [List.drop_eq_getElem_cons hi]
      exact List.cons_prefix_cons.mpr ⟨rfl, hrun⟩
    · rintro ⟨rfl, run, hrun, hall⟩
      cases hall with
      | @cons _ c _ run hs hall =>
        have hi : i < subject.chars.length := by
          have hlength := hrun.length_le
          simp only [List.length_cons, List.length_drop] at hlength
          omega
        rw [List.drop_eq_getElem_cons hi, List.cons_prefix_cons] at hrun
        exact ⟨i + 1, ⟨rfl, c, by rw [List.getElem?_eq_getElem hi, hrun.1], hs⟩, by omega, run,
          hrun.2, hall⟩

end Expr

end Segments.Pattern
