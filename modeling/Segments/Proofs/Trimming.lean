import Mathlib.Data.List.TakeWhile
import Segments.Text.Blank

namespace Segments.Text

theorem takeWhile_run_append {p : Char → Bool} {run rest : List Char} (hrun : ∀ c ∈ run, p c = true)
    (hrest : ∀ c, rest.head? = some c → p c = false) : (run ++ rest).takeWhile p = run := by
  rw [List.takeWhile_append_of_pos hrun]
  cases rest with
  | nil => simp
  | cons c rest => simp [hrest c rfl]

theorem dropWhile_run_append {p : Char → Bool} {run rest : List Char} (hrun : ∀ c ∈ run, p c = true)
    (hrest : ∀ c, rest.head? = some c → p c = false) : (run ++ rest).dropWhile p = rest := by
  rw [List.dropWhile_append_of_pos hrun]
  cases rest with
  | nil => rfl
  | cons c rest => simp [hrest c rfl]

/-- There is one way to cut a text after a run of one kind of character that is as long as can
be. -/
theorem run_append_inj {p : Char → Bool} {as bs run rest : List Char} (h : as ++ bs = run ++ rest)
    (has : ∀ c ∈ as, p c = true) (hbs : ∀ c, bs.head? = some c → p c = false)
    (hrun : ∀ c ∈ run, p c = true) (hrest : ∀ c, rest.head? = some c → p c = false) :
    as = run ∧ bs = rest := by
  constructor
  · rw [← takeWhile_run_append has hbs, h, takeWhile_run_append hrun hrest]
  · rw [← dropWhile_run_append has hbs, h, dropWhile_run_append hrun hrest]

/-- What holds of every character of a text holds of the first, whatever follows the text. -/
theorem head?_append_of_forall {p : Char → Prop} {cs : List Char} (hne : cs ≠ [])
    (h : ∀ c ∈ cs, p c) (rest : List Char) : ∀ c, (cs ++ rest).head? = some c → p c := by
  obtain ⟨d, ds, rfl⟩ := List.exists_cons_of_ne_nil hne
  intro c hc
  rw [List.cons_append, List.head?_cons, Option.some.injEq] at hc
  exact hc ▸ h d List.mem_cons_self

/-- Every text is a run of one kind of character, as long as can be, and the rest. -/
theorem exists_run (p : Char → Bool) (cs : List Char) :
    ∃ run rest, cs = run ++ rest ∧ (∀ c ∈ run, p c = true) ∧
      ∀ c, rest.head? = some c → p c = false := by
  refine ⟨cs.takeWhile p, cs.dropWhile p, List.takeWhile_append_dropWhile.symm,
    fun c hc => List.mem_takeWhile_imp hc, fun c hc => ?_⟩
  have hstop := List.head?_dropWhile_not p cs
  rw [hc] at hstop
  exact hstop

def Blanks (cs : List Char) : Prop :=
  ∀ c ∈ cs, isBlank c = true

structure Trimmed (cs : List Char) : Prop where
  first : ∀ c, cs.head? = some c → isBlank c = false
  last : ∀ c, cs.getLast? = some c → isBlank c = false

theorem Trimmed.of_ink {cs : List Char} (h : ∀ c ∈ cs, isBlank c = false) : Trimmed cs :=
  ⟨fun c hc => h c (List.mem_of_head? hc), fun c hc => h c (List.mem_of_getLast? hc)⟩

theorem Trimmed.first_append {cs : List Char} (h : Trimmed cs) (hne : cs ≠ []) (rest : List Char) :
    ∀ c, (cs ++ rest).head? = some c → isBlank c = false := by
  obtain ⟨d, ds, rfl⟩ := List.exists_cons_of_ne_nil hne
  exact fun c hc => h.first c hc

theorem Blanks.nil : Blanks [] := by
  simp [Blanks]

theorem Blanks.append {as bs : List Char} (ha : Blanks as) (hb : Blanks bs) : Blanks (as ++ bs) := by
  intro c hc
  rcases List.mem_append.mp hc with hc | hc
  · exact ha c hc
  · exact hb c hc

theorem trimStart_append {bs cs : List Char} (hb : Blanks bs)
    (hc : ∀ c, cs.head? = some c → isBlank c = false) : trimStart (bs ++ cs) = cs :=
  dropWhile_run_append hb hc

theorem trimEnd_append {cs bs : List Char} (hc : ∀ c, cs.getLast? = some c → isBlank c = false)
    (hb : Blanks bs) : trimEnd (cs ++ bs) = cs := by
  have hdrop : (bs.reverse ++ cs.reverse).dropWhile isBlank = cs.reverse :=
    dropWhile_run_append (fun c h => hb c (List.mem_reverse.mp h)) fun c h => hc c (by simpa using h)
  rw [trimEnd, List.reverse_append, hdrop, List.reverse_reverse]

theorem trim_blanks {cs : List Char} (h : Blanks cs) : trim cs = [] := by
  have hstart : trimStart (cs ++ []) = [] := trimStart_append h (by simp)
  rw [List.append_nil] at hstart
  rw [trim, hstart]
  rfl

/-- What is trimmed off is the blanks at both ends. -/
theorem trim_append {as cs bs : List Char} (ha : Blanks as) (hc : Trimmed cs) (hb : Blanks bs) :
    trim (as ++ cs ++ bs) = cs := by
  cases cs with
  | nil =>
    rw [List.append_nil]
    exact trim_blanks (ha.append hb)
  | cons c cs =>
    have hstart : trimStart (as ++ (c :: cs ++ bs)) = c :: cs ++ bs :=
      trimStart_append ha fun d hd => hc.first d hd
    rw [List.append_assoc, trim, hstart]
    exact trimEnd_append hc.last hb

theorem Trimmed.trim {cs : List Char} (h : Trimmed cs) : trim cs = cs := by
  simpa using trim_append .nil h .nil

/-- A text that does not start with a blank is a trimmed one and blanks. -/
theorem exists_trimmed_append {cs : List Char} (h : ∀ c, cs.head? = some c → isBlank c = false) :
    ∃ body bs, cs = body ++ bs ∧ Trimmed body ∧ Blanks bs := by
  obtain ⟨run, rest, hcs, hrun, hrest⟩ := exists_run isBlank cs.reverse
  have hcut : cs = rest.reverse ++ run.reverse := by
    rw [← List.reverse_append, ← hcs, List.reverse_reverse]
  refine ⟨rest.reverse, run.reverse, hcut, ⟨fun c hc => ?_, fun c hc => hrest c (by simpa using hc)⟩,
    fun c hc => hrun c (List.mem_reverse.mp hc)⟩
  cases hbody : rest.reverse with
  | nil => simp [hbody] at hc
  | cons d body =>
    rw [hbody] at hc hcut
    exact h c (by rw [hcut]; simpa using hc)

/-- More blanks around a text are trimmed off with its own. -/
theorem trim_surrounded {as bs : List Char} (ha : Blanks as) (cs : List Char) (hb : Blanks bs) :
    trim (as ++ cs ++ bs) = trim cs := by
  obtain ⟨before, rest, rfl, hbefore, hrest⟩ := exists_run isBlank cs
  obtain ⟨body, after, rfl, hbody, hafter⟩ := exists_trimmed_append hrest
  calc trim (as ++ (before ++ (body ++ after)) ++ bs)
      = trim ((as ++ before) ++ body ++ (after ++ bs)) := by simp only [List.append_assoc]
    _ = body := trim_append (ha.append hbefore) hbody (hafter.append hb)
    _ = trim (before ++ body ++ after) := (trim_append hbefore hbody hafter).symm
    _ = trim (before ++ (body ++ after)) := by rw [List.append_assoc]

end Segments.Text
