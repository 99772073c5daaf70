import Segments.Proofs.Waiting

namespace Segments.Sync.System

theorem leads_guarded {s t : System} (h : s.core.Guarded) (hl : Leads s t) : t.core.Guarded := by
  obtain ⟨ts, rfl⟩ := hl
  exact guarded_after h ts

theorem outcome?_told (s : System) (outcome : Outcome) (n : Nat) :
    (s.told outcome).outcome? n = s.outcome? n := by
  unfold told
  split <;> rfl

/-- A caller that is refused leaves nothing behind. -/
theorem runGuarded_refused {s : System} (h : s.pipeline.isRunning = true) :
    s.runGuarded = (s, .error .busy) := by
  simp [runGuarded, admit?, h]

theorem runWithin_refused {s : System} (h : s.pipeline.isRunning = true) (span : Nat) :
    s.runWithin span = (s, some (.error .busy)) := by
  simp [runWithin, admit?, h]

/-- A caller that is let in gets the outcome of the run that it asked for. -/
theorem runGuarded_idle {s : System} (hp : s.Paced) (h : s.pipeline.isRunning = false) :
    s.runGuarded.1.outcome? s.runs = some s.runGuarded.2 := by
  cases ht : s.admit? .here with
  | none => simp [admit?, h] at ht
  | some t =>
    have hnext : t.runs - 1 = s.runs ∧ t.Paced ∧ t.Within s.runs t.source.delay := by
      simp only [admit?, h, Bool.false_eq_true, if_false, Option.some.injEq] at ht
      subst ht
      exact ⟨rfl, hp, .inr ⟨_, rfl, rfl, Nat.le_refl _⟩⟩
    obtain ⟨hn, hpaced, hwithin⟩ := hnext
    have hend := outcome?_passFor hpaced hwithin (by omega : t.source.delay < t.source.delay + 2)
    simp only [runGuarded, ht, waitFor, hn]
    generalize passFor (fun v => (v.outcome? s.runs).isSome) none (t.source.delay + 2) t = u at *
    cases ho : u.outcome? s.runs with
    | none =>
      rw [ho] at hend
      cases hend
    | some outcome =>
      simp only [outcome?_told]
      exact ho

/-- A caller that is let in and does not wait for ever gets the outcome of a run, or none. -/
theorem runWithin_idle {s : System} (h : s.pipeline.isRunning = false) {span : Nat}
    {outcome : Outcome} (ho : (s.runWithin span).2 = some outcome) :
    ∃ t n, Leads s t ∧ t.outcome? n = some outcome := by
  cases ht : s.admit? .here with
  | none => simp [admit?, h] at ht
  | some t =>
    simp only [runWithin, ht] at ho
    split at ho
    · cases ho
    · split at ho
      · rename_i hend
        cases ho
        exact ⟨_, _, (Leads.letIn ht).trans (.passFor _ _ _ _), hend⟩
      · cases ho

/-- That the pipeline is busy is told to callers who are refused, and never as the end of a run. -/
theorem runGuarded_busy {s : System} (hg : s.core.Guarded) (hp : s.Paced) :
    s.runGuarded.2 = .error .busy ↔ s.pipeline.isRunning = true := by
  constructor
  · intro hbusy
    cases hrunning : s.pipeline.isRunning with
    | true => rfl
    | false =>
      have hend := runGuarded_idle hp hrunning
      rw [hbusy] at hend
      exact absurd hend ((leads_guarded hg (.runGuarded s)).neverBusy s.runs)
  · intro hrunning
    rw [runGuarded_refused hrunning]

theorem runWithin_busy {s : System} (hg : s.core.Guarded) (span : Nat) :
    (s.runWithin span).2 = some (.error .busy) ↔ s.pipeline.isRunning = true := by
  constructor
  · intro hbusy
    cases hrunning : s.pipeline.isRunning with
    | true => rfl
    | false =>
      obtain ⟨t, n, hl, hend⟩ := runWithin_idle hrunning hbusy
      exact absurd hend ((leads_guarded hg hl).neverBusy n)
  · intro hrunning
    rw [runWithin_refused hrunning]

/-- In every state that any turns lead to: one run at most is unfinished; a caller is refused just
if there is one, and then changes nothing; whoever is let in is told how a run ended; and as soon
as the last run has ended, in whatever way, the next caller is let in. -/
theorem guard (source : Source) (store : Store) (ts : List Turn) :
    let s := (start source store).after ts
    (∀ m n, s.Unfinished m → s.Unfinished n → m = n) ∧
    (∀ caller, s.admit? caller = none ↔ ∃ n, s.Unfinished n) ∧
    (s.pipeline.isRunning = true ↔ ∃ n, s.Unfinished n) ∧
    ((∃ n, s.Unfinished n) → (∀ caller, s.turn (.call caller) = s) ∧
      ∀ id, (s.turn (.move (.tick id))).core = s.core ∧
        (s.turn (.move (.tick id))).source = s.source) ∧
    (s.runGuarded.2 = .error .busy ↔ ∃ n, s.Unfinished n) ∧
    (∀ span, (s.runWithin span).2 = some (.error .busy) ↔ ∃ n, s.Unfinished n) ∧
    ((∃ n, s.Unfinished n) → s.runGuarded.1 = s ∧ ∀ span, (s.runWithin span).1 = s) ∧
    ((∀ n, ¬ s.Unfinished n) → s.runGuarded.1.outcome? s.runs = some s.runGuarded.2) ∧
    (∀ caller t, s.admit? caller = some t → t.Unfinished s.runs ∧ t.runs = s.runs + 1) ∧
    (∀ n, s.outcome? n ≠ some (.error .busy)) ∧
    (∀ n outcome, n + 1 = s.runs → s.outcome? n = some outcome →
      ∀ caller, (s.admit? caller).isSome = true) ∧
    (∃ ms : List Move, (∀ m ∈ ms, m.ofRun = true) ∧
      ∀ caller, ((s.after (ms.map .move)).admit? caller).isSome = true) := by
  intro s
  have h : s.core.Guarded := guarded_after (guarded_start source store) ts
  have hp : s.Paced := paced_after (paced_start source store) ts
  refine ⟨?_, ?_, isRunning_iff h, ?_, ?_, ?_, ?_, ?_, fun _ _ => unfinished_of_admit h,
    h.neverBusy, ?_, ?_⟩
  · intro m n hm hn
    obtain ⟨_, hm⟩ := (unfinished_iff h m).mp hm
    obtain ⟨_, hn⟩ := (unfinished_iff h n).mp hn
    rw [hm] at hn
    cases hn
    rfl
  · intro caller
    rw [admit?_eq_none, isRunning_iff h]
  · intro hn
    exact turn_refused ((isRunning_iff h).mpr hn)
  · rw [runGuarded_busy h hp, isRunning_iff h]
  · intro span
    rw [runWithin_busy h, isRunning_iff h]
  · intro hn
    have hrunning := (isRunning_iff h).mpr hn
    refine ⟨by rw [runGuarded_refused hrunning], fun span => ?_⟩
    rw [runWithin_refused hrunning]
  · intro hnone
    refine runGuarded_idle hp ?_
    cases hrunning : s.pipeline.isRunning with
    | false => rfl
    | true =>
      obtain ⟨n, hn⟩ := (isRunning_iff h).mp hrunning
      exact absurd hn (hnone n)
  · intro n outcome hn ho caller
    refine admit?_isSome (core_active_eq_none.mp ?_) caller
    cases hactive : s.core.active with
    | none => rfl
    | some held =>
      obtain ⟨m, rest⟩ := held
      have hm : m + 1 = s.runs := h.newest m rest hactive
      obtain rfl : m = n := by omega
      have hnone := ((unfinished_iff h m).mpr ⟨rest, hactive⟩).2
      rw [ho] at hnone
      cases hnone
  · obtain ⟨ms, hms, hidle⟩ := exists_moves_idle s
    exact ⟨ms, hms, admit?_isSome hidle⟩

end Segments.Sync.System
