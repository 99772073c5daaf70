import Segments.Proofs.Turns

namespace Segments.Sync

namespace Core

/-- Outcomes are those of the runs that were let in, but for the one that holds the guard. -/
structure Guarded (c : Core) : Prop where
  newest : ∀ n rest, c.active = some (n, rest) → n + 1 = c.runs
  recorded : ∀ n, (c.outcomes.lookup n).isSome = true ↔
    n < c.runs ∧ ∀ rest, c.active ≠ some (n, rest)
  neverBusy : ∀ n, c.outcomes.lookup n ≠ some (.error .busy)

namespace Guarded

/-- The run that is let in is newer than all that have an outcome. -/
theorem letIn {c : Core} (h : c.Guarded) (hidle : c.active = none) :
    Guarded { c with active := some (c.runs, none), runs := c.runs + 1 } where
  newest n rest hactive := by
    simp only [Option.some.injEq, Prod.mk.injEq] at hactive
    rw [hactive.1]
  recorded n := by
    simp only [h.recorded, hidle, ne_eq, reduceCtorEq, not_false_eq_true, implies_true, and_true,
      Option.some.injEq, Prod.mk.injEq, not_and]
    constructor
    · intro hn
      exact ⟨Nat.lt_succ_of_lt hn, fun _ he => absurd he (Nat.ne_of_gt hn)⟩
    · rintro ⟨hn, hne⟩
      rcases Nat.lt_succ_iff_lt_or_eq.mp hn with hn | rfl
      · exact hn
      · exact absurd rfl (hne none rfl)
  neverBusy := h.neverBusy

/-- A run that goes on holds the guard as before. -/
theorem goOn {c : Core} (h : c.Guarded) {n : Nat} {rest : Option (List Json)}
    (hactive : c.active = some (n, rest)) (next : Option (List Json)) (store : Store) :
    Guarded { c with active := some (n, next), store } where
  newest m rest' hm := by
    simp only [Option.some.injEq, Prod.mk.injEq] at hm
    exact hm.1 ▸ h.newest n rest hactive
  recorded m := by
    simp only [h.recorded, hactive, ne_eq, Option.some.injEq, Prod.mk.injEq, not_and]
    constructor
    · rintro ⟨hm, hne⟩
      exact ⟨hm, fun _ he => absurd rfl (hne rest he)⟩
    · rintro ⟨hm, hne⟩
      exact ⟨hm, fun _ he => absurd rfl (hne next he)⟩
  neverBusy := h.neverBusy

/-- The run that gives up the guard is the one that gets the outcome, and it had none. -/
theorem ended {c : Core} (h : c.Guarded) {n : Nat} {rest : Option (List Json)}
    (hactive : c.active = some (n, rest)) {outcome : Outcome} (hbusy : outcome ≠ .error .busy) :
    (c.ended n outcome).Guarded where
  newest m rest' hm := by cases hm
  recorded m := by
    have hn := h.newest n rest hactive
    have hm := h.recorded m
    simp only [hactive, ne_eq, Option.some.injEq, Prod.mk.injEq, not_and] at hm
    simp only [Core.ended, List.lookup_cons, ne_eq, reduceCtorEq, not_false_eq_true, implies_true,
      and_true]
    cases he : m == n with
    | true =>
      simp only [Option.isSome_some, true_iff]
      have he := eq_of_beq he
      omega
    | false =>
      have hne : n ≠ m := fun heq => by simp [heq] at he
      simp [hm, hne]
  neverBusy m := by
    simp only [Core.ended, List.lookup_cons]
    cases m == n with
    | true => simpa using hbusy
    | false => exact h.neverBusy m

/-- Of all that a turn can do, only letting in and ending have to do with outcomes. -/
theorem step {c d : Core} {e : Option Entry} (h : c.Guarded) (hs : c.Step e d) : d.Guarded := by
  cases hs with
  | still => exact h
  | admitted hidle => exact h.letIn hidle
  | listed hactive list => exact h.goOn hactive (some list) c.store
  | took hactive stored => exact h.goOn hactive _ _
  | completed hactive report => exact h.ended hactive (by simp)
  | failed hactive reason => exact h.ended hactive (by simp)
  | died hactive reason => exact h.ended hactive (by simp)

/-- The run that holds the guard is the one that has not ended. -/
theorem active_iff {c : Core} (h : c.Guarded) (n : Nat) :
    (∃ rest, c.active = some (n, rest)) ↔ n < c.runs ∧ c.outcomes.lookup n = none := by
  have hrecorded := h.recorded n
  constructor
  · rintro ⟨rest, hactive⟩
    have hn := h.newest n rest hactive
    refine ⟨by omega, ?_⟩
    cases ho : c.outcomes.lookup n with
    | none => rfl
    | some outcome =>
      rw [ho] at hrecorded
      exact absurd hactive ((hrecorded.mp rfl).2 rest)
  · rintro ⟨hn, ho⟩
    simp only [ho, Option.isSome_none, Bool.false_eq_true, false_iff, not_and, ne_eq,
      Classical.not_forall, Classical.not_not] at hrecorded
    exact hrecorded hn

theorem lookup_active {c : Core} (h : c.Guarded) {n : Nat} {rest : Option (List Json)}
    (hactive : c.active = some (n, rest)) : c.outcomes.lookup n = none :=
  ((h.active_iff n).mp ⟨rest, hactive⟩).2

theorem ne_of_ended {c : Core} (h : c.Guarded) {m n : Nat} {rest : Option (List Json)}
    (hactive : c.active = some (n, rest)) {outcome : Outcome}
    (hm : c.outcomes.lookup m = some outcome) : m ≠ n := by
  rintro rfl
  rw [h.lookup_active hactive] at hm
  cases hm

end Guarded

end Core

namespace System

theorem guarded_start (source : Source) (store : Store) : (start source store).core.Guarded where
  newest n rest h := by cases h
  recorded n := by simp [start, core]
  neverBusy n := by simp [start, core]

theorem guarded_after {s : System} (h : s.core.Guarded) (ts : List Turn) :
    (s.after ts).core.Guarded := by
  induction ts generalizing s with
  | nil => exact h
  | cons t ts ih => exact ih (h.step (s.turn_step t))

/-- A run of this number was let in, and has neither finished nor died. -/
def Unfinished (s : System) (n : Nat) : Prop :=
  n < s.runs ∧ s.outcome? n = none

/-- The one run that can be unfinished is the one that holds the guard. -/
theorem unfinished_iff {s : System} (h : s.core.Guarded) (n : Nat) :
    s.Unfinished n ↔ ∃ rest, s.core.active = some (n, rest) :=
  (h.active_iff n).symm

theorem isRunning_iff {s : System} (h : s.core.Guarded) :
    s.pipeline.isRunning = true ↔ ∃ n, s.Unfinished n := by
  simp only [unfinished_iff h]
  cases hrun : s.pipeline.active with
  | none => simp [core, Pipeline.isRunning, hrun]
  | some run => simp [core, Pipeline.isRunning, hrun]

/-- A loop that is refused a run asks again at its next tick; nothing else is another. -/
theorem ticked_refused {s : System} (h : s.pipeline.isRunning = true) (loop : Loop) :
    (s.ticked loop).core = s.core ∧ (s.ticked loop).source = s.source := by
  have hrefused : s.admit? (.loop loop.id) = none := admit?_eq_none.mpr h
  unfold ticked
  simp only [hrefused]
  exact ⟨rfl, rfl⟩

/-- Whoever is refused changes nothing that a run can see. -/
theorem turn_refused {s : System} (h : s.pipeline.isRunning = true) :
    (∀ caller, s.turn (.call caller) = s) ∧
    ∀ id, (s.turn (.move (.tick id))).core = s.core ∧
      (s.turn (.move (.tick id))).source = s.source := by
  constructor
  · intro caller
    simp only [turn, admit?_eq_none.mpr h, Option.getD_none]
  · intro id
    simp only [turn, apply]
    split
    · exact ticked_refused h _
    · exact ⟨rfl, rfl⟩

def Move.ofRun : Move → Bool
  | .tick _ => false
  | _ => true

theorem storing_of_core {s : System} {n : Nat} {left : List Json}
    (h : s.core.active = some (n, some left)) :
    ∃ run fetched tally, s.pipeline.active = some run ∧ run.number = n ∧
      run.phase = .storing fetched left tally := by
  cases hrun : s.pipeline.active with
  | none => simp [core, hrun] at h
  | some run =>
    rw [core_active_of_some hrun] at h
    simp only [Option.some.injEq, Prod.mk.injEq] at h
    obtain ⟨hn, hleft⟩ := h
    cases hphase : run.phase with
    | storing fetched rest tally =>
      rw [hphase] at hleft
      cases hleft
      exact ⟨run, fetched, tally, rfl, hn, hphase⟩
    | _ =>
      rw [hphase] at hleft
      cases hleft

theorem active_storeNext (s : System) (run : Run) (fetched : Nat) (raw : Json)
    (left : List Json) (tally : Tally) :
    (s.storeNext run fetched raw left tally).core.active = some (run.number, some left) := by
  unfold storeNext
  simp only
  split <;> rfl

/-- A run that has its list takes the products one by one and ends. -/
theorem idle_of_storing {s : System} {n : Nat} {left : List Json}
    (h : s.core.active = some (n, some left)) :
    ∃ ms : List Move, (∀ m ∈ ms, m.ofRun = true) ∧
      (s.after (ms.map .move)).pipeline.isRunning = false := by
  induction left generalizing s with
  | nil =>
    obtain ⟨run, fetched, tally, hrun, -, hphase⟩ := storing_of_core h
    refine ⟨[.complete], by simp [Move.ofRun], ?_⟩
    have happly : s.after [.move .complete] = s.completed run fetched tally := by
      simp [after, turn, apply, hrun, hphase]
    rw [List.map_singleton, happly, ← core_active_eq_none]
    simp [completed, core_finish, Core.ended]
  | cons raw left ih =>
    obtain ⟨run, fetched, tally, hrun, hn, hphase⟩ := storing_of_core h
    have happly : s.turn (.move .store) = s.storeNext run fetched raw left tally := by
      simp [turn, apply, hrun, hphase]
    have hnext : (s.turn (.move .store)).core.active = some (run.number, some left) := by
      rw [happly, active_storeNext]
    obtain ⟨ms, hms, hidle⟩ := ih (hn ▸ hnext)
    refine ⟨.store :: ms, ?_, hidle⟩
    rw [List.forall_mem_cons]
    exact ⟨rfl, hms⟩

theorem idle_of_answered (s : System) (run : Run) :
    ∃ ms : List Move, (∀ m ∈ ms, m.ofRun = true) ∧
      ((s.answered run).after (ms.map .move)).pipeline.isRunning = false := by
  cases hr : s.source.result with
  | products list =>
    have h : (s.answered run).core.active = some (run.number, some list) := by
      simp only [answered, hr]
      rfl
    exact idle_of_storing h
  | failed f =>
    refine ⟨[], by simp, core_active_eq_none.mp ?_⟩
    simp [after, answered, hr, core_finish, Core.ended]
  | crashed reason =>
    refine ⟨[], by simp, core_active_eq_none.mp ?_⟩
    simp [after, answered, hr, core_finish, Core.ended]

/-- A run can get to its end by moves of its own. -/
theorem idle_of_fetching {s : System} {run : Run} {due ticket : Nat}
    (hrun : s.pipeline.active = some run) (hphase : run.phase = .fetching due ticket) :
    ∃ ms : List Move, (∀ m ∈ ms, m.ofRun = true) ∧
      (s.after (ms.map .move)).pipeline.isRunning = false := by
  obtain ⟨ms, hms, hidle⟩ := idle_of_answered s run
  have happly : s.turn (.move .answer) = s.answered run := by
    simp [turn, apply, hrun, hphase]
  refine ⟨.answer :: ms, List.forall_mem_cons.mpr ⟨rfl, hms⟩, ?_⟩
  rw [← happly] at hidle
  exact hidle

/-- Whatever a run is at, and whether anybody waits for it, by its own moves it comes to an end. -/
theorem exists_moves_idle (s : System) :
    ∃ ms : List Move, (∀ m ∈ ms, m.ofRun = true) ∧
      (s.after (ms.map .move)).pipeline.isRunning = false := by
  cases hrun : s.pipeline.active with
  | none => exact ⟨[], by simp, by simp [after, Pipeline.isRunning, hrun]⟩
  | some run =>
    cases hphase : run.phase with
    | queued =>
      have happly : s.turn (.move .begin) = s.fetch run := by simp [turn, apply, hrun, hphase]
      have hend : ∃ ms : List Move, (∀ m ∈ ms, m.ofRun = true) ∧
          ((s.fetch run).after (ms.map .move)).pipeline.isRunning = false := by
        unfold fetch
        simp only
        split
        · exact idle_of_answered _ _
        · exact idle_of_fetching rfl rfl
      obtain ⟨ms, hms, hidle⟩ := hend
      refine ⟨.begin :: ms, List.forall_mem_cons.mpr ⟨rfl, hms⟩, ?_⟩
      rw [← happly] at hidle
      exact hidle
    | fetching due ticket => exact idle_of_fetching hrun hphase
    | storing fetched left tally =>
      have hactive : s.core.active = some (run.number, some left) := by
        rw [core_active_of_some hrun, hphase]
        rfl
      exact idle_of_storing hactive

theorem admit?_isSome {s : System} (h : s.pipeline.isRunning = false) (caller : Caller) :
    (s.admit? caller).isSome = true := by
  simp [admit?, h]

theorem unfinished_of_admit {s t : System} {caller : Caller} (h : s.core.Guarded)
    (ht : s.admit? caller = some t) : t.Unfinished s.runs ∧ t.runs = s.runs + 1 := by
  obtain ⟨hidle, hcore⟩ := core_admit ht
  have hguarded : t.core.Guarded := hcore ▸ h.letIn hidle
  refine ⟨(unfinished_iff hguarded _).mpr ⟨none, ?_⟩, ?_⟩
  · rw [hcore]
  · exact congrArg Core.runs hcore

end System

end Segments.Sync
