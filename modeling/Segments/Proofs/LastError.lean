import Segments.Proofs.Admission

namespace Segments.Sync

def errorText : Outcome → Option String
  | .ok _ => none
  | .error f => some f.message

def diedOf : Outcome → Bool
  | .error (.aborted _) => true
  | _ => false

/-- The text of the error of the last run whose task did not die. -/
def lastShown (outcomes : List (Nat × Outcome)) : Option String :=
  (outcomes.find? fun o => !diedOf o.2).bind fun o => errorText o.2

/-- How a run can end. -/
def Possible (outcome : Outcome) : Prop :=
  (∃ report, outcome = .ok report) ∨ (∃ reason, outcome = .error (.fetch reason)) ∨
    ∃ reason, outcome = .error (.aborted reason)

/-- The status shows the last run whose task did not die. -/
structure Core.Shows (c : Core) : Prop where
  possible : ∀ o ∈ c.outcomes, Possible o.2
  shown : c.lastError = lastShown c.outcomes

namespace Core.Shows

variable {c d : Core}

/-- An outcome is shown unless the task of the run died. -/
theorem ended (h : c.Shows) (n : Nat) {outcome : Outcome} (hp : Possible outcome) :
    (c.ended n outcome).Shows where
  possible o ho := by
    rcases List.mem_cons.mp ho with rfl | ho
    · exact hp
    · exact h.possible o ho
  shown := by
    rcases hp with ⟨report, rfl⟩ | ⟨reason, rfl⟩ | ⟨reason, rfl⟩
    · rfl
    · rfl
    · exact h.shown

theorem step (h : c.Shows) {e : Option Entry} (hs : c.Step e d) : d.Shows := by
  cases hs with
  | completed _ report => exact h.ended _ (.inl ⟨report, rfl⟩)
  | failed _ reason => exact h.ended _ (.inr (.inl ⟨reason, rfl⟩))
  | died _ reason => exact h.ended _ (.inr (.inr ⟨reason, rfl⟩))
  | _ => exact ⟨h.possible, h.shown⟩

/-- The first words of a message tell the two kinds of failure apart. -/
theorem message_fetch_ne (reason other : String) :
    (Failure.fetch reason).message ≠ (Failure.aborted other).message := by
  intro h
  have hchars : ("Upstream fetch failed: " ++ reason).toList =
      ("Sync task aborted: " ++ other).toList := congrArg String.toList h
  simp at hchars

/-- What is shown is never the error of a task that died. -/
theorem lastError_ne (h : c.Shows) (reason : String) :
    c.lastError ≠ errorText (.error (.aborted reason)) := by
  rw [h.shown]
  unfold lastShown
  cases hfind : c.outcomes.find? fun o => !diedOf o.2 with
  | none => simp [errorText]
  | some o =>
    have halive := List.find?_some hfind
    rcases h.possible o (List.mem_of_find?_eq_some hfind) with ⟨r, ho⟩ | ⟨r, ho⟩ | ⟨r, ho⟩
    · simp [ho, errorText]
    · simp only [ho, errorText, Option.bind_some, ne_eq, Option.some.injEq]
      exact message_fetch_ne r reason
    · simp [ho, diedOf] at halive

end Core.Shows

namespace System

theorem shows_after {s : System} (h : s.core.Shows) (ts : List Turn) : (s.after ts).core.Shows := by
  induction ts generalizing s with
  | nil => exact h
  | cons t ts ih => exact ih (h.step (s.turn_step t))

/-- In every state that any turns lead to, the status shows the error of the last run whose task
did not die, or none if that succeeded. So it describes the run that ended last just if that run's
task did not die. -/
theorem lastError_describes (source : Source) (store : Store) (ts : List Turn) :
    let s := (start source store).after ts
    s.pipeline.lastError = lastShown s.outcomes ∧
    (∀ n outcome earlier, s.outcomes = (n, outcome) :: earlier →
      (s.pipeline.lastError = errorText outcome ↔
        ∀ reason, outcome ≠ .error (.aborted reason))) ∧
    (∀ o ∈ s.outcomes, Possible o.2) ∧
    ((∀ n, ¬ s.Unfinished n) → s.runGuarded.1.outcome? s.runs = some s.runGuarded.2) := by
  intro s
  have hstart : (start source store).core.Shows := {
    possible := fun o ho => by cases ho
    shown := rfl }
  have h : s.core.Shows := shows_after hstart ts
  refine ⟨h.shown, fun n outcome earlier hlast => ⟨?_, fun halive => ?_⟩, h.possible, ?_⟩
  · rintro hshown reason rfl
    exact h.lastError_ne reason hshown
  · have hshown : s.pipeline.lastError = lastShown s.outcomes := h.shown
    rw [hshown, hlast, lastShown, List.find?_cons_of_pos, Option.bind_some]
    cases hdied : diedOf outcome with
    | false => rfl
    | true =>
      unfold diedOf at hdied
      split at hdied
      · exact absurd rfl (halive _)
      · cases hdied
  · intro hidle
    have hg : s.core.Guarded := guarded_after (guarded_start source store) ts
    refine runGuarded_idle (paced_after (paced_start source store) ts) ?_
    cases hrunning : s.pipeline.isRunning with
    | false => rfl
    | true =>
      obtain ⟨n, hn⟩ := (isRunning_iff hg).mp hrunning
      exact absurd hn (hidle n)

/-- A run whose task dies: its caller is given an error, and the status shows none. -/
theorem lastError_crash :
    let run := (start ⟨.ok [], some "upstream panic", 0, 0⟩ .empty).runGuarded
    run.2 = .error (.aborted "upstream panic") ∧ run.1.outcomes = [(0, run.2)] ∧
      run.1.pipeline.lastError = none ∧
      run.1.pipeline.lastError ≠ errorText run.2 := by
  refine ⟨rfl, rfl, rfl, fun h => ?_⟩
  cases h

end System

end Segments.Sync
