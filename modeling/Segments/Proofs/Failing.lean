import Segments.Proofs.Accounting
import Segments.Proofs.Admission
import Segments.Proofs.Sessions

namespace Segments.Sync.System

/-- The storefront fails every fetch for this reason, no run has a list, and of the run of this number
the failure is known as soon as anything is. -/
structure Failing (s : System) (n : Nat) (reason : String) : Prop where
  result : s.source.result = .failed (.fetch reason)
  waits : ∀ run, s.pipeline.active = some run → run.phase.left? = none
  told : ∀ outcome, s.outcome? n = some outcome → outcome = .error (.fetch reason) ∧
    s.pipeline.lastError = some (Failure.fetch reason).message

namespace Failing

variable {s : System} {n : Nat} {reason : String}

theorem finish (h : s.Failing n reason) (run : Run) :
    (s.finish run (.error (.fetch reason))).Failing n reason := by
  have hcore := core_finish s run (.error (.fetch reason))
  have houtcomes : (s.finish run (.error (.fetch reason))).outcomes =
      (run.number, .error (.fetch reason)) :: s.outcomes := congrArg Core.outcomes hcore
  have hshown : (s.finish run (.error (.fetch reason))).pipeline.lastError =
      some (Failure.fetch reason).message := congrArg Core.lastError hcore
  refine ⟨by rw [source_finish]; exact h.result, fun other hother => ?_, fun outcome ho => ?_⟩
  · have hidle := finish_idle s run (.error (.fetch reason))
    rw [Pipeline.isRunning, hother] at hidle
    cases hidle
  · refine ⟨?_, hshown⟩
    rw [outcome?, houtcomes, List.lookup_cons] at ho
    split at ho
    · exact (Option.some.inj ho).symm
    · exact (h.told outcome ho).1

theorem answered (h : s.Failing n reason) (run : Run) : (s.answered run).Failing n reason := by
  have hnote : (s.note (.fetchFailed (.fetch reason))).Failing n reason :=
    ⟨h.result, h.waits, h.told⟩
  unfold System.answered
  rw [h.result]
  exact hnote.finish run

theorem fetch (h : s.Failing n reason) (run : Run) : (s.fetch run).Failing n reason := by
  unfold System.fetch
  simp only
  split
  · have hbegun : Failing { s.note .syncStarted with
        source := { s.source with fetches := s.source.fetches + 1 } } n reason :=
      ⟨h.result, h.waits, h.told⟩
    exact hbegun.answered _
  · exact ⟨h.result, fun other hother => by cases hother; rfl, h.told⟩

/-- A loop that asks for a run gets one that fails as well. -/
theorem ticked (h : s.Failing n reason) (loop : Loop) : (s.ticked loop).Failing n reason := by
  unfold System.ticked admit?
  cases s.pipeline.isRunning with
  | true => exact ⟨h.result, h.waits, h.told⟩
  | false => exact ⟨h.result, fun other hother => by cases hother; rfl, h.told⟩

theorem apply (h : s.Failing n reason) (m : Move) : (s.apply m).Failing n reason := by
  have htick : ∀ id, (s.apply (.tick id)).Failing n reason := by
    intro id
    simp only [System.apply]
    split
    · exact h.ticked _
    · exact h
  cases hrun : s.pipeline.active with
  | none =>
    cases m with
    | tick id => exact htick id
    | _ =>
      simp only [System.apply, hrun]
      exact h
  | some run =>
    have hwaits := h.waits run hrun
    cases hphase : run.phase with
    | storing fetched left tally =>
      rw [hphase] at hwaits
      cases hwaits
    | queued =>
      cases m with
      | tick id => exact htick id
      | begin =>
        simp only [System.apply, hrun, hphase]
        exact h.fetch run
      | _ =>
        simp only [System.apply, hrun, hphase]
        exact h
    | fetching due ticket =>
      cases m with
      | tick id => exact htick id
      | answer =>
        simp only [System.apply, hrun, hphase]
        exact h.answered run
      | _ =>
        simp only [System.apply, hrun, hphase]
        exact h

/-- Nothing that time brings can give the run a list. -/
theorem passFor (h : s.Failing n reason) (done : System → Bool) (limit : Option Nat) (fuel : Nat) :
    (passFor done limit fuel s).Failing n reason :=
  passFor_preserves (p := fun t => t.Failing n reason) (fun _ m _ ht => ht.apply m)
    (fun _ _ _ ht => ⟨ht.result, ht.waits, ht.told⟩) done limit fuel h

theorem said (h : s.Failing n reason) (outcome : Outcome) :
    (s.told outcome).Failing n reason := by
  unfold System.told
  split
  · exact ⟨h.result, h.waits, h.told⟩
  · exact h

/-- A run that has just been let in. -/
theorem letIn (hg : s.core.Guarded) (hresult : s.source.result = .failed (.fetch reason))
    {caller : Caller} {t : System} (ht : s.admit? caller = some t) :
    t.Failing s.runs reason := by
  obtain ⟨hnew, -⟩ := unfinished_of_admit hg ht
  unfold admit? at ht
  split at ht
  · cases ht
  · cases ht
    refine ⟨hresult, fun run hrun => by cases hrun; rfl, fun outcome ho => ?_⟩
    rw [hnew.2] at ho
    cases ho

end Failing

/-- A caller that is let in is told why the fetch failed, and the status shows it. -/
theorem runGuarded_failing {s : System} (hg : s.core.Guarded) (hp : s.Paced)
    (hidle : s.pipeline.isRunning = false) {reason : String}
    (hresult : s.source.result = .failed (.fetch reason)) :
    s.runGuarded.2 = .error (.fetch reason) ∧
      s.runGuarded.1.pipeline.lastError = some (Failure.fetch reason).message := by
  have hend := runGuarded_idle hp hidle
  suffices hfailing : s.runGuarded.1.Failing s.runs reason from hfailing.told _ hend
  cases ht : s.admit? .here with
  | none => simp [admit?, hidle] at ht
  | some t =>
    have hwaited := (Failing.letIn hg hresult ht).passFor
      (fun s => (s.outcome? (t.runs - 1)).isSome) none (t.source.delay + 2)
    simp only [runGuarded, ht, waitFor]
    generalize System.passFor _ none (t.source.delay + 2) t = u at hwaited
    cases u.outcome? (t.runs - 1) with
    | none => exact hwaited
    | some outcome => exact hwaited.said outcome

end Segments.Sync.System

namespace Segments.Http.Api

open Sync

/-- A request for a run, where none holds the guard, is answered as the caller of a run is. -/
theorem respond_sync {s : System} (hidle : s.pipeline.isRunning = false) (moments : Moments)
    (contentType : Option String) (body : Text.Bytes) :
    (respond moments true s ⟨"POST", "/sync".toList, contentType, body⟩).2 =
      ended moments s.runGuarded.2 := by
  have hresource : Resource.ofPath? "/sync".toList = some .sync := by decide
  cases ht : s.admit? .here with
  | none => simp [System.admit?, hidle] at ht
  | some t =>
    have hbegin : begin moments true s ⟨"POST", "/sync".toList, contentType, body⟩ =
        (t, .pending (t.runs - 1)) := by
      rw [begin_post rfl hresource rfl]
      simp only [serve, sync, Bool.not_true, Bool.false_eq_true, if_false, ht]
    simp only [respond, hbegin, finish, System.runGuarded, ht]
    cases t.waitFor (t.runs - 1) with
    | mk u outcome? =>
      cases outcome? with
      | none => rfl
      | some outcome => rfl

end Segments.Http.Api
