import Segments.Proofs.Settling

namespace Segments.Sync

/-- No turn takes an outcome back. -/
theorem Core.Step.isSome_lookup {c d : Core} {e : Option Entry} (hs : c.Step e d) {n : Nat}
    (h : (c.outcomes.lookup n).isSome = true) : (d.outcomes.lookup n).isSome = true := by
  have hended : ∀ m outcome, ((c.ended m outcome).outcomes.lookup n).isSome = true := by
    intro m outcome
    simp only [Core.ended, List.lookup_cons]
    cases n == m with
    | true => rfl
    | false => exact h
  cases hs with
  | completed => exact hended _ _
  | failed => exact hended _ _
  | died => exact hended _ _
  | _ => exact h

namespace System

theorem paced_start (source : Source) (store : Store) : (start source store).Paced := by
  intro l hl
  cases hl

theorem paced_turn {s : System} (hp : s.Paced) (t : Turn) : (s.turn t).Paced := by
  cases t with
  | call caller =>
    simp only [turn]
    cases ht : s.admit? caller with
    | none => exact hp
    | some t =>
      unfold admit? at ht
      split at ht
      · cases ht
      · cases ht
        exact hp
  | move m => exact paced_apply hp m
  | die reason =>
    simp only [turn]
    split
    · exact (Calm.finish _ _ _).paced hp
    · exact hp
  | startLoop id every =>
    intro l hl
    rcases List.mem_append.mp hl with hl | hl
    · exact hp l hl
    · cases List.mem_singleton.mp hl
      have hperiod : minPeriod ≤ periodOf every := Nat.le_max_right _ _
      exact Nat.lt_of_lt_of_le (by decide) hperiod
  | stopLoop id =>
    intro l hl
    exact hp l (List.mem_filter.mp hl).1
  | evaluate texts =>
    obtain ⟨log, h⟩ := s.evaluate_state texts
    rw [turn, h]
    exact hp
  | _ => exact hp

theorem paced_after {s : System} (hp : s.Paced) (ts : List Turn) : (s.after ts).Paced := by
  induction ts generalizing s with
  | nil => exact hp
  | cons t ts ih => exact ih (paced_turn hp t)

/-- A run has ended, or it will have its list within a span. -/
def Within (s : System) (n span : Nat) : Prop :=
  (s.outcome? n).isSome = true ∨
  ∃ run, s.pipeline.active = some run ∧ run.number = n ∧
    match run.phase with
    | .queued => s.source.delay ≤ span
    | .fetching due _ => due ≤ s.now + span
    | .storing _ _ _ => True

/-- A run that has its list waits for nothing. -/
theorem within_of_storing {s : System} {n : Nat} {left : List Json}
    (h : s.core.active = some (n, some left)) (span : Nat) : s.Within n span := by
  obtain ⟨run, fetched, tally, hrun, hn, hphase⟩ := storing_of_core h
  refine .inr ⟨run, hrun, hn, ?_⟩
  rw [hphase]
  trivial

theorem outcome?_finish (s : System) (run : Run) (outcome : Outcome) :
    ((s.finish run outcome).outcome? run.number).isSome = true := by
  have hcore : (s.finish run outcome).outcomes = (run.number, outcome) :: s.outcomes :=
    congrArg Core.outcomes (core_finish s run outcome)
  simp [outcome?, hcore]

theorem within_answered (s : System) (run : Run) (span : Nat) :
    (s.answered run).Within run.number span := by
  unfold answered
  split
  · exact .inr ⟨_, rfl, rfl, trivial⟩
  · exact .inl (outcome?_finish _ _ _)
  · exact .inl (outcome?_finish _ _ _)

/-- What a run makes ready does not put it off, nor does a loop that is refused. -/
theorem within_apply {s : System} {n span : Nat} (h : s.Within n span) (m : Move) :
    (s.apply m).Within n span := by
  rcases h with h | ⟨run, hrun, rfl, hphase⟩
  · exact .inl ((apply_step s m).isSome_lookup h)
  · have hsame : s.Within run.number span := .inr ⟨run, hrun, rfl, hphase⟩
    cases m with
    | tick id =>
      simp only [apply]
      split
      · rename_i loop _
        obtain ⟨hnow, hsource, -, ⟨-, hp⟩ | ⟨hidle, -⟩⟩ := ticked_spec s loop
        · refine .inr ⟨run, hp ▸ hrun, rfl, ?_⟩
          rw [hnow, hsource]
          exact hphase
        · simp [Pipeline.isRunning, hrun] at hidle
      · exact hsame
    | begin =>
      simp only [apply, hrun]
      split
      · rename_i hq
        rw [hq] at hphase
        unfold fetch
        simp only
        split
        · exact within_answered _ { run with startedAt := _ } span
        · exact .inr ⟨_, rfl, rfl, Nat.add_le_add_left hphase s.now⟩
      · exact hsame
    | answer =>
      simp only [apply, hrun]
      split
      · exact within_answered s run span
      · exact hsame
    | store =>
      simp only [apply, hrun]
      split
      · exact within_of_storing (active_storeNext _ _ _ _ _ _) span
      · exact hsame
    | complete =>
      simp only [apply, hrun]
      split
      · exact .inl (outcome?_finish _ _ _)
      · exact hsame

theorem within_settleFor {s : System} {n span : Nat} (h : s.Within n span) (fuel : Nat) :
    (settleFor fuel s).Within n span :=
  settleFor_preserves (p := fun t => t.Within n span) (fun _ m _ h => within_apply h m) fuel h

/-- Where nothing is ready but the run has not ended, the next moment is nearer to the end of its
fetch. -/
theorem within_clock {s : System} {n span : Nat} (h : s.Within n span) (hrest : s.ready? = none)
    (hnone : s.outcome? n = none) : ∃ e nearer, earliest s.events = some e ∧ nearer < span ∧
      Within { s with now := max s.now e.due } n nearer := by
  obtain ⟨hphases, hevents⟩ := ready?_none hrest
  rcases h with hend | ⟨run, hrun, hn, hphase⟩
  · rw [hnone] at hend
    cases hend
  · obtain ⟨due, ticket, hfetching⟩ := hphases run hrun
    rw [hfetching] at hphase
    simp only at hphase
    have hmem := fetching_mem_events hrun hfetching
    cases he : earliest s.events with
    | none =>
      rw [earliest_eq_none he] at hmem
      cases hmem
    | some e =>
      obtain ⟨hein, hleast⟩ := earliest_spec he
      have hlater := hevents e hein
      have hfirst : e.due ≤ due := hleast _ hmem
      refine ⟨e, span - (e.due - s.now), rfl, by omega, .inr ⟨run, hrun, hn, ?_⟩⟩
      rw [hfetching]
      show due ≤ max s.now e.due + (span - (e.due - s.now))
      omega

/-- Waiting moment by moment comes to the end of a run that is not further off than there are
moments to wait for. -/
theorem outcome?_passFor {s : System} {n span fuel : Nat} (hp : s.Paced) (h : s.Within n span)
    (hfuel : span < fuel) :
    ((passFor (fun s => (s.outcome? n).isSome) none fuel s).outcome? n).isSome = true := by
  induction fuel generalizing s span with
  | zero => cases hfuel
  | succ fuel ih =>
    have hpaced : s.settle.Paced := paced_settleFor hp _
    have hwithin : s.settle.Within n span := within_settleFor h _
    have hrest := settle_rest hp
    unfold passFor
    simp only
    generalize s.settle = t at hpaced hwithin hrest ⊢
    split
    · assumption
    · rename_i hdone
      obtain ⟨e, nearer, he, hnearer, hnext⟩ :=
        within_clock hwithin hrest (Option.not_isSome_iff_eq_none.mp hdone)
      rw [he]
      exact ih hpaced hnext (by omega)

end System

end Segments.Sync
