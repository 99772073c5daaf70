import Segments.Proofs.Recording

namespace Segments.Sync

def reportAfter (shown : Option Report) : Outcome → Option Report
  | .ok report => some report
  | .error _ => shown

def reportOf : List (Nat × Outcome) → Option Report
  | [] => none
  | o :: earlier => reportAfter (reportOf earlier) o.2

/-- The report of the succeeded run with the highest number; none if no run succeeded. -/
def Newest (outcomes : List (Nat × Outcome)) : Option Report → Prop
  | none => ∀ n report, outcomes.lookup n ≠ some (.ok report)
  | some report => ∃ n, outcomes.lookup n = some (.ok report) ∧
      ∀ m other, outcomes.lookup m = some (.ok other) → m ≤ n

theorem lookup_lt {outcomes : List (Nat × Outcome)} {n : Nat}
    (h : ∀ o ∈ outcomes, o.1 < n) {m : Nat} {outcome : Outcome}
    (hm : outcomes.lookup m = some outcome) : m < n := by
  obtain ⟨before, later, rfl, -⟩ := List.lookup_eq_some_iff.mp hm
  exact h (m, outcome) (by simp)

/-- The outcomes come newest first, so that the first success is the newest. -/
theorem newest_reportOf {outcomes : List (Nat × Outcome)}
    (h : outcomes.Pairwise fun newer older => older.1 < newer.1) :
    Newest outcomes (reportOf outcomes) := by
  induction outcomes with
  | nil => exact fun n report hn => by cases hn
  | cons o earlier ih =>
    obtain ⟨n, outcome⟩ := o
    obtain ⟨hfirst, hearlier⟩ := List.pairwise_cons.mp h
    have hbefore : ∀ m, m < n → ((n, outcome) :: earlier).lookup m = earlier.lookup m := by
      intro m hm
      rw [List.lookup_cons, beq_eq_false_iff_ne.mpr (Nat.ne_of_lt hm)]
    have hat : ((n, outcome) :: earlier).lookup n = some outcome := List.lookup_cons_self
    have hle : ∀ m other, ((n, outcome) :: earlier).lookup m = some other → m ≤ n := by
      intro m other hm
      rw [List.lookup_cons] at hm
      split at hm
      · rename_i heq
        exact Nat.le_of_eq (eq_of_beq heq)
      · exact Nat.le_of_lt (lookup_lt hfirst hm)
    cases outcome with
    | ok report => exact ⟨n, hat, fun m other hm => hle m _ hm⟩
    | error f =>
      have hold : ∀ m report, ((n, .error f) :: earlier).lookup m = some (.ok report) →
          earlier.lookup m = some (.ok report) := by
        intro m report hm
        rcases Nat.lt_or_eq_of_le (hle m _ hm) with hlt | rfl
        · rwa [hbefore m hlt] at hm
        · rw [hat] at hm
          cases hm
      have ih := ih hearlier
      have hsame : reportOf ((n, .error f) :: earlier) = reportOf earlier := rfl
      rw [hsame]
      cases hreport : reportOf earlier with
      | none =>
        rw [hreport] at ih
        exact fun m report hm => ih m report (hold m report hm)
      | some report =>
        rw [hreport] at ih
        obtain ⟨m, hm, hlast⟩ := ih
        refine ⟨m, ?_, fun k other hk => hlast k other (hold k other hk)⟩
        rw [hbefore m (lookup_lt hfirst hm)]
        exact hm

namespace Core

def endedRuns (c : Core) : Nat :=
  match c.active with
  | some (n, _) => n
  | none => c.runs

/-- Runs end in the order of their numbers, and the status shows what they leave. -/
structure Reports (c : Core) : Prop where
  inOrder : c.outcomes.map Prod.fst = (List.range c.endedRuns).reverse
  shown : c.lastReport = reportOf c.outcomes

/-- What can happen to runs, with others that write to the store. -/
inductive Change : Core → Core → Prop
  | step {c d : Core} {e : Option Entry} (h : c.Step e d) : Change c d
  | recorded {c : Core} {n : Nat} {rest : Option (List Json)} (h : c.active = some (n, rest))
      {outcome : Outcome} (hp : Possible outcome) : Change c (c.ended n outcome)
  | stored (c : Core) (store : Store) : Change c { c with store }

theorem lastReport_ended (c : Core) (n : Nat) (outcome : Outcome) :
    (c.ended n outcome).lastReport = reportAfter c.lastReport outcome := by
  cases outcome with
  | ok report => rfl
  | error f => cases f <;> rfl

/-- The run that ends is newer than all that ended before it. -/
theorem Reports.ended {c : Core} (h : c.Reports) (hg : c.Guarded) {n : Nat}
    {rest : Option (List Json)} (hactive : c.active = some (n, rest)) (outcome : Outcome) :
    (c.ended n outcome).Reports where
  inOrder := by
    have hn := hg.newest n rest hactive
    have hbefore := h.inOrder
    simp only [endedRuns, hactive] at hbefore
    simp only [Core.ended, endedRuns, List.map_cons, hbefore, ← hn, List.range_succ,
      List.reverse_append, List.reverse_singleton, List.singleton_append]
  shown := by
    rw [lastReport_ended, h.shown]
    rfl

theorem Reports.step {c d : Core} (h : c.Reports) (hg : c.Guarded) {e : Option Entry}
    (hs : c.Step e d) : d.Reports := by
  have hsame := h.inOrder
  cases hs with
  | still => exact h
  | admitted hidle =>
    simp only [endedRuns, hidle] at hsame
    exact ⟨hsame, h.shown⟩
  | listed hactive list =>
    simp only [endedRuns, hactive] at hsame
    exact ⟨hsame, h.shown⟩
  | took hactive stored =>
    simp only [endedRuns, hactive] at hsame
    exact ⟨hsame, h.shown⟩
  | completed hactive report => exact h.ended hg hactive _
  | failed hactive reason => exact h.ended hg hactive _
  | died hactive reason => exact h.ended hg hactive _

namespace Change

variable {c d : Core}

theorem guarded (h : Change c d) (hg : c.Guarded) : d.Guarded := by
  cases h with
  | step hs => exact hg.step hs
  | recorded hactive hp =>
    refine hg.ended hactive fun hbusy => ?_
    rcases hp with ⟨report, rfl⟩ | ⟨reason, rfl⟩ | ⟨reason, rfl⟩ <;> cases hbusy
  | stored store => exact ⟨hg.newest, hg.recorded, hg.neverBusy⟩

theorem reports (h : Change c d) (hg : c.Guarded) (hr : c.Reports) : d.Reports := by
  cases h with
  | step hs => exact hr.step hg hs
  | recorded hactive hp => exact hr.ended hg hactive _
  | stored store => exact ⟨hr.inOrder, hr.shown⟩

/-- The report that is shown is another only when a run has ended, and then it is that run's. -/
theorem shown (h : Change c d) : (d.outcomes = c.outcomes ∧ d.lastReport = c.lastReport) ∨
    ∃ n outcome, d.outcomes = (n, outcome) :: c.outcomes ∧
      d.lastReport = reportAfter c.lastReport outcome := by
  cases h with
  | step hs =>
    cases hs with
    | completed hactive report => exact .inr ⟨_, _, rfl, lastReport_ended _ _ _⟩
    | failed hactive reason => exact .inr ⟨_, _, rfl, lastReport_ended _ _ _⟩
    | died hactive reason => exact .inr ⟨_, _, rfl, lastReport_ended _ _ _⟩
    | _ => exact .inl ⟨rfl, rfl⟩
  | recorded hactive hp => exact .inr ⟨_, _, rfl, lastReport_ended _ _ _⟩
  | stored store => exact .inl ⟨rfl, rfl⟩

end Change

end Core

namespace System

/-- What is no part of a run's work leaves the runs as they are. -/
theorem core_turn_other {s : System} (h : s.pipeline.isRunning = true) {t : Turn}
    (hrun : t.ofRun = false) (hkills : t.kills = false) : (s.turn t).core = s.core := by
  cases t with
  | call caller => rw [(turn_refused h).1]
  | move m =>
    cases m with
    | tick id => exact ((turn_refused h).2 id).1
    | _ => cases hrun
  | leave => exact core_leave s
  | die reason => cases hkills
  | evaluate texts => exact core_evaluate s texts
  | _ => rfl

/-- Nobody takes the guard from a run that goes on. -/
theorem isRunning_turn_other {s : System} (h : s.pipeline.isRunning = true) {t : Turn}
    (hrun : t.ofRun = false) (hkills : t.kills = false) :
    (s.turn t).pipeline.isRunning = true := by
  rw [← Bool.not_eq_false, ← core_active_eq_none, core_turn_other h hrun hkills,
    core_active_eq_none, h]
  exact Bool.noConfusion

end System

namespace Scene

/-- A run without the guard changes nothing but the store and what is told. -/
theorem goOn_spec (w : Scene) (place : Nat) (refusal : Catalog.Record → Option Failure) (a : Aside) :
    (w.goOn place refusal a).ending = w.ending ∧
      ∃ store log, (w.goOn place refusal a).system = { w.system with store, log } := by
  cases a with
  | fetching startedAt =>
    simp only [goOn]
    split <;> exact ⟨rfl, _, _, rfl⟩
  | storing startedAt fetched left tally =>
    cases left with
    | nil => exact ⟨rfl, _, _, rfl⟩
    | cons raw left =>
      refine ⟨rfl, ?_⟩
      simp only [goOn]
      split <;> exact ⟨_, _, rfl⟩

/-- What holds in every scene. An outcome that waits is that of the run that holds the guard. -/
structure Sound (w : Scene) : Prop where
  guarded : w.system.core.Guarded
  reports : w.system.core.Reports
  possible : ∀ outcome, w.ending = some outcome → Possible outcome
  held : w.ending.isSome = true → w.system.pipeline.isRunning = true
  paced : w.system.Paced

theorem sound_start (source : Source) (store : Store) : (start source store).Sound where
  guarded := System.guarded_start source store
  reports := ⟨rfl, rfl⟩
  possible outcome h := by cases h
  held h := by cases h
  paced := System.paced_start source store

namespace Sound

variable {w : Scene}

theorem change (h : w.Sound) (e : Happening) :
    Core.Change w.system.core (w.happen e).system.core := by
  have hstill : Core.Change w.system.core w.system.core := .step (.still _)
  cases e with
  | turn t =>
    simp only [happen]
    split
    · exact hstill
    · exact .step (w.system.turn_step t)
  | close =>
    simp only [happen]
    split
    · split
      · rename_i hclosing
        obtain ⟨-, source, log, rfl⟩ := System.closing?_spec hclosing
        exact hstill
      · exact hstill
    · exact hstill
  | record =>
    simp only [happen]
    split
    · rename_i outcome run hending hrun
      rw [System.core_finish]
      exact .recorded (System.core_active_of_some hrun) (h.possible outcome hending)
    · exact hstill
  | beginAside => exact hstill
  | aside place refusal =>
    simp only [happen]
    split
    · rename_i a _
      obtain ⟨-, store, log, hsystem⟩ := w.goOn_spec place refusal a
      rw [hsystem]
      exact .stored _ store
    · exact hstill
  | dropAside place => exact hstill

theorem happen (h : w.Sound) (e : Happening) : (w.happen e).Sound := by
  have hguarded := (h.change e).guarded h.guarded
  have hreports := (h.change e).reports h.guarded h.reports
  suffices hrest : (∀ outcome, (w.happen e).ending = some outcome → Possible outcome) ∧
      ((w.happen e).ending.isSome = true → (w.happen e).system.pipeline.isRunning = true) ∧
      (w.happen e).system.Paced from ⟨hguarded, hreports, hrest.1, hrest.2.1, hrest.2.2⟩
  cases e with
  | turn t =>
    simp only [Scene.happen]
    split
    · exact ⟨h.possible, h.held, h.paced⟩
    · rename_i hother
      have hpaced := System.paced_turn h.paced t
      cases hkills : t.kills with
      | true =>
        simp only [if_true]
        exact ⟨fun outcome ho => (by cases ho), fun ho => (by cases ho), hpaced⟩
      | false =>
        simp only [Bool.false_eq_true, if_false]
        refine ⟨h.possible, fun ho => ?_, hpaced⟩
        have hrun : t.ofRun = false := by simpa [ho] using hother
        exact System.isRunning_turn_other (h.held ho) hrun hkills
  | close =>
    simp only [Scene.happen]
    split
    · rename_i run hending hrun
      split
      · rename_i hclosing
        obtain ⟨hpossible, source, log, rfl⟩ := System.closing?_spec hclosing
        refine ⟨fun outcome ho => ?_, fun _ => ?_, h.paced⟩
        · cases ho
          exact hpossible
        · simp [Pipeline.isRunning, hrun]
      · exact ⟨h.possible, h.held, h.paced⟩
    · exact ⟨h.possible, h.held, h.paced⟩
  | record =>
    simp only [Scene.happen]
    split
    · exact ⟨fun outcome ho => (by cases ho), fun ho => (by cases ho),
        (System.Calm.finish _ _ _).paced h.paced⟩
    · exact ⟨h.possible, h.held, h.paced⟩
  | beginAside => exact ⟨h.possible, h.held, h.paced⟩
  | aside place refusal =>
    simp only [Scene.happen]
    split
    · rename_i a _
      obtain ⟨hending, store, log, hsystem⟩ := w.goOn_spec place refusal a
      rw [hending, hsystem]
      exact ⟨h.possible, h.held, h.paced⟩
    · exact ⟨h.possible, h.held, h.paced⟩
  | dropAside place => exact ⟨h.possible, h.held, h.paced⟩

theorem after (h : w.Sound) (hs : List Happening) : (w.after hs).Sound := by
  induction hs generalizing w with
  | nil => exact h
  | cons e hs ih => exact ih (h.happen e)

theorem newest (h : w.Sound) :
    w.system.outcomes.Pairwise fun newer older => older.1 < newer.1 := by
  have hnumbers : (w.system.outcomes.map Prod.fst).Pairwise fun newer older => older < newer := by
    have horder : w.system.outcomes.map Prod.fst = (List.range w.system.core.endedRuns).reverse :=
      h.reports.inOrder
    rw [horder, List.pairwise_reverse]
    exact List.pairwise_lt_range
  exact List.pairwise_map.mp hnumbers

theorem lastReport_newest (h : w.Sound) : Newest w.system.outcomes w.system.pipeline.lastReport := by
  have hshown : w.system.pipeline.lastReport = reportOf w.system.outcomes := h.reports.shown
  rw [hshown]
  exact newest_reportOf h.newest

/-- Where no run holds the guard no outcome waits. -/
theorem ending_idle (h : w.Sound) (hidle : w.system.pipeline.isRunning = false) :
    w.ending = none := by
  cases hending : w.ending with
  | none => rfl
  | some outcome =>
    have hrunning := h.held (by rw [hending]; rfl)
    rw [hidle] at hrunning
    cases hrunning

/-- Where no run holds the guard every run that was let in has been recorded. -/
theorem recorded_idle (h : w.Sound) (hidle : w.system.pipeline.isRunning = false) {n : Nat}
    (hn : n < w.system.runs) : (w.system.outcome? n).isSome = true := by
  cases ho : w.system.outcome? n with
  | some outcome => rfl
  | none =>
    have hrunning := (System.isRunning_iff h.guarded).mpr ⟨n, hn, ho⟩
    rw [hidle] at hrunning
    cases hrunning

end Sound

/-- A run succeeded, whether or not that is recorded. -/
def Succeeded (w : Scene) (n : Nat) (report : Report) : Prop :=
  w.system.outcome? n = some (.ok report) ∨
    w.ending = some (.ok report) ∧ ∃ run, w.system.pipeline.active = some run ∧ run.number = n

/-- Where no outcome waits to be recorded, a run that succeeded is one that was recorded so. -/
theorem succeeded_iff {w : Scene} (hending : w.ending = none) {n : Nat} {report : Report} :
    w.Succeeded n report ↔ w.system.outcome? n = some (.ok report) := by
  simp [Succeeded, hending]

/-- Where no run holds the guard the report that is shown is that of the last one that succeeded. -/
theorem Sound.latest_idle {w : Scene} (h : w.Sound)
    (hidle : w.system.pipeline.isRunning = false) {n : Nat} {report : Report}
    (hn : w.Succeeded n report) :
    ∃ m latest, n ≤ m ∧ w.Succeeded m latest ∧ w.system.pipeline.lastReport = some latest ∧
      ∀ k other, w.Succeeded k other → k ≤ m := by
  have hnewest := h.lastReport_newest
  simp only [succeeded_iff (h.ending_idle hidle)] at hn ⊢
  cases hshown : w.system.pipeline.lastReport with
  | none =>
    rw [hshown] at hnewest
    exact absurd hn (hnewest n report)
  | some latest =>
    rw [hshown] at hnewest
    obtain ⟨m, hm, hlast⟩ := hnewest
    exact ⟨m, latest, hlast n report hn, hm, rfl, hlast⟩

/-- Whatever happens: the report that is shown is that of the last run with the guard that succeeded,
and only the end of such a run puts another in its place. Where no run is shown to be at work, every
run that was let in has been recorded, so that the report is that of the last one to succeed. -/
theorem lastReport_current (source : Source) (store : Store) (hs : List Happening) :
    let w := (start source store).after hs
    let s := w.system
    s.outcomes.Pairwise (fun newer older => older.1 < newer.1) ∧
    Newest s.outcomes s.pipeline.lastReport ∧
    (∀ e, let t := (w.happen e).system
      (t.outcomes = s.outcomes ∧ t.pipeline.lastReport = s.pipeline.lastReport) ∨
      ∃ n outcome, t.outcomes = (n, outcome) :: s.outcomes ∧
        t.pipeline.lastReport = reportAfter s.pipeline.lastReport outcome) ∧
    (s.pipeline.isRunning = false → w.ending = none ∧
      (∀ n, n < s.runs → (s.outcome? n).isSome = true) ∧
      ∀ n report, w.Succeeded n report → ∃ m latest, n ≤ m ∧ w.Succeeded m latest ∧
        s.pipeline.lastReport = some latest ∧ ∀ k other, w.Succeeded k other → k ≤ m) ∧
    ((∀ n, ¬ s.Unfinished n) → s.runGuarded.1.outcome? s.runs = some s.runGuarded.2) ∧
    (w.ending = none →
      (∀ t, System.Leads s t → w.Leads { w with system := t }) ∧
      ∀ refusals, w.Leads { w with
        system := (s.runUnguardedWith refusals).1
        returned := (s.runUnguardedWith refusals).2.toList ++ w.returned }) := by
  intro w s
  have h : w.Sound := (sound_start source store).after hs
  refine ⟨h.newest, h.lastReport_newest, fun e => (h.change e).shown, fun hidle => ?_,
    fun hnone => ?_, fun hending => ⟨fun t => .turns hending, .runUnguardedWith hending⟩⟩
  · exact ⟨h.ending_idle hidle, fun n => h.recorded_idle hidle,
      fun n report => h.latest_idle hidle⟩
  · refine System.runGuarded_idle h.paced ?_
    cases hrunning : s.pipeline.isRunning with
    | false => rfl
    | true =>
      obtain ⟨n, hn⟩ := (System.isRunning_iff h.guarded).mp hrunning
      exact absurd hn (hnone n)

end Scene

end Segments.Sync
