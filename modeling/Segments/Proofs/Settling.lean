import Segments.Proofs.Guard
import Segments.Proofs.Sessions

namespace Segments.Sync

def Loop.tick? (l : Loop) : Option System.Event :=
  match l.waiting with
  | .tick ticket => some ⟨l.deadline, ticket, .tick l.id⟩
  | .run => none

def Phase.answer? : Phase → Option System.Event
  | .fetching due ticket => some ⟨due, ticket, .answer⟩
  | _ => none

namespace System

theorem events_eq (s : System) : s.events =
    (s.pipeline.active.bind fun run => run.phase.answer?).toList ++ s.loops.filterMap Loop.tick? := by
  unfold events
  cases s.pipeline.active with
  | none => rfl
  | some run =>
    rw [Option.bind_some]
    cases hphase : run.phase <;> simp only [hphase] <;> rfl

theorem earliest_eq_none {es : List Event} (h : earliest es = none) : es = [] := by
  cases es with
  | nil => rfl
  | cons a es =>
    simp only [earliest] at h
    split at h <;> cases h

theorem earliest_spec {es : List Event} {e : Event} (h : earliest es = some e) :
    e ∈ es ∧ ∀ f ∈ es, e.due ≤ f.due := by
  induction es generalizing e with
  | nil => cases h
  | cons a es ih =>
    simp only [earliest] at h
    cases hes : earliest es with
    | none =>
      rw [hes] at h
      cases h
      simp [earliest_eq_none hes]
    | some f =>
      rw [hes] at h
      obtain ⟨hmem, hleast⟩ := ih hes
      simp only [Option.some.injEq] at h
      split at h
      · rename_i hbefore
        subst h
        have hle : a.due ≤ f.due := by
          simp only [Event.before, Bool.or_eq_true, Bool.and_eq_true, decide_eq_true_eq,
            beq_iff_eq] at hbefore
          omega
        refine ⟨List.mem_cons_self, fun g hg => ?_⟩
        rcases List.mem_cons.mp hg with rfl | hg
        · exact Nat.le_refl _
        · exact Nat.le_trans hle (hleast g hg)
      · rename_i hbefore
        subst h
        have hle : f.due ≤ a.due := by
          simp only [Event.before, Bool.or_eq_true, Bool.and_eq_true, decide_eq_true_eq,
            beq_iff_eq, not_or, not_and] at hbefore
          omega
        refine ⟨List.mem_cons_of_mem _ hmem, fun g hg => ?_⟩
        rcases List.mem_cons.mp hg with rfl | hg
        · exact hle
        · exact hleast g hg

/-- An event is the end of a fetch or a tick that a loop waits for. -/
theorem mem_events {s : System} {e : Event} (h : e ∈ s.events) :
    (∃ run, s.pipeline.active = some run ∧ run.phase = .fetching e.due e.ticket ∧
      e.move = .answer) ∨
    ∃ l ∈ s.loops, l.waiting = .tick e.ticket ∧ l.deadline = e.due ∧ e.move = .tick l.id := by
  rw [events_eq] at h
  rcases List.mem_append.mp h with h | h
  · obtain ⟨run, hrun, he⟩ := Option.bind_eq_some_iff.mp (Option.mem_toList.mp h)
    cases hphase : run.phase with
    | fetching due ticket =>
      rw [hphase] at he
      cases he
      exact .inl ⟨run, hrun, hphase, rfl⟩
    | _ =>
      rw [hphase] at he
      cases he
  · obtain ⟨l, hl, he⟩ := List.mem_filterMap.mp h
    unfold Loop.tick? at he
    split at he
    · rename_i ticket hwaiting
      cases he
      exact .inr ⟨l, hl, hwaiting, rfl, rfl⟩
    · cases he

theorem fetching_mem_events {s : System} {run : Run} {due ticket : Nat}
    (hrun : s.pipeline.active = some run) (hphase : run.phase = .fetching due ticket) :
    ⟨due, ticket, .answer⟩ ∈ s.events := by
  simp [events_eq, hrun, hphase, Phase.answer?]

/-- What is due is the end of a fetch or the tick of a loop. -/
theorem earliest_cases {s : System} {e : Event} (he : earliest s.events = some e)
    (hdue : e.due ≤ s.now) :
    (∃ run due ticket, s.pipeline.active = some run ∧ run.phase = .fetching due ticket ∧
      due ≤ s.now ∧ e.move = .answer) ∨
    ∃ l ∈ s.loops, (∃ ticket, l.waiting = .tick ticket) ∧ l.deadline ≤ s.now ∧
      e.move = .tick l.id := by
  rcases mem_events (earliest_spec he).1 with ⟨run, hrun, hphase, hm⟩ | ⟨l, hl, hw, hd, hm⟩
  · exact .inl ⟨run, _, _, hrun, hphase, hdue, hm⟩
  · exact .inr ⟨l, hl, ⟨_, hw⟩, hd ▸ hdue, hm⟩

/-- What is ready, and what it is ready for. -/
theorem ready?_cases {s : System} {m : Move} (h : s.ready? = some m) :
    (∃ run fetched raw left tally, s.pipeline.active = some run ∧
      run.phase = .storing fetched (raw :: left) tally ∧ m = .store) ∨
    (∃ run fetched tally, s.pipeline.active = some run ∧
      run.phase = .storing fetched [] tally ∧ m = .complete) ∨
    (∃ run due ticket, s.pipeline.active = some run ∧ run.phase = .fetching due ticket ∧
      due ≤ s.now ∧ m = .answer) ∨
    (∃ l ∈ s.loops, (∃ ticket, l.waiting = .tick ticket) ∧ l.deadline ≤ s.now ∧
      m = .tick l.id) ∨
    (∃ run, s.pipeline.active = some run ∧ run.phase = .queued ∧ m = .begin) := by
  have hdue : ∀ {e}, earliest s.events = some e → e.due ≤ s.now → e.move = m →
      (∃ run due ticket, s.pipeline.active = some run ∧ run.phase = .fetching due ticket ∧
        due ≤ s.now ∧ m = .answer) ∨
      (∃ l ∈ s.loops, (∃ ticket, l.waiting = .tick ticket) ∧ l.deadline ≤ s.now ∧
        m = .tick l.id) ∨
      (∃ run, s.pipeline.active = some run ∧ run.phase = .queued ∧ m = .begin) := by
    intro e he hle hm
    rcases earliest_cases he hle with h | h
    · exact .inl (hm ▸ h)
    · exact .inr (.inl (hm ▸ h))
  unfold ready? at h
  cases hrun : s.pipeline.active with
  | none =>
    simp only [hrun] at h
    cases he : earliest s.events with
    | none => simp [he] at h
    | some e =>
      simp only [he] at h
      split at h
      · rename_i hle
        exact .inr (.inr (hrun ▸ hdue he hle (Option.some.inj h)))
      · cases h
  | some run =>
    cases hphase : run.phase with
    | storing fetched left tally =>
      simp only [hrun, hphase] at h
      cases left with
      | nil => exact .inr (.inl ⟨run, fetched, tally, rfl, hphase, (Option.some.inj h).symm⟩)
      | cons raw left =>
        exact .inl ⟨run, fetched, raw, left, tally, rfl, hphase, (Option.some.inj h).symm⟩
    | queued =>
      simp only [hrun, hphase] at h
      cases he : earliest s.events with
      | none =>
        simp only [he, Option.some.injEq] at h
        exact .inr (.inr (.inr (.inr ⟨run, rfl, hphase, h.symm⟩)))
      | some e =>
        simp only [he] at h
        split at h
        · rename_i hle
          exact .inr (.inr (hrun ▸ hdue he hle (Option.some.inj h)))
        · exact .inr (.inr (.inr (.inr ⟨run, rfl, hphase, (Option.some.inj h).symm⟩)))
    | fetching due ticket =>
      simp only [hrun, hphase] at h
      cases he : earliest s.events with
      | none => simp [he] at h
      | some e =>
        simp only [he] at h
        split at h
        · rename_i hle
          exact .inr (.inr (hrun ▸ hdue he hle (Option.some.inj h)))
        · cases h

theorem lt_due {s : System} (h : ∀ e, earliest s.events = some e → s.now < e.due) :
    ∀ e ∈ s.events, s.now < e.due := by
  intro f hf
  cases he : earliest s.events with
  | none =>
    rw [earliest_eq_none he] at hf
    cases hf
  | some e => exact Nat.lt_of_lt_of_le (h e he) ((earliest_spec he).2 f hf)

/-- Where nothing is ready, a run waits for an answer that comes later, and so does all else. -/
theorem ready?_none {s : System} (h : s.ready? = none) :
    (∀ run, s.pipeline.active = some run → ∃ due ticket, run.phase = .fetching due ticket) ∧
    ∀ e ∈ s.events, s.now < e.due := by
  unfold ready? at h
  cases hrun : s.pipeline.active with
  | none =>
    constructor
    · intro run hr
      cases hr
    · refine lt_due fun e he => ?_
      simp only [hrun, he] at h
      split at h
      · cases h
      · omega
  | some run =>
    cases hphase : run.phase with
    | storing fetched left tally =>
      simp only [hrun, hphase] at h
      cases left <;> cases h
    | queued =>
      simp only [hrun, hphase] at h
      split at h
      · split at h <;> cases h
      · cases h
    | fetching due ticket =>
      constructor
      · intro r hr
        cases hr
        exact ⟨due, ticket, hphase⟩
      · refine lt_due fun e he => ?_
        simp only [hrun, hphase, he] at h
        split at h
        · cases h
        · omega

/-- Every loop has a longer period than a tick may come late by. -/
def Paced (s : System) : Prop :=
  ∀ l ∈ s.loops, slack < l.period

def relet (loops : List Loop) (loop : Loop) (deadline : Nat) (waiting : Waiting) : List Loop :=
  loops.map fun l => if l.id == loop.id then { loop with deadline, waiting } else l

/-- Whether a loop of this identity is late for, or at, its deadline. -/
def dueId (now : Nat) (loops : List Loop) (id : Nat) : Bool :=
  loops.any fun l => l.id == id && decide (l.deadline ≤ now)

def dueCount (s : System) : Nat :=
  (s.loops.map Loop.id).countP (dueId s.now s.loops)

theorem relet_ids (loops : List Loop) (loop : Loop) (deadline : Nat) (waiting : Waiting) :
    (relet loops loop deadline waiting).map Loop.id = loops.map Loop.id := by
  unfold relet
  rw [List.map_map]
  refine List.map_congr_left fun l _ => ?_
  simp only [Function.comp_apply]
  split
  · rename_i he
    exact (eq_of_beq he).symm
  · rfl

/-- Whether other loops are there or not, a loop gets the same deadline. -/
theorem filter_relet (p : Nat → Bool) (loops : List Loop) (loop : Loop) (deadline : Nat)
    (waiting : Waiting) : (relet loops loop deadline waiting).filter (fun l => p l.id) =
      relet (loops.filter fun l => p l.id) loop deadline waiting := by
  unfold relet
  rw [List.filter_map]
  congr 1
  refine List.filter_congr fun l _ => ?_
  simp only [Function.comp_apply]
  split
  · rename_i he
    rw [eq_of_beq he]
  · rfl

theorem dueId_relet_other (now : Nat) (loops : List Loop) (loop : Loop) (deadline : Nat)
    (waiting : Waiting) {id : Nat} (h : id ≠ loop.id) :
    dueId now (relet loops loop deadline waiting) id = dueId now loops id := by
  unfold dueId relet
  rw [List.any_map]
  congr 1
  funext l
  simp only [Function.comp_apply]
  split
  · rename_i he
    have hloop : (loop.id == id) = false := beq_false_of_ne (Ne.symm h)
    rw [eq_of_beq he]
    simp only [hloop, Bool.false_and]
  · rfl

theorem dueId_relet_same {now : Nat} {loops : List Loop} {loop : Loop} {deadline : Nat}
    {waiting : Waiting} (h : dueId now (relet loops loop deadline waiting) loop.id = true) :
    deadline ≤ now := by
  unfold dueId relet at h
  rw [List.any_map] at h
  obtain ⟨l, -, hl⟩ := List.any_eq_true.mp h
  simp only [Function.comp_apply, Bool.and_eq_true, decide_eq_true_eq] at hl
  split at hl
  · exact hl.2
  · rename_i hne
    exact absurd hl.1 hne

theorem dueId_of_mem {now : Nat} {loops : List Loop} {l : Loop} (hl : l ∈ loops)
    (hdue : l.deadline ≤ now) : dueId now loops l.id = true := by
  refine List.any_eq_true.mpr ⟨l, hl, ?_⟩
  simp [hdue]

/-- A loop that waits on, for the deadline that it had, makes no other late. -/
theorem countP_relet_le {now : Nat} {loops : List Loop} {loop : Loop} (hloop : loop ∈ loops)
    (waiting : Waiting) :
    ((relet loops loop loop.deadline waiting).map Loop.id).countP
        (dueId now (relet loops loop loop.deadline waiting)) ≤
      (loops.map Loop.id).countP (dueId now loops) := by
  rw [relet_ids]
  refine List.countP_mono_left fun id _ hdue => ?_
  by_cases h : id = loop.id
  · subst h
    exact dueId_of_mem hloop (dueId_relet_same hdue)
  · rwa [dueId_relet_other now loops loop _ waiting h] at hdue

theorem countP_lt {α : Type} {p q : α → Bool} {as : List α} (h : ∀ a ∈ as, p a = true → q a = true)
    {a : α} (ha : a ∈ as) (hp : p a = false) (hq : q a = true) : as.countP p < as.countP q := by
  induction as with
  | nil => cases ha
  | cons b as ih =>
    have hrest : as.countP p ≤ as.countP q :=
      List.countP_mono_left fun c hc => h c (List.mem_cons_of_mem _ hc)
    rcases List.mem_cons.mp ha with rfl | ha
    · rw [List.countP_cons, List.countP_cons, hp, hq]
      simp only [Bool.false_eq_true, if_false, if_true]
      omega
    · have hlt := ih (fun c hc => h c (List.mem_cons_of_mem _ hc)) ha
      have hb : p b = true → q b = true := h b List.mem_cons_self
      rw [List.countP_cons, List.countP_cons]
      cases hpb : p b with
      | false =>
        simp only [Bool.false_eq_true, if_false]
        omega
      | true =>
        simp only [hb hpb, if_true]
        omega

/-- A tick puts its loop off, and makes no other late. -/
theorem countP_relet_lt {now deadline : Nat} {loops : List Loop} {loop : Loop}
    (hlater : now < deadline) (hdue : dueId now loops loop.id = true) (waiting : Waiting) :
    ((relet loops loop deadline waiting).map Loop.id).countP
        (dueId now (relet loops loop deadline waiting)) <
      (loops.map Loop.id).countP (dueId now loops) := by
  have hnot : dueId now (relet loops loop deadline waiting) loop.id = false := by
    cases h : dueId now (relet loops loop deadline waiting) loop.id with
    | false => rfl
    | true =>
      have hle := dueId_relet_same h
      omega
  have hmem : loop.id ∈ loops.map Loop.id := by
    obtain ⟨l, hl, he⟩ := List.any_eq_true.mp hdue
    simp only [Bool.and_eq_true, beq_iff_eq] at he
    exact List.mem_map.mpr ⟨l, hl, he.1⟩
  rw [relet_ids]
  refine countP_lt (fun id _ h => ?_) hmem hnot hdue
  by_cases hid : id = loop.id
  · subst hid
    exact hdue
  · rwa [dueId_relet_other now loops loop _ waiting hid] at h

/-- Nothing is changed that makes work, but that a loop waits on for the deadline that it had. -/
structure Calm (s t : System) : Prop where
  now : t.now = s.now
  answer : t.source.answer = s.source.answer
  delay : t.source.delay = s.source.delay
  loops : t.loops = s.loops ∨
    ∃ loop ∈ s.loops, ∃ waiting, t.loops = relet s.loops loop loop.deadline waiting

namespace Calm

theorem same {s t : System} (hnow : t.now = s.now) (hanswer : t.source.answer = s.source.answer)
    (hdelay : t.source.delay = s.source.delay) (hloops : t.loops = s.loops) : Calm s t :=
  ⟨hnow, hanswer, hdelay, .inl hloops⟩

/-- Before something calm happens, other things may change. -/
theorem after {s t u : System} (h : Calm t u) (hnow : t.now = s.now)
    (hanswer : t.source.answer = s.source.answer) (hdelay : t.source.delay = s.source.delay)
    (hloops : t.loops = s.loops) : Calm s u :=
  ⟨h.now.trans hnow, h.answer.trans hanswer, h.delay.trans hdelay, hloops ▸ h.loops⟩

theorem dueCount_le {s t : System} (h : Calm s t) : t.dueCount ≤ s.dueCount := by
  unfold dueCount
  rw [h.now]
  rcases h.loops with hl | ⟨loop, hloop, waiting, hl⟩
  · exact hl ▸ Nat.le_refl _
  · rw [hl]
    exact countP_relet_le hloop waiting

theorem paced {s t : System} (h : Calm s t) (hp : s.Paced) : t.Paced := by
  intro l hl
  rcases h.loops with he | ⟨loop, hloop, waiting, he⟩
  · exact hp l (he ▸ hl)
  · rw [he] at hl
    obtain ⟨k, hk, rfl⟩ := List.mem_map.mp hl
    split
    · exact hp loop hloop
    · exact hp k hk

theorem resume (s : System) (id : Nat) (outcome : Outcome) : Calm s (s.resume id outcome) := by
  unfold System.resume
  split
  · exact .same rfl rfl rfl rfl
  · rename_i loop hfind
    have hloop : loop ∈ s.loops := List.mem_of_find?_eq_some hfind
    refine ⟨?_, ?_, ?_, .inr ⟨loop, hloop, .tick s.tickets, ?_⟩⟩
    all_goals
      rcases outcome with f | r
      · cases f <;> rfl
      · rfl

theorem finish (s : System) (run : Run) (outcome : Outcome) :
    Calm s (s.finish run outcome) := by
  unfold System.finish
  simp only
  split
  · exact (resume _ _ _).after rfl rfl rfl rfl
  · exact .same rfl rfl rfl rfl
  · exact .same rfl rfl rfl rfl

theorem answered (s : System) (run : Run) : Calm s (s.answered run) := by
  unfold System.answered
  split
  · exact .same rfl rfl rfl rfl
  · exact (finish _ _ _).after rfl rfl rfl rfl
  · exact finish _ _ _

theorem fetch (s : System) (run : Run) : Calm s (s.fetch run) := by
  unfold System.fetch
  simp only
  split
  · exact (answered _ _).after rfl rfl rfl rfl
  · exact .same rfl rfl rfl rfl

theorem storeNext (s : System) (run : Run) (fetched : Nat) (raw : Json) (left : List Json)
    (tally : Tally) : Calm s (s.storeNext run fetched raw left tally) := by
  unfold System.storeNext
  simp only
  split <;> exact .same rfl rfl rfl rfl

theorem completed (s : System) (run : Run) (fetched : Nat) (tally : Tally) :
    Calm s (s.completed run fetched tally) :=
  (finish _ _ _).after rfl rfl rfl rfl

end Calm

def listed (s : System) : Nat :=
  match s.source.answer with
  | .ok list => list.length
  | .error _ => 0

def runWork (s : System) : Nat :=
  match s.pipeline.active with
  | none => 0
  | some run =>
    match run.phase with
    | .queued => s.listed + 3
    | .fetching due _ => if due ≤ s.now then s.listed + 2 else 0
    | .storing _ left _ => left.length + 1

/-- How many moves can be made at this moment: each loop that is due may ask for one more run. -/
def work (s : System) : Nat :=
  s.dueCount * (s.listed + 4) + s.runWork

/-- A move that uses up work of the run and makes none elsewhere leaves less to do. -/
theorem Calm.work_lt {s t : System} (h : Calm s t) (hrun : t.runWork < s.runWork) :
    t.work < s.work := by
  have hlisted : t.listed = s.listed := by
    unfold listed
    rw [h.answer]
  unfold work
  rw [hlisted]
  have hle := Nat.mul_le_mul_right (s.listed + 4) h.dueCount_le
  omega

theorem runWork_idle {s : System} (h : s.core.active = none) : s.runWork = 0 := by
  unfold runWork
  cases hrun : s.pipeline.active with
  | none => rfl
  | some run => simp [core, hrun] at h

theorem runWork_finish (s : System) (run : Run) (outcome : Outcome) :
    (s.finish run outcome).runWork = 0 :=
  runWork_idle (by rw [core_finish]; rfl)

theorem runWork_answered (s : System) (run : Run) : (s.answered run).runWork ≤ s.listed + 1 := by
  unfold answered
  cases hr : s.source.result with
  | products list =>
    have hanswer : s.source.answer = .ok list := by
      unfold Source.result at hr
      split at hr <;> cases hr
      assumption
    simp [runWork, setActive, listed, hanswer]
  | failed f =>
    simp only [runWork_finish]
    omega
  | crashed reason =>
    simp only [runWork_finish]
    omega

theorem runWork_fetch (s : System) (run : Run) : (s.fetch run).runWork ≤ s.listed + 1 := by
  unfold fetch
  simp only
  split
  · exact runWork_answered _ _
  · rename_i hdelay
    have hlater : ¬ s.now + s.source.delay ≤ s.now := by omega
    simp [runWork, setActive, note, hlater]

theorem runWork_storeNext (s : System) (run : Run) (fetched : Nat) (raw : Json)
    (left : List Json) (tally : Tally) :
    (s.storeNext run fetched raw left tally).runWork = left.length + 1 := by
  unfold storeNext
  simp only
  split <;> rfl

theorem calm_apply {s : System} {m : Move} (h : m.ofRun = true) : Calm s (s.apply m) := by
  have hsame : Calm s s := .same rfl rfl rfl rfl
  unfold apply
  split
  · split
    · exact .fetch _ _
    · exact hsame
  · split
    · exact .answered _ _
    · exact hsame
  · split
    · exact .storeNext _ _ _ _ _ _
    · exact hsame
  · split
    · exact .completed _ _ _ _
    · exact hsame
  · cases h
  · exact hsame

/-- A loop that ticks is put off; if it is let in, there is a run where there was none. -/
theorem ticked_spec (s : System) (loop : Loop) :
    (s.ticked loop).now = s.now ∧ (s.ticked loop).source = s.source ∧
    (∃ waiting, (s.ticked loop).loops =
      relet s.loops loop (nextTick loop.period loop.deadline s.now) waiting) ∧
    (s.pipeline.isRunning = true ∧ (s.ticked loop).pipeline = s.pipeline ∨
      s.pipeline.isRunning = false ∧
        (s.ticked loop).pipeline.active = some ⟨s.runs, .loop loop.id, s.now, .queued⟩) := by
  unfold ticked
  cases hrunning : s.pipeline.isRunning with
  | true =>
    simp only [admit?, hrunning, if_true]
    exact ⟨rfl, rfl, ⟨_, rfl⟩, .inl ⟨trivial, rfl⟩⟩
  | false =>
    simp only [admit?, hrunning, Bool.false_eq_true, if_false]
    exact ⟨rfl, rfl, ⟨.run, rfl⟩, .inr ⟨trivial, rfl⟩⟩

theorem paced_ticked {s : System} (hp : s.Paced) {loop : Loop} (hloop : loop ∈ s.loops) :
    (s.ticked loop).Paced := by
  obtain ⟨-, -, ⟨waiting, hloops⟩, -⟩ := ticked_spec s loop
  intro l hl
  rw [hloops] at hl
  obtain ⟨k, hk, rfl⟩ := List.mem_map.mp hl
  split
  · exact hp loop hloop
  · exact hp k hk

/-- Its period being longer than a tick may be late by, a loop that has ticked is no longer due. -/
theorem work_ticked {s : System} (hp : s.Paced) {loop : Loop} (hloop : loop ∈ s.loops)
    (hdue : dueId s.now s.loops loop.id = true) : (s.ticked loop).work < s.work := by
  obtain ⟨hnow, hsource, ⟨waiting, hloops⟩, hrun⟩ := ticked_spec s loop
  have hlisted : (s.ticked loop).listed = s.listed := by
    unfold listed
    rw [hsource]
  have hcount : (s.ticked loop).dueCount < s.dueCount := by
    unfold dueCount
    rw [hnow, hloops]
    exact countP_relet_lt (lt_nextTick (hp loop hloop)) hdue waiting
  have hmore : (s.ticked loop).runWork ≤ s.runWork + (s.listed + 3) := by
    unfold runWork
    rw [hlisted, hnow]
    rcases hrun with ⟨-, hrun⟩ | ⟨-, hrun⟩
    · rw [hrun]
      omega
    · rw [hrun]
      exact Nat.le_add_left _ _
  unfold work
  rw [hlisted]
  have hmul := Nat.mul_le_mul_right (s.listed + 4) (Nat.succ_le_of_lt hcount)
  rw [Nat.succ_mul] at hmul
  omega

/-- Whatever is ready uses up work. -/
theorem work_apply {s : System} (hp : s.Paced) {m : Move} (h : s.ready? = some m) :
    (s.apply m).work < s.work := by
  rcases ready?_cases h with ⟨run, fetched, raw, left, tally, hrun, hphase, rfl⟩ |
    ⟨run, fetched, tally, hrun, hphase, rfl⟩ | ⟨run, due, ticket, hrun, hphase, hdue, rfl⟩ |
    ⟨l, hl, -, hdue, rfl⟩ | ⟨run, hrun, hphase, rfl⟩
  · refine (calm_apply rfl).work_lt ?_
    simp only [apply, hrun, hphase, runWork_storeNext]
    simp [runWork, hrun, hphase]
  · refine (calm_apply rfl).work_lt ?_
    simp only [apply, hrun, hphase, completed, runWork_finish]
    simp [runWork, hrun, hphase]
  · refine (calm_apply rfl).work_lt ?_
    have hle := runWork_answered s run
    simp only [apply, hrun, hphase]
    simp only [runWork, hrun, hphase, if_pos hdue] at hle ⊢
    omega
  · have hfound : ∃ loop, (s.loops.find? fun k => k.id == l.id) = some loop := by
      refine Option.isSome_iff_exists.mp (List.find?_isSome.mpr ⟨l, hl, ?_⟩)
      simp
    obtain ⟨loop, hfind⟩ := hfound
    have hid : loop.id = l.id := by simpa using List.find?_some hfind
    have hat : dueId s.now s.loops loop.id = true := hid ▸ dueId_of_mem hl hdue
    simp only [apply, hfind]
    exact work_ticked hp (List.mem_of_find?_eq_some hfind) hat
  · refine (calm_apply rfl).work_lt ?_
    have hle := runWork_fetch s run
    simp only [apply, hrun, hphase]
    simp only [runWork, hrun, hphase] at hle ⊢
    omega

theorem paced_apply {s : System} (hp : s.Paced) (m : Move) : (s.apply m).Paced := by
  cases m with
  | tick id =>
    simp only [apply]
    split
    · rename_i hfind
      exact paced_ticked hp (List.mem_of_find?_eq_some hfind)
    · exact hp
  | _ => exact (calm_apply rfl).paced hp

theorem paced_settleFor {s : System} (hp : s.Paced) (fuel : Nat) : (settleFor fuel s).Paced :=
  settleFor_preserves (p := Paced) (fun _ m _ h => paced_apply h m) fuel hp

/-- As many moves as there is work are enough to come to rest. -/
theorem settleFor_rest {fuel : Nat} {s : System} (hp : s.Paced) (h : s.work ≤ fuel) :
    (settleFor fuel s).ready? = none := by
  induction fuel generalizing s with
  | zero =>
    cases hr : s.ready? with
    | none => exact hr
    | some m =>
      have hlt := work_apply hp hr
      omega
  | succ fuel ih =>
    unfold settleFor
    split
    · rename_i m hr
      have hlt := work_apply hp hr
      exact ih (paced_apply hp m) (by omega)
    · assumption

def leftNow (s : System) : Nat :=
  ((s.pipeline.active.bind fun run => run.phase.left?).map List.length).getD 0

theorem movesAtOnce_eq (s : System) :
    s.movesAtOnce = s.loops.length * (s.listed + 8) + 2 * (s.listed + 8) + s.leftNow := by
  rw [← Nat.add_mul]
  unfold movesAtOnce leftNow
  cases hrun : s.pipeline.active with
  | none => rfl
  | some run =>
    rw [Option.bind_some]
    cases hphase : run.phase <;> simp only [hphase] <;> rfl

theorem runWork_le (s : System) : s.runWork ≤ 2 * (s.listed + 8) + s.leftNow := by
  unfold runWork leftNow
  cases hrun : s.pipeline.active with
  | none => exact Nat.zero_le _
  | some run =>
    cases hphase : run.phase with
    | queued =>
      simp only [hphase]
      omega
    | fetching due ticket =>
      simp only [hphase]
      split <;> omega
    | storing fetched left tally =>
      simp only [hphase, Option.bind_some, Phase.left?, Option.map_some, Option.getD_some]
      omega

theorem work_le (s : System) : s.work ≤ s.movesAtOnce := by
  have hcount : s.dueCount ≤ s.loops.length := by
    have hle : s.dueCount ≤ (s.loops.map Loop.id).length := List.countP_le_length
    rwa [List.length_map] at hle
  have hmul : s.dueCount * (s.listed + 4) ≤ s.loops.length * (s.listed + 8) :=
    Nat.mul_le_mul hcount (by omega)
  have hrun := s.runWork_le
  rw [work, movesAtOnce_eq]
  omega

/-- Where a moment has settled, nothing is left that is ready. -/
theorem settle_rest {s : System} (hp : s.Paced) : s.settle.ready? = none :=
  settleFor_rest hp s.work_le

end System

end Segments.Sync
