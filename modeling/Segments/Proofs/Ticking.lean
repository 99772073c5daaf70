import Segments.Proofs.LastReport

namespace Segments.Sync

namespace System

def awaited (s : System) (id : Nat) : List Nat :=
  (s.loops.filter fun l => l.id == id).filterMap fun l => l.tick?.map Event.due

/-- The loop of this identity waits for the run that holds the guard. -/
def heldBy (s : System) (id : Nat) : Bool :=
  s.pipeline.active.any fun run => run.caller == .loop id

/-- A turn at which the loop of this identity is served in time: the clock does not pass a deadline
that it waits for, a tick does not come before its deadline, and nobody ends it, starts it twice or
speaks for it. -/
def onTime (s : System) (id : Nat) : Turn → Bool
  | .clock moment => s.now ≤ moment && (s.awaited id).all fun deadline => moment ≤ max s.now deadline
  | .move (.tick i) => i != id || (s.awaited id).any fun deadline => deadline ≤ s.now
  | .startLoop i _ => i != id
  | .stopLoop i => i != id
  | .leave => !s.heldBy id
  | .call caller => caller != .loop id
  | _ => true

/-- A loop that is there once, with its deadline; `held` while it waits for the run that it asked
for. -/
structure On (s : System) (id period deadline : Nat) (held : Bool) : Prop where
  loop : ∃ waiting, s.loops.filter (fun l => l.id == id) = [⟨id, period, deadline, waiting⟩] ∧
    (waiting = .run ↔ held = true)
  held : s.heldBy id = held

structure Same (s t : System) : Prop where
  now : t.now = s.now
  loops : t.loops = s.loops
  caller : t.pipeline.active.map Run.caller = s.pipeline.active.map Run.caller

/-- All that the run itself can do to loops: nothing, or to end. -/
inductive Course (s : System) : System → Prop
  | same {t : System} (h : s.Same t) : Course s t
  | ended {t : System} (h : s.Same t) {run : Run}
      (hcaller : s.pipeline.active.map Run.caller = some run.caller) (outcome : Outcome) :
      Course s (t.finish run outcome)

namespace Same

theorem refl (s : System) : s.Same s := ⟨rfl, rfl, rfl⟩

theorem heldBy {s t : System} (h : s.Same t) (id : Nat) : t.heldBy id = s.heldBy id := by
  have hany : ∀ u : System, u.heldBy id =
      (u.pipeline.active.map Run.caller).any fun caller => caller == .loop id := by
    intro u
    rw [Option.any_map]
    rfl
  rw [hany, hany, h.caller]

end Same

namespace Course

variable {s : System} {run : Run}

theorem answered {t : System} (h : s.Same t)
    (hcaller : s.pipeline.active.map Run.caller = some run.caller) :
    Course s (t.answered run) := by
  unfold System.answered
  split
  · exact .same ⟨h.now, h.loops, hcaller.symm⟩
  · exact .ended (t := t.note _) ⟨h.now, h.loops, h.caller⟩ hcaller _
  · exact .ended h hcaller _

theorem apply (s : System) {m : Move} (hm : m.ofRun = true) : Course s (s.apply m) := by
  have hstill : Course s s := .same (.refl s)
  cases hrun : s.pipeline.active with
  | none =>
    cases m with
    | tick id => cases hm
    | _ =>
      simp only [System.apply, hrun]
      exact hstill
  | some run =>
    have hcaller : s.pipeline.active.map Run.caller = some run.caller := by rw [hrun]; rfl
    cases m with
    | tick id => cases hm
    | begin =>
      simp only [System.apply, hrun]
      split
      · unfold System.fetch
        simp only
        split
        · exact @answered s { run with startedAt := s.now } _ ⟨rfl, rfl, rfl⟩ hcaller
        · exact .same ⟨rfl, rfl, hcaller.symm⟩
      · exact hstill
    | answer =>
      simp only [System.apply, hrun]
      split
      · exact answered (.refl s) hcaller
      · exact hstill
    | store =>
      simp only [System.apply, hrun]
      split
      · unfold System.storeNext
        simp only
        split <;> exact .same ⟨rfl, rfl, hcaller.symm⟩
      · exact hstill
    | complete =>
      simp only [System.apply, hrun]
      split
      · exact .ended (s := s) (t := s.note _) ⟨rfl, rfl, rfl⟩ hcaller _
      · exact hstill

end Course

theorem filter_relet_other {id : Nat} {loops : List Loop} {loop : Loop} (h : loop.id ≠ id)
    (deadline : Nat) (waiting : Waiting) :
    (relet loops loop deadline waiting).filter (fun l => l.id == id) =
      loops.filter fun l => l.id == id := by
  rw [filter_relet (fun i => i == id)]
  refine (List.map_congr_left fun l hl => ?_).trans (List.map_id _)
  have hid : l.id = id := by simpa using (List.mem_filter.mp hl).2
  have hne : (l.id == loop.id) = false := beq_false_of_ne fun he => h (he ▸ hid)
  simp only [hne, Bool.false_eq_true, if_false, id_eq]

theorem filter_relet_same {loops : List Loop} {loop : Loop}
    (h : loops.filter (fun l => l.id == loop.id) = [loop]) (deadline : Nat) (waiting : Waiting) :
    (relet loops loop deadline waiting).filter (fun l => l.id == loop.id) =
      [{ loop with deadline, waiting }] := by
  rw [filter_relet (fun i => i == loop.id), h, relet, List.map_singleton,
    if_pos (beq_self_eq_true loop.id)]

/-- A loop that is told how its run ended waits for the deadline that it had; others are let be. -/
theorem finish_loops (s : System) (run : Run) (outcome : Outcome) :
    (s.finish run outcome).loops = s.loops ∧ (∀ i ∈ s.loops.map Loop.id, run.caller ≠ .loop i) ∨
    ∃ loop ∈ s.loops, run.caller = .loop loop.id ∧
      (s.finish run outcome).loops = relet s.loops loop loop.deadline (.tick s.tickets) := by
  cases hcaller : run.caller with
  | loop i =>
    simp only [finish, hcaller, resume]
    split
    · rename_i hfind
      refine .inl ⟨rfl, fun k hk hsame => ?_⟩
      cases hsame
      obtain ⟨l, hl, hid⟩ := List.mem_map.mp hk
      exact List.find?_eq_none.mp hfind l hl (by simpa using hid)
    · rename_i loop hfind
      have hid : loop.id = i := by simpa using List.find?_some hfind
      refine .inr ⟨loop, List.mem_of_find?_eq_some hfind, hid ▸ rfl, ?_⟩
      rcases outcome with f | r
      · cases f <;> rfl
      · rfl
  | aside =>
    refine .inl ⟨?_, fun i _ hsame => by cases hsame⟩
    unfold finish
    simp only [hcaller]
    split
    · rename_i heq
      cases heq
    all_goals rfl
  | _ =>
    refine .inl ⟨?_, fun i _ hsame => by cases hsame⟩
    simp only [finish, hcaller]

theorem heldBy_idle {s : System} (h : s.pipeline.isRunning = false) (id : Nat) :
    s.heldBy id = false := by
  have hnone : s.pipeline.active = none := by simpa [Pipeline.isRunning] using h
  rw [heldBy, hnone]
  rfl

namespace On

variable {s t : System} {id period deadline : Nat} {held : Bool}

theorem same (h : s.On id period deadline held) (hs : s.Same t) : t.On id period deadline held where
  loop := by
    rw [hs.loops]
    exact h.loop
  held := (hs.heldBy id).trans h.held

/-- Where the loop has waited for no run, it waits on. -/
theorem still (h : s.On id period deadline held) (hloops : t.loops.filter (fun l => l.id == id) =
      s.loops.filter fun l => l.id == id) (hfree : held = false) (hidle : t.heldBy id = false) :
    t.On id period deadline false where
  loop := by
    rw [hloops]
    exact hfree ▸ h.loop
  held := hidle

/-- The end of a run lets the loop that waits for it go on. -/
theorem finish (h : s.On id period deadline held) {run : Run}
    (hrun : run.caller = .loop id ↔ held = true) (outcome : Outcome) :
    (s.finish run outcome).On id period deadline false ∧
      (s.finish run outcome).now = s.now := by
  have hidle := heldBy_idle (finish_idle s run outcome) id
  refine ⟨?_, (Calm.finish s run outcome).now⟩
  obtain ⟨waiting, hloop, -⟩ := h.loop
  have hmem : id ∈ s.loops.map Loop.id := by
    have hl : (⟨id, period, deadline, waiting⟩ : Loop) ∈ s.loops.filter fun l => l.id == id := by
      rw [hloop]
      exact List.mem_singleton_self _
    exact List.mem_map_of_mem (List.mem_filter.mp hl).1
  have hfree : run.caller ≠ .loop id → held = false := by
    intro hne
    simpa using fun hheld => hne (hrun.mpr hheld)
  rcases s.finish_loops run outcome with ⟨hloops, hother⟩ | ⟨loop, hfound, hcaller, hloops⟩
  · exact h.still (congrArg _ hloops) (hfree (hother id hmem)) hidle
  · by_cases hid : loop.id = id
    · have hl : loop ∈ s.loops.filter fun l => l.id == id :=
        List.mem_filter.mpr ⟨hfound, by simp [hid]⟩
      rw [hloop, List.mem_singleton] at hl
      subst hl
      exact ⟨⟨_, hloops ▸ filter_relet_same hloop _ _, by simp⟩, hidle⟩
    · refine h.still ?_ (hfree ?_) hidle
      · rw [hloops, filter_relet_other hid]
      · rw [hcaller]
        exact fun he => hid (Caller.loop.inj he)

/-- The run that holds the guard tells whether it was a loop that asked for it. -/
theorem held_iff (h : s.On id period deadline held) {caller : Caller}
    (hcaller : s.pipeline.active.map Run.caller = some caller) :
    caller = .loop id ↔ held = true := by
  obtain ⟨run, hrun, rfl⟩ := Option.map_eq_some_iff.mp hcaller
  rw [← h.held, heldBy, hrun, Option.any_some, beq_iff_eq]

/-- No loop waits for a run where there is none. -/
theorem free (h : s.On id period deadline held) (hidle : s.pipeline.isRunning = false) :
    held = false := by
  rw [← h.held, heldBy_idle hidle]

/-- The loop has the deadline that it had, and waits no more than it did. -/
def Kept (s t : System) (id period deadline : Nat) (held : Bool) : Prop :=
  t.now = s.now ∧ (t.On id period deadline held ∨ t.On id period deadline false)

/-- A run can do no more to a loop than to let it go on. -/
theorem course (h : s.On id period deadline held) (hc : s.Course t) :
    Kept s t id period deadline held := by
  cases hc with
  | same hs => exact ⟨hs.now, .inl (h.same hs)⟩
  | ended hs hcaller outcome =>
    obtain ⟨hon, hnow⟩ := (h.same hs).finish (h.held_iff hcaller) outcome
    exact ⟨hnow.trans hs.now, .inr hon⟩

/-- The tick of another loop. -/
theorem tick_other (h : s.On id period deadline held) {i : Nat} (hi : i ≠ id) :
    Kept s (s.apply (.tick i)) id period deadline held := by
  simp only [System.apply]
  split
  · rename_i loop hfind
    have hloop : loop.id ≠ id := by
      have hid : loop.id = i := by simpa using List.find?_some hfind
      rwa [hid]
    obtain ⟨hnow, -, ⟨waiting, hloops⟩, hrun⟩ := ticked_spec s loop
    have hsame : (s.ticked loop).loops.filter (fun l => l.id == id) =
        s.loops.filter fun l => l.id == id := by
      rw [hloops, filter_relet_other hloop]
    refine ⟨hnow, ?_⟩
    rcases hrun with ⟨-, hpipeline⟩ | ⟨hidle, hrun⟩
    · refine .inl ⟨hsame ▸ h.loop, ?_⟩
      rw [heldBy, hpipeline]
      exact h.held
    · refine .inr (h.still hsame (h.free hidle) ?_)
      rw [heldBy, hrun, Option.any_some]
      exact beq_false_of_ne fun he => hloop (Caller.loop.inj he)
  · exact ⟨rfl, .inl h⟩

theorem call (h : s.On id period deadline held) {caller : Caller} (hcaller : caller ≠ .loop id) :
    Kept s (s.turn (.call caller)) id period deadline held := by
  simp only [System.turn, admit?]
  split
  · exact ⟨rfl, .inl h⟩
  · rename_i hidle
    refine ⟨rfl, .inr (h.still rfl (h.free (Bool.eq_false_iff.mpr hidle)) ?_)⟩
    exact beq_false_of_ne hcaller

theorem leave (h : s.On id period deadline held) (hfree : s.heldBy id = false) :
    Kept s s.leave id period deadline held := by
  refine ⟨rfl, .inr (h.still rfl (h.held.symm.trans hfree) ?_)⟩
  unfold System.leave heldBy System.setActive
  cases s.pipeline.active <;> rfl

theorem addLoop (h : s.On id period deadline held) {i : Nat} (hi : i ≠ id) (every : Nat) :
    Kept s (s.addLoop i every) id period deadline held := by
  have hnone : [(⟨i, periodOf every, s.now, .tick s.tickets⟩ : Loop)].filter
      (fun l => l.id == id) = [] :=
    List.filter_cons_of_neg (by simpa using hi)
  refine ⟨rfl, .inl ⟨?_, h.held⟩⟩
  simp only [System.addLoop, System.note, List.filter_append, hnone, List.append_nil]
  exact h.loop

theorem stopLoop (h : s.On id period deadline held) {i : Nat} (hi : i ≠ id) :
    Kept s (s.stopLoop i) id period deadline held := by
  refine ⟨rfl, .inl ⟨?_, h.held⟩⟩
  have hfilter : (s.loops.filter fun l => l.id != i).filter (fun l => l.id == id) =
      s.loops.filter fun l => l.id == id := by
    rw [List.filter_filter]
    refine List.filter_congr fun l _ => ?_
    cases hid : l.id == id with
    | false => rfl
    | true =>
      have hne : (l.id != i) = true := by
        rw [eq_of_beq hid]
        exact bne_iff_ne.mpr (Ne.symm hi)
      rw [hne]
      rfl
  exact hfilter ▸ h.loop

/-- Everything else that happens in time lets the loop be. -/
theorem turn (h : s.On id period deadline held) {x : Turn} (hx : s.onTime id x = true)
    (hclock : ∀ moment, x ≠ .clock moment) (htick : x ≠ .move (.tick id)) :
    Kept s (s.turn x) id period deadline held := by
  cases x with
  | call caller => exact h.call (by simpa [onTime] using hx)
  | move m =>
    cases hm : m.ofRun with
    | true => exact h.course (.apply s hm)
    | false =>
      cases m with
      | tick i => exact h.tick_other fun hi => htick (by rw [hi])
      | _ => cases hm
  | leave => exact h.leave (by simpa [onTime] using hx)
  | die reason =>
    simp only [System.turn]
    split
    · rename_i run hrun
      exact h.course (.ended (.refl s) (by rw [hrun]; rfl) _)
    · exact ⟨rfl, .inl h⟩
  | clock moment => exact absurd rfl (hclock moment)
  | startLoop i every => exact h.addLoop (by simpa [onTime] using hx) every
  | stopLoop i => exact h.stopLoop (by simpa [onTime] using hx)
  | evaluate texts =>
    obtain ⟨log, hlog⟩ := s.evaluate_state texts
    rw [System.turn, hlog]
    exact h.course (.same ⟨rfl, rfl, rfl⟩)
  | _ => exact h.course (.same ⟨rfl, rfl, rfl⟩)

/-- The loop waits for its deadline unless it waits for a run. -/
theorem awaited (h : s.On id period deadline held) :
    s.awaited id = if held then [] else [deadline] := by
  obtain ⟨waiting, hloop, hwaiting⟩ := h.loop
  rw [System.awaited, hloop]
  cases waiting with
  | run => rw [if_pos (hwaiting.mp rfl)]; rfl
  | tick ticket =>
    have hheld : held ≠ true := fun hheld => nomatch hwaiting.mpr hheld
    rw [if_neg hheld]
    rfl

/-- The loop of this identity is the one that is found. -/
theorem find? (h : s.On id period deadline held) : ∃ waiting,
    s.loops.filter (fun l => l.id == id) = [⟨id, period, deadline, waiting⟩] ∧
    (s.loops.find? fun l => l.id == id) = some ⟨id, period, deadline, waiting⟩ := by
  obtain ⟨waiting, hloop, -⟩ := h.loop
  refine ⟨waiting, hloop, ?_⟩
  rw [← List.head?_filter, hloop]
  rfl

/-- The tick of the loop gives it its next deadline, and has it wait for a run if one is let in. -/
theorem tick (h : s.On id period deadline held) (hfree : held = false) :
    (s.turn (.move (.tick id))).On id period (nextTick period deadline s.now)
      (!s.pipeline.isRunning) ∧ (s.turn (.move (.tick id))).now = s.now := by
  obtain ⟨waiting, hloop, hfind⟩ := h.find?
  have hrelet := @filter_relet_same s.loops ⟨id, period, deadline, waiting⟩ hloop
  simp only [System.turn, System.apply, hfind, System.ticked]
  cases hrunning : s.pipeline.isRunning with
  | true =>
    simp only [admit?, hrunning, if_true]
    exact ⟨⟨⟨_, hrelet _ _, by simp⟩, h.held.trans hfree⟩, rfl⟩
  | false =>
    simp only [admit?, hrunning, Bool.false_eq_true, if_false]
    exact ⟨⟨⟨_, hrelet _ _, by simp⟩, by simp [heldBy, setActive]⟩, rfl⟩

/-- At its tick the loop asks for one run: it is refused, or one is let in. -/
theorem tick_asks (h : s.On id period deadline held) :
    (s.pipeline.isRunning = true → (s.turn (.move (.tick id))).core = s.core) ∧
    (s.pipeline.isRunning = false →
      (s.turn (.move (.tick id))).pipeline.active = some ⟨s.runs, .loop id, s.now, .queued⟩ ∧
      (s.turn (.move (.tick id))).runs = s.runs + 1) := by
  refine ⟨fun hrunning => ((turn_refused hrunning).2 id).1, fun hidle => ?_⟩
  obtain ⟨waiting, -, hfind⟩ := h.find?
  simp only [System.turn, System.apply, hfind, System.ticked, admit?, hidle, Bool.false_eq_true,
    if_false]
  exact ⟨rfl, trivial⟩

end On

end System

end Segments.Sync
