import Mathlib.Data.List.Basic
import Segments.Proofs.Abandonment
import Segments.Proofs.LastReport

namespace Segments.Sync

/-- A run that holds the guard gives it up only to nobody. -/
theorem Core.Step.same_run {c d : Core} {e : Option Entry} (hs : c.Step e d) {n : Nat}
    {rest : Option (List Json)} (h : c.active = some (n, rest)) :
    d.active = none ∨ ∃ rest', d.active = some (n, rest') := by
  cases hs with
  | still => exact .inr ⟨rest, h⟩
  | admitted hidle =>
    rw [h] at hidle
    cases hidle
  | listed hactive list =>
    rw [h] at hactive
    cases hactive
    exact .inr ⟨_, rfl⟩
  | took hactive stored =>
    rw [h] at hactive
    cases hactive
    exact .inr ⟨_, rfl⟩
  | completed => exact .inl rfl
  | failed => exact .inl rfl
  | died => exact .inl rfl

namespace System

/-- What happens next if nothing comes in between: what is ready, or else the next moment. -/
def next (s : System) : System :=
  match s.ready? with
  | some m => s.apply m
  | none =>
    match earliest s.events with
    | some e => { s with now := max s.now e.due }
    | none => s

/-- Goes on until no run holds the guard, but not for more than so many steps. -/
def untilFree : Nat → System → System
  | 0, s => s
  | steps + 1, s => if s.pipeline.isRunning then untilFree steps s.next else s

theorem untilFree_idle {s : System} (h : s.pipeline.isRunning = false) (steps : Nat) :
    s.untilFree steps = s := by
  cases steps with
  | zero => rfl
  | succ steps => simp [untilFree, h]

/-- Two states that go on in step: alike, with the same run at the same place, and with the same
loops but for some that have gone and that wait for a run where they are still there. -/
structure Apart (gone : Nat → Bool) (s t : System) : Prop where
  alike : Alike s t
  tickets : s.tickets = t.tickets
  phase : s.pipeline.active.map Run.phase = t.pipeline.active.map Run.phase
  waits : ∀ l ∈ s.loops, gone l.id = true → l.waiting = .run
  loops : t.loops = s.loops.filter fun l => !gone l.id

namespace Apart

variable {gone : Nat → Bool} {s t : System} {r q : Run}

/-- The caller of a run has no part in it. -/
theorem leave (s : System) : Apart (fun _ => false) s s.leave where
  alike := (Alike.leave s).symm
  tickets := rfl
  phase := by
    simp only [System.leave, System.setActive, Option.map_map]
    rfl
  waits l _ h := by cases h
  loops := (List.filter_eq_self.mpr fun _ _ => rfl).symm

/-- A loop may be ended in the middle of the run that it asked for. -/
theorem stopLoop {id : Nat} (h : ∀ l ∈ s.loops, l.id = id → l.waiting = .run) :
    Apart (fun n => n == id) s (s.stopLoop id) where
  alike := (Alike.abandon s (x := .stopLoop id) rfl).symm
  tickets := rfl
  phase := rfl
  waits l hl hid := h l hl (eq_of_beq hid)
  loops := rfl

theorem cases_active (h : Apart gone s t) :
    (s.pipeline.active = none ∧ t.pipeline.active = none) ∨
    ∃ r q, s.pipeline.active = some r ∧ t.pipeline.active = some q ∧
      r.unattended = q.unattended ∧ r.phase = q.phase := by
  rcases h.alike.cases_active with hnone | ⟨r, q, hs, ht, hr⟩
  · exact .inl hnone
  · have hphase := h.phase
    rw [hs, ht] at hphase
    exact .inr ⟨r, q, hs, ht, hr, Option.some.inj hphase⟩

/-- A loop that has gone waited for no tick. -/
theorem filterMap_tick? (h : Apart gone s t) :
    s.loops.filterMap Loop.tick? = t.loops.filterMap Loop.tick? := by
  rw [h.loops, List.filterMap_filter]
  refine List.filterMap_congr fun l hl => ?_
  cases hgone : gone l.id with
  | false => rfl
  | true =>
    rw [Loop.tick?, h.waits l hl hgone]
    rfl

theorem events (h : Apart gone s t) : s.events = t.events := by
  rw [events_eq, events_eq, h.filterMap_tick?]
  rcases h.cases_active with ⟨hs, ht⟩ | ⟨r, q, hs, ht, -, hphase⟩
  · rw [hs, ht]
  · rw [hs, ht, Option.bind_some, Option.bind_some, hphase]

theorem ready? (h : Apart gone s t) : s.ready? = t.ready? := by
  unfold System.ready?
  rw [h.events, h.alike.now]
  rcases h.cases_active with ⟨hs, ht⟩ | ⟨r, q, hs, ht, -, hphase⟩ <;> simp only [hs, ht]
  rw [hphase]

/-- A run that ends leaves nothing to be shown. -/
theorem of_finish {run : Run} {outcome : Outcome} {p : Prop}
    (h : (s.finish run outcome).pipeline.isRunning = true) : p := by
  rw [finish_idle] at h
  cases h

theorem answered (h : Apart gone s t) (hr : r.unattended = q.unattended)
    (hrunning : (s.answered r).pipeline.isRunning = true) :
    Apart gone (s.answered r) (t.answered q) := by
  have halike := h.alike.answered hr
  unfold System.answered at *
  rw [← h.alike.source] at *
  cases hresult : s.source.result <;> simp only [hresult] at *
  · exact ⟨halike, h.tickets, rfl, h.waits, h.loops⟩
  · exact of_finish hrunning
  · exact of_finish hrunning

theorem fetch (h : Apart gone s t) (hr : r.unattended = q.unattended)
    (hrunning : (s.fetch r).pipeline.isRunning = true) :
    Apart gone (s.fetch r) (t.fetch q) := by
  have halike := h.alike.fetch hr
  have hbegun : Apart gone s.beginFetch t.beginFetch :=
    ⟨h.alike.beginFetch, h.tickets, h.phase, h.waits, h.loops⟩
  have hdue : Phase.fetching (s.now + s.source.delay) s.tickets =
      .fetching (t.now + t.source.delay) t.tickets := by
    rw [h.alike.now, h.alike.source, h.tickets]
  simp only [fetch_eq, h.alike.source] at halike hrunning ⊢
  split
  · rename_i hdelay
    rw [if_pos hdelay] at hrunning
    exact hbegun.answered (h.alike.startedAt hr) hrunning
  · rename_i hdelay
    rw [if_neg hdelay, if_neg hdelay] at halike
    rw [h.alike.source] at hdue
    exact ⟨halike, congrArg (· + 1) h.tickets, congrArg some hdue, h.waits, h.loops⟩

theorem storeNext (h : Apart gone s t) (hr : r.unattended = q.unattended) (fetched : Nat)
    (raw : Json) (left : List Json) (tally : Tally) :
    Apart gone (s.storeNext r fetched raw left tally) (t.storeNext q fetched raw left tally) := by
  have halike := h.alike.storeNext hr fetched raw left tally
  unfold System.storeNext at *
  rw [← h.alike.access, ← h.alike.store] at *
  simp only at *
  split at halike
  · exact ⟨halike, h.tickets, rfl, h.waits, h.loops⟩
  · exact ⟨halike, h.tickets, rfl, h.waits, h.loops⟩

/-- A loop that is refused waits for its next tick. -/
theorem ticked (h : Apart gone s t) (hrunning : s.pipeline.isRunning = true) {loop : Loop}
    (hloop : gone loop.id = false) : Apart gone (s.ticked loop) (t.ticked loop) := by
  have hother : t.pipeline.isRunning = true := h.alike.isRunning ▸ hrunning
  have halike := (Alike.ticked_refused hrunning loop).trans
    (h.alike.trans (Alike.ticked_refused hother loop).symm)
  simp only [System.ticked, admit?_eq_none.mpr hrunning, admit?_eq_none.mpr hother] at halike ⊢
  refine ⟨halike, congrArg (· + 1) h.tickets, h.phase, fun l hl hgone => ?_, ?_⟩
  · obtain ⟨k, hk, rfl⟩ := List.mem_map.mp hl
    split at hgone
    · rw [hloop] at hgone
      cases hgone
    · rename_i hne
      rw [if_neg hne]
      exact h.waits k hk hgone
  · have hkept := filter_relet (fun id => !gone id) s.loops loop
      (nextTick loop.period loop.deadline s.now) (.tick s.tickets)
    simp only [System.await, System.note, h.loops, ← h.tickets, ← h.alike.now]
    exact hkept.symm

theorem apply_tick (h : Apart gone s t) (hrunning : s.pipeline.isRunning = true) {id : Nat}
    (hid : gone id = false) : Apart gone (s.apply (.tick id)) (t.apply (.tick id)) := by
  have hfind : (t.loops.find? fun l => l.id == id) = s.loops.find? fun l => l.id == id := by
    rw [h.loops, List.find?_filter]
    congr 1
    funext l
    cases hl : l.id == id with
    | false => simp
    | true => simp [eq_of_beq hl, hid]
  simp only [System.apply, hfind]
  split
  · rename_i loop hloop
    have hsame : loop.id = id := by simpa using List.find?_some hloop
    exact h.ticked hrunning (hsame ▸ hid)
  · exact h

/-- A move of the run itself, unless it is the run's last. -/
theorem apply (h : Apart gone s t) {m : Move} (hm : m.ofRun = true)
    (hrunning : (s.apply m).pipeline.isRunning = true) : Apart gone (s.apply m) (t.apply m) := by
  rcases h.cases_active with ⟨hs, ht⟩ | ⟨r, q, hs, ht, hr, hphase⟩
  · cases m with
    | tick id => cases hm
    | _ =>
      simp only [System.apply, hs, ht]
      exact h
  cases m with
  | tick id => cases hm
  | begin =>
    cases hq : q.phase <;> rw [hq] at hphase <;>
      simp only [System.apply, hs, ht, hphase, hq] at hrunning ⊢
    · exact h.fetch hr hrunning
    · exact h
    · exact h
  | answer =>
    cases hq : q.phase <;> rw [hq] at hphase <;>
      simp only [System.apply, hs, ht, hphase, hq] at hrunning ⊢
    · exact h
    · exact h.answered hr hrunning
    · exact h
  | store =>
    rcases hq : q.phase with _ | _ | ⟨fetched, _ | ⟨raw, left⟩, tally⟩ <;> rw [hq] at hphase <;>
      simp only [System.apply, hs, ht, hphase, hq]
    · exact h
    · exact h
    · exact h
    · exact h.storeNext hr fetched raw left tally
  | complete =>
    rcases hq : q.phase with _ | _ | ⟨fetched, _ | ⟨raw, left⟩, tally⟩ <;> rw [hq] at hphase <;>
      simp only [System.apply, hs, ht, hphase, hq] at hrunning ⊢
    · exact h
    · exact h
    · exact of_finish hrunning
    · exact h

/-- Only a loop that waits for a tick can have one. -/
theorem tick_waits (h : Apart gone s t) {id : Nat} (hready : s.ready? = some (.tick id)) :
    gone id = false := by
  rcases ready?_cases hready with ⟨_, _, _, _, _, -, -, hm⟩ | ⟨_, _, _, -, -, hm⟩ |
    ⟨_, _, _, -, -, -, hm⟩ | ⟨l, hl, ⟨ticket, hwaiting⟩, -, hm⟩ | ⟨_, -, -, hm⟩ <;> cases hm
  cases hgone : gone l.id with
  | false => rfl
  | true =>
    rw [h.waits l hl hgone] at hwaiting
    cases hwaiting

/-- What is ready is ready in both, and both make the same move. -/
theorem next (h : Apart gone s t) (hrunning : s.pipeline.isRunning = true) :
    Alike s.next t.next ∧ (s.next.pipeline.isRunning = true → Apart gone s.next t.next) := by
  unfold System.next
  rw [← h.ready?]
  cases hready : s.ready? with
  | none =>
    simp only [← h.events]
    cases earliest s.events with
    | none => exact ⟨h.alike, fun _ => h⟩
    | some e =>
      have halike : Alike { s with now := max s.now e.due } { t with now := max t.now e.due } :=
        { h.alike with now := by rw [h.alike.now] }
      exact ⟨halike, fun _ => { h with alike := halike }⟩
  | some m =>
    refine ⟨h.alike.apply hrunning m, fun hnext => ?_⟩
    cases hm : m.ofRun with
    | true => exact h.apply hm hnext
    | false =>
      cases m with
      | tick id => exact h.apply_tick hrunning (h.tick_waits hready)
      | _ => cases hm

/-- What happens next depends on the run and on the loops that are in both. -/
theorem untilFree (h : Apart gone s t) (steps : Nat) :
    Alike (s.untilFree steps) (t.untilFree steps) := by
  induction steps generalizing s t with
  | zero => exact h.alike
  | succ steps ih =>
    cases hrunning : s.pipeline.isRunning with
    | false =>
      rw [untilFree_idle hrunning, untilFree_idle (h.alike.isRunning ▸ hrunning)]
      exact h.alike
    | true =>
      have hother : t.pipeline.isRunning = true := h.alike.isRunning ▸ hrunning
      obtain ⟨halike, hgo⟩ := h.next hrunning
      simp only [System.untilFree, hrunning, hother, if_true]
      cases hnext : s.next.pipeline.isRunning with
      | false =>
        rw [untilFree_idle hnext, untilFree_idle (halike.isRunning ▸ hnext)]
        exact halike
      | true => exact ih (hgo hnext)

end Apart

/-- A run has ended or is the one that holds the guard, and it will have its list within a span. -/
structure Coming (s : System) (n span : Nat) : Prop where
  guarded : s.core.Guarded
  paced : s.Paced
  only : ∀ m rest, s.core.active = some (m, rest) → m = n
  within : s.Within n span

namespace Coming

variable {s : System} {n span : Nat}

theorem apply (h : s.Coming n span) (hrunning : s.pipeline.isRunning = true) (m : Move) :
    (s.apply m).Coming n span := by
  have hstep := apply_step s m
  refine ⟨h.guarded.step hstep, paced_apply h.paced m, fun k rest hk => ?_,
    within_apply h.within m⟩
  cases hactive : s.core.active with
  | none =>
    rw [core_active_eq_none, hrunning] at hactive
    cases hactive
  | some held =>
    obtain ⟨i, before⟩ := held
    have hi := h.only i before hactive
    rcases hstep.same_run hactive with hnone | ⟨rest', hsame⟩
    · rw [hnone] at hk
      cases hk
    · rw [hsame] at hk
      cases hk
      exact hi

/-- While a run waits for its list, the clock stops at the end of the fetch at the latest. -/
theorem clock (h : s.Coming n span) (hrunning : s.pipeline.isRunning = true)
    (hrest : s.ready? = none) : ∃ e nearer, earliest s.events = some e ∧ nearer < span ∧
      Coming { s with now := max s.now e.due } n nearer := by
  obtain ⟨run, hrun⟩ := Option.isSome_iff_exists.mp hrunning
  have hactive := core_active_of_some hrun
  have hnone : s.outcome? n = none := h.only _ _ hactive ▸ h.guarded.lookup_active hactive
  obtain ⟨e, nearer, he, hnearer, hnext⟩ := within_clock h.within hrest hnone
  exact ⟨e, nearer, he, hnearer, h.guarded, h.paced, h.only, hnext⟩

/-- A run that nothing comes in between of comes to an end. -/
theorem exists_free {s : System} {n span : Nat} (h : s.Coming n span) :
    ∃ steps, (s.untilFree steps).pipeline.isRunning = false := by
  cases hrunning : s.pipeline.isRunning with
  | false => exact ⟨0, hrunning⟩
  | true =>
    have hlater : ∀ steps, (s.next.untilFree steps).pipeline.isRunning = false →
        ∃ steps, (s.untilFree steps).pipeline.isRunning = false := by
      intro steps hfree
      refine ⟨steps + 1, ?_⟩
      simp only [untilFree, hrunning, if_true]
      exact hfree
    cases hready : s.ready? with
    | some m =>
      have hless := work_apply h.paced hready
      obtain ⟨steps, hfree⟩ := exists_free (h.apply hrunning m)
      refine hlater steps ?_
      simp only [next, hready]
      exact hfree
    | none =>
      obtain ⟨e, nearer, he, hnearer, hnext⟩ := h.clock hrunning hready
      obtain ⟨steps, hfree⟩ := exists_free hnext
      refine hlater steps ?_
      simp only [next, hready, he]
      exact hfree
termination_by (span, s.work)

end Coming

/-- Whatever a run is at, it has its list within some span. -/
theorem exists_coming {s : System} (hg : s.core.Guarded) (hp : s.Paced) {run : Run}
    (hrun : s.pipeline.active = some run) : ∃ span, s.Coming run.number span := by
  have honly : ∀ m rest, s.core.active = some (m, rest) → m = run.number := by
    intro m rest hm
    rw [core_active_of_some hrun] at hm
    cases hm
    rfl
  cases hphase : run.phase with
  | queued =>
    refine ⟨s.now + s.source.delay, hg, hp, honly, .inr ⟨run, hrun, rfl, ?_⟩⟩
    rw [hphase]
    exact Nat.le_add_left s.source.delay s.now
  | fetching due ticket =>
    refine ⟨due, hg, hp, honly, .inr ⟨run, hrun, rfl, ?_⟩⟩
    rw [hphase]
    exact Nat.le_add_left due s.now
  | storing fetched left tally =>
    refine ⟨0, hg, hp, honly, .inr ⟨run, hrun, rfl, ?_⟩⟩
    rw [hphase]
    trivial

/-- What a run waits for comes within a span of time, and after that the run only stores. -/
theorem exists_untilFree {s : System} (hg : s.core.Guarded) (hp : s.Paced) :
    ∃ steps, (s.untilFree steps).pipeline.isRunning = false := by
  cases hrun : s.pipeline.active with
  | none => exact ⟨0, by rw [untilFree, Pipeline.isRunning, hrun]; rfl⟩
  | some run =>
    obtain ⟨span, hcoming⟩ := exists_coming hg hp hrun
    exact hcoming.exists_free

end System

namespace Scene

/-- Whoever goes away in the middle of a run, and whenever: until no run holds the guard the store is
handed the same records, and at every moment the same can be seen, as if all had stayed. And where
nothing comes in between, a run comes to its end in the same steps and with the same times though its
caller has gone, or the loop that asked for it has been ended, after any of these steps. -/
theorem unattended (source : Source) (store : Store) :
    (∀ hs us, let w := (start source store).after hs
      w.life us = w.life (us.filter fun e => !e.abandons)) ∧
    ∀ ts, let s := (System.start source store).after ts
      (∃ steps, (s.untilFree steps).pipeline.isRunning = false) ∧
      ∀ steps more, let t := s.untilFree steps
        (t.leave.untilFree more).view = (t.untilFree more).view ∧
        ∀ id, (∀ l ∈ t.loops, l.id = id → l.waiting = .run) →
          ((t.stopLoop id).untilFree more).view = (t.untilFree more).view := by
  refine ⟨fun hs us => Alike.life (.refl _) us, fun ts => ?_⟩
  have hg := System.guarded_after (System.guarded_start source store) ts
  have hp := System.paced_after (System.paced_start source store) ts
  refine ⟨System.exists_untilFree hg hp, fun steps more => ⟨?_, fun id hwaits => ?_⟩⟩
  · exact ((System.Apart.leave _).untilFree more).view.symm
  · exact ((System.Apart.stopLoop hwaits).untilFree more).view.symm

/-- A loop is ended while the run that it asked for is at its fetch. -/
theorem unattended_ended :
    let s := (System.start ⟨.ok [], none, 5, 0⟩ .empty).after
      [.startLoop 7 60, .move (.tick 7), .move .begin]
    s.loops.map Loop.id = [7] ∧ (∀ l ∈ s.loops, l.id = 7 → l.waiting = .run) ∧
      (s.stopLoop 7).loops = [] ∧ s.pipeline.isRunning = true ∧
      ((s.stopLoop 7).untilFree 3).view = (s.untilFree 3).view ∧
      (s.untilFree 3).pipeline.isRunning = false := by
  intro s
  have hwaits : ∀ l ∈ s.loops, l.id = 7 → l.waiting = .run := by decide
  obtain ⟨-, hends⟩ := unattended ⟨.ok [], none, 5, 0⟩ .empty
  obtain ⟨-, hsame⟩ := hends [.startLoop 7 60, .move (.tick 7), .move .begin]
  exact ⟨rfl, hwaits, rfl, rfl, (hsame 0 3).2 7 hwaits, rfl⟩

end Scene

end Segments.Sync
