import Segments.Proofs.Recording

namespace Segments.Sync

open Catalog

/-- A phase without its place among what is due at the same moment. -/
def Phase.unattended : Phase → Phase
  | .fetching due _ => .fetching due 0
  | p => p

/-- Phases that are alike are the same but for the ticket of a fetch. -/
theorem Phase.unattended_cases {p o : Phase} (h : p.unattended = o.unattended) :
    (p = .queued ∧ o = .queued) ∨
    (∃ due i j, p = .fetching due i ∧ o = .fetching due j) ∨
    ∃ fetched left tally, p = .storing fetched left tally ∧ o = .storing fetched left tally := by
  cases p <;> cases o <;> simp_all [unattended]

def Run.unattended (r : Run) : Run :=
  { r with caller := .gone, phase := r.phase.unattended }

theorem Run.unattended_eq_iff {r q : Run} : r.unattended = q.unattended ↔
    r.number = q.number ∧ r.startedAt = q.startedAt ∧
      r.phase.unattended = q.phase.unattended := by
  simp only [unattended, Run.mk.injEq, true_and]

/-- Runs that are alike go on alike, whoever waits for them. -/
theorem Run.unattended_phase {r q : Run} (h : r.unattended = q.unattended) {p o : Phase}
    (hp : p.unattended = o.unattended) :
    Run.unattended { r with phase := p } = Run.unattended { q with phase := o } := by
  obtain ⟨hnumber, hstarted, -⟩ := unattended_eq_iff.mp h
  exact unattended_eq_iff.mpr ⟨hnumber, hstarted, hp⟩

namespace System

theorem fetch_eq (s : System) (run : Run) : s.fetch run =
    if s.source.delay = 0 then s.beginFetch.answered { run with startedAt := s.now }
    else
      { s.beginFetch.setActive (some { run with
          startedAt := s.now, phase := .fetching (s.now + s.source.delay) s.tickets }) with
        tickets := s.tickets + 1 } := rfl

/-- Two states that differ in who waits, in what is told, and in nothing that a run works with. -/
structure Alike (s t : System) : Prop where
  now : s.now = t.now
  source : s.source = t.source
  access : s.access = t.access
  store : s.store = t.store
  active : s.pipeline.active.map Run.unattended = t.pipeline.active.map Run.unattended
  lastReport : s.pipeline.lastReport = t.pipeline.lastReport
  lastError : s.pipeline.lastError = t.pipeline.lastError
  runs : s.runs = t.runs
  outcomes : s.outcomes = t.outcomes

namespace Alike

variable {s t u : System} {r q : Run}

theorem refl (s : System) : Alike s s :=
  ⟨rfl, rfl, rfl, rfl, rfl, rfl, rfl, rfl, rfl⟩

theorem symm (h : Alike s t) : Alike t s :=
  ⟨h.now.symm, h.source.symm, h.access.symm, h.store.symm, h.active.symm, h.lastReport.symm,
    h.lastError.symm, h.runs.symm, h.outcomes.symm⟩

theorem trans (h : Alike s t) (h' : Alike t u) : Alike s u :=
  ⟨h.now.trans h'.now, h.source.trans h'.source, h.access.trans h'.access, h.store.trans h'.store,
    h.active.trans h'.active, h.lastReport.trans h'.lastReport, h.lastError.trans h'.lastError,
    h.runs.trans h'.runs, h.outcomes.trans h'.outcomes⟩

theorem isRunning (h : Alike s t) : s.pipeline.isRunning = t.pipeline.isRunning := by
  simpa [Pipeline.isRunning] using congrArg Option.isSome h.active

/-- The active runs differ at most in who waits for them. -/
theorem cases_active (h : Alike s t) :
    (s.pipeline.active = none ∧ t.pipeline.active = none) ∨
    ∃ r q, s.pipeline.active = some r ∧ t.pipeline.active = some q ∧
      r.unattended = q.unattended := by
  have hactive := h.active
  cases hs : s.pipeline.active with
  | none =>
    rw [hs] at hactive
    exact .inl ⟨rfl, Option.map_eq_none_iff.mp hactive.symm⟩
  | some r =>
    rw [hs] at hactive
    obtain ⟨q, hq, hrq⟩ := Option.map_eq_some_iff.mp hactive.symm
    exact .inr ⟨r, q, rfl, hq, hrq.symm⟩

theorem note (h : Alike s t) (n m : Log.Notice) : Alike (s.note n) (t.note m) :=
  { h with }

theorem setActive (h : Alike s t) {a b : Option Run}
    (hab : a.map Run.unattended = b.map Run.unattended) :
    Alike (s.setActive a) (t.setActive b) :=
  { h with active := hab }

/-- Only a loop is told, and who is told is not compared. -/
theorem resume (s : System) (id : Nat) (outcome : Outcome) : Alike (s.resume id outcome) s := by
  unfold System.resume
  split
  · exact refl s
  · rcases outcome with f | r
    · cases f <;> exact { refl s with }
    · exact { refl s with }

/-- A run ends in the same way whoever is told of it. -/
theorem finish (h : Alike s t) (hr : r.unattended = q.unattended) (outcome : Outcome) :
    Alike (s.finish r outcome) (t.finish q outcome) := by
  have hrecorded : ∀ (s : System) (r : Run), Alike (s.finish r outcome)
      { s with
        pipeline := s.pipeline.finish outcome
        outcomes := (r.number, outcome) :: s.outcomes } := by
    intro s r
    unfold System.finish
    simp only
    split
    · exact resume _ _ _
    · exact { refl _ with }
    · exact refl _
  obtain ⟨hnumber, -⟩ := Run.unattended_eq_iff.mp hr
  refine (hrecorded s r).trans (.trans ?_ (hrecorded t q).symm)
  have houtcomes : (r.number, outcome) :: s.outcomes = (q.number, outcome) :: t.outcomes := by
    rw [hnumber, h.outcomes]
  rcases outcome with f | report
  · cases f <;>
      exact { h with active := rfl, lastError := by first | rfl | exact h.lastError, outcomes := houtcomes }
  · exact { h with active := rfl, lastReport := rfl, lastError := rfl, outcomes := houtcomes }

theorem answered (h : Alike s t) (hr : r.unattended = q.unattended) :
    Alike (s.answered r) (t.answered q) := by
  unfold System.answered
  rw [h.source]
  cases t.source.result with
  | products list => exact h.setActive (congrArg some (Run.unattended_phase hr rfl))
  | failed f => exact (h.note _ _).finish hr _
  | crashed reason => exact h.finish hr _

theorem beginFetch (h : Alike s t) : Alike s.beginFetch t.beginFetch :=
  { h with source := by simp only [System.beginFetch, h.source] }

theorem startedAt (h : Alike s t) (hr : r.unattended = q.unattended) :
    ({ r with startedAt := s.now } : Run).unattended =
      ({ q with startedAt := t.now } : Run).unattended := by
  obtain ⟨hnumber, -, hphase⟩ := Run.unattended_eq_iff.mp hr
  exact Run.unattended_eq_iff.mpr ⟨hnumber, h.now, hphase⟩

theorem fetch (h : Alike s t) (hr : r.unattended = q.unattended) :
    Alike (s.fetch r) (t.fetch q) := by
  have hbegun := h.beginFetch
  have hstart := h.startedAt hr
  have hdue : (Phase.fetching (s.now + s.source.delay) s.tickets).unattended =
      (Phase.fetching (t.now + t.source.delay) t.tickets).unattended := by
    simp only [Phase.unattended, h.now, h.source]
  rw [fetch_eq, fetch_eq, congrArg Source.delay h.source]
  split
  · exact hbegun.answered hstart
  · rw [congrArg Source.delay h.source] at hdue
    exact { hbegun with active := congrArg some (Run.unattended_phase hstart hdue) }

/-- A product is judged by the store, which is the same in both. -/
theorem storeNext (h : Alike s t) (hr : r.unattended = q.unattended) (fetched : Nat) (raw : Json)
    (left : List Json) (tally : Tally) :
    Alike (s.storeNext r fetched raw left tally) (t.storeNext q fetched raw left tally) := by
  have hactive := congrArg some (Run.unattended_phase hr
    (rfl : (Phase.storing fetched left (take s.access s.store tally raw).tally).unattended = _))
  unfold System.storeNext
  rw [← h.access, ← h.store]
  simp only
  split
  · exact { h with access := rfl, store := rfl, active := hactive }
  · exact { h with access := rfl, store := rfl, active := hactive }

theorem completed (h : Alike s t) (hr : r.unattended = q.unattended) (fetched : Nat)
    (tally : Tally) : Alike (s.completed r fetched tally) (t.completed q fetched tally) := by
  obtain ⟨-, hstarted, -⟩ := Run.unattended_eq_iff.mp hr
  unfold System.completed
  rw [hstarted, h.now]
  exact (h.note _ _).finish hr _

/-- A loop that is refused is told so, and asks again later. -/
theorem ticked_refused (hrunning : s.pipeline.isRunning = true) (loop : Loop) :
    Alike (s.ticked loop) s := by
  unfold System.ticked
  simp only [admit?_eq_none.mpr hrunning]
  exact { refl s with }

/-- A tick while a run holds the guard is refused, and moves nothing but the loop. -/
theorem apply_tick (hrunning : s.pipeline.isRunning = true) (id : Nat) :
    Alike (s.apply (.tick id)) s := by
  simp only [System.apply]
  split
  · exact ticked_refused hrunning _
  · exact refl s

/-- A run makes the same move whoever waits for it. -/
theorem apply (h : Alike s t) (hrunning : s.pipeline.isRunning = true) (m : Move) :
    Alike (s.apply m) (t.apply m) := by
  rcases h.cases_active with ⟨hs, -⟩ | ⟨r, q, hs, ht, hr⟩
  · rw [Pipeline.isRunning, hs] at hrunning
    cases hrunning
  obtain ⟨-, -, hphase⟩ := Run.unattended_eq_iff.mp hr
  cases m with
  | tick id =>
    exact (apply_tick hrunning id).trans (h.trans (apply_tick (h.isRunning ▸ hrunning) id).symm)
  | begin =>
    rcases Phase.unattended_cases hphase with
        ⟨hp, hq⟩ | ⟨_, _, _, hp, hq⟩ | ⟨_, _, _, hp, hq⟩ <;>
      simp only [System.apply, hs, ht, hp, hq]
    · exact h.fetch hr
    all_goals exact h
  | answer =>
    rcases Phase.unattended_cases hphase with
        ⟨hp, hq⟩ | ⟨_, _, _, hp, hq⟩ | ⟨_, _, _, hp, hq⟩ <;>
      simp only [System.apply, hs, ht, hp, hq]
    · exact h
    · exact h.answered hr
    · exact h
  | store =>
    rcases Phase.unattended_cases hphase with
        ⟨hp, hq⟩ | ⟨_, _, _, hp, hq⟩ | ⟨_, left, _, hp, hq⟩ <;>
      simp only [System.apply, hs, ht, hp, hq]
    · exact h
    · exact h
    · cases left with
      | nil => exact h
      | cons raw left => exact h.storeNext hr _ raw left _
  | complete =>
    rcases Phase.unattended_cases hphase with
        ⟨hp, hq⟩ | ⟨_, _, _, hp, hq⟩ | ⟨_, left, _, hp, hq⟩ <;>
      simp only [System.apply, hs, ht, hp, hq]
    · exact h
    · exact h
    · cases left with
      | nil => exact h.completed hr _ _
      | cons raw left => exact h

theorem leave (s : System) : Alike s.leave s := by
  refine { refl s with active := ?_ }
  simp only [System.leave, System.setActive, Option.map_map]
  rfl

theorem evaluate (h : Alike s t) (texts : Option (List String)) :
    Alike (s.evaluate texts).1 (t.evaluate texts).1 := by
  obtain ⟨log, hs⟩ := s.evaluate_state texts
  obtain ⟨other, ht⟩ := t.evaluate_state texts
  rw [hs, ht]
  exact { h with }

/-- While a run holds the guard no turn tells such states apart. -/
theorem turn (h : Alike s t) (hrunning : s.pipeline.isRunning = true) (x : Turn) :
    Alike (s.turn x) (t.turn x) := by
  cases x with
  | call caller =>
    rw [(turn_refused hrunning).1, (turn_refused (h.isRunning ▸ hrunning)).1]
    exact h
  | move m => exact h.apply hrunning m
  | leave => exact (leave s).trans (h.trans (leave t).symm)
  | die reason =>
    rcases h.cases_active with ⟨hs, ht⟩ | ⟨r, q, hs, ht, hr⟩ <;> simp only [System.turn, hs, ht]
    · exact h
    · exact h.finish hr _
  | serve answer crash delay =>
    exact { h with source := by simp only [System.turn, h.source] }
  | allow access => exact { h with access := rfl }
  | clock moment => exact { h with now := rfl }
  | evaluate texts => exact h.evaluate texts
  | _ => exact { h with }

/-- The storefront fails both fetches or neither. -/
theorem refused? (h : Alike s t) :
    s.refused? = none ∧ t.refused? = none ∨
    ∃ s' t' outcome, s.refused? = some (s', outcome) ∧ t.refused? = some (t', outcome) ∧
      Alike s' t' := by
  unfold System.refused?
  rw [h.source]
  cases t.source.result with
  | failed f => exact .inr ⟨_, _, _, rfl, rfl, h.note _ _⟩
  | _ => exact .inl ⟨rfl, rfl⟩

/-- A run comes to the end of its work with the same outcome whoever waits for it. -/
theorem closing? (h : Alike s t) (hr : r.unattended = q.unattended) :
    s.closing? r = none ∧ t.closing? q = none ∨
    ∃ s' t' outcome, s.closing? r = some (s', outcome) ∧ t.closing? q = some (t', outcome) ∧
      Alike s' t' := by
  obtain ⟨-, hstarted, hphase⟩ := Run.unattended_eq_iff.mp hr
  have hdelay : s.source.delay = t.source.delay := congrArg Source.delay h.source
  unfold System.closing?
  rcases Phase.unattended_cases hphase with
      ⟨hp, hq⟩ | ⟨_, _, _, hp, hq⟩ | ⟨_, left, _, hp, hq⟩ <;>
    simp only [hp, hq]
  · rw [hdelay]
    split
    · exact h.beginFetch.refused?
    · exact .inl ⟨rfl, rfl⟩
  · exact h.refused?
  · cases left with
    | nil => exact .inr ⟨_, _, _, rfl, by rw [hstarted, h.now], h.note _ _⟩
    | cons raw left => exact .inl ⟨rfl, rfl⟩

end Alike

end System

namespace Scene

/-- Two scenes that differ in who waits, in what is told, and in nothing that a run works with. -/
structure Alike (w v : Scene) : Prop where
  system : System.Alike w.system v.system
  ending : w.ending = v.ending
  asides : w.asides = v.asides
  returned : w.returned = v.returned

namespace Alike

variable {w v : Scene}

theorem refl (w : Scene) : Alike w w :=
  ⟨.refl _, rfl, rfl, rfl⟩

theorem trans {u : Scene} (h : Alike w v) (h' : Alike v u) : Alike w u :=
  ⟨h.system.trans h'.system, h.ending.trans h'.ending, h.asides.trans h'.asides,
    h.returned.trans h'.returned⟩

theorem note (h : Alike w v) (n m : Log.Notice) :
    Alike { w with system := w.system.note n } { v with system := v.system.note m } :=
  { h with system := h.system.note n m }

theorem endAside (h : Alike w v) (place : Nat) (outcome : Outcome) :
    Alike (w.endAside place outcome) (v.endAside place outcome) :=
  { h with
    asides := by simp only [Scene.endAside, h.asides]
    returned := by simp only [Scene.endAside, h.returned] }

theorem goOn (h : Alike w v) (place : Nat) (refusal : Record → Option Failure) (a : Aside) :
    Alike (w.goOn place refusal a) (v.goOn place refusal a) := by
  cases a with
  | fetching startedAt =>
    simp only [Scene.goOn, h.system.source]
    cases v.system.source.result with
    | products list => exact { h with asides := by rw [h.asides] }
    | failed f => exact (h.note _ _).endAside place _
    | crashed reason => exact { h with asides := by rw [h.asides] }
  | storing startedAt fetched left tally =>
    cases left with
    | nil =>
      simp only [Scene.goOn, h.system.now]
      exact (h.note _ _).endAside place _
    | cons raw left =>
      simp only [Scene.goOn, h.system.store]
      split
      · exact { h with
          system := { h.system with store := rfl }
          asides := by rw [h.asides] }
      · exact { h with
          system := { h.system with store := rfl }
          asides := by rw [h.asides] }

/-- While a run holds the guard nothing that happens tells such scenes apart. -/
theorem happen (h : Alike w v) (hrunning : w.system.pipeline.isRunning = true) (e : Happening) :
    Alike (w.happen e) (v.happen e) := by
  cases e with
  | turn x =>
    simp only [Scene.happen, h.ending]
    split
    · exact h
    · exact { h with system := h.system.turn hrunning x, ending := rfl }
  | close =>
    simp only [Scene.happen, h.ending]
    rcases h.system.cases_active with ⟨hs, ht⟩ | ⟨r, q, hs, ht, hr⟩ <;> rw [hs, ht]
    · cases v.ending <;> exact h
    · cases v.ending with
      | some outcome => exact h
      | none =>
        rcases h.system.closing? hr with ⟨hs, ht⟩ | ⟨s, t, outcome, hs, ht, hst⟩ <;>
          simp only [hs, ht]
        · exact h
        · exact { h with system := hst, ending := rfl }
  | record =>
    simp only [Scene.happen, h.ending]
    rcases h.system.cases_active with ⟨hs, ht⟩ | ⟨r, q, hs, ht, hr⟩ <;> rw [hs, ht]
    · cases v.ending <;> exact h
    · cases v.ending with
      | none => exact h
      | some outcome => exact { h with system := h.system.finish hr _, ending := rfl }
  | beginAside =>
    exact { h with
      system := h.system.beginFetch
      asides := by simp only [Scene.happen, h.asides, h.system.now] }
  | aside place refusal =>
    simp only [Scene.happen, h.asides]
    split
    · exact h.goOn place refusal _
    · exact h
  | dropAside place => exact { h with asides := by simp only [Scene.happen, h.asides] }

end Alike

end Scene

namespace Turn

/-- A caller of the active run goes away, or a loop is ended, which may be one that waits for it. -/
def abandons : Turn → Bool
  | .leave => true
  | .stopLoop _ => true
  | _ => false

end Turn

namespace Happening

def abandons : Happening → Bool
  | .turn t => t.abandons
  | _ => false

end Happening

/-- What can be seen of runs at a moment. -/
structure View where
  now : Nat
  store : Store
  /-- The run that holds the guard. -/
  running : Option Nat
  lastReport : Option Report
  lastError : Option String
  outcomes : List (Nat × Outcome)

namespace System

def view (s : System) : View where
  now := s.now
  store := s.store
  running := s.pipeline.active.map Run.number
  lastReport := s.pipeline.lastReport
  lastError := s.pipeline.lastError
  outcomes := s.outcomes

def issues? (s : System) : Turn → Option Record
  | .move .store =>
    s.pipeline.active.bind fun run =>
      match run.phase with
      | .storing _ (raw :: _) _ => (Storefront.normalize raw).toOption
      | _ => none
  | _ => none

namespace Alike

variable {s t : System}

theorem view (h : Alike s t) : s.view = t.view := by
  have hrunning : s.pipeline.active.map Run.number = t.pipeline.active.map Run.number := by
    rcases h.cases_active with ⟨hs, ht⟩ | ⟨r, q, hs, ht, hr⟩ <;> rw [hs, ht]
    exact congrArg some (Run.unattended_eq_iff.mp hr).1
  simp only [System.view, h.now, h.store, hrunning, h.lastReport, h.lastError, h.outcomes]

theorem issues? (h : Alike s t) (x : Turn) : s.issues? x = t.issues? x := by
  cases x with
  | move m =>
    cases m with
    | store =>
      rcases h.cases_active with ⟨hs, ht⟩ | ⟨r, q, hs, ht, hr⟩ <;>
        simp only [System.issues?, hs, ht, Option.bind_some]
      obtain ⟨-, -, hphase⟩ := Run.unattended_eq_iff.mp hr
      rcases Phase.unattended_cases hphase with
          ⟨hp, hq⟩ | ⟨_, _, _, hp, hq⟩ | ⟨_, _, _, hp, hq⟩ <;>
        rw [hp, hq]
    | _ => rfl
  | _ => rfl

/-- Whoever goes away changes nothing that a run works with. -/
theorem abandon (s : System) {x : Turn} (hx : x.abandons = true) : Alike (s.turn x) s := by
  cases x with
  | leave => exact leave s
  | stopLoop id => exact { refl s with }
  | _ => cases hx

end Alike

end System

namespace Scene

/-- The record that is handed to the store, by the run with the guard or by one without. -/
def issues? (w : Scene) : Happening → Option Record
  | .turn t => if w.ending.isSome && t.ofRun then none else w.system.issues? t
  | .aside place _ =>
    match w.asides[place]? with
    | some (.storing _ _ (raw :: _) _) => (Storefront.normalize raw).toOption
    | _ => none
  | _ => none

/-- What can be seen and what is handed to the store, step by step, until no run holds the guard.
That somebody goes away is no step of it. -/
def life (w : Scene) : List Happening → List (View × Option Record)
  | [] => [(w.system.view, none)]
  | h :: hs =>
    if w.system.pipeline.isRunning then
      if h.abandons then (w.happen h).life hs
      else (w.system.view, w.issues? h) :: (w.happen h).life hs
    else [(w.system.view, none)]

namespace Alike

variable {w v : Scene}

theorem issues? (h : Alike w v) (e : Happening) : w.issues? e = v.issues? e := by
  cases e with
  | turn x => simp only [Scene.issues?, h.ending, h.system.issues? x]
  | aside place refusal => simp only [Scene.issues?, h.asides]
  | _ => rfl

/-- Who goes away was waiting, and did nothing else. -/
theorem abandon (w : Scene) {e : Happening} (he : e.abandons = true) : Alike (w.happen e) w := by
  cases e with
  | turn x =>
    simp only [Scene.happen]
    split
    · exact refl w
    · have hkills : x.kills = false := by cases x <;> first | rfl | cases he
      refine ⟨.abandon _ he, ?_, rfl, rfl⟩
      simp [hkills]
  | _ => cases he

/-- Nothing more is looked at once no run holds the guard. -/
theorem life_idle (hidle : w.system.pipeline.isRunning = false) (hs : List Happening) :
    w.life hs = [(w.system.view, none)] := by
  cases hs with
  | nil => rfl
  | cons e hs => simp [Scene.life, hidle]

/-- The life of a run is that without those that go away. -/
theorem life (h : Alike w v) (hs : List Happening) :
    w.life hs = v.life (hs.filter fun e => !e.abandons) := by
  induction hs generalizing w v with
  | nil => simp only [Scene.life, List.filter_nil, h.system.view]
  | cons e hs ih =>
    cases hrunning : w.system.pipeline.isRunning with
    | false =>
      rw [life_idle hrunning, life_idle (h.system.isRunning ▸ hrunning), h.system.view]
    | true =>
      have hother : v.system.pipeline.isRunning = true := h.system.isRunning ▸ hrunning
      cases he : e.abandons with
      | true =>
        rw [List.filter_cons_of_neg (by simp [he])]
        simp only [Scene.life, hrunning, he, if_true]
        exact ih ((abandon w he).trans h)
      | false =>
        rw [List.filter_cons_of_pos (by simp [he])]
        simp only [Scene.life, hrunning, hother, he, if_true, Bool.false_eq_true, if_false]
        rw [h.system.view, h.issues? e, ih (h.happen hrunning e)]

end Alike

end Scene

end Segments.Sync
