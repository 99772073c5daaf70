import Segments.Proofs.Contents
import Segments.Sync.Calls

namespace Segments.Sync

inductive Turn
  /-- Somebody asks for a guarded run. -/
  | call (caller : Caller)
  /-- The active run goes on, or a loop has its tick. -/
  | move (move : System.Move)
  /-- The caller of the active run goes away. -/
  | leave
  /-- The task of the active run dies, wherever it is. -/
  | die (reason : String)
  /-- From now on the storefront answers so. -/
  | serve (answer : Except String (List Json)) (crash : Option String) (delay : Nat)
  /-- From now on the store lets through these writes. -/
  | allow (access : Access)
  | clock (moment : Nat)
  | startLoop (id every : Nat)
  | stopLoop (id : Nat)
  | evaluate (texts : Option (List String))
  /-- Something is told that changes nothing else. -/
  | note (notice : Log.Notice)
  | takeLog

inductive Entry
  /-- The storefront listed these products to the run of this number. -/
  | listed (run : Nat) (list : List Json)
  /-- The run took a product, which was stored or not. -/
  | took (run : Nat) (raw : Json) (stored : Bool)

namespace System

def addLoop (s : System) (id every : Nat) : System :=
  let period := periodOf every
  let s := s.note (.scheduleStarted (period / 1000))
  { s with tickets := s.tickets + 1, loops := s.loops ++ [⟨id, period, s.now, .tick s.tickets⟩] }

/-- A call that is refused changes nothing. -/
def turn (s : System) : Turn → System
  | .call caller => (s.admit? caller).getD s
  | .move m => s.apply m
  | .leave => s.leave
  | .die reason =>
    match s.pipeline.active with
    | some run => s.finish run (.error (.aborted reason))
    | none => s
  | .serve answer crash delay => { s with source := { s.source with answer, crash, delay } }
  | .allow access => { s with access }
  | .clock moment => { s with now := moment }
  | .startLoop id every => s.addLoop id every
  | .stopLoop id => s.stopLoop id
  | .evaluate texts => (s.evaluate texts).1
  | .note n => s.note n
  | .takeLog => s.takeLog.1

def after (s : System) (ts : List Turn) : System :=
  ts.foldl turn s

/-- What every move that is ready preserves is preserved while a moment settles. -/
theorem settleFor_preserves {p : System → Prop}
    (hmove : ∀ s m, s.ready? = some m → p s → p (s.apply m)) (fuel : Nat) {s : System} (h : p s) :
    p (settleFor fuel s) := by
  induction fuel generalizing s with
  | zero => exact h
  | succ fuel ih =>
    unfold settleFor
    split
    · exact ih (hmove s _ (by assumption) h)
    · exact h

/-- What the clock preserves too, as it goes on to the next moment, is preserved as time passes. -/
theorem passFor_preserves {p : System → Prop}
    (hmove : ∀ s m, s.ready? = some m → p s → p (s.apply m))
    (hclock : ∀ s e, earliest s.events = some e → p s → p { s with now := max s.now e.due })
    (done : System → Bool) (limit : Option Nat) (fuel : Nat) {s : System} (h : p s) :
    p (passFor done limit fuel s) := by
  induction fuel generalizing s with
  | zero => exact h
  | succ fuel ih =>
    have hsettled : p s.settle := settleFor_preserves hmove _ h
    unfold passFor
    simp only
    split
    · exact hsettled
    · split
      · exact hsettled
      · rename_i e he
        split
        · split
          · exact ih (hclock _ e he hsettled)
          · exact hsettled
        · exact ih (hclock _ e he hsettled)

/-- Whether the store would take the record of a product now, if the product has one. -/
def stores (s : System) (raw : Json) : Bool :=
  match Storefront.normalize raw with
  | .ok r => (s.access.insert s.store r).isOk
  | .error _ => false

def listing? (s : System) (run : Run) : Option Entry :=
  match s.source.result with
  | .products list => some (.listed run.number list)
  | _ => none

def doing? (s : System) : Turn → Option Entry
  | .move .begin =>
    s.pipeline.active.bind fun run =>
      match run.phase with
      | .queued => if s.source.delay = 0 then s.listing? run else none
      | _ => none
  | .move .answer =>
    s.pipeline.active.bind fun run =>
      match run.phase with
      | .fetching _ _ => s.listing? run
      | _ => none
  | .move .store =>
    s.pipeline.active.bind fun run =>
      match run.phase with
      | .storing _ (raw :: _) _ => some (.took run.number raw (s.stores raw))
      | _ => none
  | _ => none

def journal (s : System) : List Turn → List Entry
  | [] => []
  | t :: ts => (s.doing? t).toList ++ (s.turn t).journal ts

theorem after_append (s : System) (ts us : List Turn) :
    s.after (ts ++ us) = (s.after ts).after us :=
  List.foldl_append

end System

/-- The products that a run has still to take, once it has its list. -/
def Phase.left? : Phase → Option (List Json)
  | .storing _ left _ => some left
  | _ => none

/-- A store after a product: a product that has a record and is stored replaces the whole record
of its id, any other does nothing. -/
def written (store : Store) (raw : Json) (stored : Bool) : Store :=
  match Storefront.normalize raw, stored with
  | .ok r, true => store.insert r
  | _, _ => store

/-- What runs leave behind, and where the active one is. -/
structure Core where
  store : Store
  /-- The number of the run that holds the guard, and what it has still to take. -/
  active : Option (Nat × Option (List Json))
  runs : Nat
  outcomes : List (Nat × Outcome)
  lastReport : Option Report
  lastError : Option String

namespace Core

def ended (c : Core) (run : Nat) (outcome : Outcome) : Core :=
  let p := Pipeline.finish ⟨none, c.lastReport, c.lastError⟩ outcome
  { c with
    active := none
    outcomes := (run, outcome) :: c.outcomes
    lastReport := p.lastReport
    lastError := p.lastError }

inductive Step : Core → Option Entry → Core → Prop
  | still (c : Core) : Step c none c
  | admitted {c : Core} (h : c.active = none) :
      Step c none { c with active := some (c.runs, none), runs := c.runs + 1 }
  | listed {c : Core} {n : Nat} (h : c.active = some (n, none)) (list : List Json) :
      Step c (some (.listed n list)) { c with active := some (n, some list) }
  | took {c : Core} {n : Nat} {raw : Json} {left : List Json}
      (h : c.active = some (n, some (raw :: left))) (stored : Bool) :
      Step c (some (.took n raw stored))
        { c with active := some (n, some left), store := written c.store raw stored }
  | completed {c : Core} {n : Nat} (h : c.active = some (n, some [])) (report : Report) :
      Step c none (c.ended n (.ok report))
  | failed {c : Core} {n : Nat} (h : c.active = some (n, none)) (reason : String) :
      Step c none (c.ended n (.error (.fetch reason)))
  | died {c : Core} {n : Nat} {rest : Option (List Json)} (h : c.active = some (n, rest))
      (reason : String) : Step c none (c.ended n (.error (.aborted reason)))

end Core

namespace System

def core (s : System) : Core where
  store := s.store
  active := s.pipeline.active.map fun run => (run.number, run.phase.left?)
  runs := s.runs
  outcomes := s.outcomes
  lastReport := s.pipeline.lastReport
  lastError := s.pipeline.lastError

@[simp] theorem core_note (s : System) (n : Log.Notice) : (s.note n).core = s.core := rfl

@[simp] theorem core_resume (s : System) (id : Nat) (outcome : Outcome) :
    (s.resume id outcome).core = s.core := by
  unfold resume
  split
  · rfl
  · rcases outcome with f | r
    · cases f <;> rfl
    · rfl

/-- Whoever asked for the run, its end is the same to other runs. -/
theorem core_finish (s : System) (run : Run) (outcome : Outcome) :
    (s.finish run outcome).core = s.core.ended run.number outcome := by
  have h : ({ s with
      pipeline := s.pipeline.finish outcome
      outcomes := (run.number, outcome) :: s.outcomes } : System).core =
      s.core.ended run.number outcome := by
    rcases outcome with f | r
    · cases f <;> rfl
    · rfl
  rw [← h]
  unfold finish
  simp only
  split
  · exact core_resume _ _ _
  · rfl
  · rfl

@[simp] theorem core_leave (s : System) : s.leave.core = s.core := by
  unfold leave core setActive
  cases s.pipeline.active <;> rfl

theorem dropped_state (skips : List Condition.Skip) (s : System) : ∃ log,
    skips.foldl (fun s skip => s.note (.conditionDropped skip)) s = { s with log } := by
  induction skips generalizing s with
  | nil => exact ⟨s.log, rfl⟩
  | cons skip skips ih => exact ih _

/-- Reading a segment leaves nothing behind but notices. -/
theorem evaluate_state (s : System) (texts : Option (List String)) :
    ∃ log, (s.evaluate texts).1 = { s with log } := by
  cases texts with
  | none => exact ⟨s.log, rfl⟩
  | some cs =>
    obtain ⟨log, hlog⟩ := dropped_state (Condition.compile cs).skipped s
    refine ⟨.evaluating (Condition.compile cs).conditions.length :: log, ?_⟩
    simp only [evaluate, hlog]
    rfl

@[simp] theorem core_evaluate (s : System) (texts : Option (List String)) :
    (s.evaluate texts).1.core = s.core := by
  obtain ⟨log, h⟩ := s.evaluate_state texts
  rw [h]
  rfl

theorem core_active_of_some {s : System} {run : Run} (h : s.pipeline.active = some run) :
    s.core.active = some (run.number, run.phase.left?) := by
  simp [core, h]

theorem core_active_eq_none {s : System} : s.core.active = none ↔ s.pipeline.isRunning = false := by
  cases h : s.pipeline.active <;> simp [core, Pipeline.isRunning, h]

theorem finish_idle (s : System) (run : Run) (outcome : Outcome) :
    (s.finish run outcome).pipeline.isRunning = false := by
  rw [← core_active_eq_none, core_finish]
  rfl

theorem admit?_eq_none {s : System} {caller : Caller} :
    s.admit? caller = none ↔ s.pipeline.isRunning = true := by
  unfold admit?
  split <;> simp_all

theorem core_admit {s t : System} {caller : Caller} (h : s.admit? caller = some t) :
    s.core.active = none ∧
      t.core = { s.core with active := some (s.runs, none), runs := s.runs + 1 } := by
  unfold admit? at h
  split at h
  · cases h
  · rename_i hidle
    cases h
    exact ⟨core_active_eq_none.mpr (by simpa using hidle), rfl⟩

/-- The end of a fetch: a list, a failure, or the end of the task. -/
theorem answered_step {s : System} {run : Run} (h : s.core.active = some (run.number, none)) :
    Core.Step s.core (s.listing? run) (s.answered run).core := by
  unfold answered listing?
  cases hr : s.source.result with
  | products list => exact .listed h list
  | failed f =>
    obtain ⟨reason, rfl⟩ : ∃ reason, f = .fetch reason := by
      unfold Source.result at hr
      split at hr <;> cases hr
      exact ⟨_, rfl⟩
    simp only [core_finish, core_note]
    exact .failed h reason
  | crashed reason =>
    simp only [core_finish]
    exact .died h reason

theorem fetch_step {s : System} {run : Run} (h : s.core.active = some (run.number, none)) :
    Core.Step s.core (if s.source.delay = 0 then s.listing? run else none) (s.fetch run).core := by
  unfold fetch
  simp only
  split
  · exact @answered_step { s.note .syncStarted with
      source := { s.source with fetches := s.source.fetches + 1 } }
      { run with startedAt := s.now } h
  · have hcore : s.core = { s.core with active := some (run.number, none) } := by rw [← h]
    rw [hcore]
    exact .still _

/-- A product is written just if the store takes the record that it has. -/
theorem store_take (s : System) (tally : Tally) (raw : Json) :
    (take s.access s.store tally raw).store = written s.store raw (s.stores raw) := by
  unfold take takeWith written stores Access.insert
  cases Storefront.normalize raw with
  | error e => rfl
  | ok r => cases h : s.access.refusal? r <;> simp [h, Except.isOk, Except.toBool]

theorem storeNext_step {s : System} {run : Run} {raw : Json} {left : List Json}
    (h : s.core.active = some (run.number, some (raw :: left))) (fetched : Nat) (tally : Tally) :
    Core.Step s.core (some (.took run.number raw (s.stores raw)))
      (s.storeNext run fetched raw left tally).core := by
  have hcore : (s.storeNext run fetched raw left tally).core =
      { s.core with
        active := some (run.number, some left)
        store := written s.core.store raw (s.stores raw) } := by
    have hstore : s.core.store = s.store := rfl
    rw [hstore, ← store_take s tally raw]
    unfold storeNext
    simp only
    split <;> rfl
  rw [hcore]
  exact .took h _

theorem completed_step {s : System} {run : Run} (h : s.core.active = some (run.number, some []))
    (fetched : Nat) (tally : Tally) :
    Core.Step s.core none (s.completed run fetched tally).core := by
  unfold completed
  simp only [core_finish, core_note]
  exact .completed h _

theorem ticked_step (s : System) (loop : Loop) : Core.Step s.core none (s.ticked loop).core := by
  unfold ticked
  simp only
  split
  · exact .still _
  · rename_i t ht
    obtain ⟨hidle, hcore⟩ := core_admit ht
    have hloops : ∀ loops : List Loop, ({ t with loops } : System).core = t.core := fun _ => rfl
    rw [hloops, hcore]
    exact .admitted hidle

/-- Every kind of move is one of the steps, with the entry that it makes. -/
theorem apply_step (s : System) (m : Move) :
    Core.Step s.core (s.doing? (.move m)) (s.apply m).core := by
  cases hrun : s.pipeline.active with
  | none =>
    cases m with
    | tick id =>
      unfold apply
      simp only [doing?]
      split
      · exact ticked_step s _
      · exact .still _
    | _ =>
      simp only [apply, doing?, hrun, Option.bind_none]
      exact .still _
  | some run =>
    have hactive := core_active_of_some hrun
    cases m with
    | tick id =>
      unfold apply
      simp only [doing?]
      split
      · exact ticked_step s _
      · exact .still _
    | begin =>
      simp only [apply, doing?, hrun, Option.bind_some]
      cases hphase : run.phase with
      | queued =>
        rw [hphase] at hactive
        exact fetch_step hactive
      | _ => exact .still _
    | answer =>
      simp only [apply, doing?, hrun, Option.bind_some]
      cases hphase : run.phase with
      | fetching due ticket =>
        rw [hphase] at hactive
        exact answered_step hactive
      | _ => exact .still _
    | store =>
      simp only [apply, doing?, hrun, Option.bind_some]
      cases hphase : run.phase with
      | storing fetched left tally =>
        rw [hphase] at hactive
        cases left with
        | nil => exact .still _
        | cons raw left => exact storeNext_step hactive fetched tally
      | _ => exact .still _
    | complete =>
      simp only [apply, doing?, hrun]
      cases hphase : run.phase with
      | storing fetched left tally =>
        rw [hphase] at hactive
        cases left with
        | nil => exact completed_step hactive fetched tally
        | cons raw left => exact .still _
      | _ => exact .still _

/-- Every turn is a step. -/
theorem turn_step (s : System) (t : Turn) : Core.Step s.core (s.doing? t) (s.turn t).core := by
  cases t with
  | call caller =>
    simp only [turn, doing?]
    cases ht : s.admit? caller with
    | none => exact .still _
    | some t =>
      obtain ⟨hidle, hcore⟩ := core_admit ht
      rw [Option.getD_some, hcore]
      exact .admitted hidle
  | move m => exact apply_step s m
  | leave =>
    rw [turn, core_leave]
    exact .still _
  | die reason =>
    simp only [turn, doing?]
    cases hrun : s.pipeline.active with
    | none => exact .still _
    | some run =>
      simp only [core_finish]
      exact .died (core_active_of_some hrun) reason
  | evaluate texts =>
    rw [turn, core_evaluate]
    exact .still _
  | _ => exact .still _

end System

end Segments.Sync
