import Segments.Segment
import Segments.Sync.System

namespace Segments.Sync.System

open Log

def told (s : System) : Outcome → System
  | .error (.aborted reason) => s.note (.runLost reason)
  | _ => s

def sleep (s : System) (span : Nat) : System :=
  s.passUntil (s.now + span)

/-- Waits for a run to end. A caller that waits sees everything that happens in the meantime; of
what is due at the moment when it goes on, a caller that waited for the time sees nothing yet, one
that waited for a run sees all. -/
def waitFor (s : System) (run : Nat) : System × Option Outcome :=
  let s := passFor (fun s => (s.outcome? run).isSome) none (s.source.delay + 2) s
  (s, s.outcome? run)

def runGuarded (s : System) : System × Outcome :=
  match s.admit? .here with
  | none => (s, .error .busy)
  | some s =>
    match s.waitFor (s.runs - 1) with
    | (s, some outcome) => (s.told outcome, outcome)
    | (s, none) => (s, .error .busy)

def leave (s : System) : System :=
  s.setActive (s.pipeline.active.map fun run => { run with caller := .gone })

/-- Asks for a run and waits for its end, but not longer than `span`. -/
def runWithin (s : System) (span : Nat) : System × Option Outcome :=
  match s.admit? .here with
  | none => (s, some (.error .busy))
  | some s =>
    if span = 0 then (s.leave, none)
    else
      let run := s.runs - 1
      let limit := s.now + span
      let s := passFor (fun s => (s.outcome? run).isSome) (some limit) (span + 2) s
      match s.outcome? run with
      | some outcome => (s.told outcome, some outcome)
      | none => ({ s.leave with now := limit }, none)

/-- Asks for a run, after what is ready already, and lets it begin; gives its number, or why it
was refused. -/
def runAside (s : System) : System × Except Failure Nat :=
  match s.settle.admit? .aside with
  | none => (s.settle, .error .busy)
  | some s => (s.settle, .ok (s.runs - 1))

/-- The outcome of a run, waiting for its end if it has not ended. -/
def join (s : System) (run : Nat) : System × Option Outcome :=
  match s.outcome? run with
  | some outcome => (s, some outcome)
  | none => s.waitFor run

def storeAll (s : System) (refusals : Nat → Catalog.Record → Option Failure) (place : Nat)
    (tally : Tally) : List Json → System × Tally
  | [] => (s, tally)
  | raw :: left =>
    let taken := takeWith (refusals place) s.store tally raw
    let s := { s with store := taken.store }
    let s := match taken.notice with
      | some n => s.note n
      | none => s
    s.storeAll refusals (place + 1) taken.tally left

/-- A fetch without the guard, up to the moment when it is over. -/
def fetchAside (s : System) : System :=
  let s := { s.note .syncStarted with source := { s.source with fetches := s.source.fetches + 1 } }
  s.sleep s.source.delay

/-- A run without the guard, which the pipeline does not remember. None if it died. -/
def runUnguardedWith (s : System) (refusals : Nat → Catalog.Record → Option Failure) :
    System × Option Outcome :=
  let startedAt := s.now
  let s := s.fetchAside
  match s.source.result with
  | .crashed _ => (s, none)
  | .failed f => (s.note (.fetchFailed f), some (.error f))
  | .products list =>
    let (s, tally) := s.storeAll refusals 0 .start list
    let report : Report :=
      { startedAt, finishedAt := s.now, fetched := list.length, upserted := tally.upserted,
        skipped := tally.skipped }
    (s.note (.ingested list.length tally.upserted tally.skipped.length), some (.ok report))

def runUnguarded (s : System) : System × Option Outcome :=
  s.runUnguardedWith fun _ => s.access.refusal?

def startLoop (s : System) (id every : Nat) : System :=
  let period := periodOf every
  let s := s.note (.scheduleStarted (period / 1000))
  let loop : Loop := ⟨id, period, s.now, .tick s.tickets⟩
  settle { s with tickets := s.tickets + 1, loops := s.loops ++ [loop] }

/-- Ends a loop; a run that it asked for goes on. -/
def stopLoop (s : System) (id : Nat) : System :=
  { s with loops := s.loops.filter fun l => l.id != id }

def evaluate (s : System) (texts : Option (List String)) :
    System × Except Failure (List Catalog.Record) :=
  match texts with
  | none => (s, Segment.evaluate s.access s.store none)
  | some cs =>
    let compiled := Condition.compile cs
    let s := compiled.skipped.foldl (fun s skip => s.note (.conditionDropped skip)) s
    let s := s.note (.evaluating compiled.conditions.length)
    (s, Segment.evaluate s.access s.store (some cs))

def takeLog (s : System) : System × List Notice :=
  ({ s with log := [] }, s.log.reverse)

end Segments.Sync.System
