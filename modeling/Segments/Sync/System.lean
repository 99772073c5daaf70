import Segments.Sync.Pipeline
import Segments.Sync.Schedule

namespace Segments.Sync

open Log

/-- What a loop waits for: its next tick, or the run that it asked for. -/
inductive Waiting
  | tick (ticket : Nat)
  | run
  deriving DecidableEq, Repr

structure Loop where
  id : Nat
  period : Nat
  deadline : Nat
  waiting : Waiting
  deriving DecidableEq, Repr

/-- A store, a storefront, the pipeline between them and the loops that ask it for runs, on one
clock. -/
structure System where
  now : Nat
  /-- Counts what comes to wait for a moment. -/
  tickets : Nat
  source : Source
  access : Access
  store : Store
  pipeline : Pipeline
  /-- How many runs have been let in. -/
  runs : Nat
  /-- How the runs of that number ended. -/
  outcomes : List (Nat × Outcome)
  loops : List Loop
  /-- The newest first. -/
  log : List Notice

namespace System

def start (source : Source) (store : Store) : System :=
  { now := 0, tickets := 0, source, access := .open_, store, pipeline := .idle, runs := 0,
    outcomes := [], loops := [], log := [] }

def note (s : System) (n : Notice) : System :=
  { s with log := n :: s.log }

def setActive (s : System) (run : Option Run) : System :=
  { s with pipeline := { s.pipeline with active := run } }

/-- Lets a run in, if none is active. -/
def admit? (s : System) (caller : Caller) : Option System :=
  if s.pipeline.isRunning then none
  else some { s.setActive (some ⟨s.runs, caller, s.now, .queued⟩) with runs := s.runs + 1 }

inductive Move
  | begin
  | answer
  | store
  | complete
  | tick (id : Nat)
  deriving DecidableEq, Repr

def await (s : System) (loop : Loop) (deadline : Nat) : System :=
  { s with
    tickets := s.tickets + 1
    loops := s.loops.map fun l =>
      if l.id == loop.id then { loop with deadline, waiting := .tick s.tickets } else l }

/-- Tells a loop how its run ended; it goes on to wait for its tick. -/
def resume (s : System) (id : Nat) (outcome : Outcome) : System :=
  match s.loops.find? fun l => l.id == id with
  | none => s
  | some loop =>
    let s := match outcome with
      | .ok r => s.note (.scheduledDone r.upserted r.skipped.length)
      | .error (.aborted reason) => (s.note (.runLost reason)).note (.scheduledFailed (.aborted reason))
      | .error f => s.note (.scheduledFailed f)
    s.await loop loop.deadline

def finish (s : System) (run : Run) (outcome : Outcome) : System :=
  let s := { s with
    pipeline := s.pipeline.finish outcome
    outcomes := (run.number, outcome) :: s.outcomes }
  match run.caller, outcome with
  | .loop id, outcome => s.resume id outcome
  | .aside, .error (.aborted reason) => s.note (.runLost reason)
  | _, _ => s

def answered (s : System) (run : Run) : System :=
  match s.source.result with
  | .products list => s.setActive (some { run with phase := .storing list.length list .start })
  | .failed f => (s.note (.fetchFailed f)).finish run (.error f)
  | .crashed reason => s.finish run (.error (.aborted reason))

/-- The fetch begins; it is over at once if it takes no time. -/
def fetch (s : System) (run : Run) : System :=
  let s := { s.note .syncStarted with source := { s.source with fetches := s.source.fetches + 1 } }
  let run := { run with startedAt := s.now }
  if s.source.delay = 0 then s.answered run
  else
    { s.setActive (some { run with phase := .fetching (s.now + s.source.delay) s.tickets }) with
      tickets := s.tickets + 1 }

def storeNext (s : System) (run : Run) (fetched : Nat) (raw : Json) (left : List Json)
    (tally : Tally) : System :=
  let taken := take s.access s.store tally raw
  let s := { s with store := taken.store }
  let s := match taken.notice with
    | some n => s.note n
    | none => s
  s.setActive (some { run with phase := .storing fetched left taken.tally })

def completed (s : System) (run : Run) (fetched : Nat) (tally : Tally) : System :=
  let report : Report :=
    { startedAt := run.startedAt, finishedAt := s.now, fetched, upserted := tally.upserted,
      skipped := tally.skipped }
  (s.note (.ingested fetched tally.upserted tally.skipped.length)).finish run (.ok report)

def ticked (s : System) (loop : Loop) : System :=
  let next := nextTick loop.period loop.deadline s.now
  match s.admit? (.loop loop.id) with
  | none => (s.note .tickSkipped).await loop next
  | some s =>
    { s with loops := s.loops.map fun l =>
        if l.id == loop.id then { loop with deadline := next, waiting := .run } else l }

/-- What a move changes; nothing if the system is not at it. -/
def apply (s : System) (move : Move) : System :=
  match move, s.pipeline.active with
  | .begin, some run =>
    match run.phase with
    | .queued => s.fetch run
    | _ => s
  | .answer, some run =>
    match run.phase with
    | .fetching _ _ => s.answered run
    | _ => s
  | .store, some run =>
    match run.phase with
    | .storing fetched (raw :: left) tally => s.storeNext run fetched raw left tally
    | _ => s
  | .complete, some run =>
    match run.phase with
    | .storing fetched [] tally => s.completed run fetched tally
    | _ => s
  | .tick id, _ =>
    match s.loops.find? fun l => l.id == id with
    | some loop => s.ticked loop
    | none => s
  | _, none => s

structure Event where
  due : Nat
  ticket : Nat
  move : Move
  deriving DecidableEq, Repr

def Event.before (a b : Event) : Bool :=
  a.due < b.due || (a.due == b.due && a.ticket ≤ b.ticket)

def events (s : System) : List Event :=
  let fetches := match s.pipeline.active with
    | some run =>
      match run.phase with
      | .fetching due ticket => [⟨due, ticket, .answer⟩]
      | _ => []
    | none => []
  fetches ++ s.loops.filterMap fun l =>
    match l.waiting with
    | .tick ticket => some ⟨l.deadline, ticket, .tick l.id⟩
    | .run => none

def earliest : List Event → Option Event
  | [] => none
  | e :: es =>
    match earliest es with
    | some f => some (if e.before f then e else f)
    | none => some e

/-- The run that stores goes first, then what is due, then a run that waits to begin. -/
def ready? (s : System) : Option Move :=
  let queued := match s.pipeline.active with
    | some run =>
      match run.phase with
      | .queued => some .begin
      | _ => none
    | none => none
  let due := match earliest s.events with
    | some e => if e.due ≤ s.now then some e.move else queued
    | none => queued
  match s.pipeline.active with
  | some run =>
    match run.phase with
    | .storing _ (_ :: _) _ => some .store
    | .storing _ [] _ => some .complete
    | _ => due
  | none => due

def settleFor : Nat → System → System
  | 0, s => s
  | fuel + 1, s =>
    match s.ready? with
    | some move => settleFor fuel (s.apply move)
    | none => s

/-- How many moves one moment can have: every loop can ask for a run once. -/
def movesAtOnce (s : System) : Nat :=
  let products := match s.source.answer with
    | .ok list => list.length
    | .error _ => 0
  let storing := match s.pipeline.active with
    | some run =>
      match run.phase with
      | .storing _ left _ => left.length
      | _ => 0
    | none => 0
  (s.loops.length + 2) * (products + 8) + storing

def settle (s : System) : System :=
  settleFor s.movesAtOnce s

def outcome? (s : System) (run : Nat) : Option Outcome :=
  s.outcomes.lookup run

/-- Settles moment by moment until `done` holds, or up to but not including `limit`. -/
def passFor (done : System → Bool) (limit : Option Nat) : Nat → System → System
  | 0, s => s
  | fuel + 1, s =>
    let s := s.settle
    if done s then s
    else
      match earliest s.events with
      | none => s
      | some e =>
        match limit with
        | some t => if e.due < t then passFor done limit fuel { s with now := max s.now e.due } else s
        | none => passFor done limit fuel { s with now := max s.now e.due }

/-- Lets the time go on to a moment, what is due then not yet happening. -/
def passUntil (s : System) (moment : Nat) : System :=
  if moment ≤ s.now then s
  else
    let s := passFor (fun _ => false) (some moment) (moment - s.now + 2) s
    { s with now := moment }

end System

end Segments.Sync
