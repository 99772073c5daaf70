import Segments.Sync.Ingest

namespace Segments.Sync

/-- The storefront as runs see it: what it answers at the end of a fetch, how long one takes,
and how many there have been. -/
structure Source where
  answer : Except String (List Json)
  /-- What a run dies of at the end of its fetch, whatever the answer. -/
  crash : Option String
  delay : Nat
  fetches : Nat

namespace Source

def serving (products : List Json) : Source :=
  ⟨.ok products, none, 0, 0⟩

inductive Result
  | products (list : List Json)
  | failed (failure : Failure)
  | crashed (reason : String)

def result (s : Source) : Result :=
  match s.crash, s.answer with
  | some reason, _ => .crashed reason
  | none, .ok list => .products list
  | none, .error reason => .failed (.fetch reason)

end Source

/-- A run waits to begin, waits for the list of products, and stores them. -/
inductive Phase
  | queued
  /-- The answer comes at `due`; of several things due then, those with lower tickets first. -/
  | fetching (due ticket : Nat)
  | storing (fetched : Nat) (left : List Json) (tally : Tally)

inductive Caller
  | here
  | aside
  | loop (id : Nat)
  | gone
  deriving DecidableEq, Repr

structure Run where
  number : Nat
  caller : Caller
  startedAt : Nat
  phase : Phase

abbrev Outcome := Except Failure Report

/-- Lets one guarded run in at a time and remembers how the last one ended. -/
structure Pipeline where
  /-- The run that holds the guard. -/
  active : Option Run
  lastReport : Option Report
  lastError : Option String

namespace Pipeline

def idle : Pipeline :=
  ⟨none, none, none⟩

def isRunning (p : Pipeline) : Bool :=
  p.active.isSome

/-- Frees the guard and remembers the outcome. A run that died leaves no trace but the guard. -/
def finish (p : Pipeline) : Outcome → Pipeline
  | .ok report => { active := none, lastReport := some report, lastError := none }
  | .error (.aborted _) => { p with active := none }
  | .error failure => { p with active := none, lastError := some failure.message }

end Pipeline

end Segments.Sync
