import Segments.Proofs.Guard
import Segments.Proofs.LastError
import Segments.Proofs.Sessions

namespace Segments.Sync

open Catalog Log

/-- Where a run without the guard is. -/
inductive Aside
  | fetching (startedAt : Nat)
  | storing (startedAt fetched : Nat) (left : List Json) (tally : Tally)

structure Scene where
  system : System
  /-- How the run that holds the guard ended, as long as that is not recorded. -/
  ending : Option Outcome
  /-- The runs without the guard that are under way. -/
  asides : List Aside
  /-- What runs without the guard gave to their callers, the newest first. -/
  returned : List Outcome

inductive Happening
  | turn (t : Turn)
  /-- The run that holds the guard has done its work. -/
  | close
  /-- It records how it ended and frees the guard, with nothing in between. -/
  | record
  /-- Somebody begins a run without the guard. -/
  | beginAside
  /-- A run without the guard goes on, while the store refuses to write these records. -/
  | aside (place : Nat) (refusal : Record → Option Failure)
  /-- A run without the guard ends where it is, as its caller goes away. -/
  | dropAside (place : Nat)

namespace Turn

def ofRun : Turn → Bool
  | .move m => m.ofRun
  | _ => false

def kills : Turn → Bool
  | .die _ => true
  | _ => false

end Turn

namespace System

def beginFetch (s : System) : System :=
  { s.note .syncStarted with source := { s.source with fetches := s.source.fetches + 1 } }

def refused? (s : System) : Option (System × Outcome) :=
  match s.source.result with
  | .failed f => some (s.note (.fetchFailed f), .error f)
  | _ => none

/-- The end of a run's work, if it is at its end: the list is stored, or there is none. -/
def closing? (s : System) (run : Run) : Option (System × Outcome) :=
  match run.phase with
  | .queued => if s.source.delay = 0 then s.beginFetch.refused? else none
  | .fetching _ _ => s.refused?
  | .storing fetched [] tally =>
    let report : Report :=
      { startedAt := run.startedAt, finishedAt := s.now, fetched, upserted := tally.upserted,
        skipped := tally.skipped }
    some (s.note (.ingested fetched tally.upserted tally.skipped.length), .ok report)
  | .storing _ (_ :: _) _ => none

end System

namespace Scene

def start (source : Source) (store : Store) : Scene :=
  ⟨.start source store, none, [], []⟩

def endAside (w : Scene) (place : Nat) (outcome : Outcome) : Scene :=
  { w with asides := w.asides.eraseIdx place, returned := outcome :: w.returned }

/-- A run without the guard goes on to its next point of waiting. -/
def goOn (w : Scene) (place : Nat) (refusal : Record → Option Failure) : Aside → Scene
  | .fetching startedAt =>
    match w.system.source.result with
    | .products list =>
      { w with asides := w.asides.set place (.storing startedAt list.length list .start) }
    | .failed f => { w with system := w.system.note (.fetchFailed f) }.endAside place (.error f)
    | .crashed _ => { w with asides := w.asides.eraseIdx place }
  | .storing startedAt fetched (raw :: left) tally =>
    let taken := takeWith refusal w.system.store tally raw
    let s := { w.system with store := taken.store }
    let s := match taken.notice with
      | some n => s.note n
      | none => s
    { w with
      system := s
      asides := w.asides.set place (.storing startedAt fetched left taken.tally) }
  | .storing startedAt fetched [] tally =>
    let report : Report :=
      { startedAt, finishedAt := w.system.now, fetched, upserted := tally.upserted,
        skipped := tally.skipped }
    { w with
      system := w.system.note (.ingested fetched tally.upserted tally.skipped.length)
      }.endAside place (.ok report)

/-- A run that waits to record how it ended does nothing else. -/
def happen (w : Scene) : Happening → Scene
  | .turn t =>
    if w.ending.isSome && t.ofRun then w
    else { w with system := w.system.turn t, ending := if t.kills then none else w.ending }
  | .close =>
    match w.ending, w.system.pipeline.active with
    | none, some run =>
      match w.system.closing? run with
      | some (s, outcome) => { w with system := s, ending := some outcome }
      | none => w
    | _, _ => w
  | .record =>
    match w.ending, w.system.pipeline.active with
    | some outcome, some run =>
      { w with system := w.system.finish run outcome, ending := none }
    | _, _ => w
  | .beginAside =>
    { w with system := w.system.beginFetch, asides := w.asides ++ [.fetching w.system.now] }
  | .aside place refusal =>
    match w.asides[place]? with
    | some a => w.goOn place refusal a
    | none => w
  | .dropAside place => { w with asides := w.asides.eraseIdx place }

def after (w : Scene) (hs : List Happening) : Scene :=
  hs.foldl happen w

theorem after_append (w : Scene) (hs us : List Happening) :
    w.after (hs ++ us) = (w.after hs).after us :=
  List.foldl_append

end Scene

namespace System

theorem refused?_spec {s t : System} {outcome : Outcome} (h : s.refused? = some (t, outcome)) :
    ∃ reason, s.source.result = .failed (.fetch reason) ∧ outcome = .error (.fetch reason) ∧
      t = s.note (.fetchFailed (.fetch reason)) := by
  unfold refused? at h
  split at h
  · rename_i f hf
    cases h
    obtain ⟨reason, rfl⟩ : ∃ reason, f = .fetch reason := by
      unfold Source.result at hf
      split at hf <;> cases hf
      exact ⟨_, rfl⟩
    exact ⟨reason, hf, rfl, rfl⟩
  · cases h

/-- At the end of its work a run has an outcome to record, and nothing is changed but what is told
and how many fetches there have been. -/
theorem closing?_spec {s t : System} {run : Run} {outcome : Outcome}
    (h : s.closing? run = some (t, outcome)) :
    Possible outcome ∧ ∃ source log, t = { s with source, log } := by
  unfold closing? at h
  split at h
  · split at h
    · obtain ⟨reason, -, rfl, rfl⟩ := refused?_spec h
      exact ⟨.inr (.inl ⟨reason, rfl⟩), _, _, rfl⟩
    · cases h
  · obtain ⟨reason, -, rfl, rfl⟩ := refused?_spec h
    exact ⟨.inr (.inl ⟨reason, rfl⟩), _, _, rfl⟩
  · cases h
    exact ⟨.inl ⟨_, rfl⟩, _, _, rfl⟩
  · cases h

end System

namespace Scene

/-- As long as no outcome waits, the guard is given up with the turn itself. -/
theorem happen_turn {w : Scene} (h : w.ending = none) (t : Turn) :
    w.happen (.turn t) = { w with system := w.system.turn t } := by
  simp [happen, h]

theorem after_turns {w : Scene} (h : w.ending = none) (ts : List Turn) :
    w.after (ts.map .turn) = { w with system := w.system.after ts } := by
  induction ts generalizing w with
  | nil => rfl
  | cons t ts ih =>
    have hnext : (w.happen (.turn t)).after (ts.map .turn) =
        { w.happen (.turn t) with system := (w.happen (.turn t)).system.after ts } :=
      ih (by rw [happen_turn h]; exact h)
    rw [happen_turn h] at hnext
    rw [List.map_cons, after, List.foldl_cons, happen_turn h]
    exact hnext

theorem eraseIdx_last {α : Type} (as : List α) (a : α) : (as ++ [a]).eraseIdx as.length = as := by
  rw [List.eraseIdx_append_of_length_le (Nat.le_refl _), Nat.sub_self, List.eraseIdx_cons_zero,
    List.append_nil]

theorem set_last {α : Type} (as : List α) (a b : α) :
    (as ++ [a]).set as.length b = as ++ [b] := by
  rw [List.set_append_right _ _ (Nat.le_refl _), Nat.sub_self, List.set_cons_zero]

def Leads (w v : Scene) : Prop :=
  ∃ hs, w.after hs = v

namespace Leads

theorem refl (w : Scene) : Leads w w :=
  ⟨[], rfl⟩

theorem trans {w v u : Scene} (h : Leads w v) (h' : Leads v u) : Leads w u := by
  obtain ⟨hs, rfl⟩ := h
  obtain ⟨us, rfl⟩ := h'
  exact ⟨hs ++ us, after_append w hs us⟩

theorem happen {w : Scene} (h : Happening) : Leads w (w.happen h) :=
  ⟨[h], rfl⟩

/-- Whatever callers do is turns, and turns may be taken where no outcome waits. -/
theorem turns {w : Scene} (h : w.ending = none) {t : System} (hl : System.Leads w.system t) :
    Leads w { w with system := t } := by
  obtain ⟨ts, rfl⟩ := hl
  exact ⟨ts.map .turn, after_turns h ts⟩

theorem storeAll (s : System) (ending : Option Outcome) (others : List Aside)
    (returned : List Outcome) (startedAt fetched : Nat)
    (refusals : Nat → Record → Option Failure) (place : Nat) (tally : Tally) (list : List Json) :
    Leads ⟨s, ending, others ++ [.storing startedAt fetched list tally], returned⟩
      ⟨(s.storeAll refusals place tally list).1, ending,
        others ++ [.storing startedAt fetched [] (s.storeAll refusals place tally list).2],
        returned⟩ := by
  induction list generalizing s place tally with
  | nil => exact refl _
  | cons raw left ih =>
    refine (happen (.aside others.length (refusals place))).trans ?_
    simp only [Scene.happen, List.getElem?_concat_length, goOn, set_last, System.storeAll]
    exact ih _ _ _

/-- A run without the guard from its beginning to its end, with others under way. -/
theorem runUnguardedWith {w : Scene} (h : w.ending = none)
    (refusals : Nat → Record → Option Failure) :
    Leads w { w with
      system := (w.system.runUnguardedWith refusals).1
      returned := (w.system.runUnguardedWith refusals).2.toList ++ w.returned } := by
  obtain ⟨s, ending, others, returned⟩ := w
  cases h
  have hfetch : Leads ⟨s, none, others, returned⟩
      ⟨s.fetchAside, none, others ++ [.fetching s.now], returned⟩ :=
    (happen .beginAside).trans (turns rfl (.passUntil s.beginFetch (s.now + s.source.delay)))
  have hanswer := happen (w := ⟨s.fetchAside, none, others ++ [.fetching s.now], returned⟩)
    (.aside others.length (refusals 0))
  refine hfetch.trans (hanswer.trans ?_)
  simp only [Scene.happen, List.getElem?_concat_length, goOn, System.runUnguardedWith]
  cases hresult : s.fetchAside.source.result with
  | crashed reason =>
    simp only [eraseIdx_last]
    exact refl _
  | failed f =>
    simp only [endAside, eraseIdx_last]
    exact refl _
  | products list =>
    simp only [set_last]
    refine (storeAll _ _ _ _ _ _ refusals 0 .start list).trans ?_
    refine (happen (.aside others.length (refusals 0))).trans ?_
    simp only [Scene.happen, List.getElem?_concat_length, goOn, endAside, eraseIdx_last]
    exact refl _

end Leads

end Scene

end Segments.Sync
