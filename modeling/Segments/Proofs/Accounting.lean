import Segments.Proofs.Products
import Segments.Proofs.Turns

namespace Segments

open Catalog

namespace Sync

def stored? (refusal : Record → Option Failure) (raw : Json) : Option Record :=
  match Storefront.normalize raw with
  | .ok r => if (refusal r).isNone then some r else none
  | .error _ => none

def skipped? (refusal : Record → Option Failure) (raw : Json) : Option Skipped :=
  match Storefront.normalize raw with
  | .ok r => (refusal r).map fun f => ⟨Storefront.listedId? raw, f.message⟩
  | .error e => some ⟨Storefront.listedId? raw, e.message⟩

theorem stored?_eq_some {refusal : Record → Option Failure} {raw : Json} {r : Record} :
    stored? refusal raw = some r ↔ Storefront.normalize raw = .ok r ∧ refusal r = none := by
  unfold stored?
  cases Storefront.normalize raw with
  | error e => simp
  | ok q =>
    by_cases hq : q = r
    · subst hq
      cases hr : refusal q <;> simp [hr]
    · cases hr : refusal q <;> simp [hr, hq]

/-- A product is left out for what it lacks, or because the store refuses its record. -/
theorem skipped?_eq_some {refusal : Record → Option Failure} {raw : Json} {e : Skipped} :
    skipped? refusal raw = some e ↔ e.id = Storefront.listedId? raw ∧
      ((∃ rejection, Storefront.normalize raw = .error rejection ∧ e.reason = rejection.message) ∨
        ∃ r f, Storefront.normalize raw = .ok r ∧ refusal r = some f ∧ e.reason = f.message) := by
  obtain ⟨id, reason⟩ := e
  unfold skipped?
  cases Storefront.normalize raw with
  | error rejection => simp [eq_comm]
  | ok r => cases hr : refusal r <;> simp [hr, eq_comm]

/-- Every product leaves a record or is reported, and none does both. -/
theorem stored_or_skipped (refusal : Record → Option Failure) (raw : Json) :
    (∃ r, stored? refusal raw = some r ∧ skipped? refusal raw = none) ∨
      ∃ e, stored? refusal raw = none ∧ skipped? refusal raw = some e := by
  unfold stored? skipped?
  cases Storefront.normalize raw with
  | error e => simp
  | ok r => cases h : refusal r <;> simp [h]

/-- The records that products leave, in their order; `place` is that of the first product. -/
def storedFrom (refusals : Nat → Record → Option Failure) (place : Nat) (ps : List Json) :
    List Record :=
  (ps.zipIdx place).filterMap fun p => stored? (refusals p.2) p.1

def skippedFrom (refusals : Nat → Record → Option Failure) (place : Nat) (ps : List Json) :
    List Skipped :=
  (ps.zipIdx place).filterMap fun p => skipped? (refusals p.2) p.1

theorem storedFrom_cons (refusals : Nat → Record → Option Failure) (place : Nat) (raw : Json)
    (ps : List Json) : storedFrom refusals place (raw :: ps) =
      (stored? (refusals place) raw).toList ++ storedFrom refusals (place + 1) ps := by
  unfold storedFrom
  rw [List.zipIdx_cons, List.filterMap_cons]
  cases stored? (refusals place) raw <;> rfl

theorem skippedFrom_cons (refusals : Nat → Record → Option Failure) (place : Nat) (raw : Json)
    (ps : List Json) : skippedFrom refusals place (raw :: ps) =
      (skipped? (refusals place) raw).toList ++ skippedFrom refusals (place + 1) ps := by
  unfold skippedFrom
  rw [List.zipIdx_cons, List.filterMap_cons]
  cases skipped? (refusals place) raw <;> rfl

/-- No product gets lost between the records and the report. -/
theorem length_storedFrom_add (refusals : Nat → Record → Option Failure) (place : Nat)
    (ps : List Json) :
    (storedFrom refusals place ps).length + (skippedFrom refusals place ps).length = ps.length := by
  induction ps generalizing place with
  | nil => rfl
  | cons raw ps ih =>
    have ih := ih (place + 1)
    rw [storedFrom_cons, skippedFrom_cons]
    rcases stored_or_skipped (refusals place) raw with ⟨r, hr, he⟩ | ⟨e, hr, he⟩
    all_goals
      simp only [hr, he, Option.toList_some, Option.toList_none, List.length_append,
        List.length_cons, List.length_nil]
      omega

/-- One product is stored and counted, or left out and reported. -/
theorem takeWith_spec (refusal : Record → Option Failure) (store : Store) (tally : Tally)
    (raw : Json) :
    (takeWith refusal store tally raw).store = (stored? refusal raw).toList.foldl Store.insert store ∧
    (takeWith refusal store tally raw).tally =
      ⟨tally.upserted + (stored? refusal raw).toList.length,
        tally.skipped ++ (skipped? refusal raw).toList⟩ := by
  unfold takeWith stored? skipped?
  cases Storefront.normalize raw with
  | error e => exact ⟨rfl, rfl⟩
  | ok r =>
    cases h : refusal r with
    | none => simp [h, Tally.count]
    | some f => simp [h, Tally.skip]

namespace System

theorem storeAll_cons (s : System) (refusals : Nat → Record → Option Failure) (place : Nat)
    (tally : Tally) (raw : Json) (ps : List Json) :
    ∃ log, s.storeAll refusals place tally (raw :: ps) =
      storeAll { s with
          store := (stored? (refusals place) raw).toList.foldl Store.insert s.store, log }
        refusals (place + 1)
        ⟨tally.upserted + (stored? (refusals place) raw).toList.length,
          tally.skipped ++ (skipped? (refusals place) raw).toList⟩ ps := by
  obtain ⟨hstore, htally⟩ := takeWith_spec (refusals place) s.store tally raw
  rw [← hstore, ← htally]
  simp only [storeAll]
  split
  · exact ⟨_, rfl⟩
  · exact ⟨_, rfl⟩

/-- The whole loop at once. What it stores and counts follows from the list and from the refusals,
and from nothing that it meets on its way. -/
theorem storeAll_spec (s : System) (refusals : Nat → Record → Option Failure) (place : Nat)
    (tally : Tally) (ps : List Json) :
    ∃ log, s.storeAll refusals place tally ps =
      ({ s with store := (storedFrom refusals place ps).foldl Store.insert s.store, log },
        ⟨tally.upserted + (storedFrom refusals place ps).length,
          tally.skipped ++ skippedFrom refusals place ps⟩) := by
  induction ps generalizing s place tally with
  | nil => exact ⟨s.log, by simp [storeAll, storedFrom, skippedFrom]⟩
  | cons raw ps ih =>
    obtain ⟨log, hfirst⟩ := s.storeAll_cons refusals place tally raw ps
    obtain ⟨log', hrest⟩ := ih { s with
      store := (stored? (refusals place) raw).toList.foldl Store.insert s.store, log } (place + 1)
      ⟨tally.upserted + (stored? (refusals place) raw).toList.length,
        tally.skipped ++ (skipped? (refusals place) raw).toList⟩
    refine ⟨log', ?_⟩
    simp only [hfirst, hrest, storedFrom_cons, skippedFrom_cons, List.foldl_append,
      List.length_append, List.append_assoc, Nat.add_assoc]

theorem source_resume (s : System) (id : Nat) (outcome : Outcome) :
    (s.resume id outcome).source = s.source := by
  unfold resume
  split
  · rfl
  · rcases outcome with f | r
    · cases f <;> rfl
    · rfl

theorem source_finish (s : System) (run : Run) (outcome : Outcome) :
    (s.finish run outcome).source = s.source := by
  unfold finish
  simp only
  split
  · exact source_resume _ _ _
  · rfl
  · rfl

theorem source_answered (s : System) (run : Run) : (s.answered run).source = s.source := by
  unfold answered
  split
  · rfl
  · exact source_finish _ _ _
  · exact source_finish _ _ _

theorem result_fetch (s : System) (run : Run) : (s.fetch run).source.result = s.source.result := by
  unfold fetch
  simp only
  split
  · rw [source_answered]
    rfl
  · rfl

theorem source_storeNext (s : System) (run : Run) (fetched : Nat) (raw : Json) (left : List Json)
    (tally : Tally) : (s.storeNext run fetched raw left tally).source = s.source := by
  unfold storeNext
  simp only
  split <;> rfl

theorem source_ticked (s : System) (loop : Loop) : (s.ticked loop).source = s.source := by
  unfold ticked
  simp only
  split
  · rfl
  · rename_i t ht
    unfold admit? at ht
    split at ht
    · cases ht
    · cases ht
      rfl

/-- No move changes what the storefront answers. -/
theorem result_apply (s : System) (m : Move) : (s.apply m).source.result = s.source.result := by
  unfold apply
  split
  · split
    · exact result_fetch _ _
    · rfl
  · split
    · rw [source_answered]
    · rfl
  · split
    · rw [source_storeNext]
    · rfl
  · split
    · exact congrArg Source.result (source_finish _ _ _)
    · rfl
  · split
    · rw [source_ticked]
    · rfl
  · rfl

theorem result_passFor (done : System → Bool) (limit : Option Nat) (fuel : Nat) (s : System) :
    (passFor done limit fuel s).source.result = s.source.result :=
  passFor_preserves (p := fun t => t.source.result = s.source.result)
    (fun t m _ h => (result_apply t m).trans h) (fun _ _ _ h => h) done limit fuel rfl

theorem result_sleep (s : System) (span : Nat) : (s.sleep span).source.result = s.source.result := by
  unfold sleep passUntil
  split
  · rfl
  · exact result_passFor _ _ _ _

/-- Where no run is active and no loop waits, time goes on and nothing else. -/
theorem passFor_idle {s : System} (hactive : s.pipeline.active = none) (hloops : s.loops = [])
    (done : System → Bool) (limit : Option Nat) (fuel : Nat) : passFor done limit fuel s = s := by
  have hevents : s.events = [] := by simp [events, hactive, hloops]
  have hready : s.ready? = none := by simp [ready?, hactive, hevents, earliest]
  have hsettle : s.settle = s := by
    unfold settle
    cases s.movesAtOnce with
    | zero => rfl
    | succ fuel => simp [settleFor, hready]
  cases fuel with
  | zero => rfl
  | succ fuel => simp [passFor, hsettle, hevents, earliest]

/-- With no run under way and no loop to ask for one, time changes nothing in the store. -/
theorem store_sleep_idle {s : System} (hactive : s.pipeline.active = none) (hloops : s.loops = [])
    (span : Nat) : (s.sleep span).store = s.store := by
  unfold sleep passUntil
  split
  · rfl
  · simp only
    rw [passFor_idle hactive hloops]

theorem store_fetchAside_idle {s : System} (hactive : s.pipeline.active = none)
    (hloops : s.loops = []) : s.fetchAside.store = s.store := by
  unfold fetchAside
  simp only
  rw [store_sleep_idle]
  · rfl
  · exact hactive
  · exact hloops

def listing (s : System) (ps : List Json) : System :=
  { s with source := { s.source with answer := .ok ps, crash := none } }

/-- A run, whatever products are listed and whatever the store refuses: it succeeds, each product
is counted or listed as left out, and the store has of every id the record that was stored last,
or what it had when the list came. That is what it had at the start, if there is no other run. -/
theorem runUnguardedWith_accounting (s : System) (ps : List Json)
    (refusals : Nat → Record → Option Failure) :
    let run := (s.listing ps).runUnguardedWith refusals
    let before := (s.listing ps).fetchAside.store
    let stored := ps.zipIdx.filterMap fun p => stored? (refusals p.2) p.1
    (∃ report, run.2 = some (.ok report) ∧ report.fetched = ps.length ∧
      report.fetched = report.upserted + report.skipped.length ∧
      report.upserted = stored.length ∧
      report.skipped = ps.zipIdx.filterMap fun p => skipped? (refusals p.2) p.1) ∧
    (∀ id, run.1.store.get? id =
      (stored.reverse.find? fun r => r.id == id).or (before.get? id)) ∧
    (s.pipeline.active = none → s.loops = [] → before = s.store) ∧
    (∀ (refusal : Record → Option Failure) raw r, stored? refusal raw = some r ↔
      Storefront.normalize raw = .ok r ∧ refusal r = none) ∧
    (∀ (refusal : Record → Option Failure) raw e, skipped? refusal raw = some e ↔
      e.id = Storefront.listedId? raw ∧
        ((∃ rejection, Storefront.normalize raw = .error rejection ∧
            e.reason = rejection.message) ∨
          ∃ r f, Storefront.normalize raw = .ok r ∧ refusal r = some f ∧ e.reason = f.message)) ∧
    (∀ raw n, Storefront.listedId? raw = some n ↔ ∃ members number, raw = .object members ∧
      Json.lookup "id" members = some (.number number) ∧ number.toInt? = some n ∧
      -9223372036854775808 ≤ n ∧ n ≤ 9223372036854775807) ∧
    (∀ raw r, Storefront.normalize raw = .ok r → Storefront.listedId? raw = some r.id) := by
  intro run before stored
  have hresult : (s.listing ps).fetchAside.source.result = .products ps := result_sleep _ _
  obtain ⟨log, hall⟩ := (s.listing ps).fetchAside.storeAll_spec refusals 0 .start ps
  have hrun : run = ((s.listing ps).runUnguardedWith refusals) := rfl
  simp only [runUnguardedWith, hresult, hall] at hrun
  have hcount := length_storedFrom_add refusals 0 ps
  refine ⟨⟨_, congrArg Prod.snd hrun, rfl, ?_, ?_, ?_⟩, fun id => ?_, fun hactive hloops => ?_,
    fun _ _ _ => stored?_eq_some, fun _ _ _ => skipped?_eq_some,
    fun _ _ => Storefront.listedId?_eq_some, fun _ _ => Storefront.listedId?_of_normalize⟩
  · simp only [Tally.start, List.nil_append, Nat.zero_add]
    exact hcount.symm
  · exact Nat.zero_add _
  · exact List.nil_append _
  · rw [hrun]
    exact Store.get?_foldl_insert before stored id
  · exact @store_fetchAside_idle (s.listing ps) hactive hloops

end System

end Sync

end Segments
