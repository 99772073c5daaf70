import Mathlib.Data.List.Basic
import Segments.Proofs.Accounting

namespace Segments.Sync

open Catalog

/-- The same products in another order, those of one id in the order that they had. -/
structure Reordered (ps qs : List Json) : Prop where
  perm : qs.Perm ps
  sameId : ∀ id : Int, (qs.filter fun raw => Storefront.listedId? raw == some id) =
    ps.filter fun raw => Storefront.listedId? raw == some id

section

variable (refusal : Record → Option Failure)

/-- What does not ask for the places reads a list as if they were not there. -/
theorem filterMap_zipIdx_fst {α β : Type} (f : α → Option β) (as : List α) :
    (as.zipIdx.filterMap fun p => f p.1) = as.filterMap f :=
  calc
    (as.zipIdx.filterMap fun p => f p.1) = (as.zipIdx.map Prod.fst).filterMap f :=
      List.filterMap_map.symm
    _ = as.filterMap f := by rw [List.zipIdx_map_fst]

/-- Where the store refuses the same records at every place, the places do not matter. -/
theorem storedFrom_fixed (ps : List Json) :
    storedFrom (fun _ => refusal) 0 ps = ps.filterMap (stored? refusal) :=
  filterMap_zipIdx_fst (stored? refusal) ps

theorem skippedFrom_fixed (ps : List Json) :
    skippedFrom (fun _ => refusal) 0 ps = ps.filterMap (skipped? refusal) :=
  filterMap_zipIdx_fst (skipped? refusal) ps

/-- A record has the id that its product lists. -/
theorem stored?_id {raw : Json} {r : Record} (h : stored? refusal raw = some r) :
    Storefront.listedId? raw = some r.id :=
  Storefront.listedId?_of_normalize (stored?_eq_some.mp h).1

/-- The records of one id come from the products of that id. -/
theorem filter_stored (ps : List Json) (id : Int) :
    ((ps.filterMap (stored? refusal)).filter fun r => r.id == id) =
      (ps.filter fun raw => Storefront.listedId? raw == some id).filterMap (stored? refusal) := by
  rw [List.filter_filterMap, List.filterMap_filter]
  refine List.filterMap_congr fun raw _ => ?_
  cases hr : stored? refusal raw with
  | none => simp
  | some r =>
    rw [stored?_id refusal hr]
    by_cases hid : r.id = id
    · simp [hid]
    · simp [hid]

/-- Records of different ids have different places in the store, and may be written in any order. -/
theorem Reordered.store {ps qs : List Json} (h : Reordered ps qs) (store : Store) :
    (qs.filterMap (stored? refusal)).foldl Store.insert store =
      (ps.filterMap (stored? refusal)).foldl Store.insert store := by
  refine Store.foldl_insert_of_filter store fun id => ?_
  rw [filter_stored, filter_stored, h.sameId]

end

namespace System

/-- Nothing goes on but what is asked for. -/
structure Quiet (s : System) : Prop where
  idle : s.pipeline.active = none
  noLoops : s.loops = []

namespace Quiet

/-- A moment passes, and nothing else. -/
theorem sleep {s : System} (h : s.Quiet) (span : Nat) :
    (s.sleep span).Quiet ∧ (s.sleep span).store = s.store := by
  refine ⟨?_, store_sleep_idle h.idle h.noLoops span⟩
  unfold System.sleep passUntil
  split
  · exact h
  · rw [passFor_idle h.idle h.noLoops]
    exact ⟨h.idle, h.noLoops⟩

theorem fetchAside {s : System} (h : s.Quiet) :
    s.fetchAside.Quiet ∧ s.fetchAside.store = s.store := by
  have hbegun : Quiet { s.note .syncStarted with
      source := { s.source with fetches := s.source.fetches + 1 } } := ⟨h.idle, h.noLoops⟩
  exact hbegun.sleep s.source.delay

/-- A run where nothing else goes on, and the store refuses the same records all the time. -/
theorem run {s : System} (h : s.Quiet) (ps : List Json) (refusal : Record → Option Failure) :
    let run := (s.listing ps).runUnguardedWith fun _ => refusal
    run.1.Quiet ∧
    run.1.store = (ps.filterMap (stored? refusal)).foldl Store.insert s.store ∧
    ∃ startedAt finishedAt, run.2 = some (.ok
      { startedAt, finishedAt, fetched := ps.length
        upserted := (ps.filterMap (stored? refusal)).length
        skipped := ps.filterMap (skipped? refusal) }) := by
  intro run
  have hlisting : (s.listing ps).Quiet := ⟨h.idle, h.noLoops⟩
  obtain ⟨hquiet, hstore⟩ := hlisting.fetchAside
  have hresult : (s.listing ps).fetchAside.source.result = .products ps := result_sleep _ _
  obtain ⟨log, hall⟩ := (s.listing ps).fetchAside.storeAll_spec (fun _ => refusal) 0 .start ps
  simp only [storedFrom_fixed, skippedFrom_fixed, hstore, Tally.start, Nat.zero_add,
    List.nil_append] at hall
  have hrun : run = (s.listing ps).runUnguardedWith fun _ => refusal := rfl
  simp only [runUnguardedWith, hresult, Tally.start, hall] at hrun
  rw [hrun]
  exact ⟨⟨hquiet.idle, hquiet.noLoops⟩, rfl, _, _, rfl⟩

end Quiet

/-- A run that is made again leaves the store as it is and reports the same at another time. With
the products in another order, those of one id in the order that they had, it leaves the same store
and counts the same products; those that it leaves out it lists in another order. -/
theorem rerun_reorder {s : System} (h : s.Quiet) (ps : List Json)
    (refusal : Record → Option Failure) :
    let run (t : System) (list : List Json) :=
      (t.listing list).runUnguardedWith fun _ => refusal
    let once := run s ps
    let twice := run once.1 ps
    ∃ report, once.2 = some (.ok report) ∧
      (∃ again, twice.2 = some (.ok again) ∧
        again = { report with startedAt := again.startedAt, finishedAt := again.finishedAt }) ∧
      twice.1.store = once.1.store ∧
      ∀ qs, Reordered ps qs → ∃ other, (run s qs).2 = some (.ok other) ∧
        (run s qs).1.store = once.1.store ∧ other.fetched = report.fetched ∧
        other.upserted = report.upserted ∧ other.skipped.Perm report.skipped := by
  intro run once twice
  obtain ⟨hquiet, hstore, startedAt, finishedAt, hreport⟩ := h.run ps refusal
  obtain ⟨-, hstore', startedAt', finishedAt', hreport'⟩ := hquiet.run ps refusal
  refine ⟨_, hreport, ⟨_, hreport', rfl⟩, ?_, ?_⟩
  · have htwice : twice.1.store =
        (ps.filterMap (stored? refusal)).foldl Store.insert once.1.store := hstore'
    have honce : once.1.store =
        (ps.filterMap (stored? refusal)).foldl Store.insert s.store := hstore
    rw [htwice, honce, Store.foldl_insert_again]
  · intro qs hqs
    obtain ⟨-, hother, startedAt'', finishedAt'', hreport''⟩ := h.run qs refusal
    refine ⟨_, hreport'', ?_, hqs.perm.length_eq, ?_, hqs.perm.filterMap _⟩
    · have honce : once.1.store =
          (ps.filterMap (stored? refusal)).foldl Store.insert s.store := hstore
      rw [honce, ← hqs.store refusal s.store]
      exact hother
    · exact (hqs.perm.filterMap _).length_eq

def priced (id : Nat) (price : String) : Json :=
  .object
    [("date_created", .text "2024-02-01"), ("id", .number (.natural id)), ("price", .text price)]

def unlabelled : Json :=
  .object [("price", .text "5")]

def shopList : List Json :=
  [priced 1 "10", priced 2 "20", priced 1 "12", unlabelled]

def shopListTurned : List Json :=
  [unlabelled, priced 1 "10", priced 1 "12", priced 2 "20"]

theorem reordered_shopList : Reordered shopList shopListTurned where
  perm := by
    have hlast : ([priced 1 "12", priced 2 "20"] : List Json).Perm
        [priced 2 "20", priced 1 "12"] := .swap _ _ _
    have hpriced : ([priced 1 "10", priced 1 "12", priced 2 "20"] : List Json).Perm
        [priced 1 "10", priced 2 "20", priced 1 "12"] := .cons _ hlast
    exact (List.Perm.cons _ hpriced).trans
      (@List.perm_append_comm _ [unlabelled] [priced 1 "10", priced 2 "20", priced 1 "12"])
  sameId id := by
    have hone : ∀ price, Storefront.listedId? (priced 1 price) = some 1 := fun _ => rfl
    have htwo : ∀ price, Storefront.listedId? (priced 2 price) = some 2 := fun _ => rfl
    have hnone : Storefront.listedId? unlabelled = none := rfl
    by_cases h : id = 2
    · subst h
      simp [shopList, shopListTurned, hone, htwo, hnone]
    · simp [shopList, shopListTurned, List.filter_cons, hone, htwo, hnone, Ne.symm h]

/-- Two prices of one product, a product that the store refuses and one without an id. -/
theorem rerun_reorder_shop :
    let refusal := Access.refusal? ⟨false, [2]⟩
    let run (t : System) (list : List Json) :=
      (t.listing list).runUnguardedWith fun _ => refusal
    let shop := start (.serving []) .empty
    let once := run shop shopList
    shop.Quiet ∧ Reordered shopList shopListTurned ∧
    (once.1.store.get? 1).map Record.price = some (.ofInt 12) ∧
    ∃ report, once.2 = some (.ok report) ∧
      (∃ again, (run once.1 shopList).2 = some (.ok again) ∧
        again = { report with startedAt := again.startedAt, finishedAt := again.finishedAt }) ∧
      (run once.1 shopList).1.store = once.1.store ∧
      ∃ other, (run shop shopListTurned).2 = some (.ok other) ∧
        (run shop shopListTurned).1.store = once.1.store ∧ other.fetched = report.fetched ∧
        other.upserted = report.upserted ∧ other.skipped.Perm report.skipped := by
  intro refusal run shop once
  have hquiet : shop.Quiet := ⟨rfl, rfl⟩
  obtain ⟨report, honce, hagain, hstore, horder⟩ := rerun_reorder hquiet shopList refusal
  refine ⟨hquiet, reordered_shopList, ?_, report, honce, hagain, hstore,
    horder shopListTurned reordered_shopList⟩
  decide +kernel

end System

end Segments.Sync
