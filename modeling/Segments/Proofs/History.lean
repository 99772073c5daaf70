import Segments.Proofs.Guard
import Segments.Proofs.Products

namespace Segments.Sync

open Catalog

def Entry.run : Entry → Nat
  | .listed run _ | .took run _ _ => run

def listingOf (j : List Entry) (n : Nat) : Option (List Json) :=
  j.findSome? fun
    | .listed m list => if m = n then some list else none
    | .took _ _ _ => none

/-- The products that a run took, each with whether it was stored. -/
def takenOf (j : List Entry) (n : Nat) : List (Json × Bool) :=
  j.filterMap fun
    | .listed _ _ => none
    | .took m raw stored => if m = n then some (raw, stored) else none

def replay (store : Store) (taken : List (Json × Bool)) : Store :=
  taken.foldl (fun store t => written store t.1 t.2) store

theorem replay_append (store : Store) (as bs : List (Json × Bool)) :
    replay store (as ++ bs) = replay (replay store as) bs :=
  List.foldl_append

theorem listingOf_listed (j : List Entry) (m : Nat) (list : List Json) (n : Nat) :
    listingOf (j ++ [.listed m list]) n =
      (listingOf j n).or (if m = n then some list else none) := by
  unfold listingOf
  rw [List.findSome?_append, List.findSome?_singleton]

theorem listingOf_took (j : List Entry) (m : Nat) (raw : Json) (stored : Bool) (n : Nat) :
    listingOf (j ++ [.took m raw stored]) n = listingOf j n := by
  unfold listingOf
  rw [List.findSome?_append, List.findSome?_singleton, Option.or_none]

theorem takenOf_listed (j : List Entry) (m : Nat) (list : List Json) :
    takenOf (j ++ [.listed m list]) = takenOf j := by
  funext n
  simp [takenOf]

theorem takenOf_took_same (j : List Entry) (n : Nat) (raw : Json) (stored : Bool) :
    takenOf (j ++ [.took n raw stored]) n = takenOf j n ++ [(raw, stored)] := by
  simp [takenOf]

theorem takenOf_took_other {m n : Nat} (h : m ≠ n) (j : List Entry) (raw : Json) (stored : Bool) :
    takenOf (j ++ [.took m raw stored]) n = takenOf j n := by
  simp [takenOf, h]

/-- A run that is yet to be let in has no entry. -/
theorem not_listed_of_fresh {j : List Entry} {n : Nat} (h : ∀ e ∈ j, e.run < n) :
    listingOf j n = none ∧ takenOf j n = [] := by
  constructor
  · refine List.findSome?_eq_none_iff.mpr fun e he => ?_
    cases e with
    | listed m list =>
      have hm : m ≠ n := Nat.ne_of_lt (h _ he)
      simp [hm]
    | took m raw stored => rfl
  · refine List.filterMap_eq_nil_iff.mpr fun e he => ?_
    cases e with
    | listed m list => rfl
    | took m raw stored =>
      have hm : m ≠ n := Nat.ne_of_lt (h _ he)
      simp [hm]

/-- The store and every run stand as the journal has it. -/
structure Accounted (store : Store) (j : List Entry) (c : Core) : Prop where
  numbered : ∀ e ∈ j, e.run < c.runs
  contents : c.store = replay store ((List.range c.runs).flatMap (takenOf j))
  waiting : ∀ n, c.active = some (n, none) → listingOf j n = none
  storing : ∀ n left, c.active = some (n, some left) →
    listingOf j n = some ((takenOf j n).map Prod.fst ++ left)
  nothing : ∀ n, listingOf j n = none → takenOf j n = []
  within : ∀ n list, listingOf j n = some list → (takenOf j n).map Prod.fst <+: list
  whole : ∀ n report, c.outcomes.lookup n = some (.ok report) →
    listingOf j n = some ((takenOf j n).map Prod.fst)
  failed : ∀ n f, c.outcomes.lookup n = some (.error f) →
    (∃ reason, f = .aborted reason) ∨ (∃ reason, f = .fetch reason) ∧ listingOf j n = none

namespace Accounted

variable {store : Store} {j : List Entry} {c : Core}

theorem letIn (h : Accounted store j c) :
    Accounted store j { c with active := some (c.runs, none), runs := c.runs + 1 } where
  numbered e he := Nat.lt_succ_of_lt (h.numbered e he)
  contents := by
    simp only [List.range_succ, List.flatMap_append, List.flatMap_singleton,
      (not_listed_of_fresh h.numbered).2, List.append_nil]
    exact h.contents
  waiting n hn := by
    simp only [Option.some.injEq, Prod.mk.injEq, and_true] at hn
    exact hn ▸ (not_listed_of_fresh h.numbered).1
  storing n left hn := by simp at hn
  nothing := h.nothing
  within := h.within
  whole := h.whole
  failed := h.failed

/-- A run that ends well has taken its whole list; one that fails on its fetch has taken nothing. -/
theorem ended (h : Accounted store j c) {n : Nat} {outcome : Outcome}
    (hwhole : ∀ report, outcome = .ok report → listingOf j n = some ((takenOf j n).map Prod.fst))
    (hfailed : ∀ f, outcome = .error f →
      (∃ reason, f = .aborted reason) ∨ (∃ reason, f = .fetch reason) ∧ listingOf j n = none) :
    Accounted store j (c.ended n outcome) where
  numbered := h.numbered
  contents := h.contents
  waiting m hm := by cases hm
  storing m left hm := by cases hm
  nothing := h.nothing
  within := h.within
  whole m report hm := by
    simp only [Core.ended, List.lookup_cons] at hm
    cases he : m == n with
    | true =>
      rw [he] at hm
      rw [eq_of_beq he]
      exact hwhole report (Option.some.inj hm)
    | false =>
      rw [he] at hm
      exact h.whole m report hm
  failed m f hm := by
    simp only [Core.ended, List.lookup_cons] at hm
    cases he : m == n with
    | true =>
      rw [he] at hm
      rw [eq_of_beq he]
      exact hfailed f (Option.some.inj hm)
    | false =>
      rw [he] at hm
      exact h.failed m f hm

theorem numbered_append (h : Accounted store j c) (hg : c.Guarded) {n : Nat}
    {rest : Option (List Json)} (hactive : c.active = some (n, rest)) {e : Entry}
    (he : e.run = n) : ∀ f ∈ j ++ [e], f.run < c.runs := by
  intro f hf
  rcases List.mem_append.mp hf with hf | hf
  · exact h.numbered f hf
  · have hn := hg.newest n rest hactive
    rw [List.mem_singleton.mp hf, he]
    omega

theorem list (h : Accounted store j c) (hg : c.Guarded) {n : Nat}
    (hactive : c.active = some (n, none)) (list : List Json) :
    Accounted store (j ++ [.listed n list]) { c with active := some (n, some list) } := by
  have hnone := h.waiting n hactive
  have hempty := h.nothing n hnone
  have hlist : listingOf (j ++ [.listed n list]) n = some list := by
    simp [listingOf_listed, hnone]
  have hother : ∀ m, m ≠ n → listingOf (j ++ [.listed n list]) m = listingOf j m := by
    intro m hm
    simp [listingOf_listed, Ne.symm hm]
  exact {
    numbered := h.numbered_append hg hactive rfl
    contents := by
      rw [takenOf_listed]
      exact h.contents
    waiting := by
      intro m hm
      simp at hm
    storing := by
      intro m left hm
      simp only [Option.some.injEq, Prod.mk.injEq] at hm
      obtain ⟨rfl, rfl⟩ := hm
      simp [hlist, takenOf_listed, hempty]
    nothing := by
      intro m hm
      rw [takenOf_listed]
      by_cases hmn : m = n
      · exact hmn ▸ hempty
      · exact h.nothing m (hother m hmn ▸ hm)
    within := by
      intro m l hm
      rw [takenOf_listed]
      by_cases hmn : m = n
      · subst hmn
        simp [hempty]
      · exact h.within m l (hother m hmn ▸ hm)
    whole := by
      intro m report hm
      have hmn : m ≠ n := hg.ne_of_ended hactive hm
      rw [takenOf_listed, hother m hmn]
      exact h.whole m report hm
    failed := by
      intro m f hm
      have hmn : m ≠ n := hg.ne_of_ended hactive hm
      rw [hother m hmn]
      exact h.failed m f hm }

/-- What is taken is the first product that is left, so that a run has always taken the front of its
list. -/
theorem take (h : Accounted store j c) (hg : c.Guarded) {n : Nat} {raw : Json} {left : List Json}
    (hactive : c.active = some (n, some (raw :: left))) (stored : Bool) :
    Accounted store (j ++ [.took n raw stored])
      { c with active := some (n, some left), store := written c.store raw stored } := by
  have hlist := h.storing n _ hactive
  have hruns : c.runs = n + 1 := (hg.newest n _ hactive).symm
  exact {
    numbered := h.numbered_append hg hactive rfl
    contents := by
      have hbefore : (List.range n).flatMap (takenOf (j ++ [.took n raw stored])) =
          (List.range n).flatMap (takenOf j) := by
        simp only [List.flatMap_def]
        refine congrArg List.flatten (List.map_congr_left fun m hm => ?_)
        exact takenOf_took_other (Nat.ne_of_gt (List.mem_range.mp hm)) j raw stored
      have hcontents := h.contents
      simp only [hruns, List.range_succ, List.flatMap_append, List.flatMap_singleton] at hcontents ⊢
      rw [hbefore, takenOf_took_same, ← List.append_assoc, replay_append, ← hcontents]
      rfl
    waiting := by
      intro m hm
      simp at hm
    storing := by
      intro m rest hm
      simp only [Option.some.injEq, Prod.mk.injEq] at hm
      obtain ⟨rfl, rfl⟩ := hm
      rw [listingOf_took, hlist, takenOf_took_same]
      simp
    nothing := by
      intro m hm
      rw [listingOf_took] at hm
      have hmn : n ≠ m := by
        rintro rfl
        rw [hlist] at hm
        cases hm
      rw [takenOf_took_other hmn]
      exact h.nothing m hm
    within := by
      intro m l hm
      rw [listingOf_took] at hm
      by_cases hmn : n = m
      · subst hmn
        rw [hlist] at hm
        cases hm
        rw [takenOf_took_same]
        exact ⟨left, by simp⟩
      · rw [takenOf_took_other hmn]
        exact h.within m l hm
    whole := by
      intro m report hm
      have hmn : n ≠ m := (hg.ne_of_ended hactive hm).symm
      rw [listingOf_took, takenOf_took_other hmn]
      exact h.whole m report hm
    failed := by
      intro m f hm
      rw [listingOf_took]
      exact h.failed m f hm }

/-- What a turn does to the store is in the entry that it makes. -/
theorem step (h : Accounted store j c) (hg : c.Guarded) {d : Core} {e : Option Entry}
    (hs : c.Step e d) : Accounted store (j ++ e.toList) d := by
  cases hs with
  | still =>
    rw [Option.toList_none, List.append_nil]
    exact h
  | admitted hidle =>
    rw [Option.toList_none, List.append_nil]
    exact h.letIn
  | listed hactive list => exact h.list hg hactive list
  | took hactive stored => exact h.take hg hactive stored
  | completed hactive report =>
    rw [Option.toList_none, List.append_nil]
    refine h.ended (fun _ _ => ?_) (fun f hf => by cases hf)
    rw [h.storing _ _ hactive, List.append_nil]
  | failed hactive reason =>
    rw [Option.toList_none, List.append_nil]
    refine h.ended (fun report hr => by cases hr) fun f hf => ?_
    cases hf
    exact .inr ⟨⟨reason, rfl⟩, h.waiting _ hactive⟩
  | died hactive reason =>
    rw [Option.toList_none, List.append_nil]
    refine h.ended (fun report hr => by cases hr) fun f hf => ?_
    cases hf
    exact .inl ⟨reason, rfl⟩

end Accounted

/-- A product can change what the store has of its own id, and of no other. -/
theorem get?_written (store : Store) (raw : Json) (stored : Bool) (id : Int) :
    (written store raw stored).get? id =
      match Storefront.normalize raw, stored with
      | .ok r, true => if id = r.id then some r else store.get? id
      | _, _ => store.get? id := by
  unfold written
  cases Storefront.normalize raw with
  | error e => rfl
  | ok r =>
    cases stored with
    | false => rfl
    | true => exact Store.get?_insert store r id

theorem mem_written {store : Store} {raw : Json} {stored : Bool} {r : Record}
    (h : r ∈ (written store raw stored).records) :
    r ∈ store.records ∨ Storefront.normalize raw = .ok r := by
  unfold written at h
  split at h
  · rename_i t hraw
    rcases Store.mem_insert h with rfl | h
    · exact .inr hraw
    · exact .inl h
  · exact .inl h

/-- A record that no product stands for was there from the start. -/
theorem mem_replay {store : Store} {taken : List (Json × Bool)} {r : Record}
    (h : r ∈ (replay store taken).records) :
    r ∈ store.records ∨ ∃ raw ∈ taken.map Prod.fst, Storefront.normalize raw = .ok r := by
  induction taken generalizing store with
  | nil => exact .inl h
  | cons t taken ih =>
    rcases ih h with h | ⟨raw, hraw, hr⟩
    · rcases mem_written h with h | h
      · exact .inl h
      · exact .inr ⟨t.1, by simp, h⟩
    · exact .inr ⟨raw, List.mem_cons_of_mem _ hraw, hr⟩

/-- No step takes an id out of the store. -/
theorem Core.Step.isSome_get? {c d : Core} {e : Option Entry} (hs : c.Step e d) {id : Int}
    (h : (c.store.get? id).isSome = true) : (d.store.get? id).isSome = true := by
  cases hs with
  | took hactive stored =>
    simp only [written]
    split
    · exact Store.isSome_get?_insert h _
    · exact h
  | _ => exact h

namespace System

theorem accounted_start (source : Source) (store : Store) :
    Accounted store [] (start source store).core where
  numbered e he := by cases he
  contents := rfl
  waiting n hn := by cases hn
  storing n left hn := by cases hn
  nothing n _ := rfl
  within n list hn := by cases hn
  whole n report hn := by cases hn
  failed n f hn := by cases hn

theorem accounted_after {store : Store} {j : List Entry} {s : System}
    (h : Accounted store j s.core) (hg : s.core.Guarded) (ts : List Turn) :
    Accounted store (j ++ s.journal ts) (s.after ts).core := by
  induction ts generalizing s j with
  | nil =>
    rw [journal, List.append_nil]
    exact h
  | cons t ts ih =>
    have hs := s.turn_step t
    rw [journal, ← List.append_assoc]
    exact ih (h.step hg hs) (hg.step hs)

/-- No turn takes a record out of the store. -/
theorem isSome_get?_after {s : System} {id : Int} (h : (s.store.get? id).isSome = true)
    (ts : List Turn) : ((s.after ts).store.get? id).isSome = true := by
  induction ts generalizing s with
  | nil => exact h
  | cons t ts ih => exact ih ((s.turn_step t).isSome_get? h)

def Sees (s : System) (r : Record) : Prop :=
  (∃ id, s.access.get? s.store id = .ok (some r)) ∨
  (∃ rs, s.access.all s.store = .ok rs ∧ r ∈ rs) ∨
  (∃ filters rs, s.access.find s.store filters = .ok rs ∧ r ∈ rs) ∨
  ∃ texts rs, Segment.evaluate s.access s.store texts = .ok rs ∧ r ∈ rs

theorem mem_of_sees {s : System} {r : Record} (h : s.Sees r) : r ∈ s.store.records := by
  rcases h with ⟨id, h⟩ | ⟨rs, h, hr⟩ | ⟨filters, rs, h, hr⟩ | ⟨texts, rs, h, hr⟩
  · unfold Access.get? at h
    split at h
    · cases h
    · exact Store.mem_of_get? (Except.ok.inj h)
  · exact Access.find_subset h r hr
  · exact Access.find_subset h r hr
  · cases texts with
    | none => cases h
    | some texts => exact Access.find_subset h r hr

/-- In every state that any turns lead to, the store is the first one with the products of one run
after another: all that were listed to a run that has succeeded, the first of them for the run that
is active or died among them, none for a run that was given no list. -/
theorem history (source : Source) (store : Store) (ts : List Turn) :
    let s := (start source store).after ts
    let j := (start source store).journal ts
    s.store = replay store ((List.range s.runs).flatMap (takenOf j)) ∧
    (∀ (before : Store) raw stored id, (written before raw stored).get? id =
      match Storefront.normalize raw, stored with
      | .ok r, true => if id = r.id then some r else before.get? id
      | _, _ => before.get? id) ∧
    (∀ n report, s.outcome? n = some (.ok report) →
      ∃ list, listingOf j n = some list ∧ (takenOf j n).map Prod.fst = list) ∧
    (∀ n f, s.outcome? n = some (.error f) →
      (∃ reason, f = .aborted reason) ∨ (∃ reason, f = .fetch reason) ∧ listingOf j n = none) ∧
    (∀ n, listingOf j n = none → takenOf j n = []) ∧
    (∀ n list, listingOf j n = some list → (takenOf j n).map Prod.fst <+: list) ∧
    (∀ e ∈ j, e.run < s.runs) ∧
    (∀ r, s.Sees r → r ∈ store.records ∨
      ∃ n list raw, listingOf j n = some list ∧ raw ∈ list ∧ Storefront.normalize raw = .ok r ∧
        r.price.isFinite = true ∧ r.price.compare? (.ofInt 0) ≠ some .lt) ∧
    (∀ id r, s.store.get? id = some r → r.id = id) ∧
    (∀ r ∈ s.store.records, s.store.get? r.id = some r) ∧
    (∀ id us, (s.store.get? id).isSome = true → ((s.after us).store.get? id).isSome = true) := by
  intro s j
  have h : Accounted store j s.core :=
    accounted_after (accounted_start source store) (guarded_start source store) ts
  refine ⟨h.contents, get?_written, ?_, h.failed, h.nothing, h.within, h.numbered, ?_, ?_, ?_, ?_⟩
  · intro n report hn
    exact ⟨_, h.whole n report hn, rfl⟩
  · intro r hr
    have hmem : r ∈ (replay store ((List.range s.runs).flatMap (takenOf j))).records :=
      h.contents ▸ mem_of_sees hr
    rcases mem_replay hmem with hr | ⟨raw, hraw, hr⟩
    · exact .inl hr
    · obtain ⟨⟨_, stored⟩, ht, rfl⟩ := List.mem_map.mp hraw
      obtain ⟨n, -, ht⟩ := List.mem_flatMap.mp ht
      cases hlist : listingOf j n with
      | none =>
        rw [h.nothing n hlist] at ht
        cases ht
      | some list =>
        have hin := (h.within n list hlist).subset (List.mem_map_of_mem ht)
        obtain ⟨hfinite, hnegative⟩ := Storefront.normalize_price hr
        exact .inr ⟨n, list, _, hlist, hin, hr, hfinite, Double.compare?_zero hnegative⟩
  · intro id r hr
    exact Store.get?_id hr
  · intro r hr
    exact Store.mem_iff_get?.mp hr
  · intro id us hid
    exact isSome_get?_after hid us

end System

end Segments.Sync
