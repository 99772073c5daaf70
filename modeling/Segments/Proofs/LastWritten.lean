import Mathlib.Data.Finset.Card
import Segments.Proofs.Comparisons
import Segments.Proofs.Contents

namespace Segments

open Catalog

namespace Store

inductive Call
  | insert (r : Record)
  | get (id : Int)
  | all
  | find (filters : List Filter)
  | size
  | isEmpty

def Call.written? : Call → Option Record
  | .insert r => some r
  | _ => none

inductive Reply
  | done
  | record (found : Option Record)
  | records (found : Except Pattern.Fault (List Record))
  | count (n : Nat)
  | truth (b : Bool)

def call (s : Store) : Call → Store × Reply
  | .insert r => (s.insert r, .done)
  | .get id => (s, .record (s.get? id))
  | .all => (s, .records s.all)
  | .find filters => (s, .records (s.find filters))
  | .size => (s, .count s.size)
  | .isEmpty => (s, .truth s.isEmpty)

def calls (s : Store) : List Call → Store × List Reply
  | [] => (s, [])
  | c :: cs =>
    let (s, reply) := s.call c
    let (s, replies) := s.calls cs
    (s, reply :: replies)

end Store

def lastOf (id : Int) (written : List Record) : Option Record :=
  written.reverse.find? fun r => r.id == id

/-- The map of the records that were written last: each id once, by ascending id. -/
structure Lists (written rs : List Record) : Prop where
  ascending : rs.Pairwise fun a b => a.id < b.id
  ids : ∀ id, id ∈ rs.map Record.id ↔ id ∈ written.map Record.id
  last : ∀ r ∈ rs, lastOf r.id written = some r

open Classical in
/-- What the map of the records that were written replies to a call. -/
def Tells (written : List Record) : Store.Call → Store.Reply → Prop
  | .insert _, .done => True
  | .get id, .record found => found = lastOf id written
  | .all, .records (.ok found) => Lists written found
  | .find filters, .records (.ok found) =>
    (∀ f ∈ filters, ∃ m, Matcher.ofFilter f = .ok m) ∧
      ∃ rs, Lists written rs ∧ found = rs.filter fun r => ∀ f ∈ filters, f.Selects r
  | .find filters, .records (.error _) => ∃ f ∈ filters, ∀ m, Matcher.ofFilter f ≠ .ok m
  | .size, .count n => n = (written.map Record.id).toFinset.card
  | .isEmpty, .truth b => b = true ↔ (written.map Record.id).toFinset.card = 0
  | _, _ => False

/-- Every reply is that of the map of what was written until then. -/
inductive TellsAll : List Record → List Store.Call → List Store.Reply → Prop
  | nil {written : List Record} : TellsAll written [] []
  | cons {written : List Record} {c : Store.Call} {reply : Store.Reply} {cs : List Store.Call}
      {replies : List Store.Reply} : Tells written c reply →
      TellsAll (written ++ c.written?.toList) cs replies →
      TellsAll written (c :: cs) (reply :: replies)

theorem isSome_lastOf {id : Int} {written : List Record} :
    (lastOf id written).isSome = true ↔ id ∈ written.map Record.id := by
  simp [lastOf]

namespace Store

theorem ofRecords_append (rs more : List Record) :
    ofRecords (rs ++ more) = more.foldl insert (ofRecords rs) :=
  List.foldl_append

/-- Of each id a store made of records has the one that came last. -/
theorem get?_ofRecords (written : List Record) (id : Int) :
    (ofRecords written).get? id = lastOf id written := by
  rw [ofRecords, get?_foldl_insert]
  exact Option.or_none

theorem lists_ofRecords (written : List Record) : Lists written (ofRecords written).records where
  ascending := (ofRecords written).ordered
  ids := by
    intro id
    have hlast : id ∈ written.map Record.id ↔ ∃ r, (ofRecords written).get? id = some r := by
      rw [← isSome_lastOf, ← get?_ofRecords, Option.isSome_iff_exists]
    rw [hlast, List.mem_map]
    constructor
    · rintro ⟨r, hr, rfl⟩
      exact ⟨r, mem_iff_get?.mp hr⟩
    · rintro ⟨r, hr⟩
      exact ⟨r, mem_of_get? hr, get?_id hr⟩
  last := by
    intro r hr
    rw [← get?_ofRecords]
    exact mem_iff_get?.mp hr

end Store

/-- Records listed each once are as many as their ids. -/
theorem Lists.length_eq {written rs : List Record} (h : Lists written rs) :
    rs.length = (written.map Record.id).toFinset.card := by
  have hnodup : (rs.map Record.id).Nodup := by
    rw [List.Nodup, List.pairwise_map]
    exact h.ascending.imp Int.ne_of_lt
  have hids : (rs.map Record.id).toFinset = (written.map Record.id).toFinset := by
    ext id
    simp only [List.mem_toFinset, h.ids]
  rw [← hids, List.toFinset_card_of_nodup hnodup, List.length_map]

namespace Store

open Classical in
/-- There is an answer just if every filter can be made ready, and it has the records that all of them
keep. -/
theorem find_eq_ok {s : Store} {filters : List Filter} {found : List Record} :
    s.find filters = .ok found ↔ (∀ f ∈ filters, ∃ m, Matcher.ofFilter f = .ok m) ∧
      found = s.records.filter fun r => ∀ f ∈ filters, f.Selects r := by
  have hfilter : ∀ {ms : List Matcher},
      List.Forall₂ (fun f m => Matcher.ofFilter f = .ok m) filters ms →
      (s.records.filter fun r => ms.all fun m => m.selects r) =
        s.records.filter fun r => ∀ f ∈ filters, f.Selects r := by
    intro ms hms
    apply List.filter_congr
    intro r _
    rw [Bool.eq_iff_iff, List.all_eq_true, decide_eq_true_iff]
    exact Matcher.forall_matchers_iff hms _
  unfold find
  constructor
  · intro h
    cases hms : filters.mapM Matcher.ofFilter with
    | error fault => simp [hms, bind, Except.bind] at h
    | ok ms =>
      have hall := Matcher.mapM_ofFilter.mp hms
      simp only [hms, bind, Except.bind, Except.ok.injEq] at h
      exact ⟨Matcher.exists_matcher hall, h ▸ hfilter hall⟩
  · intro h
    obtain ⟨ms, hms⟩ := Matcher.exists_matchers h.1
    simp only [Matcher.mapM_ofFilter.mpr hms, bind, Except.bind, hfilter hms, h.2]

theorem all_eq (s : Store) : s.all = .ok s.records := by
  have hall : s.records.filter (fun _ => true) = s.records := by simp
  exact congrArg Except.ok hall

theorem isEmpty_iff (s : Store) : s.isEmpty = true ↔ s.size = 0 := by
  rw [isEmpty, List.isEmpty_iff, size, List.length_eq_zero_iff]

/-- A store with some records written replies as their map. -/
theorem tells_call (written : List Record) (c : Call) :
    Tells written c ((ofRecords written).call c).2 := by
  have hlists := lists_ofRecords written
  have hsize : (ofRecords written).size = (written.map Record.id).toFinset.card := hlists.length_eq
  cases c with
  | insert r => trivial
  | get id => exact get?_ofRecords written id
  | all =>
    rw [call, all_eq]
    exact hlists
  | find filters =>
    rw [call]
    cases hfound : (ofRecords written).find filters with
    | ok found =>
      obtain ⟨hready, hkept⟩ := find_eq_ok.mp hfound
      exact ⟨hready, _, hlists, hkept⟩
    | error fault =>
      show ∃ f ∈ filters, ∀ m, Matcher.ofFilter f ≠ .ok m
      by_contra hall
      have hready : ∀ f ∈ filters, ∃ m, Matcher.ofFilter f = .ok m := by
        intro f hf
        by_contra hnone
        exact hall ⟨f, hf, not_exists.mp hnone⟩
      rw [find_eq_ok.mpr ⟨hready, rfl⟩] at hfound
      cases hfound
  | size => exact hsize
  | isEmpty =>
    show (ofRecords written).isEmpty = true ↔ _
    rw [isEmpty_iff, hsize]

/-- A call leaves the store as it was, but for the record that it writes. -/
theorem call_fst (written : List Record) (c : Call) :
    ((ofRecords written).call c).1 = ofRecords (written ++ c.written?.toList) := by
  cases c with
  | insert r => exact (ofRecords_append written [r]).symm
  | _ => exact congrArg ofRecords (List.append_nil written).symm

/-- Whatever records a store is made of and whatever is called, in any order, every call is replied to as
by the map of the records that were written last, and in the end the store has what was written. -/
theorem calls_tell (initial : List Record) (cs : List Call) :
    TellsAll initial cs ((ofRecords initial).calls cs).2 ∧
      ((ofRecords initial).calls cs).1 = ofRecords (initial ++ cs.filterMap Call.written?) := by
  induction cs generalizing initial with
  | nil => exact ⟨.nil, congrArg ofRecords (List.append_nil initial).symm⟩
  | cons c cs ih =>
    obtain ⟨hreplies, hstore⟩ := ih (initial ++ c.written?.toList)
    rw [← call_fst] at hreplies hstore
    refine ⟨.cons (tells_call initial c) hreplies, ?_⟩
    have hwritten : (c :: cs).filterMap Call.written? =
        c.written?.toList ++ cs.filterMap Call.written? := by
      cases c <;> rfl
    rw [hwritten, ← List.append_assoc, ← hstore]
    rfl

end Store

end Segments
