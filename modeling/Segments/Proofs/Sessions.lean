import Segments.Http.Api
import Segments.Proofs.Turns

namespace Segments.Sync.System

def Leads (s t : System) : Prop :=
  ∃ ts, s.after ts = t

namespace Leads

theorem refl (s : System) : Leads s s :=
  ⟨[], rfl⟩

theorem trans {s t u : System} (h : Leads s t) (h' : Leads t u) : Leads s u := by
  obtain ⟨ts, rfl⟩ := h
  obtain ⟨us, rfl⟩ := h'
  exact ⟨ts ++ us, after_append s ts us⟩

theorem turn {s : System} (t : Turn) : Leads s (s.turn t) :=
  ⟨[t], rfl⟩

theorem letIn {s t : System} {caller : Caller} (h : s.admit? caller = some t) : Leads s t :=
  ⟨[.call caller], by simp [after, System.turn, h]⟩

theorem settleFor (fuel : Nat) (s : System) : Leads s (settleFor fuel s) :=
  settleFor_preserves (fun _ m _ h => h.trans (turn (.move m))) fuel (refl s)

theorem settle (s : System) : Leads s s.settle :=
  settleFor _ s

/-- Time goes on by moves that are ready and by steps of the clock. -/
theorem passFor (done : System → Bool) (limit : Option Nat) (fuel : Nat) (s : System) :
    Leads s (passFor done limit fuel s) :=
  passFor_preserves (fun _ m _ h => h.trans (turn (.move m)))
    (fun _ _ _ h => h.trans (turn (.clock _))) done limit fuel (refl s)

theorem passUntil (s : System) (moment : Nat) : Leads s (s.passUntil moment) := by
  unfold System.passUntil
  split
  · exact refl s
  · exact (passFor _ _ _ s).trans (turn (.clock moment))

theorem waitFor (s : System) (run : Nat) : Leads s (s.waitFor run).1 :=
  passFor _ _ _ s

theorem told (s : System) (outcome : Outcome) : Leads s (s.told outcome) := by
  unfold System.told
  split
  · exact turn (.note _)
  · exact refl s

theorem runGuarded (s : System) : Leads s s.runGuarded.1 := by
  unfold System.runGuarded
  cases ht : s.admit? .here with
  | none => exact refl s
  | some t =>
    have hwait := (letIn ht).trans (waitFor t (t.runs - 1))
    simp only
    cases hw : t.waitFor (t.runs - 1) with
    | mk u outcome? =>
      rw [hw] at hwait
      cases outcome? with
      | none => exact hwait
      | some outcome => exact hwait.trans (told u outcome)

theorem runWithin (s : System) (span : Nat) : Leads s (s.runWithin span).1 := by
  unfold System.runWithin
  cases ht : s.admit? .here with
  | none => exact refl s
  | some t =>
    have hstart := letIn ht
    simp only
    split
    · exact hstart.trans (turn .leave)
    · have hwait := hstart.trans
        (passFor (fun s => (s.outcome? (t.runs - 1)).isSome) (some (t.now + span)) (span + 2) t)
      split
      · exact hwait.trans (told _ _)
      · exact hwait.trans ((turn .leave).trans (turn (.clock _)))

theorem runAside (s : System) : Leads s s.runAside.1 := by
  unfold System.runAside
  cases ht : s.settle.admit? .aside with
  | none => exact settle s
  | some t => exact (settle s).trans ((letIn ht).trans (settle t))

theorem join (s : System) (run : Nat) : Leads s (s.join run).1 := by
  unfold System.join
  split
  · exact refl s
  · exact waitFor s run

theorem startLoop (s : System) (id every : Nat) : Leads s (s.startLoop id every) :=
  (turn (.startLoop id every)).trans (settle _)

theorem evaluate (s : System) (texts : Option (List String)) : Leads s (s.evaluate texts).1 :=
  turn (.evaluate texts)

end Leads

end Segments.Sync.System

namespace Segments.Http.Api

open Sync Sync.System

theorem leads_products (s : System) : Leads s (products s).1 := by
  unfold products
  split
  · exact .refl s
  · exact .turn (.note _)

theorem leads_evaluate (s : System) (r : Request) : Leads s (evaluate s r).1 := by
  unfold evaluate
  split
  · exact .refl s
  · rename_i conditions _
    have hstart : Leads s (s.note (.evaluationReceived ((conditions.map List.length).getD 0))) :=
      .turn (.note _)
    have hread := hstart.trans (.evaluate _ conditions)
    simp only
    split <;> rename_i heq
    all_goals
      rw [heq] at hread
      exact hread.trans (.turn (.note _))

theorem leads_sync (configured : Bool) (s : System) : Leads s (sync configured s).1 := by
  unfold sync
  split
  · exact .refl s
  · cases ht : s.admit? .here with
    | none => exact .turn (.note _)
    | some t => exact .letIn ht

theorem leads_serve (moments : Moments) (configured : Bool) (s : System) (r : Request)
    (resource : Resource) : Leads s (serve moments configured s r resource).1 := by
  cases resource with
  | health => exact .refl s
  | products => exact leads_products s
  | evaluation => exact leads_evaluate s r
  | sync => exact leads_sync configured s
  | syncStatus => exact .refl s

/-- What changes something is served where it is asked for by its one method. -/
theorem begin_post {r : Request} {resource : Resource} (hmethod : r.method = "POST")
    (hpath : Resource.ofPath? r.path = some resource) (hwrites : resource.isRead = false)
    (moments : Moments) (configured : Bool) (s : System) :
    begin moments configured s r = serve moments configured s r resource := by
  have hoptions : (r.method == "OPTIONS") = false := by rw [hmethod]; decide
  have hpost : (r.method == "POST") = true := by rw [hmethod]; decide
  unfold begin
  simp only [hpath, hoptions, hpost, hwrites, Bool.false_and, Bool.false_eq_true, if_false, if_true]

theorem leads_begin (moments : Moments) (configured : Bool) (s : System) (r : Request) :
    Leads s (begin moments configured s r).1 := by
  unfold begin
  simp only
  split
  · exact .refl s
  · split
    · exact .refl s
    · rename_i resource _
      have hserve := leads_serve moments configured s r resource
      split
      · split <;> rename_i heq
        all_goals
          rw [heq] at hserve
          exact hserve
      · generalize (if resource.isRead = true then "GET" else "POST") = method
        split
        · exact hserve
        · exact .refl s

theorem leads_finish (moments : Moments) (s : System) (reply : Reply) :
    Leads s (finish moments s reply).1 := by
  cases reply with
  | done response => exact .refl s
  | pending run =>
    have hwait := Leads.waitFor s run
    unfold finish
    simp only
    split <;> rename_i heq
    all_goals rw [heq] at hwait
    · exact hwait.trans (.told _ _)
    · exact hwait

/-- Whatever a request asks for, the server takes turns and does nothing else. -/
theorem leads_respond (moments : Moments) (configured : Bool) (s : System) (r : Request) :
    Leads s (respond moments configured s r).1 :=
  (leads_begin moments configured s r).trans (leads_finish moments _ _)

theorem leads_foldl {α β : Type} {f : System → α → System × β}
    (hf : ∀ s a, Leads s (f s a).1) (as : List α) (s : System) (done : List β) :
    Leads s (as.foldl (fun (p : System × List β) a =>
      let (t, b) := f p.1 a
      (t, p.2 ++ [b])) (s, done)).1 := by
  induction as generalizing s done with
  | nil => exact .refl s
  | cons a as ih => exact (hf s a).trans (ih _ _)

/-- Requests that come at once, each taken up before any is waited for. -/
theorem leads_respondAll (moments : Moments) (configured : Bool) (s : System) (rs : List Request) :
    Leads s (respondAll moments configured s rs).1 :=
  (leads_foldl (leads_begin moments configured) rs s []).trans
    (leads_foldl (leads_finish moments) _ _ [])

end Segments.Http.Api
