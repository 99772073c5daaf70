import Mathlib.Data.List.Chain
import Segments.Proofs.Ticking

namespace Segments.Sync

structure Attempt where
  /-- The deadline of the tick at which it asks. -/
  deadline : Nat
  start : Nat
  /-- A run held the guard already. -/
  refused : Bool
  /-- When the loop no longer waits for the run, if that is so yet. -/
  finish : Option Nat
  deriving DecidableEq, Repr

structure Attempt.Next (period : Nat) (a b : Attempt) : Prop where
  ended : ∃ e, a.finish = some e ∧ a.start ≤ e ∧ b.start = max b.deadline e
  deadline : b.deadline = nextTick period a.deadline a.start

def Happening.asks (id : Nat) : Happening → Bool
  | .turn (.move (.tick i)) => i == id
  | _ => false

theorem Happening.asks_eq_false {id : Nat} {e : Happening} (h : e ≠ .turn (.move (.tick id))) :
    e.asks id = false := by
  unfold asks
  split
  · rename_i i
    exact beq_false_of_ne fun hi => h (by rw [hi])
  · rfl

namespace Scene

def onTime (w : Scene) (id : Nat) : Happening → Bool
  | .turn t => w.system.onTime id t
  | _ => true

def punctual (id : Nat) (w : Scene) : List Happening → Bool
  | [] => true
  | e :: es => w.onTime id e && (w.happen e).punctual id es

def freedAt (id : Nat) (w : Scene) : List Happening → Option Nat
  | [] => if w.system.heldBy id then none else some w.system.now
  | e :: es => if w.system.heldBy id then (w.happen e).freedAt id es else some w.system.now

def attempts (id : Nat) (w : Scene) : List Happening → List Attempt
  | [] => []
  | e :: es =>
    match e.asks id, w.system.awaited id with
    | true, deadline :: _ =>
      ⟨deadline, w.system.now, w.system.pipeline.isRunning, (w.happen e).freedAt id es⟩ ::
        (w.happen e).attempts id es
    | _, _ => (w.happen e).attempts id es

/-- Only the clock and its own tick can change the deadline of a loop that is served in time. -/
theorem onTime_happen {w : Scene} {id period deadline : Nat} {held : Bool}
    (h : w.system.On id period deadline held) {e : Happening} (he : w.onTime id e = true)
    (hclock : ∀ moment, e ≠ .turn (.clock moment)) (htick : e ≠ .turn (.move (.tick id))) :
    System.On.Kept w.system (w.happen e).system id period deadline held := by
  have hstill : System.On.Kept w.system w.system id period deadline held := ⟨rfl, .inl h⟩
  cases e with
  | turn x =>
    simp only [happen]
    split
    · exact hstill
    · exact h.turn he (fun moment hx => hclock moment (by rw [hx])) fun hx => htick (by rw [hx])
  | close =>
    simp only [happen]
    split
    · split
      · rename_i hclosing
        obtain ⟨-, source, log, rfl⟩ := System.closing?_spec hclosing
        exact h.course (.same ⟨rfl, rfl, rfl⟩)
      · exact hstill
    · exact hstill
  | record =>
    simp only [happen]
    split
    · rename_i hrun
      exact h.course (.ended (.refl _) (by rw [hrun]; rfl) _)
    · exact hstill
  | beginAside => exact h.course (.same ⟨rfl, rfl, rfl⟩)
  | aside place refusal =>
    simp only [happen]
    split
    · rename_i a _
      obtain ⟨-, store, log, hsystem⟩ := w.goOn_spec place refusal a
      rw [hsystem]
      exact h.course (.same ⟨rfl, rfl, rfl⟩)
    · exact hstill
  | dropAside place => exact hstill

/-- A loop that waits for no run is free at once. -/
theorem freedAt_free {w : Scene} {id : Nat} (h : w.system.heldBy id = false)
    (es : List Happening) : w.freedAt id es = some w.system.now := by
  cases es <;> simp [freedAt, h]

/-- When the loop of this identity next asks for a run, if nothing ends it. -/
def asksAt (id deadline : Nat) (w : Scene) (es : List Happening) : Option Nat :=
  (w.freedAt id es).map (max deadline)

/-- What a loop that has this deadline does in all that happens. -/
structure Regular (w : Scene) (id period deadline : Nat) (es : List Happening) : Prop where
  stays : ∃ next held, (w.after es).system.On id period next held
  freed : ∀ m, w.freedAt id es = some m → w.system.now ≤ m
  first : ∀ a ∈ (w.attempts id es).head?, a.deadline = deadline ∧
    w.asksAt id deadline es = some a.start
  chain : (w.attempts id es).IsChain (Attempt.Next period)
  /-- The clock does not pass the next attempt. -/
  before : w.attempts id es = [] → ∀ m, w.asksAt id deadline es = some m →
    (w.after es).system.now ≤ m
  between : ∀ a ∈ (w.attempts id es).getLast?, ∀ m, a.finish = some m →
    (w.after es).system.now ≤ max (nextTick period a.deadline a.start) m
  count : (w.attempts id es).length = es.countP (·.asks id)
  refused : ∀ a ∈ w.attempts id es, a.refused = true → a.finish = some a.start

namespace Regular

variable {w : Scene} {id period deadline : Nat} {held : Bool}

theorem nil (h : w.system.On id period deadline held) : Regular w id period deadline [] := by
  have hfreed : ∀ m, w.freedAt id [] = some m → m = w.system.now := by
    intro m hm
    simp only [freedAt] at hm
    split at hm
    · cases hm
    · exact (Option.some.inj hm).symm
  exact {
    stays := ⟨deadline, held, h⟩
    freed := fun m hm => (hfreed m hm).symm ▸ Nat.le_refl _
    first := fun a ha => by cases ha
    chain := .nil
    before := fun _ m hm => by
      obtain ⟨n, hn, rfl⟩ := Option.map_eq_some_iff.mp hm
      exact (hfreed n hn).symm ▸ Nat.le_max_right _ _
    between := fun a ha => by cases ha
    count := rfl
    refused := fun a ha => by cases ha }

/-- What is not the tick of the loop and does not put it off leaves its attempts to what follows. -/
theorem other {e : Happening} {es : List Happening} (he : e.asks id = false)
    (hfreed : ∀ m, w.freedAt id (e :: es) = some m → w.system.now ≤ m)
    (hasks : w.asksAt id deadline (e :: es) = (w.happen e).asksAt id deadline es)
    (h : Regular (w.happen e) id period deadline es) : Regular w id period deadline (e :: es) := by
  have hsame : w.attempts id (e :: es) = (w.happen e).attempts id es := by
    simp only [attempts, he]
  exact {
    stays := h.stays
    freed := hfreed
    first := fun a ha => hasks ▸ h.first a (hsame ▸ ha)
    chain := hsame ▸ h.chain
    before := fun hnone m hm => h.before (hsame ▸ hnone) m (hasks ▸ hm)
    between := fun a ha => h.between a (hsame ▸ ha)
    count := by rw [hsame, h.count, List.countP_cons_of_neg (by simp [he])]
    refused := fun a ha => h.refused a (hsame ▸ ha) }

/-- At its tick the loop makes one attempt, and what follows is that of a loop with the next
deadline. -/
theorem tick {es : List Happening} (h : w.system.On id period deadline false)
    (hdue : deadline ≤ w.system.now)
    (hrest : Regular (w.happen (.turn (.move (.tick id)))) id period
      (nextTick period deadline w.system.now) es) :
    Regular w id period deadline (.turn (.move (.tick id)) :: es) := by
  have hsystem : (w.happen (.turn (.move (.tick id)))).system =
      w.system.turn (.move (.tick id)) := by
    simp [happen, Turn.ofRun, System.Move.ofRun]
  obtain ⟨hon, hnow⟩ := h.tick rfl
  rw [← hsystem] at hon hnow
  have hfreed := freedAt_free h.held (.turn (.move (.tick id)) :: es)
  generalize hv : w.happen (.turn (.move (.tick id))) = v at hrest hon hnow hsystem
  have hafter : w.after (.turn (.move (.tick id)) :: es) = v.after es := by
    rw [← hv]
    rfl
  obtain ⟨a, ha⟩ : ∃ a : Attempt, a = ⟨deadline, w.system.now, w.system.pipeline.isRunning,
    v.freedAt id es⟩ := ⟨_, rfl⟩
  have hself : Happening.asks id (.turn (.move (.tick id))) = true := beq_self_eq_true id
  have hattempts : w.attempts id (.turn (.move (.tick id)) :: es) = a :: v.attempts id es := by
    simp only [attempts, hself, h.awaited, Bool.false_eq_true, if_false, hv, ha]
  have hnext : ∀ b ∈ (v.attempts id es).head?, Attempt.Next period a b := by
    intro b hb
    obtain ⟨hdeadline, hasks⟩ := hrest.first b hb
    obtain ⟨m, hm, hstart⟩ := Option.map_eq_some_iff.mp hasks
    subst ha
    exact ⟨⟨m, hm, hnow ▸ hrest.freed m hm, by rw [hdeadline, hstart]⟩, hdeadline⟩
  exact {
    stays := hafter ▸ hrest.stays
    freed := fun m hm => by
      rw [hfreed] at hm
      exact Nat.le_of_eq (Option.some.inj hm)
    first := fun b hb => by
      rw [hattempts] at hb
      cases hb
      subst ha
      exact ⟨rfl, by rw [asksAt, hfreed, Option.map_some, Nat.max_eq_right hdue]⟩
    chain := hattempts ▸ hrest.chain.cons hnext
    before := fun hnone => by
      rw [hattempts] at hnone
      cases hnone
    between := fun b hb m hm => by
      rw [hattempts] at hb
      rw [hafter]
      cases hlist : v.attempts id es with
      | nil =>
        rw [hlist] at hb
        cases hb
        subst ha
        exact hrest.before hlist _ (Option.map_eq_some_iff.mpr ⟨m, hm, rfl⟩)
      | cons c cs =>
        rw [hlist, List.getLast?_cons_cons] at hb
        exact hrest.between b (hlist ▸ hb) m hm
    count := by rw [hattempts, List.length_cons, hrest.count, List.countP_cons_of_pos hself]
    refused := fun b hb hrefused => by
      rw [hattempts] at hb
      rcases List.mem_cons.mp hb with rfl | hb
      · subst ha
        have hrunning : w.system.pipeline.isRunning = true := hrefused
        have hidle : v.system.heldBy id = false := by rw [hon.held, hrunning, Bool.not_true]
        rw [freedAt_free hidle, hnow]
      · exact hrest.refused b hb hrefused }

/-- The clock does not pass a deadline that the loop waits for. -/
theorem clock {moment : Nat} {es : List Happening} (h : w.system.On id period deadline held)
    (hx : w.system.onTime id (.clock moment) = true)
    (hrest : Regular (w.happen (.turn (.clock moment))) id period deadline es) :
    Regular w id period deadline (.turn (.clock moment) :: es) := by
  have hv : (w.happen (.turn (.clock moment))).system = { w.system with now := moment } := by
    simp [happen, Turn.ofRun, System.turn]
  simp only [System.onTime, Bool.and_eq_true, decide_eq_true_eq, h.awaited] at hx
  obtain ⟨hmoment, hdeadline⟩ := hx
  cases held with
  | true =>
    have hsame : w.freedAt id (.turn (.clock moment) :: es) =
        (w.happen (.turn (.clock moment))).freedAt id es := by
      simp only [freedAt, h.held, if_true]
    refine other rfl (fun m hm => ?_) (congrArg _ hsame) hrest
    have hle := hrest.freed m (hsame ▸ hm)
    rw [hv] at hle
    exact Nat.le_trans hmoment hle
  | false =>
    have hnow := freedAt_free h.held (.turn (.clock moment) :: es)
    have hlater : (w.happen (.turn (.clock moment))).freedAt id es = some moment := by
      rw [freedAt_free (by rw [hv]; exact h.held), hv]
    simp only [Bool.false_eq_true, if_false, List.all_cons, List.all_nil, Bool.and_true,
      decide_eq_true_eq] at hdeadline
    refine other rfl (fun m hm => ?_) ?_ hrest
    · rw [hnow] at hm
      exact Nat.le_of_eq (Option.some.inj hm)
    · have hmax : max deadline w.system.now = max deadline moment := by omega
      simp only [asksAt, hnow, hlater, Option.map_some, hmax]

/-- Whatever else happens, the loop may be told that its run has ended. -/
theorem kept {e : Happening} {es : List Happening} (h : w.system.On id period deadline held)
    (he : e.asks id = false)
    (hkept : System.On.Kept w.system (w.happen e).system id period deadline held)
    (hrest : Regular (w.happen e) id period deadline es) :
    Regular w id period deadline (e :: es) := by
  obtain ⟨hnow, hon⟩ := hkept
  have hsame : w.freedAt id (e :: es) = (w.happen e).freedAt id es := by
    cases held with
    | true => simp only [freedAt, h.held, if_true]
    | false =>
      have hfree : (w.happen e).system.heldBy id = false := by
        rcases hon with hon | hon <;> exact hon.held
      rw [freedAt_free h.held, freedAt_free hfree, hnow]
  refine other he (fun m hm => ?_) (congrArg _ hsame) hrest
  exact hnow ▸ hrest.freed m (hsame ▸ hm)

end Regular

/-- Whatever happens, if it happens in time, a loop goes on as its deadline has it. -/
theorem regular {w : Scene} {id period deadline : Nat} {held : Bool}
    (h : w.system.On id period deadline held) {es : List Happening}
    (hes : w.punctual id es = true) : w.Regular id period deadline es := by
  induction es generalizing w deadline held with
  | nil => exact .nil h
  | cons e es ih =>
    simp only [punctual, Bool.and_eq_true] at hes
    obtain ⟨he, hes⟩ := hes
    by_cases hclock : ∃ moment, e = .turn (.clock moment)
    · obtain ⟨moment, rfl⟩ := hclock
      have hon : (w.happen (.turn (.clock moment))).system.On id period deadline held := by
        simp only [happen, Turn.ofRun, Bool.and_false, Bool.false_eq_true, if_false]
        exact ⟨h.loop, h.held⟩
      exact .clock h he (ih hon hes)
    by_cases htick : e = .turn (.move (.tick id))
    · subst htick
      obtain ⟨rfl, hdue⟩ : held = false ∧ deadline ≤ w.system.now := by
        cases held with
        | true => simp [onTime, System.onTime, h.awaited] at he
        | false => exact ⟨rfl, by simpa [onTime, System.onTime, h.awaited] using he⟩
      have hsystem : (w.happen (.turn (.move (.tick id)))).system =
          w.system.turn (.move (.tick id)) := by
        simp [happen, Turn.ofRun, System.Move.ofRun]
      exact .tick h hdue (ih (hsystem ▸ (h.tick rfl).1) hes)
    · have hkept := onTime_happen h he (fun moment hm => hclock ⟨moment, hm⟩) htick
      rcases hkept.2 with hon | hon
      · exact .kept h (Happening.asks_eq_false htick) hkept (ih hon hes)
      · exact .kept h (Happening.asks_eq_false htick) hkept (ih hon hes)

end Scene

end Segments.Sync
