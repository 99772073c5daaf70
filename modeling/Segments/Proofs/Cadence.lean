import Segments.Proofs.Attempts

namespace Segments.Sync

/-- Deadlines stay on the grid of whole periods, and the next one is the first after now, or at most
one period late. -/
theorem nextTick_spec {period deadline now : Nat} (hperiod : 0 < period) (hlate : deadline ≤ now) :
    (∃ k, nextTick period deadline now = deadline + k * period) ∧
      nextTick period deadline now ≤ now + period := by
  unfold nextTick
  split
  · exact ⟨⟨1, by rw [Nat.one_mul]⟩, Nat.add_le_add_right hlate period⟩
  · refine ⟨⟨(now - deadline) / period + 1, ?_⟩, Nat.sub_le _ _⟩
    have hdiv := Nat.div_add_mod (now - deadline) period
    have hmod := Nat.mod_lt (now - deadline) hperiod
    rw [Nat.mul_comm] at hdiv
    rw [Nat.add_mul, Nat.one_mul]
    omega

/-- A tick that is on time moves the deadline by one period. -/
theorem nextTick_punctual (period deadline : Nat) :
    nextTick period deadline deadline = deadline + period :=
  if_pos (Nat.le_add_right deadline slack)

theorem slack_lt_periodOf (every : Nat) : slack < periodOf every :=
  Nat.lt_of_lt_of_le (by decide) (Nat.le_max_right every minPeriod)

namespace Attempt

variable {period origin : Nat} {as : List Attempt}

/-- An attempt on the grid of whole periods after the origin. -/
def Aligned (period origin : Nat) (a : Attempt) : Prop :=
  a.deadline ≤ a.start ∧ ∃ k, a.deadline = origin + k * period

/-- A deadline moves by whole periods, so that the grid is not left. -/
theorem Next.aligned {a b : Attempt} (hperiod : 0 < period) (h : Next period a b)
    (ha : a.Aligned period origin) : b.Aligned period origin := by
  obtain ⟨hlate, k, hk⟩ := ha
  obtain ⟨⟨n, hn⟩, -⟩ := nextTick_spec hperiod hlate
  obtain ⟨m, -, -, hstart⟩ := h.ended
  refine ⟨hstart ▸ Nat.le_max_left _ _, k + n, ?_⟩
  rw [h.deadline, hn, hk, Nat.add_mul, Nat.add_assoc]

/-- An attempt on the grid is followed by attempts on the grid. -/
theorem aligned (hperiod : 0 < period) (h : as.IsChain (Next period))
    (hfirst : ∀ a ∈ as.head?, a.Aligned period origin) : ∀ a ∈ as, a.Aligned period origin := by
  induction as with
  | nil => exact fun a ha => by cases ha
  | cons a as ih =>
    have ha := hfirst a rfl
    refine List.forall_mem_cons.mpr ⟨ha, ih h.tail fun b hb => ?_⟩
    exact (h.rel_head? hb).aligned hperiod ha

/-- As long as each attempt is over before the next is due, none is off its time. -/
theorem steady (h : as.IsChain (Next period))
    (hfirst : ∀ a ∈ as.head?, a.deadline = origin ∧ a.start = origin)
    (hshort : ∀ a ∈ as, ∀ m, a.finish = some m → m < a.start + period) :
    ∀ k a, as[k]? = some a → a.deadline = origin + k * period ∧ a.start = origin + k * period := by
  induction as generalizing origin with
  | nil => exact fun k a ha => by cases ha
  | cons a as ih =>
    obtain ⟨hdeadline, hstart⟩ := hfirst a rfl
    rintro (_ | k) b hb
    · cases hb
      rw [Nat.zero_mul]
      exact ⟨hdeadline, hstart⟩
    · have hnext : ∀ c ∈ as.head?, c.deadline = origin + period ∧ c.start = origin + period := by
        intro c hc
        have hac := h.rel_head? hc
        obtain ⟨m, hm, -, hc⟩ := hac.ended
        have hlt := hshort a List.mem_cons_self m hm
        have hdue : c.deadline = origin + period := by
          rw [hac.deadline, hdeadline, hstart, nextTick_punctual]
        exact ⟨hdue, by omega⟩
      have hk := ih h.tail hnext (fun c hc => hshort c (List.mem_cons_of_mem a hc)) k b hb
      rw [Nat.add_mul, Nat.one_mul, Nat.add_comm (k * period), ← Nat.add_assoc]
      exact hk

end Attempt

namespace System

def punctual (id : Nat) (s : System) : List Turn → Bool
  | [] => true
  | t :: ts => s.onTime id t && (s.turn t).punctual id ts

/-- Turns at which the loop of this identity is served in time lead from one state to another. -/
def InTime (id : Nat) (s t : System) : Prop :=
  ∃ ts, s.punctual id ts = true ∧ s.after ts = t

theorem mem_awaited {s : System} {id deadline : Nat} :
    deadline ∈ s.awaited id ↔
      ∃ l ∈ s.loops, l.id = id ∧ (∃ ticket, l.waiting = .tick ticket) ∧ l.deadline = deadline := by
  unfold awaited
  simp only [List.mem_filterMap, List.mem_filter, beq_iff_eq, Option.map_eq_some_iff]
  constructor
  · rintro ⟨l, ⟨hl, hid⟩, e, he, rfl⟩
    unfold Loop.tick? at he
    split at he
    · rename_i ticket hwaiting
      cases he
      exact ⟨l, hl, hid, ⟨ticket, hwaiting⟩, rfl⟩
    · cases he
  · rintro ⟨l, hl, hid, ⟨ticket, hwaiting⟩, rfl⟩
    exact ⟨l, ⟨hl, hid⟩, ⟨l.deadline, ticket, .tick l.id⟩, by rw [Loop.tick?, hwaiting], rfl⟩

/-- A deadline that is waited for is one of the events, so that the clock stops there. -/
theorem event_of_awaited {s : System} {id deadline : Nat} (h : deadline ∈ s.awaited id) :
    ∃ e ∈ s.events, e.due = deadline := by
  obtain ⟨l, hl, -, ⟨ticket, hwaiting⟩, rfl⟩ := mem_awaited.mp h
  refine ⟨⟨l.deadline, ticket, .tick l.id⟩, ?_, rfl⟩
  rw [events_eq]
  exact List.mem_append_right _ (List.mem_filterMap.mpr ⟨l, hl, by rw [Loop.tick?, hwaiting]⟩)

/-- A tick that is ready does not come before its deadline. -/
theorem onTime_ready {s : System} {m : Move} (h : s.ready? = some m) (id : Nat) :
    s.onTime id (.move m) = true := by
  rcases ready?_cases h with ⟨_, _, _, _, _, -, -, rfl⟩ | ⟨_, _, _, -, -, rfl⟩ |
    ⟨_, _, _, -, -, -, rfl⟩ | ⟨l, hl, hwaiting, hdue, rfl⟩ | ⟨_, -, -, rfl⟩
  · rfl
  · rfl
  · rfl
  · by_cases hid : l.id = id
    · have hmem : l.deadline ∈ s.awaited id := mem_awaited.mpr ⟨l, hl, hid, hwaiting, rfl⟩
      simp only [onTime, Bool.or_eq_true, List.any_eq_true, decide_eq_true_eq]
      exact .inr ⟨l.deadline, hmem, hdue⟩
    · simp [onTime, hid]
  · rfl

/-- The clock passes no deadline if it passes no event. -/
theorem onTime_clock {s : System} {moment : Nat} (hnow : s.now ≤ moment)
    (h : ∀ e ∈ s.events, moment ≤ max s.now e.due) (id : Nat) :
    s.onTime id (.clock moment) = true := by
  simp only [onTime, Bool.and_eq_true, decide_eq_true_eq, List.all_eq_true]
  refine ⟨hnow, fun deadline hdeadline => ?_⟩
  obtain ⟨e, he, rfl⟩ := event_of_awaited hdeadline
  exact h e he

namespace InTime

variable {id : Nat} {s t u : System}

theorem refl (s : System) : InTime id s s :=
  ⟨[], rfl, rfl⟩

theorem punctual_append (s : System) (ts us : List Turn) :
    s.punctual id (ts ++ us) = (s.punctual id ts && (s.after ts).punctual id us) := by
  induction ts generalizing s with
  | nil => rfl
  | cons t ts ih =>
    rw [List.cons_append, System.punctual, ih, System.punctual, Bool.and_assoc]
    rfl

theorem trans (h : InTime id s t) (h' : InTime id t u) : InTime id s u := by
  obtain ⟨ts, hts, rfl⟩ := h
  obtain ⟨us, hus, rfl⟩ := h'
  exact ⟨ts ++ us, by rw [punctual_append, hts, hus]; rfl, after_append s ts us⟩

theorem turn {x : Turn} (h : s.onTime id x = true) : InTime id s (s.turn x) :=
  ⟨[x], by simp [System.punctual, h], rfl⟩

theorem next {e : Event} (he : earliest s.events = some e) :
    InTime id s { s with now := max s.now e.due } := by
  have hleast := (earliest_spec he).2
  refine turn (x := .clock (max s.now e.due)) (onTime_clock (Nat.le_max_left _ _) ?_ id)
  intro f hf
  have hle := hleast f hf
  omega

theorem settleFor (fuel : Nat) (s : System) : InTime id s (System.settleFor fuel s) :=
  settleFor_preserves (fun _ _ hm h => h.trans (turn (onTime_ready hm id))) fuel (refl s)

theorem passFor (done : System → Bool) (limit : Option Nat) (fuel : Nat) (s : System) :
    InTime id s (System.passFor done limit fuel s) :=
  passFor_preserves (fun _ _ hm h => h.trans (turn (onTime_ready hm id)))
    (fun _ _ he h => h.trans (next he)) done limit fuel (refl s)

end InTime

theorem now_apply (s : System) (m : Move) : (s.apply m).now = s.now := by
  cases hm : m.ofRun with
  | true => exact (calm_apply hm).now
  | false =>
    cases m with
    | tick id =>
      simp only [apply]
      split
      · exact (ticked_spec s _).1
      · rfl
    | _ => cases hm

theorem now_settleFor (fuel : Nat) (s : System) : (settleFor fuel s).now = s.now :=
  settleFor_preserves (p := fun t => t.now = s.now) (fun t m _ h => (now_apply t m).trans h) fuel rfl

/-- The time goes on moment by moment until nothing is due any more before the limit. -/
theorem passFor_limit {limit fuel : Nat} {s : System} (hp : s.Paced) (hnow : s.now < limit)
    (hfuel : limit - s.now < fuel) :
    let t := passFor (fun _ => false) (some limit) fuel s
    t.now < limit ∧ ∀ e ∈ t.events, limit ≤ e.due := by
  induction fuel generalizing s with
  | zero => omega
  | succ fuel ih =>
    have hpaced : s.settle.Paced := paced_settleFor hp _
    have hsettled : s.settle.now = s.now := now_settleFor _ s
    obtain ⟨-, hevents⟩ := ready?_none (settle_rest hp)
    unfold passFor
    simp only [Bool.false_eq_true, if_false]
    generalize s.settle = t at hpaced hsettled hevents ⊢
    cases he : earliest t.events with
    | none =>
      rw [earliest_eq_none he]
      exact ⟨hsettled ▸ hnow, fun e he => by cases he⟩
    | some e =>
      obtain ⟨hein, hleast⟩ := earliest_spec he
      have hlater := hevents e hein
      simp only
      split
      · rename_i hbefore
        refine ih (s := { t with now := max t.now e.due }) hpaced ?_ ?_
        · show max t.now e.due < limit
          omega
        · show limit - max t.now e.due < fuel
          omega
      · rename_i hafter
        exact ⟨hsettled ▸ hnow, fun f hf =>
          Nat.le_trans (Nat.le_of_not_lt hafter) (hleast f hf)⟩

namespace InTime

variable {id : Nat} {s : System}

/-- While the time goes on to a moment no tick is missed. -/
theorem passUntil (hp : s.Paced) (moment : Nat) : InTime id s (s.passUntil moment) := by
  unfold System.passUntil
  split
  · exact refl s
  · rename_i hlater
    obtain ⟨hnow, hevents⟩ := passFor_limit hp (Nat.lt_of_not_le hlater)
      (by omega : moment - s.now < moment - s.now + 2)
    have hclock := onTime_clock (Nat.le_of_lt hnow)
      (fun e he => Nat.le_trans (hevents e he) (Nat.le_max_right _ _)) id
    exact (passFor (fun _ => false) (some moment) (moment - s.now + 2) s).trans (turn hclock)

theorem told (s : System) (outcome : Outcome) : InTime id s (s.told outcome) := by
  unfold System.told
  split
  · exact turn (x := .note _) rfl
  · exact refl s

/-- Nor is one missed while a caller waits for its run. -/
theorem runGuarded (s : System) : InTime id s s.runGuarded.1 := by
  unfold System.runGuarded
  cases ht : s.admit? .here with
  | none => exact refl s
  | some t =>
    have hcall : s.turn (.call .here) = t := by simp only [System.turn, ht, Option.getD_some]
    have hwait : InTime id s (t.waitFor (t.runs - 1)).1 :=
      (hcall ▸ turn (x := .call .here) rfl).trans (passFor _ _ _ t)
    simp only
    cases hw : t.waitFor (t.runs - 1) with
    | mk u outcome? =>
      rw [hw] at hwait
      cases outcome? with
      | none => exact hwait
      | some outcome => exact hwait.trans (told u outcome)

end InTime

end System

namespace Scene

variable {w : Scene} {id : Nat}

theorem punctual_append (w : Scene) (es us : List Happening) :
    w.punctual id (es ++ us) = (w.punctual id es && (w.after es).punctual id us) := by
  induction es generalizing w with
  | nil => rfl
  | cons e es ih =>
    rw [List.cons_append, punctual, ih, punctual, Bool.and_assoc]
    rfl

theorem punctual_turns (h : w.ending = none) (ts : List Turn) :
    w.punctual id (ts.map .turn) = w.system.punctual id ts := by
  induction ts generalizing w with
  | nil => rfl
  | cons t ts ih =>
    have hrest := ih (w := { w with system := w.system.turn t }) h
    rw [List.map_cons, punctual, happen_turn h, hrest]
    rfl

/-- What the system does by itself is in time for every loop. -/
theorem exists_punctual (h : w.ending = none) {t : System} (ht : System.InTime id w.system t) :
    ∃ us, w.punctual id us = true ∧ w.after us = { w with system := t } := by
  obtain ⟨ts, hts, rfl⟩ := ht
  exact ⟨ts.map .turn, by rw [punctual_turns h, hts], after_turns h ts⟩

def isNew (w : Scene) (id : Nat) : Bool :=
  w.system.loops.all (fun l => l.id != id) && !w.system.heldBy id

theorem happen_startLoop (w : Scene) (id every : Nat) :
    (w.happen (.turn (.startLoop id every))).system = w.system.addLoop id every := by
  simp [happen, Turn.ofRun, System.turn]

/-- The first tick of a loop is due at once. -/
theorem on_start {w : Scene} {id : Nat} (h : w.isNew id = true) (every : Nat) :
    (w.happen (.turn (.startLoop id every))).system.On id (periodOf every) w.system.now false := by
  simp only [isNew, Bool.and_eq_true, List.all_eq_true, bne_iff_ne, Bool.not_eq_true'] at h
  obtain ⟨hloops, hheld⟩ := h
  have hnone : w.system.loops.filter (fun l => l.id == id) = [] :=
    List.filter_eq_nil_iff.mpr fun l hl => by simpa using hloops l hl
  rw [happen_startLoop]
  refine ⟨⟨.tick w.system.tickets, ?_, by simp⟩, hheld⟩
  simp only [System.addLoop, System.note, List.filter_append, hnone, List.nil_append]
  exact List.filter_cons_of_pos (beq_self_eq_true id)

theorem punctual_of_prefix {us es : List Happening} (h : us <+: es) (hes : w.punctual id es = true) :
    w.punctual id us = true := by
  obtain ⟨rest, rfl⟩ := h
  rw [punctual_append, Bool.and_eq_true] at hes
  exact hes.1

/-- Whatever happens to a loop in time, with runs that end or fail or die after any while and others
that come before it: it stays, and each of its ticks is one attempt. The first is made at once. Each
deadline is a whole number of periods after the start, comes after the attempt before it by a period at
most, and after the deadline before it; and the attempt is made at it, or when the attempt before it is
over. So attempts that are over within a period are made once every period, and the clock does not go
past an attempt that is to be made. What the system does by itself, or as a caller waits, is in time. -/
theorem cadence (source : Source) (store : Store) (before : List Happening) {id every : Nat}
    (hnew : ((start source store).after before).isNew id = true) {es : List Happening}
    (hes : (((start source store).after before).happen
      (.turn (.startLoop id every))).punctual id es = true) :
    let w := (start source store).after before
    let v := w.happen (.turn (.startLoop id every))
    let u := v.after es
    let origin := w.system.now
    let period := max every 1000
    let as := v.attempts id es
    (∃ l, u.system.loops.filter (fun l => l.id == id) = [l] ∧ l.period = period) ∧
    as.length = es.countP (·.asks id) ∧
    (∀ us, us ++ [.turn (.move (.tick id))] <+: es →
      let s := (v.after us).system
      let t := s.turn (.move (.tick id))
      (s.pipeline.isRunning = true → t.core = s.core) ∧
      (s.pipeline.isRunning = false →
        t.pipeline.active = some ⟨s.runs, .loop id, s.now, .queued⟩ ∧ t.runs = s.runs + 1)) ∧
    (∀ a ∈ as, a.refused = true → a.finish = some a.start) ∧
    (∀ a ∈ as.head?, a.deadline = origin ∧ a.start = origin) ∧
    (∀ a ∈ as, a.deadline ≤ a.start ∧ ∃ k, a.deadline = origin + k * period) ∧
    as.IsChain (fun a b =>
      a.deadline < b.deadline ∧ a.start < b.deadline ∧ b.deadline ≤ a.start + period ∧
      b.deadline = nextTick period a.deadline a.start ∧
      ∃ m, a.finish = some m ∧ a.start ≤ m ∧ b.start = max b.deadline m) ∧
    ((∀ a ∈ as, ∀ m, a.finish = some m → m < a.start + period) →
      ∀ k a, as[k]? = some a → a.deadline = origin + k * period ∧ a.start = origin + k * period) ∧
    (as = [] → u.system.now ≤ origin) ∧
    (∀ a ∈ as.getLast?, ∀ m, a.finish = some m →
      u.system.now ≤ max (nextTick period a.deadline a.start) m) ∧
    (v.ending = none → ∃ us, v.punctual id us = true ∧
      v.after us = { v with system := w.system.startLoop id every }) ∧
    (u.ending = none →
      (∀ span, ∃ us, u.punctual id us = true ∧
        u.after us = { u with system := u.system.sleep span }) ∧
      ∃ us, u.punctual id us = true ∧
        u.after us = { u with system := u.system.runGuarded.1 }) := by
  intro w v u origin period as
  have hon : v.system.On id period origin false := on_start hnew every
  have h : v.Regular id period origin es := regular hon hes
  have hslack : slack < period := slack_lt_periodOf every
  have hperiod : 0 < period := Nat.lt_of_le_of_lt (Nat.zero_le slack) hslack
  have hstart : v.asksAt id origin es = some origin := by
    have hnow : v.system.now = origin := by
      show (w.happen (.turn (.startLoop id every))).system.now = w.system.now
      rw [happen_startLoop]
      rfl
    rw [asksAt, freedAt_free hon.held, hnow, Option.map_some, Nat.max_self]
  have hfirst : ∀ a ∈ as.head?, a.deadline = origin ∧ a.start = origin := by
    intro a ha
    obtain ⟨hdeadline, hasks⟩ := h.first a ha
    rw [hstart] at hasks
    exact ⟨hdeadline, (Option.some.inj hasks).symm⟩
  have haligned : ∀ a ∈ as, a.Aligned period origin := by
    refine Attempt.aligned hperiod h.chain fun a ha => ?_
    obtain ⟨hdeadline, hasks⟩ := hfirst a ha
    exact ⟨by rw [hdeadline, hasks], 0, by rw [hdeadline, Nat.zero_mul, Nat.add_zero]⟩
  have hsound : u.Sound := (((sound_start source store).after before).happen _).after es
  refine ⟨?_, h.count, fun us hus => ?_, h.refused, hfirst, haligned, ?_,
    Attempt.steady h.chain hfirst, fun hnone => h.before hnone origin hstart, h.between,
    fun hending => ?_, fun hending => ⟨fun span => ?_, ?_⟩⟩
  · obtain ⟨next, held, hstays⟩ := h.stays
    obtain ⟨waiting, hloop, -⟩ := hstays.loop
    exact ⟨_, hloop, rfl⟩
  · have hus' := punctual_of_prefix ((List.prefix_append us _).trans hus) hes
    obtain ⟨next, held, hstays⟩ := (regular hon hus').stays
    exact hstays.tick_asks
  · refine h.chain.imp_of_mem_imp fun a b ha _ hab => ?_
    obtain ⟨hlate, -⟩ := haligned a ha
    obtain ⟨-, hsoon⟩ := nextTick_spec hperiod hlate
    have hafter : a.start < b.deadline := hab.deadline ▸ lt_nextTick hslack
    exact ⟨Nat.lt_of_le_of_lt hlate hafter, hafter, hab.deadline ▸ hsoon, hab.deadline, hab.ended⟩
  · have hsettle : w.system.startLoop id every = v.system.settle := by
      show w.system.startLoop id every =
        (w.happen (.turn (.startLoop id every))).system.settle
      rw [happen_startLoop]
      rfl
    rw [hsettle]
    exact exists_punctual hending (.settleFor _ _)
  · exact exists_punctual hending (.passUntil hsound.paced _)
  · exact exists_punctual hending (.runGuarded _)

/-- Fetches of one second and a half, a loop that asks every second, and somebody else's run that
comes before it: two attempts are refused, one is in time, and the next is made when that is over. -/
theorem cadence_overrun :
    let w := start (.mk (.ok []) none 1500 0) .empty
    let v := w.happen (.turn (.startLoop 0 0))
    let es : List Happening := [.call .here, .move (.tick 0), .move .begin, .clock 1000,
      .move (.tick 0), .clock 1500, .move .answer, .move .complete, .clock 2000, .move (.tick 0),
      .move .begin, .clock 3500, .move .answer, .move .complete, .move (.tick 0)].map .turn
    (w.isNew 0 = true ∧ v.punctual 0 es = true) ∧
    v.attempts 0 es = [⟨0, 0, true, some 0⟩, ⟨1000, 1000, true, some 1000⟩,
      ⟨2000, 2000, false, some 3500⟩, ⟨3000, 3500, false, none⟩] ∧
    ∀ a ∈ v.attempts 0 es, a.deadline ≤ a.start ∧ ∃ k, a.deadline = 0 + k * 1000 := by
  refine ⟨⟨by decide +kernel, by decide +kernel⟩, by decide +kernel, ?_⟩
  exact (cadence (.mk (.ok []) none 1500 0) .empty [] (by decide +kernel)
    (by decide +kernel)).2.2.2.2.2.1

end Scene

end Segments.Sync
