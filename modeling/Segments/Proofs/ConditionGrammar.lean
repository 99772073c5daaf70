import Segments.Condition.Basic
import Segments.Proofs.Trimming

namespace Segments

open Text

namespace Operator

theorem dropLead?_eq_some {lead cs rest : List Char} :
    dropLead? lead cs = some rest ↔ cs = lead ++ rest := by
  induction lead generalizing cs with
  | nil => simp [dropLead?]
  | cons a lead ih =>
    cases cs with
    | nil => simp [dropLead?]
    | cons c cs =>
      by_cases h : a = c
      · simp [dropLead?, h, ih]
      · simp [dropLead?, h, Ne.symm h]

/-- A token is not taken for one that is longer. -/
def Munches (op : Operator) (rest : List Char) : Prop :=
  ¬ ((op = .greater ∨ op = .less) ∧ rest.head? = some '=')

/-- A token is found where it stands, unless it is the start of a longer one there. -/
theorem split?_token {op : Operator} {rest : List Char} (h : op.Munches rest) :
    split? (op.token.toList ++ rest) = some (op, rest) := by
  have hequal : op = .greater ∨ op = .less → dropLead? ['='] rest = none := by
    intro hop
    cases rest with
    | nil => rfl
    | cons c rest =>
      have hc : '=' ≠ c := fun hc => h ⟨hop, hc ▸ rfl⟩
      simp [dropLead?, hc]
  cases op with
  | greater => simp [split?, byLength, token, dropLead?, hequal]
  | less => simp [split?, byLength, token, dropLead?, hequal]
  | _ => simp [split?, byLength, token, dropLead?]

theorem split?_eq_some {cs rest : List Char} {op : Operator} :
    split? cs = some (op, rest) ↔ cs = op.token.toList ++ rest ∧ op.Munches rest := by
  constructor
  · intro h
    obtain ⟨other, -, hother⟩ := List.exists_of_findSome?_eq_some h
    obtain ⟨rest', hdrop, heq⟩ := Option.map_eq_some_iff.mp hother
    cases heq
    have hcs := dropLead?_eq_some.mp hdrop
    refine ⟨hcs, ?_⟩
    rintro ⟨hop, hhead⟩
    -- with the equals sign the text starts with the longer token, which would have been found
    obtain ⟨after, rfl⟩ : ∃ after, rest = '=' :: after := by
      cases rest with
      | nil => simp at hhead
      | cons c after => exact ⟨after, by simpa using hhead⟩
    rcases hop with rfl | rfl
    · have hlonger : split? ('>' :: '=' :: after) = some (.greaterOrEqual, after) :=
        split?_token (show Munches .greaterOrEqual after by simp [Munches])
      rw [hcs] at h
      cases hlonger.symm.trans h
    · have hlonger : split? ('<' :: '=' :: after) = some (.lessOrEqual, after) :=
        split?_token (show Munches .lessOrEqual after by simp [Munches])
      rw [hcs] at h
      cases hlonger.symm.trans h
  · rintro ⟨rfl, h⟩
    exact split?_token h

theorem split?_eq_none {cs : List Char} :
    split? cs = none ↔ ∀ op : Operator, ¬ op.token.toList <+: cs := by
  unfold split?
  rw [List.findSome?_eq_none_iff]
  have hall : ∀ op : Operator, op ∈ byLength := fun op => by cases op <;> decide
  constructor
  · rintro h op ⟨rest, hrest⟩
    have hnone := h op (hall op)
    rw [dropLead?_eq_some.mpr hrest.symm] at hnone
    cases hnone
  · intro h op _
    cases hdrop : dropLead? op.token.toList cs with
    | none => rfl
    | some rest => exact absurd ⟨rest, (dropLead?_eq_some.mp hdrop).symm⟩ (h op)

/-- The operator that is found has the longest token that the text starts with. -/
theorem Munches.longest {op other : Operator} {rest : List Char} (h : op.Munches rest)
    (hstart : other.token.toList <+: op.token.toList ++ rest) :
    other.token.length ≤ op.token.length := by
  have hequal : op = .greater ∧ other = .greaterOrEqual ∨ op = .less ∧ other = .lessOrEqual →
      rest.head? = some '=' := by
    obtain ⟨after, hafter⟩ := hstart
    rintro (⟨rfl, rfl⟩ | ⟨rfl, rfl⟩)
    all_goals
      have hrest : '=' :: after = rest := by simpa [token] using hafter
      exact hrest ▸ rfl
  cases op <;> cases other <;> try decide
  case greater.greaterOrEqual => exact absurd ⟨.inl rfl, hequal (.inl ⟨rfl, rfl⟩)⟩ h
  case less.lessOrEqual => exact absurd ⟨.inr rfl, hequal (.inr ⟨rfl, rfl⟩)⟩ h
  -- of the others, a longer token starts with another character
  all_goals simp [token] at hstart

/-- A token starts with a character that ends a name and the blanks after it. -/
theorem token_cons (op : Operator) :
    ∃ c cs, op.token.toList = c :: cs ∧ isBlank c = false ∧ Condition.isWordChar c = false := by
  cases op <;> exact ⟨_, _, rfl, by decide, by decide⟩

end Operator

namespace Condition

/-- The parts of a condition in the order in which they are written. -/
structure Parts where
  lead : List Char
  field : List Char
  gap : List Char
  operator : Operator
  space : List Char
  value : List Char
  tail : List Char

namespace Parts

def text (p : Parts) : List Char :=
  p.lead ++ p.field ++ p.gap ++ p.operator.token.toList ++ p.space ++ p.value ++ p.tail

def condition (p : Parts) : Condition :=
  ⟨String.ofList p.field, p.operator, Literal.read (String.ofList p.value)⟩

structure WellFormed (p : Parts) : Prop where
  lead : Blanks p.lead
  field : p.field ≠ [] ∧ ∀ c ∈ p.field, isWordChar c = true
  gap : Blanks p.gap
  space : Blanks p.space
  value : p.value ≠ [] ∧ Trimmed p.value
  tail : Blanks p.tail
  munches : ¬ ((p.operator = .greater ∨ p.operator = .less) ∧ p.space = [] ∧
    p.value.head? = some '=')

end Parts

/-- A text starts with blanks, a field name and blanks, each as long as can be; `rest` is what
follows. -/
structure Opens (cs lead field gap rest : List Char) : Prop where
  text : cs = lead ++ field ++ gap ++ rest
  lead : Blanks lead
  field : field ≠ [] ∧ ∀ c ∈ field, isWordChar c = true
  whole : ∀ c, (gap ++ rest).head? = some c → isWordChar c = false
  gap : Blanks gap
  ink : ∀ c, rest.head? = some c → isBlank c = false

/-- What a text lacks that is no condition. -/
def Lacks (cs : List Char) : Reason → Prop
  | .empty => ∀ c ∈ cs, isBlank c = true
  | .missingField => ∃ c, cs.find? (fun c => !isBlank c) = some c ∧ isWordChar c = false
  | .noOperator => ∃ lead field gap rest, Opens cs lead field gap rest ∧
      ∀ op : Operator, ¬ op.token.toList <+: rest
  | .missingValue => ∃ lead field gap rest, Opens cs lead field gap rest ∧
      ∃ (op : Operator) (blanks : List Char), rest = op.token.toList ++ blanks ∧
        (∀ other : Operator, other.token.toList <+: rest → other.token.length ≤ op.token.length) ∧
        Blanks blanks

theorem isBlank_of_isWordChar {c : Char} (h : isWordChar c = true) : isBlank c = false := by
  have hrange : (48 ≤ c.toNat ∧ c.toNat ≤ 57) ∨ (65 ≤ c.toNat ∧ c.toNat ≤ 90) ∨
      (97 ≤ c.toNat ∧ c.toNat ≤ 122) ∨ c.toNat = 95 := by
    unfold isWordChar Char.isAlphanum Char.isAlpha Char.isUpper Char.isLower Char.isDigit at h
    simp only [Bool.or_eq_true, Bool.and_eq_true, decide_eq_true_eq, beq_iff_eq, ge_iff_le,
      UInt32.le_iff_toNat_le] at h
    rcases h with ((h | h) | h) | h
    · exact .inr (.inl h)
    · exact .inr (.inr (.inl h))
    · exact .inl h
    · exact .inr (.inr (.inr (by rw [h]; rfl)))
  simp only [isBlank, Bool.or_eq_false_iff, Bool.and_eq_false_iff, beq_eq_false_iff_ne,
    decide_eq_false_iff_not]
  omega

/-- What is left of an opened text when the blanks at both ends are taken off. The blanks after
the field name go too, if nothing follows them. -/
theorem trim_opens {lead field gap body tail : List Char}
    (h : Opens (lead ++ field ++ gap ++ (body ++ tail)) lead field gap (body ++ tail))
    (hbody : Trimmed body) (htail : Blanks tail) :
    ∃ between, trim (lead ++ field ++ gap ++ (body ++ tail)) = field ++ (between ++ body) ∧
      Blanks between ∧ ∀ c, (between ++ body).head? = some c → isWordChar c = false := by
  have hfield : ∀ c ∈ field, isBlank c = false := fun c hc =>
    isBlank_of_isWordChar (h.field.2 c hc)
  cases body with
  | nil =>
    refine ⟨[], ?_, .nil, by simp⟩
    have htrim := trim_append h.lead (.of_ink hfield) (h.gap.append htail)
    simpa [List.append_assoc] using htrim
  | cons b bs =>
    have hcore : Trimmed (field ++ (gap ++ b :: bs)) := by
      refine ⟨head?_append_of_forall h.field.1 hfield _, fun c hc => hbody.last c ?_⟩
      simpa [List.getLast?_append] using hc
    refine ⟨gap, ?_, h.gap, fun c hc => h.whole c ?_⟩
    · have htrim := trim_append h.lead hcore htail
      simpa [List.append_assoc] using htrim
    · cases gap <;> simpa using hc

/-- The reader once the opening of a text is known, with the blanks at its end left out. -/
theorem ofChars_opens {lead field gap body tail : List Char}
    (h : Opens (lead ++ field ++ gap ++ (body ++ tail)) lead field gap (body ++ tail))
    (hbody : Trimmed body) (htail : Blanks tail) :
    ofChars (lead ++ field ++ gap ++ (body ++ tail)) =
      match Operator.split? body with
      | none => .error .noOperator
      | some (op, rest) =>
        if (trim rest).isEmpty then .error .missingValue
        else .ok ⟨String.ofList field, op, .ofChars (trim rest)⟩ := by
  obtain ⟨between, htrim, hblanks, hstop⟩ := trim_opens h hbody htail
  have htake : (field ++ (between ++ body)).takeWhile isWordChar = field :=
    takeWhile_run_append h.field.2 hstop
  have hdrop : (field ++ (between ++ body)).dropWhile isWordChar = between ++ body :=
    dropWhile_run_append h.field.2 hstop
  have hfield : field.isEmpty = false := by simpa using h.field.1
  have hinput : (field ++ (between ++ body)).isEmpty = false := by simp [h.field.1]
  have hstart : trimStart (between ++ body) = body := trimStart_append hblanks hbody.first
  unfold ofChars
  cases hsplit : Operator.split? body with
  | none =>
    simp only [htrim, htake, hdrop, hfield, hinput, hstart, hsplit, Bool.false_eq_true, if_false]
  | some found =>
    simp only [htrim, htake, hdrop, hfield, hinput, hstart, hsplit, Bool.false_eq_true, if_false]

theorem Opens.cut {cs lead field gap rest : List Char} (h : Opens cs lead field gap rest) :
    ∃ body tail, rest = body ++ tail ∧ Trimmed body ∧ Blanks tail :=
  exists_trimmed_append h.ink

theorem trimmed_token (op : Operator) : Trimmed op.token.toList :=
  .of_ink (by cases op <;> simp [Operator.token, isBlank])

/-- A text that lacks something is refused for it. -/
theorem ofChars_lacks {cs : List Char} {reason : Reason} (h : Lacks cs reason) :
    ofChars cs = .error reason := by
  cases reason with
  | empty =>
    unfold ofChars
    simp [trim_blanks h]
  | missingField =>
    obtain ⟨c, hfind, hword⟩ := h
    obtain ⟨hink, lead, rest, rfl, hlead⟩ := List.find?_eq_some_iff_append.mp hfind
    have hblank : isBlank c = false := by simpa using hink
    have hblanks : Blanks lead := fun d hd => by simpa using hlead d hd
    have hfirst : ∀ d, (c :: rest).head? = some d → isBlank d = false := by
      intro d hd
      simp only [List.head?_cons, Option.some.injEq] at hd
      exact hd ▸ hblank
    obtain ⟨body, tail, hcut, hbody, htail⟩ := exists_trimmed_append hfirst
    cases body with
    | nil =>
      have hc : c ∈ tail := by
        rw [List.nil_append] at hcut
        simp [← hcut]
      rw [htail c hc] at hblank
      cases hblank
    | cons d body =>
      obtain ⟨rfl, hrest⟩ := List.cons.inj hcut
      have htrim : trim (lead ++ c :: rest) = c :: body := by
        rw [hcut, ← List.append_assoc]
        exact trim_append hblanks hbody htail
      unfold ofChars
      simp [htrim, hword]
  | noOperator =>
    obtain ⟨lead, field, gap, rest, hopens, hnone⟩ := h
    obtain ⟨body, tail, rfl, hbody, htail⟩ := hopens.cut
    have hsplit : Operator.split? body = none :=
      Operator.split?_eq_none.mpr fun op hop => hnone op (hop.trans (List.prefix_append body tail))
    cases hopens.text
    rw [ofChars_opens hopens hbody htail, hsplit]
  | missingValue =>
    obtain ⟨lead, field, gap, rest, hopens, op, blanks, rfl, -, hblanks⟩ := h
    have hsplit : Operator.split? op.token.toList = some (op, []) :=
      Operator.split?_eq_some.mpr ⟨by simp, by simp [Operator.Munches]⟩
    cases hopens.text
    rw [ofChars_opens hopens (trimmed_token op) hblanks, hsplit]
    rfl

namespace Parts

variable {p q : Parts}

/-- The parts are as long as can be, since each ends where the next one starts. -/
theorem WellFormed.opens (h : p.WellFormed) :
    Opens p.text p.lead p.field p.gap (p.operator.token.toList ++ p.space ++ p.value ++ p.tail) := by
  obtain ⟨c, cs, htoken, hink, hword⟩ := p.operator.token_cons
  refine ⟨by simp [text, List.append_assoc], h.lead, h.field, fun d hd => ?_, h.gap, fun d hd => ?_⟩
  · cases hgap : p.gap with
    | nil =>
      simp only [hgap, htoken, List.nil_append, List.cons_append, List.head?_cons,
        Option.some.injEq] at hd
      exact hd ▸ hword
    | cons b bs =>
      simp only [hgap, List.cons_append, List.head?_cons, Option.some.injEq] at hd
      cases hd' : isWordChar d with
      | false => rfl
      | true =>
        have hblank := h.gap d (by simp [hgap, hd])
        rw [isBlank_of_isWordChar hd'] at hblank
        cases hblank
  · simp only [htoken, List.cons_append, List.head?_cons, Option.some.injEq] at hd
    exact hd ▸ hink

theorem WellFormed.munches_append (h : p.WellFormed) (cs : List Char) :
    p.operator.Munches (p.space ++ p.value ++ cs) := by
  rintro ⟨hop, hhead⟩
  cases hspace : p.space with
  | nil =>
    obtain ⟨v, vs, hvalue⟩ := List.exists_cons_of_ne_nil h.value.1
    refine h.munches ⟨hop, hspace, ?_⟩
    simpa [hspace, hvalue] using hhead
  | cons b bs =>
    have hblank := h.space b (by simp [hspace])
    have heq : b = '=' := by simpa [hspace] using hhead
    subst heq
    cases hblank

/-- The text of well-formed parts is read as their condition. -/
theorem WellFormed.ofChars_text (h : p.WellFormed) : ofChars p.text = .ok p.condition := by
  have hbody : Trimmed (p.operator.token.toList ++ p.space ++ p.value) := by
    obtain ⟨c, cs, htoken, hink, -⟩ := p.operator.token_cons
    refine ⟨fun d hd => ?_, fun d hd => h.value.2.last d ?_⟩
    · simp only [htoken, List.cons_append, List.head?_cons, Option.some.injEq] at hd
      exact hd ▸ hink
    · obtain ⟨v, vs, hvalue⟩ := List.exists_cons_of_ne_nil h.value.1
      simpa [hvalue, List.getLast?_append] using hd
  have hsplit : Operator.split? (p.operator.token.toList ++ p.space ++ p.value) =
      some (p.operator, p.space ++ p.value) :=
    Operator.split?_eq_some.mpr ⟨List.append_assoc _ _ _, by simpa using h.munches_append []⟩
  have htrim : trim (p.space ++ p.value) = p.value := by
    simpa using trim_append h.space h.value.2 .nil
  have hopens := h.opens
  have htext := hopens.text
  rw [htext] at hopens ⊢
  rw [ofChars_opens hopens hbody h.tail, hsplit]
  simp [htrim, h.value.1, condition, Literal.read]

/-- A text is made of well-formed parts in one way at most. -/
theorem WellFormed.eq_of_text (hp : p.WellFormed) (hq : q.WellFormed) (h : p.text = q.text) :
    p = q := by
  have hfirst : ∀ {r : Parts}, r.WellFormed → ∀ rest c, (r.field ++ rest).head? = some c →
      isBlank c = false := fun hr rest =>
    head?_append_of_forall hr.field.1 (fun c hc => isBlank_of_isWordChar (hr.field.2 c hc)) rest
  simp only [text, List.append_assoc] at h
  obtain ⟨hlead, h⟩ := run_append_inj h hp.lead (hfirst hp _) hq.lead (hfirst hq _)
  have hpopens := hp.opens
  have hqopens := hq.opens
  simp only [List.append_assoc] at hpopens hqopens
  obtain ⟨hfield, h⟩ := run_append_inj h hp.field.2 hpopens.whole hq.field.2 hqopens.whole
  obtain ⟨hgap, h⟩ := run_append_inj h hp.gap hpopens.ink hq.gap hqopens.ink
  have hsplit : ∀ {r : Parts}, r.WellFormed →
      Operator.split? (r.operator.token.toList ++ (r.space ++ (r.value ++ r.tail))) =
        some (r.operator, r.space ++ (r.value ++ r.tail)) := by
    intro r hr
    refine Operator.split?_token ?_
    simpa [List.append_assoc] using hr.munches_append r.tail
  have hop := hsplit hp
  rw [h, hsplit hq] at hop
  simp only [Option.some.injEq, Prod.mk.injEq] at hop
  obtain ⟨hop, h⟩ := hop
  obtain ⟨hspace, h⟩ := run_append_inj h hq.space
    (hq.value.2.first_append hq.value.1 _) hp.space (hp.value.2.first_append hp.value.1 _)
  have hvalue : q.value = p.value := by
    rw [← trimEnd_append hq.value.2.last hq.tail, h, trimEnd_append hp.value.2.last hp.tail]
  have htail : q.tail = p.tail := by
    rw [hvalue] at h
    exact List.append_cancel_left h
  cases p
  cases q
  simp_all

end Parts

/-- Every text has the parts of a condition, or lacks something. -/
theorem parts_or_lacks (cs : List Char) :
    (∃ p : Parts, p.WellFormed ∧ p.text = cs) ∨ ∃ reason, Lacks cs reason := by
  obtain ⟨lead, rest, rfl, hlead, hrest⟩ := exists_run isBlank cs
  cases rest with
  | nil => exact .inr ⟨.empty, by simpa [Lacks] using hlead⟩
  | cons c rest =>
    have hc : isBlank c = false := hrest c rfl
    cases hword : isWordChar c with
    | false =>
      refine .inr ⟨.missingField, c, List.find?_eq_some_iff_append.mpr ?_, hword⟩
      exact ⟨by simp [hc], lead, rest, rfl, fun d hd => by simp [hlead d hd]⟩
    | true =>
      obtain ⟨field, after, hcut, hfield, hafter⟩ := exists_run isWordChar (c :: rest)
      have hne : field ≠ [] := by
        rintro rfl
        have hstop := hafter c (by rw [← List.nil_append after, ← hcut]; rfl)
        rw [hword] at hstop
        cases hstop
      obtain ⟨gap, body, rfl, hgap, hbody⟩ := exists_run isBlank after
      have hopens : Opens (lead ++ c :: rest) lead field gap body :=
        ⟨by rw [hcut]; simp [List.append_assoc], hlead, ⟨hne, hfield⟩, hafter, hgap, hbody⟩
      cases hsplit : Operator.split? body with
      | none => exact .inr ⟨.noOperator, lead, field, gap, body, hopens,
          Operator.split?_eq_none.mp hsplit⟩
      | some found =>
        obtain ⟨op, tail⟩ := found
        obtain ⟨rfl, hmunches⟩ := Operator.split?_eq_some.mp hsplit
        obtain ⟨space, last, rfl, hspace, hlast⟩ := exists_run isBlank tail
        obtain ⟨value, blanks, rfl, hvalue, hblanks⟩ := exists_trimmed_append hlast
        cases value with
        | nil =>
          exact .inr ⟨.missingValue, lead, field, gap, _, hopens, op, _, rfl,
            fun other hother => hmunches.longest hother, Blanks.append hspace hblanks⟩
        | cons v vs =>
          refine .inl ⟨⟨lead, field, gap, op, space, v :: vs, blanks⟩, ?_, ?_⟩
          · exact {
              lead := hlead
              field := ⟨hne, hfield⟩
              gap := hgap
              space := hspace
              value := ⟨List.cons_ne_nil v vs, hvalue⟩
              tail := hblanks
              munches := by
                rintro ⟨hop, rfl, hhead⟩
                exact hmunches ⟨hop, hhead⟩ }
          · rw [hcut]
            simp [Parts.text, List.append_assoc]

theorem read_eq (text : String) :
    read text = (ofChars text.toList).mapError (⟨text, ·⟩) := by
  unfold read parse
  cases ofChars text.toList <;> rfl

/-- A text is read as a condition just if it is made of the parts of one, which it is in one way
at most. Otherwise the reader gives it back with the one thing that it lacks. -/
theorem read_grammar (text : String) :
    (∀ c, read text = .ok c ↔
      ∃ p : Parts, p.WellFormed ∧ p.text = text.toList ∧ c = p.condition) ∧
    (∀ p q : Parts, p.WellFormed → q.WellFormed → p.text = text.toList → q.text = text.toList →
      p = q) ∧
    (∀ m, read text = .error m ↔ m.text = text ∧ Lacks text.toList m.reason) ∧
    ((∃ p : Parts, p.WellFormed ∧ p.text = text.toList) ∨ ∃ reason, Lacks text.toList reason) ∧
    (∀ p : Parts, p.WellFormed → p.text = text.toList → ∀ reason, ¬ Lacks text.toList reason) ∧
    (∀ reason other, Lacks text.toList reason → Lacks text.toList other → reason = other) := by
  have hparts : ∀ p : Parts, p.WellFormed → p.text = text.toList →
      ofChars text.toList = .ok p.condition := fun p hp htext => htext ▸ hp.ofChars_text
  refine ⟨fun c => ⟨fun h => ?_, ?_⟩, fun p q hp hq h h' => hp.eq_of_text hq (h.trans h'.symm),
    fun m => ⟨fun h => ?_, ?_⟩, parts_or_lacks text.toList, fun p hp htext reason hlacks => ?_,
    fun reason other h h' => ?_⟩
  · rw [read_eq] at h
    rcases parts_or_lacks text.toList with ⟨p, hp, htext⟩ | ⟨reason, hlacks⟩
    · rw [hparts p hp htext] at h
      exact ⟨p, hp, htext, (Except.ok.inj h).symm⟩
    · rw [ofChars_lacks hlacks] at h
      cases h
  · rintro ⟨p, hp, htext, rfl⟩
    rw [read_eq, hparts p hp htext]
    rfl
  · rw [read_eq] at h
    rcases parts_or_lacks text.toList with ⟨p, hp, htext⟩ | ⟨reason, hlacks⟩
    · rw [hparts p hp htext] at h
      cases h
    · rw [ofChars_lacks hlacks] at h
      cases h
      exact ⟨rfl, hlacks⟩
  · rintro ⟨rfl, hlacks⟩
    rw [read_eq, ofChars_lacks hlacks]
    rfl
  · have hread := hparts p hp htext
    rw [ofChars_lacks hlacks] at hread
    cases hread
  · have hread := ofChars_lacks h
    rw [ofChars_lacks h'] at hread
    exact (Except.error.inj hread).symm

end Condition

end Segments
