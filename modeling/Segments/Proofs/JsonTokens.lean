import Segments.Json.Skip

namespace Segments.Json

open Text

def Gap (bs : Bytes) : Prop :=
  ∀ b ∈ bs, isBlankByte b = true

def Digits (bs : Bytes) : Prop :=
  bs ≠ [] ∧ ∀ b ∈ bs, isDigitByte b = true

/-- The digits before the point. No other follows a leading zero. -/
inductive Whole : Bytes → Prop
  | zero : Whole [48]
  | digits {b : UInt8} {bs : Bytes} : b ≠ 48 → Digits (b :: bs) → Whole (b :: bs)

inductive Fraction : Bytes → Prop
  | absent : Fraction []
  | present {bs : Bytes} : Digits bs → Fraction (46 :: bs)

inductive Exponent : Bytes → Prop
  | absent : Exponent []
  | present {mark : UInt8} {sign bs : Bytes} : isExponentMark mark = true →
      sign = [] ∨ sign = [43] ∨ sign = [45] → Digits bs → Exponent (mark :: (sign ++ bs))

inductive Numeral : Bytes → Prop
  | mk {whole fraction exponent : Bytes} : Whole whole → Fraction fraction → Exponent exponent →
      Numeral (whole ++ fraction ++ exponent)

inductive Quoted : Bytes → Prop
  | close : Quoted [34]
  | plain {b : UInt8} {bs : Bytes} : ¬ b < 32 → b ≠ 34 → b ≠ 92 → Quoted bs → Quoted (b :: bs)
  | escape {e : UInt8} {bs : Bytes} : e ∈ [34, 92, 47, 98, 102, 110, 114, 116] → Quoted bs →
      Quoted (92 :: e :: bs)
  | number {w x y z : UInt8} {bs : Bytes} : (∀ d ∈ [w, x, y, z], (hexOf? d).isSome = true) →
      Quoted bs → Quoted (92 :: 117 :: w :: x :: y :: z :: bs)

inductive Scalar : Bytes → Prop
  | word {w : Bytes} : w = [110, 117, 108, 108] ∨ w = [116, 114, 117, 101] ∨
      w = [102, 97, 108, 115, 101] → Scalar w
  | natural {bs : Bytes} : Numeral bs → Scalar bs
  | negative {bs : Bytes} : Numeral bs → Scalar (45 :: bs)
  | text {bs : Bytes} : Quoted bs → Scalar (34 :: bs)

inductive Name : Bytes → Prop
  | mk {gap bs gap' : Bytes} : Gap gap → Quoted bs → Gap gap' → Name (gap ++ 34 :: (bs ++ (gap' ++ [58])))

def Ends (bs : Bytes) : Prop :=
  ∀ b, bs.head? = some b → isDigitByte b = false ∧ b ≠ 46 ∧ isExponentMark b = false

theorem Gap.append {as bs : Bytes} (ha : Gap as) (hb : Gap bs) : Gap (as ++ bs) :=
  fun b h => (List.mem_append.mp h).elim (ha b) (hb b)

theorem skipBlanks_gap {gap : Bytes} (h : Gap gap) (bs : Bytes) :
    skipBlanks (gap ++ bs) = skipBlanks bs := by
  induction gap with
  | nil => rfl
  | cons b gap ih =>
    rw [List.cons_append, skipBlanks, if_pos (h b List.mem_cons_self)]
    exact ih fun c hc => h c (List.mem_cons_of_mem b hc)

theorem skipBlanks_ink {b : UInt8} (h : isBlankByte b = false) (bs : Bytes) :
    skipBlanks (b :: bs) = b :: bs := by
  rw [skipBlanks, h]
  rfl

theorem skipBlanks_gap_ink {gap : Bytes} (h : Gap gap) {b : UInt8} (hb : isBlankByte b = false)
    (bs : Bytes) : skipBlanks (gap ++ b :: bs) = b :: bs := by
  rw [skipBlanks_gap h, skipBlanks_ink hb]

/-- All blanks at the front are passed over. -/
theorem exists_gap (bs : Bytes) :
    ∃ gap, Gap gap ∧ bs = gap ++ skipBlanks bs ∧
      ∀ b, (skipBlanks bs).head? = some b → isBlankByte b = false := by
  induction bs with
  | nil => exact ⟨[], by simp [Gap], rfl, by simp [skipBlanks]⟩
  | cons b bs ih =>
    unfold skipBlanks
    split
    · next hb =>
      obtain ⟨gap, hgap, hbs, hink⟩ := ih
      exact ⟨b :: gap, List.forall_mem_cons.mpr ⟨hb, hgap⟩, congrArg (b :: ·) hbs, hink⟩
    · next hb => exact ⟨[], by simp [Gap], rfl, by simpa using hb⟩

theorem skipBlanks_skipBlanks (bs : Bytes) : skipBlanks (skipBlanks bs) = skipBlanks bs := by
  obtain ⟨gap, hgap, hbs, -⟩ := exists_gap bs
  conv => rhs; rw [hbs, skipBlanks_gap hgap]

theorem skipDigits_append {ds rest : Bytes} (hds : ∀ b ∈ ds, isDigitByte b = true)
    (hrest : ∀ b, rest.head? = some b → isDigitByte b = false) :
    skipDigits (ds ++ rest) = (ds.length, rest) := by
  induction ds with
  | nil =>
    cases rest with
    | nil => rfl
    | cons b rest => simp [skipDigits, hrest b rfl]
  | cons b ds ih =>
    obtain ⟨hb, hds⟩ := List.forall_mem_cons.mp hds
    simp [skipDigits, hb, ih hds]

theorem exists_skipDigits (bs : Bytes) :
    ∃ ds, (∀ b ∈ ds, isDigitByte b = true) ∧ (skipDigits bs).1 = ds.length ∧
      bs = ds ++ (skipDigits bs).2 := by
  induction bs with
  | nil => exact ⟨[], by simp, rfl, rfl⟩
  | cons b bs ih =>
    unfold skipDigits
    split
    · next hb =>
      obtain ⟨ds, hds, hn, hbs⟩ := ih
      exact ⟨b :: ds, List.forall_mem_cons.mpr ⟨hb, hds⟩, congrArg (· + 1) hn, congrArg (b :: ·) hbs⟩
    · exact ⟨[], by simp, rfl, rfl⟩

theorem skipDigits?_append {ds rest : Bytes} (hds : Digits ds)
    (hrest : ∀ b, rest.head? = some b → isDigitByte b = false) :
    skipDigits? (ds ++ rest) = some rest := by
  obtain ⟨b, ds, rfl⟩ := List.exists_cons_of_ne_nil hds.1
  rw [skipDigits?, skipDigits_append hds.2 hrest]
  rfl

theorem digits_of_skipDigits? {bs rest : Bytes} (h : skipDigits? bs = some rest) :
    ∃ ds, Digits ds ∧ bs = ds ++ rest := by
  obtain ⟨ds, hds, hn, hbs⟩ := exists_skipDigits bs
  rw [skipDigits?] at h
  cases hskip : skipDigits bs with
  | mk n after =>
    rw [hskip] at h hn hbs
    cases n with
    | zero => cases h
    | succ n =>
      cases h
      refine ⟨ds, ⟨?_, hds⟩, hbs⟩
      rintro rfl
      cases hn

theorem skipFraction?_append {f rest : Bytes} (hf : Fraction f)
    (hrest : ∀ b, rest.head? = some b → isDigitByte b = false ∧ b ≠ 46) :
    skipFraction? (f ++ rest) = some rest := by
  cases hf with
  | absent =>
    cases rest with
    | nil => rfl
    | cons b rest =>
      have hb := (hrest b rfl).2
      unfold skipFraction?
      split
      · next more heq =>
        cases heq
        exact absurd rfl hb
      · rfl
  | present hds => exact skipDigits?_append hds fun b hb => (hrest b hb).1

theorem fraction_of_skipFraction? {bs rest : Bytes} (h : skipFraction? bs = some rest) :
    ∃ f, Fraction f ∧ bs = f ++ rest := by
  unfold skipFraction? at h
  split at h
  · obtain ⟨ds, hds, rfl⟩ := digits_of_skipDigits? h
    exact ⟨46 :: ds, .present hds, rfl⟩
  · cases h
    exact ⟨[], .absent, rfl⟩

theorem skipExponent?_append {e rest : Bytes} (he : Exponent e)
    (hrest : ∀ b, rest.head? = some b → isDigitByte b = false ∧ isExponentMark b = false) :
    skipExponent? (e ++ rest) = some rest := by
  cases he with
  | absent =>
    cases rest with
    | nil => rfl
    | cons b rest => simp [skipExponent?, (hrest b rfl).2]
  | @present mark sign ds hmark hsign hds =>
    have hdigits : skipDigits? (ds ++ rest) = some rest := skipDigits?_append hds fun b hb => (hrest b hb).1
    simp only [List.cons_append, List.append_assoc, skipExponent?, hmark, if_true]
    rcases hsign with rfl | rfl | rfl
    · obtain ⟨d, ds, rfl⟩ := List.exists_cons_of_ne_nil hds.1
      have hd := hds.2 d List.mem_cons_self
      split
      · next heq =>
        cases heq
        cases hd
      · next heq =>
        cases heq
        cases hd
      · exact hdigits
    · exact hdigits
    · exact hdigits

theorem exponent_of_skipExponent? {bs rest : Bytes} (h : skipExponent? bs = some rest) :
    ∃ e, Exponent e ∧ bs = e ++ rest := by
  unfold skipExponent? at h
  split at h
  · cases h
    exact ⟨[], .absent, rfl⟩
  · next b more =>
    split at h
    · next hmark =>
      split at h
      all_goals
        obtain ⟨ds, hds, rfl⟩ := digits_of_skipDigits? h
      · exact ⟨b :: ([43] ++ ds), .present hmark (.inr (.inl rfl)) hds, rfl⟩
      · exact ⟨b :: ([45] ++ ds), .present hmark (.inr (.inr rfl)) hds, rfl⟩
      · exact ⟨b :: ([] ++ ds), .present hmark (.inl rfl) hds, rfl⟩
    · cases h
      exact ⟨[], .absent, rfl⟩

theorem Fraction.head {f : Bytes} (h : Fraction f) (rest : Bytes)
    (hrest : ∀ b, rest.head? = some b → isDigitByte b = false) :
    ∀ b, (f ++ rest).head? = some b → isDigitByte b = false := by
  cases h with
  | absent => exact hrest
  | present =>
    intro b hb
    cases hb
    rfl

theorem Exponent.head {e : Bytes} (h : Exponent e) {rest : Bytes} (hrest : Ends rest) :
    ∀ b, (e ++ rest).head? = some b → isDigitByte b = false ∧ b ≠ 46 := by
  cases h with
  | absent => exact fun b hb => ⟨(hrest b hb).1, (hrest b hb).2.1⟩
  | @present mark sign ds hmark =>
    intro b hb
    cases hb
    have hcase : mark = 101 ∨ mark = 69 := by simpa [isExponentMark] using hmark
    rcases hcase with rfl | rfl <;> decide

/-- A number is passed over whole if nothing after it could belong to it. -/
theorem skipNumber?_append {bs rest : Bytes} (h : Numeral bs) (hrest : Ends rest) :
    skipNumber? (bs ++ rest) = some rest := by
  obtain ⟨hwhole, hfraction, hexponent⟩ := h
  next whole fraction exponent =>
  have hafter := hexponent.head hrest
  have hfrac := skipFraction?_append hfraction hafter
  have hexp := skipExponent?_append hexponent fun b hb => ⟨(hrest b hb).1, (hrest b hb).2.2⟩
  have hstop := hfraction.head _ fun b hb => (hafter b hb).1
  simp only [List.append_assoc]
  cases hwhole with
  | zero =>
    generalize hmore : fraction ++ (exponent ++ rest) = more at hfrac hstop ⊢
    cases more with
    | nil => simp [skipNumber?, hfrac, hexp]
    | cons b more => simp [skipNumber?, hstop b rfl, hfrac, hexp]
  | @digits b ds hb hds =>
    have hdigits := skipDigits?_append hds hstop
    unfold skipNumber?
    simp only [List.cons_append] at hdigits ⊢
    split
    · next heq =>
      cases heq
      exact absurd rfl hb
    · simp [hdigits, hfrac, hexp]

/-- What is passed over as a number is one by the grammar. -/
theorem numeral_of_skipNumber? {bs rest : Bytes} (h : skipNumber? bs = some rest) :
    ∃ n, Numeral n ∧ bs = n ++ rest := by
  have hcut : ∀ {whole more : Bytes}, Whole whole →
      ((skipFraction? more).bind skipExponent?) = some rest →
      ∃ n, Numeral n ∧ whole ++ more = n ++ rest := by
    intro whole more hwhole hmore
    obtain ⟨after, hfraction, hexponent⟩ := Option.bind_eq_some_iff.mp hmore
    obtain ⟨f, hf, rfl⟩ := fraction_of_skipFraction? hfraction
    obtain ⟨e, he, rfl⟩ := exponent_of_skipExponent? hexponent
    exact ⟨_, .mk hwhole hf he, by simp only [List.append_assoc]⟩
  unfold skipNumber? at h
  simp only [Option.bind_eq_bind] at h
  split at h
  · split at h
    · split at h
      · cases h
      · exact hcut .zero h
    · exact hcut .zero h
  · next hne =>
    obtain ⟨more, hdigits, hmore⟩ := Option.bind_eq_some_iff.mp h
    obtain ⟨ds, hds, rfl⟩ := digits_of_skipDigits? hdigits
    obtain ⟨b, ds, rfl⟩ := List.exists_cons_of_ne_nil hds.1
    have hb : b ≠ 48 := by
      rintro rfl
      exact hne _ rfl
    exact hcut (.digits hb hds) hmore

theorem skipQuoted?_append {q : Bytes} (h : Quoted q) (rest : Bytes) :
    skipQuoted? (q ++ rest) = some rest := by
  induction h with
  | close =>
    unfold skipQuoted?
    rfl
  | plain hcontrol hquote hslash _ ih =>
    unfold skipQuoted?
    simp [hcontrol, hquote, hslash, ih]
  | @escape e bs he _ ih =>
    have hletter : e ≠ 117 := by
      rintro rfl
      simp at he
    have hescape : [34, 92, 47, 98, 102, 110, 114, 116].contains e = true := List.contains_iff_mem.mpr he
    unfold skipQuoted?
    simp only [List.cons_append, beq_iff_eq, hletter, hescape, if_true, if_false, ih]
    rfl
  | @number w x y z bs hds _ ih =>
    have hall : ([w, x, y, z].all fun d => (hexOf? d).isSome) = true := List.all_eq_true.mpr hds
    unfold skipQuoted?
    simp only [List.cons_append, hall, if_true, ih]
    rfl

/-- What is passed over as a quoted text is one, whether or not it could be decoded. -/
theorem quoted_of_skipQuoted? {bs rest : Bytes} (h : skipQuoted? bs = some rest) :
    ∃ q, Quoted q ∧ bs = q ++ rest := by
  induction bs using skipQuoted?.induct with
  | case1 => cases h
  | case2 b more hquote =>
    unfold skipQuoted? at h
    rw [if_pos hquote] at h
    cases h
    exact ⟨[34], .close, by rw [beq_iff_eq.mp hquote]; rfl⟩
  | case5 b hquote hcontrol hslash e hletter w x y z tail hall ih =>
    unfold skipQuoted? at h
    simp only [hquote, hcontrol, hslash, hletter, hall, if_true, if_false] at h
    obtain ⟨q, hq, rfl⟩ := ih h
    cases beq_iff_eq.mp hslash
    cases beq_iff_eq.mp hletter
    exact ⟨_, .number (List.all_eq_true.mp hall) hq, rfl⟩
  | case8 b hquote hcontrol hslash e more hletter hescape ih =>
    unfold skipQuoted? at h
    simp only [hquote, hcontrol, hslash, hletter, hescape, if_true, if_false] at h
    obtain ⟨q, hq, rfl⟩ := ih h
    cases beq_iff_eq.mp hslash
    exact ⟨_, .escape (List.contains_iff_mem.mp hescape) hq, rfl⟩
  | case10 b more hquote hcontrol hslash ih =>
    unfold skipQuoted? at h
    simp only [hquote, hcontrol, hslash, if_false] at h
    obtain ⟨q, hq, rfl⟩ := ih h
    exact ⟨_, .plain hcontrol (by simpa using hquote) (by simpa using hslash) hq, rfl⟩
  | case3 b more hquote hcontrol | case4 b hquote hcontrol hslash
  | case6 b hquote hcontrol hslash e hletter w x y z tail hall
  | case7 b hquote hcontrol hslash e more hletter hshort
  | case9 b hquote hcontrol hslash e more hletter hescape =>
    unfold skipQuoted? at h
    simp_all

theorem skipName?_append {name : Bytes} (h : Name name) (rest : Bytes) :
    skipName? (name ++ rest) = some rest := by
  obtain ⟨hgap, hquoted, hgap'⟩ := h
  next gap bs gap' =>
  have hcolon : skipBlanks (gap' ++ 58 :: rest) = 58 :: rest := skipBlanks_gap_ink hgap' rfl rest
  have hquote : skipQuoted? (bs ++ (gap' ++ 58 :: rest)) = some (gap' ++ 58 :: rest) :=
    skipQuoted?_append hquoted _
  simp only [List.append_assoc, List.cons_append, List.nil_append, skipName?, skipBlanks_gap hgap,
    skipBlanks_ink (b := 34) rfl, Option.bind_eq_bind, hquote, Option.bind_some, hcolon]

theorem name_of_skipName? {bs rest : Bytes} (h : skipName? bs = some rest) :
    ∃ name, Name name ∧ bs = name ++ rest := by
  obtain ⟨gap, hgap, hbs, -⟩ := exists_gap bs
  unfold skipName? at h
  split at h
  · next more hquote =>
    obtain ⟨after, hafter, hend⟩ := Option.bind_eq_some_iff.mp h
    obtain ⟨q, hq, rfl⟩ := quoted_of_skipQuoted? hafter
    obtain ⟨gap', hgap', hafter', -⟩ := exists_gap after
    split at hend
    · next last hcolon =>
      cases hend
      refine ⟨_, .mk hgap hq hgap', ?_⟩
      rw [hbs, hquote, hafter', hcolon]
      simp
    · cases hend
  · cases h

/-- The names of a member can be read with or without the blanks before it. -/
theorem skipName?_skipBlanks (bs : Bytes) : skipName? (skipBlanks bs) = skipName? bs := by
  rw [skipName?, skipName?, skipBlanks_skipBlanks]

theorem finishWord_append (word rest : Bytes) : finishWord word (word ++ rest) = .ok rest := by
  induction word with
  | nil => rfl
  | cons w word ih => simp [finishWord, ih]

theorem word_of_finishWord {word bytes rest : Bytes} (h : finishWord word bytes = .ok rest) :
    bytes = word ++ rest := by
  induction word generalizing bytes with
  | nil =>
    cases h
    rfl
  | cons w word ih =>
    cases bytes with
    | nil => cases h
    | cons b bytes =>
      rw [finishWord] at h
      split at h
      · next heq =>
        rw [ih h, beq_iff_eq.mp heq]
        rfl
      · cases h

theorem word_of_skipWord? {word bs rest : Bytes} (h : skipWord? word bs = some rest) :
    bs = word ++ rest := by
  unfold skipWord? at h
  split at h
  · next hstart =>
    cases h
    obtain ⟨more, rfl⟩ := List.isPrefixOf_iff_prefix.mp hstart
    rw [List.drop_left]
  · cases h

theorem skipWord?_append (word rest : Bytes) : skipWord? word (word ++ rest) = some rest := by
  have hstart : word.isPrefixOf (word ++ rest) = true :=
    List.isPrefixOf_iff_prefix.mpr (List.prefix_append word rest)
  rw [skipWord?, if_pos hstart, List.drop_left]

theorem Numeral.head {bs : Bytes} (h : Numeral bs) : ∃ b more, bs = b :: more ∧ isDigitByte b = true := by
  obtain ⟨hwhole, -, -⟩ := h
  cases hwhole with
  | zero => exact ⟨48, _, rfl, rfl⟩
  | @digits b ds hb hds => exact ⟨b, _, rfl, hds.2 b List.mem_cons_self⟩

theorem skipScalar?_append {bs rest : Bytes} (h : Scalar bs) (hrest : Ends rest) :
    skipScalar? (bs ++ rest) = some rest := by
  cases h with
  | word h =>
    rcases h with rfl | rfl | rfl
    · exact skipWord?_append [117, 108, 108] rest
    · exact skipWord?_append [114, 117, 101] rest
    · exact skipWord?_append [97, 108, 115, 101] rest
  | natural h =>
    obtain ⟨b, more, rfl, hb⟩ := h.head
    have hnumber := skipNumber?_append h hrest
    have hne : ∀ c, isDigitByte c = false → b ≠ c := by
      rintro c hc rfl
      rw [hb] at hc
      cases hc
    simp only [List.cons_append] at hnumber ⊢
    simp [skipScalar?, hb, hnumber, hne 110 rfl, hne 116 rfl, hne 102 rfl, hne 45 rfl]
  | negative h => exact skipNumber?_append h hrest
  | text h => exact skipQuoted?_append h rest

theorem scalar_of_skipScalar? {bs rest : Bytes} (h : skipScalar? bs = some rest) :
    ∃ v, Scalar v ∧ bs = v ++ rest := by
  cases bs with
  | nil => cases h
  | cons b bs =>
    simp only [skipScalar?, beq_iff_eq] at h
    split at h
    · next hb => exact ⟨_, .word (.inl rfl), by rw [hb, word_of_skipWord? h]; rfl⟩
    split at h
    · next hb => exact ⟨_, .word (.inr (.inl rfl)), by rw [hb, word_of_skipWord? h]; rfl⟩
    split at h
    · next hb => exact ⟨_, .word (.inr (.inr rfl)), by rw [hb, word_of_skipWord? h]; rfl⟩
    split at h
    · next hb =>
      obtain ⟨n, hn, rfl⟩ := numeral_of_skipNumber? h
      exact ⟨_, .negative hn, by rw [hb]; rfl⟩
    split at h
    · obtain ⟨n, hn, hbs⟩ := numeral_of_skipNumber? h
      exact ⟨n, .natural hn, hbs⟩
    split at h
    · next hb =>
      obtain ⟨q, hq, rfl⟩ := quoted_of_skipQuoted? h
      exact ⟨_, .text hq, by rw [hb]; rfl⟩
    · cases h

/-- The first byte tells a scalar from a list or an object, and from the end of one. -/
theorem Scalar.head {v : Bytes} (h : Scalar v) :
    ∃ b more, v = b :: more ∧ isBlankByte b = false ∧ b ∉ [91, 123, 93, 125] := by
  cases h with
  | word h => rcases h with rfl | rfl | rfl <;> exact ⟨_, _, rfl, rfl, by decide⟩
  | natural h =>
    obtain ⟨b, more, rfl, hb⟩ := h.head
    refine ⟨b, more, rfl, ?_, ?_⟩
    · cases hblank : isBlankByte b with
      | false => rfl
      | true =>
        have hcase : ((b = 32 ∨ b = 10) ∨ b = 9) ∨ b = 13 := by simpa [isBlankByte] using hblank
        rcases hcase with ((rfl | rfl) | rfl) | rfl <;> cases hb
    · intro hmem
      simp only [List.mem_cons, List.not_mem_nil, or_false] at hmem
      rcases hmem with rfl | rfl | rfl | rfl <;> cases hb
  | negative h => exact ⟨_, _, rfl, rfl, by decide⟩
  | text h => exact ⟨_, _, rfl, rfl, by decide⟩

theorem ends_gap {gap : Bytes} (h : Gap gap) {b : UInt8}
    (hb : isDigitByte b = false ∧ b ≠ 46 ∧ isExponentMark b = false) (more : Bytes) :
    Ends (gap ++ b :: more) := by
  intro c hc
  cases gap with
  | nil =>
    cases hc
    exact hb
  | cons d gap =>
    cases hc
    have hblank := h c List.mem_cons_self
    have hcase : ((c = 32 ∨ c = 10) ∨ c = 9) ∨ c = 13 := by simpa [isBlankByte] using hblank
    rcases hcase with ((rfl | rfl) | rfl) | rfl <;> decide

end Segments.Json
