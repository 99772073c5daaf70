import Segments.Number.Layout
import Segments.Number.Reading
import Segments.Proofs.DigitRuns
import Segments.Proofs.ShortestDigits
import Segments.Proofs.Trimming

namespace Segments.Double

open Text

inductive Sign : List Char → Bool → Prop
  | absent : Sign [] false
  | plus : Sign ['+'] false
  | minus : Sign ['-'] true

inductive Fraction : List Char → List Char → Prop
  | absent : Fraction [] []
  | present {ds : List Char} : Digits ds → Fraction ('.' :: ds) ds

/-- A letter, a sign and digits, with the exponent that they write. -/
inductive Exponent : List Char → Int → Prop
  | absent : Exponent [] 0
  | present {mark : Char} {sign ds : List Char} {negative : Bool} : mark = 'e' ∨ mark = 'E' →
      Sign sign negative → ds ≠ [] → Digits ds →
      Exponent (mark :: (sign ++ ds)) (if negative then -(decimalValue ds : Int) else decimalValue ds)

inductive Unsigned : List Char → Nat → Int → Prop
  | mk {whole point ds exponent : List Char} {e : Int} : Digits whole → Fraction point ds →
      whole ++ ds ≠ [] → Exponent exponent e →
      Unsigned (whole ++ (point ++ exponent)) (decimalValue (whole ++ ds)) (e - ds.length)

/-- A number, whether it is negative, and the decimal that its magnitude is. -/
inductive Numeral : List Char → Bool → Nat → Int → Prop
  | mk {sign body : List Char} {negative : Bool} {digits : Nat} {scale : Int} : Sign sign negative →
      Unsigned body digits scale → Numeral (sign ++ body) negative digits scale

theorem Sign.cases_text (cs : List Char) :
    (∃ sign negative rest, Sign sign negative ∧ sign ≠ [] ∧ cs = sign ++ rest) ∨
      ∀ c, cs.head? = some c → c ≠ '-' ∧ c ≠ '+' := by
  cases cs with
  | nil => exact .inr (by simp)
  | cons c cs =>
    by_cases hminus : c = '-'
    · exact .inl ⟨['-'], true, cs, .minus, by simp, by rw [hminus]; rfl⟩
    · by_cases hplus : c = '+'
      · exact .inl ⟨['+'], false, cs, .plus, by simp, by rw [hplus]; rfl⟩
      · refine .inr fun d hd => ?_
        cases hd
        exact ⟨hminus, hplus⟩

theorem ne_of_isDigit {c d : Char} (hc : isDigit c = true) (hd : isDigit d = false) : c ≠ d := by
  rintro rfl
  rw [hc] at hd
  cases hd

def exponentOf? (negative : Bool) (ds : List Char) : Option Int :=
  if ds.isEmpty || !ds.all isDigit then none
  else some (if negative then -(decimalValue ds : Int) else decimalValue ds)

theorem exponentOf?_eq_some {negative : Bool} {ds : List Char} {e : Int} :
    exponentOf? negative ds = some e ↔ ds ≠ [] ∧ Digits ds ∧
      e = if negative then -(decimalValue ds : Int) else decimalValue ds := by
  unfold exponentOf? Digits
  rw [Option.ite_none_left_eq_some, Option.some.injEq, Bool.not_eq_true, Bool.or_eq_false_iff,
    Bool.not_eq_false', List.all_eq_true, List.isEmpty_eq_false_iff, and_assoc, eq_comm (a := e)]

theorem readExponent?_sign {sign : List Char} {negative : Bool} (h : Sign sign negative)
    {ds : List Char} (hds : sign = [] → ∀ c, ds.head? = some c → c ≠ '-' ∧ c ≠ '+') :
    readExponent? (sign ++ ds) = exponentOf? negative ds := by
  cases h with
  | plus => rfl
  | minus => rfl
  | absent =>
    have hhead := hds rfl
    rw [List.nil_append]
    unfold readExponent?
    split
    next negative rest heq =>
    split at heq
    · exact absurd rfl (hhead _ rfl).1
    · exact absurd rfl (hhead _ rfl).2
    · cases heq
      rfl

def exponentFrom? : List Char → Option Int
  | [] => some 0
  | c :: r => if c == 'e' || c == 'E' then readExponent? r else none

theorem exponentFrom?_eq_some {cs : List Char} {e : Int} :
    exponentFrom? cs = some e ↔ Exponent cs e := by
  constructor
  · intro h
    unfold exponentFrom? at h
    split at h
    · cases h
      exact .absent
    · next c r =>
      split at h
      · next hmark =>
        have hmark' : c = 'e' ∨ c = 'E' := by simpa using hmark
        rcases Sign.cases_text r with ⟨sign, negative, ds, hsign, hne, rfl⟩ | hnone
        · rw [readExponent?_sign hsign fun hnil => absurd hnil hne] at h
          obtain ⟨hds, hall, rfl⟩ := exponentOf?_eq_some.mp h
          exact .present hmark' hsign hds hall
        · rw [← List.nil_append r, readExponent?_sign .absent fun _ => hnone] at h
          obtain ⟨hds, hall, rfl⟩ := exponentOf?_eq_some.mp h
          exact .present hmark' .absent hds hall
      · cases h
  · intro h
    cases h with
    | absent => rfl
    | @present mark sign ds negative hmark hsign hne hds =>
      have hmark' : (mark == 'e' || mark == 'E') = true := by simpa using hmark
      rw [exponentFrom?, if_pos hmark', readExponent?_sign hsign]
      · exact exponentOf?_eq_some.mpr ⟨hne, hds, rfl⟩
      · intro _ c hc
        have hdigit := hds c (List.mem_of_head? hc)
        exact ⟨ne_of_isDigit hdigit rfl, ne_of_isDigit hdigit rfl⟩

/-- The first character tells what comes next in a number. -/
theorem Exponent.head {cs : List Char} {e : Int} (h : Exponent cs e) :
    ∀ c, cs.head? = some c → isDigit c = false ∧ c ≠ '.' := by
  cases h with
  | absent => simp
  | present hmark =>
    intro c hc
    cases hc
    rcases hmark with rfl | rfl <;> decide

theorem Fraction.head {cs ds exponent : List Char} {e : Int} (h : Fraction cs ds)
    (he : Exponent exponent e) : ∀ c, (cs ++ exponent).head? = some c → isDigit c = false := by
  cases h with
  | absent => exact fun c hc => (he.head c hc).1
  | present =>
    intro c hc
    cases hc
    rfl

def cutFraction : List Char → List Char × List Char
  | '.' :: r => (r.takeWhile isDigit, r.dropWhile isDigit)
  | r => ([], r)

theorem cutFraction_append {point ds exponent : List Char} {e : Int} (h : Fraction point ds)
    (he : Exponent exponent e) : cutFraction (point ++ exponent) = (ds, exponent) := by
  cases h with
  | absent =>
    rw [List.nil_append]
    unfold cutFraction
    split
    · exact absurd rfl (he.head _ rfl).2
    · rfl
  | present hds =>
    have hstop := fun c hc => (he.head c hc).1
    rw [List.cons_append, cutFraction, takeWhile_run_append hds hstop, dropWhile_run_append hds hstop]

theorem fraction_of_cutFraction (cs : List Char) :
    ∃ point, Fraction point (cutFraction cs).1 ∧ cs = point ++ (cutFraction cs).2 := by
  unfold cutFraction
  split
  · next r =>
    obtain ⟨ds, exponent, rfl, hds, hstop⟩ := exists_run isDigit r
    rw [takeWhile_run_append hds hstop, dropWhile_run_append hds hstop]
    exact ⟨'.' :: ds, .present hds, rfl⟩
  · exact ⟨[], .absent, rfl⟩

theorem readMagnitude?_eq (negative : Bool) (cs : List Char) : readMagnitude? negative cs =
    let whole := cs.takeWhile isDigit
    let cut := cutFraction (cs.dropWhile isDigit)
    if whole.isEmpty && cut.1.isEmpty then none
    else (exponentFrom? cut.2).map fun e =>
      ofDecimal negative (decimalValue (whole ++ cut.1)) (e - cut.1.length) :=
  rfl

/-- A point in a number only moves the scale. -/
theorem readMagnitude?_ok {negative : Bool} {cs : List Char} {digits : Nat} {scale : Int}
    (h : Unsigned cs digits scale) :
    readMagnitude? negative cs = some (ofDecimal negative digits scale) := by
  obtain ⟨hwhole, hpoint, hne, hexponent⟩ := h
  next whole point ds exponent e =>
  have hstop := hpoint.head hexponent
  have hsome : (whole.isEmpty && ds.isEmpty) = false := by
    rw [Bool.and_eq_false_iff, List.isEmpty_eq_false_iff, List.isEmpty_eq_false_iff]
    by_cases hw : whole = []
    · exact .inr fun hds => hne (by rw [hw, hds]; rfl)
    · exact .inl hw
  rw [readMagnitude?_eq, takeWhile_run_append hwhole hstop, dropWhile_run_append hwhole hstop,
    cutFraction_append hpoint hexponent]
  simp only [hsome, exponentFrom?_eq_some.mpr hexponent]
  rfl

/-- What is read as a magnitude is written by the grammar. -/
theorem unsigned_of_readMagnitude? {negative : Bool} {cs : List Char} {x : Double}
    (h : readMagnitude? negative cs = some x) :
    ∃ digits scale, Unsigned cs digits scale ∧ x = ofDecimal negative digits scale := by
  obtain ⟨whole, rest, rfl, hwhole, hrest⟩ := exists_run isDigit cs
  obtain ⟨point, hpoint, hcut⟩ := fraction_of_cutFraction rest
  rw [readMagnitude?_eq, takeWhile_run_append hwhole hrest, dropWhile_run_append hwhole hrest] at h
  generalize cutFraction rest = cut at h hpoint hcut
  obtain ⟨hsome, h⟩ := Option.ite_none_left_eq_some.mp h
  obtain ⟨e, he, rfl⟩ := Option.map_eq_some_iff.mp h
  refine ⟨_, _, hcut ▸ .mk hwhole hpoint ?_ (exponentFrom?_eq_some.mp he), rfl⟩
  intro hnil
  obtain ⟨hw, hds⟩ := List.append_eq_nil_iff.mp hnil
  exact hsome (by rw [hw, hds]; rfl)

theorem Unsigned.head {cs : List Char} {digits : Nat} {scale : Int} (h : Unsigned cs digits scale) :
    ∀ c, cs.head? = some c → c ≠ '-' ∧ c ≠ '+' := by
  obtain ⟨hwhole, hpoint, hne, -⟩ := h
  next whole point ds exponent e =>
  intro c hc
  cases whole with
  | cons d whole =>
    cases hc
    have hdigit := hwhole c List.mem_cons_self
    exact ⟨ne_of_isDigit hdigit rfl, ne_of_isDigit hdigit rfl⟩
  | nil =>
    cases hpoint with
    | absent => exact absurd rfl hne
    | present =>
      cases hc
      decide

/-- One sign is taken off, and what follows must have none. -/
theorem read?_sign {sign : List Char} {negative : Bool} (h : Sign sign negative) {cs : List Char}
    (hcs : sign = [] → ∀ c, cs.head? = some c → c ≠ '-' ∧ c ≠ '+') :
    read? (sign ++ cs) = readSigned? negative cs := by
  cases h with
  | plus => rfl
  | minus => rfl
  | absent =>
    have hhead := hcs rfl
    rw [List.nil_append]
    unfold read?
    split
    · exact absurd rfl (hhead _ rfl).1
    · exact absurd rfl (hhead _ rfl).2
    · rfl

theorem Numeral.read? {cs : List Char} {negative : Bool} {digits : Nat} {scale : Int}
    (h : Numeral cs negative digits scale) :
    Double.read? cs = some (ofDecimal negative digits scale) := by
  obtain ⟨hsign, hbody⟩ := h
  rw [read?_sign hsign fun _ => hbody.head, readSigned?, readMagnitude?_ok hbody]

/-- Only these characters stand in a number. -/
theorem Numeral.char_cases {cs : List Char} {negative : Bool} {digits : Nat} {scale : Int}
    (h : Numeral cs negative digits scale) {c : Char} (hc : c ∈ cs) :
    isDigit c = true ∨ c ∈ ['+', '-', '.', 'e', 'E'] := by
  have hsign : ∀ {sign : List Char} {minus : Bool}, Sign sign minus → c ∈ sign →
      c ∈ ['+', '-', '.', 'e', 'E'] := by
    intro sign minus hsign hmem
    cases hsign with
    | absent => cases hmem
    | plus => simp_all
    | minus => simp_all
  obtain ⟨hfirst, hbody⟩ := h
  obtain ⟨hwhole, hpoint, -, hexponent⟩ := hbody
  rcases List.mem_append.mp hc with hc | hc
  · exact .inr (hsign hfirst hc)
  rcases List.mem_append.mp hc with hc | hc
  · exact .inl (hwhole c hc)
  rcases List.mem_append.mp hc with hc | hc
  · cases hpoint with
    | absent => cases hc
    | present hds =>
      rcases List.mem_cons.mp hc with rfl | hc
      · exact .inr (by simp)
      · exact .inl (hds c hc)
  · cases hexponent with
    | absent => cases hc
    | present hmark hminus _ hds =>
      rcases List.mem_cons.mp hc with rfl | hc
      · rcases hmark with rfl | rfl <;> exact .inr (by simp)
      · rcases List.mem_append.mp hc with hc | hc
        · exact .inr (hsign hminus hc)
        · exact .inl (hds c hc)

theorem toLower_of_isDigit {c : Char} (h : isDigit c = true) : c.toLower = c := by
  have hnine : c.val.toNat ≤ 57 :=
    UInt32.le_iff_toNat_le.mp (of_decide_eq_true (Bool.and_eq_true_iff.mp h).2)
  unfold Char.toLower
  rw [dif_neg]
  rintro ⟨hupper, -⟩
  have hletter : 65 ≤ c.val.toNat := UInt32.le_iff_toNat_le.mp hupper
  omega

/-- Of the letters of names these stand in no number. -/
theorem Numeral.toLower_ne {cs : List Char} {negative : Bool} {digits : Nat} {scale : Int}
    (h : Numeral cs negative digits scale) {c : Char} (hc : c ∈ cs) :
    c.toLower ≠ 'n' ∧ c.toLower ≠ 'r' ∧ c.toLower ≠ 's' := by
  rcases h.char_cases hc with hdigit | hsymbol
  · rw [toLower_of_isDigit hdigit]
    exact ⟨ne_of_isDigit hdigit rfl, ne_of_isDigit hdigit rfl, ne_of_isDigit hdigit rfl⟩
  · simp only [List.mem_cons, List.not_mem_nil, or_false] at hsymbol
    rcases hsymbol with rfl | rfl | rfl | rfl | rfl <;> decide

/-- No name has the letters of a number only. -/
theorem Numeral.lowerAscii_ne {cs : List Char} {negative : Bool} {digits : Nat} {scale : Int}
    (h : Numeral cs negative digits scale) {name : String}
    (hname : 'n' ∈ name.toList ∨ 'r' ∈ name.toList ∨ 's' ∈ name.toList) :
    lowerAscii cs ≠ name.toList := by
  have hlower : ∀ c ∈ lowerAscii cs, c ≠ 'n' ∧ c ≠ 'r' ∧ c ≠ 's' := by
    intro c hc
    obtain ⟨d, hd, rfl⟩ := List.mem_map.mp hc
    exact h.toLower_ne hd
  intro heq
  rcases hname with hn | hr | hs
  · exact (hlower 'n' (heq ▸ hn)).1 rfl
  · exact (hlower 'r' (heq ▸ hr)).2.1 rfl
  · exact (hlower 's' (heq ▸ hs)).2.2 rfl

inductive Named : List Char → Bool → Double → Prop
  | infinity {cs : List Char} {negative : Bool} :
      lowerAscii cs = "inf".toList ∨ lowerAscii cs = "infinity".toList →
        Named cs negative (ofPlace negative Double.infinity)
  | nan {cs : List Char} {negative : Bool} : lowerAscii cs = "nan".toList → Named cs negative .nan

/-- A text that writes a number, and the number: the nearest one, or the one that has the name. -/
inductive Written : List Char → Double → Prop
  | numeral {cs : List Char} {negative : Bool} {digits : Nat} {scale : Int} {p : Nat} :
      Numeral cs negative digits scale → Rounds (digits * 10 ^ scale) p →
        Written cs (ofPlace negative p)
  | name {sign body : List Char} {negative : Bool} {x : Double} : Sign sign negative →
      Named body negative x → Written (sign ++ body) x

theorem readName?_eq_some {negative : Bool} {cs : List Char} {x : Double} :
    readName? negative cs = some x ↔ Named cs negative x := by
  have hname : ∀ name : String,
      (String.ofList (lowerAscii cs) == name) = true ↔ lowerAscii cs = name.toList := by
    intro name
    rw [beq_iff_eq]
    constructor
    · rintro rfl
      exact String.toList_ofList.symm
    · intro h
      rw [h, String.ofList_toList]
  unfold readName?
  simp only [Bool.or_eq_true, hname]
  constructor
  · intro h
    split at h
    · next hinf =>
      cases h
      exact .infinity hinf
    · split at h
      · next hnan =>
        cases h
        exact .nan hnan
      · cases h
  · rintro (hinf | hnan)
    · rw [if_pos hinf]
    · rw [if_neg, if_pos hnan]
      rw [hnan]
      decide

/-- Every name has an n in it, which no decimal has. -/
theorem Named.lowerAscii_eq {cs : List Char} {negative : Bool} {x : Double}
    (h : Named cs negative x) : ∃ name : String, lowerAscii cs = name.toList ∧ 'n' ∈ name.toList ∧
      ∀ c, name.toList.head? = some c → c ≠ '-' ∧ c ≠ '+' := by
  have hletter : ∀ {first : Char} {cs : List Char}, first ≠ '-' ∧ first ≠ '+' →
      ∀ c, (first :: cs).head? = some c → c ≠ '-' ∧ c ≠ '+' := by
    intro first cs hfirst c hc
    cases hc
    exact hfirst
  cases h with
  | infinity hinf =>
    rcases hinf with hinf | hinf
    · exact ⟨_, hinf, by decide, hletter (by decide)⟩
    · exact ⟨_, hinf, by decide, hletter (by decide)⟩
  | nan hnan => exact ⟨_, hnan, by decide, hletter (by decide)⟩

theorem readSigned?_eq_some {negative : Bool} {cs : List Char} {x : Double} :
    readSigned? negative cs = some x ↔
      (∃ digits scale, Unsigned cs digits scale ∧ x = ofDecimal negative digits scale) ∨
        Named cs negative x := by
  rw [← readName?_eq_some, readSigned?]
  cases hread : readMagnitude? negative cs with
  | none =>
    simp only
    constructor
    · exact .inr
    · rintro (⟨digits, scale, hbody, -⟩ | hname)
      · rw [readMagnitude?_ok hbody] at hread
        cases hread
      · exact hname
  | some y =>
    obtain ⟨digits, scale, hbody, rfl⟩ := unsigned_of_readMagnitude? hread
    simp only [Option.some.injEq]
    constructor
    · rintro rfl
      exact .inl ⟨digits, scale, hbody, rfl⟩
    · rintro (⟨digits', scale', hbody', rfl⟩ | hname)
      · rw [readMagnitude?_ok hbody'] at hread
        exact (Option.some.inj hread).symm
      · obtain ⟨name, hlower, hn, -⟩ := (readName?_eq_some.mp hname).lowerAscii_eq
        exact absurd hlower ((Numeral.mk .absent hbody).lowerAscii_ne (.inl hn))

/-- A text is read as a number just if it writes that number. -/
theorem read?_eq_some {cs : List Char} {x : Double} : Double.read? cs = some x ↔ Written cs x := by
  constructor
  · intro h
    obtain ⟨sign, negative, rest, hsign, rfl, hread⟩ : ∃ sign negative rest, Sign sign negative ∧
        cs = sign ++ rest ∧ readSigned? negative rest = some x := by
      rcases Sign.cases_text cs with ⟨sign, negative, rest, hsign, hne, rfl⟩ | hnone
      · rw [read?_sign hsign fun hnil => absurd hnil hne] at h
        exact ⟨sign, negative, rest, hsign, rfl, h⟩
      · rw [← List.nil_append cs, read?_sign .absent fun _ => hnone] at h
        exact ⟨[], false, cs, .absent, rfl, h⟩
    rcases readSigned?_eq_some.mp hread with ⟨digits, scale, hbody, rfl⟩ | hname
    · obtain ⟨p, hp⟩ := exists_rounds_decimal digits scale
      rw [ofDecimal_eq hp]
      exact .numeral (.mk hsign hbody) hp
    · exact .name hsign hname
  · intro h
    cases h with
    | numeral hnumeral hp => rw [hnumeral.read?, ofDecimal_eq hp]
    | name hsign hname =>
      next sign body negative =>
      have hhead : ∀ c, body.head? = some c → c ≠ '-' ∧ c ≠ '+' := by
        obtain ⟨name, hlower, -, hfirst⟩ := hname.lowerAscii_eq
        intro c hc
        have hlowered := hfirst c.toLower (by rw [← hlower, lowerAscii, List.head?_map, hc]; rfl)
        constructor
        · rintro rfl
          exact hlowered.1 rfl
        · rintro rfl
          exact hlowered.2 rfl
      rw [read?_sign hsign fun _ => hhead]
      exact readSigned?_eq_some.mpr (.inr hname)

theorem isFinite_ofPlace {negative : Bool} {p : Nat} :
    (ofPlace negative p).isFinite = true ↔ p < infinity := by
  simp only [ofPlace, clamp, isFinite, decide_eq_true_eq]
  omega

/-- A text is read as a finite number just if it writes one that a finite number lies nearest to. -/
theorem readFinite?_eq_some {cs : List Char} {x : Double} :
    readFinite? cs = some x ↔ ∃ negative digits scale p, Numeral cs negative digits scale ∧
      Rounds (digits * 10 ^ scale) p ∧ p < infinity ∧ x = ofPlace negative p := by
  rw [readFinite?, Option.filter_eq_some_iff, read?_eq_some]
  constructor
  · rintro ⟨hwritten, hfinite⟩
    cases hwritten with
    | numeral hnumeral hp => exact ⟨_, _, _, _, hnumeral, hp, isFinite_ofPlace.mp hfinite, rfl⟩
    | name _ hname =>
      cases hname with
      | infinity => exact absurd (isFinite_ofPlace.mp hfinite) (Nat.lt_irrefl _)
      | nan => cases hfinite
  · rintro ⟨negative, digits, scale, p, hnumeral, hp, hplace, rfl⟩
    exact ⟨.numeral hnumeral hp, isFinite_ofPlace.mpr hplace⟩

theorem Unsigned.whole {ds : List Char} (hds : Digits ds) (hne : ds ≠ []) :
    Unsigned ds (decimalValue ds) 0 := by
  have h := Unsigned.mk hds .absent (by rwa [List.append_nil]) .absent
  simpa using h

theorem Unsigned.point {whole ds : List Char} (hwhole : Digits whole) (hds : Digits ds)
    (hne : whole ++ ds ≠ []) :
    Unsigned (whole ++ '.' :: ds) (decimalValue (whole ++ ds)) (-(ds.length : Int)) := by
  have h := Unsigned.mk hwhole (.present hds) hne .absent
  simpa using h

/-- The positional form writes the decimal. -/
theorem unsigned_positional (d : Decimal) :
    ∃ digits scale, Unsigned (positional false d) digits scale ∧
      (digits * 10 ^ scale : ℚ) = d.value := by
  have hdigits : Digits (digitsOf d.digits) := digits_toDigits d.digits
  have hvalue : decimalValue (digitsOf d.digits) = d.digits := decimalValue_toDigits d.digits
  have hne : digitsOf d.digits ≠ [] := Nat.toDigits_ne_nil
  have hzeros : ∀ n, Digits (zeros n) ∧ decimalValue (zeros n) = 0 ∧ (zeros n).length = n :=
    fun n => ⟨digits_zeros n, decimalValue_zeros n, List.length_replicate⟩
  unfold positional
  simp only [Bool.false_eq_true, if_false, List.append_nil]
  by_cases hscale : 0 ≤ d.scale
  · rw [if_pos hscale]
    obtain ⟨hall, hzero, hlength⟩ := hzeros d.scale.toNat
    refine ⟨_, _, .whole (hdigits.append hall) (by simp [hne]), ?_⟩
    rw [decimalValue_append, hzero, hvalue, hlength, Decimal.value, zpow_of_nonneg hscale]
    push_cast
    simp [mul_comm]
  · rw [if_neg hscale]
    have hplaces : -(((-d.scale).toNat : Nat) : Int) = d.scale := by omega
    generalize (-d.scale).toNat = places at hplaces
    by_cases hlong : (digitsOf d.digits).length > places
    · rw [if_pos hlong, withPoint]
      generalize hlead : (digitsOf d.digits).length - places = lead
      have hcut := List.take_append_drop lead (digitsOf d.digits)
      have hlength : ((digitsOf d.digits).drop lead).length = places := by
        rw [List.length_drop]
        omega
      have htext := Unsigned.point (fun c hc => hdigits c (List.mem_of_mem_take hc))
        (fun c hc => hdigits c (List.mem_of_mem_drop hc)) (hcut ▸ hne)
      rw [hcut, hvalue, hlength, hplaces] at htext
      exact ⟨_, _, htext, rfl⟩
    · rw [if_neg hlong]
      generalize hmore : places - (digitsOf d.digits).length = more
      obtain ⟨hall, hzero, hlength⟩ := hzeros more
      have htext := Unsigned.point (hzeros 1).1 (hall.append hdigits) (List.cons_ne_nil '0' _)
      have hlength' : (zeros more ++ digitsOf d.digits).length = places := by
        rw [List.length_append]
        omega
      rw [decimalValue_append, decimalValue_append, hzero, (hzeros 1).2.1, hvalue, hlength', hplaces,
        Nat.mul_zero, Nat.mul_zero, Nat.zero_add, Nat.zero_add] at htext
      exact ⟨_, _, htext, rfl⟩

/-- The plain form of a finite number writes a decimal that the number lies nearest to. -/
theorem numeral_render {negative : Bool} {p : Fin (infinity + 1)} (hp : p.val < infinity) :
    ∃ digits scale, Numeral (render (.number negative p)).toList negative digits scale ∧
      Rounds (digits * 10 ^ scale) p.val := by
  obtain ⟨digits, scale, hbody, hvalue⟩ := unsigned_positional (shortest .up p)
  refine ⟨digits, scale, ?_, hvalue ▸ rounds_shortest .up hp⟩
  have htext : (render (.number negative p)).toList =
      if negative then '-' :: positional false (shortest .up p)
      else positional false (shortest .up p) := by
    have hplace : renderPlace .plain p = positional false (shortest .up p) := by
      simp [renderPlace, Layout.plain]
    simp only [render, renderWith, if_pos hp, hplace, String.toList_ofList]
  rw [htext]
  cases negative with
  | false => exact .mk .absent hbody
  | true => exact .mk .minus hbody

theorem ofPlace_val (negative : Bool) (p : Fin (infinity + 1)) :
    ofPlace negative p.val = .number negative p := by
  have hclamp : clamp p.val = p := Fin.ext (by simp only [clamp]; omega)
  rw [ofPlace, hclamp]

theorem magnitude_eq (p : Nat) : magnitude p = mantissa p * 2 ^ exponent p := by
  have hexponent : 0 ≤ exponent p + 1074 := by
    unfold exponent binade
    split <;> omega
  have hpower : ((twoTo (exponent p + 1074).toNat : Nat) : ℚ) = 2 ^ exponent p * 2 ^ (1074 : Int) := by
    rw [cast_twoTo, ← zpow_of_nonneg hexponent, zpow_add₀ (by norm_num)]
  have hunit : (2 : ℚ) ^ 1074 = 2 ^ (1074 : Int) := (zpow_natCast 2 1074).symm
  rw [magnitude, units, Nat.cast_mul, hpower, hunit, ← mul_assoc]
  exact mul_div_cancel_right₀ _ (by positivity)

theorem wholePart_spec {p n : Nat} (h : wholePart p = (n, false)) : (n : ℚ) = magnitude p := by
  rw [magnitude_eq]
  unfold wholePart at h
  simp only at h
  generalize mantissa p = m at h
  generalize exponent p = e at h
  split at h
  · next he =>
    cases h
    rw [Nat.cast_mul, cast_twoTo, zpow_of_nonneg he]
  · next he =>
    obtain ⟨hn, hrest⟩ := Prod.mk.inj h
    have hmod : m % twoTo (-e).toNat = 0 := by simpa using hrest
    have hdivides : m = n * twoTo (-e).toNat := by
      rw [← hn, Nat.div_mul_cancel (Nat.dvd_of_mod_eq_zero hmod)]
    rw [hdivides, Nat.cast_mul, cast_twoTo, zpow_of_neg he, mul_inv_cancel_right₀ (by positivity)]

/-- The whole number that a number is has its magnitude and its sign. -/
theorem toInt?_spec {negative : Bool} {p : Fin (infinity + 1)} {n : Int}
    (h : toInt? (.number negative p) = some n) :
    ∃ k : Nat, (k : ℚ) = magnitude p.val ∧ n = if negative then -(k : Int) else k := by
  unfold toInt? at h
  simp only at h
  split at h
  · cases hpart : wholePart p.val with
    | mk k rest =>
      rw [hpart] at h
      simp only at h
      split at h
      · cases h
      · next hrest =>
        cases h
        exact ⟨k, wholePart_spec (hpart.trans (by rw [eq_false_of_ne_true hrest])), rfl⟩
  · cases h

theorem toList_toString_int (n : Int) :
    (toString n).toList = if n < 0 then '-' :: Nat.toDigits 10 n.natAbs else Nat.toDigits 10 n.natAbs := by
  cases n with
  | ofNat n => simp [ToString.toString, Int.repr, Nat.toList_repr]
  | negSucc n => simp [ToString.toString, Int.repr, Nat.toList_repr]

/-- A finite number is read back from how it is displayed. Minus zero, which is displayed as zero,
is equal to it. -/
theorem readFinite?_display {x : Double} (hx : x.isFinite = true) :
    ∃ y, readFinite? x.display.toList = some y ∧ y.compare? x = some .eq := by
  cases x with
  | nan => cases hx
  | number negative p =>
    have hp : p.val < infinity := by simpa [isFinite] using hx
    have hself : (number negative p).compare? (.number negative p) = some .eq := by
      simp [compare?]
    have hrender : readFinite? (render (.number negative p)).toList = some (.number negative p) := by
      obtain ⟨digits, scale, htext, hrounds⟩ :
          ∃ digits scale, Numeral (render (.number negative p)).toList negative digits scale ∧
            Rounds (digits * 10 ^ scale) p.val := numeral_render hp
      exact readFinite?_eq_some.mpr ⟨negative, digits, scale, p, htext, hrounds, hp,
        (ofPlace_val negative p).symm⟩
    unfold display
    split
    · next n hn =>
      split
      · obtain ⟨k, hk, rfl⟩ := toInt?_spec hn
        have hrounds : Rounds (k * 10 ^ (0 : Int)) p.val := by
          rw [zpow_zero, mul_one, hk]
          exact rounds_magnitude p.val
        have hbody : Unsigned (Nat.toDigits 10 k) k 0 := by
          have h := Unsigned.whole (digits_toDigits k) Nat.toDigits_ne_nil
          rwa [decimalValue_toDigits] at h
        rw [toList_toString_int]
        by_cases hless : (if negative then -(k : Int) else k) < 0
        · have hnegative : negative = true := by
            by_contra hsign
            rw [if_neg hsign] at hless
            omega
          subst hnegative
          rw [if_pos hless, if_pos rfl, Int.natAbs_neg, Int.natAbs_natCast]
          exact ⟨.number true p, readFinite?_eq_some.mpr ⟨true, k, 0, p, .mk .minus hbody, hrounds, hp,
            (ofPlace_val true p).symm⟩, hself⟩
        · rw [if_neg hless]
          have habs : (if negative then -(k : Int) else k).natAbs = k := by
            split <;> simp
          rw [habs]
          refine ⟨.number false p, readFinite?_eq_some.mpr ⟨false, k, 0, p, .mk .absent hbody, hrounds,
            hp, (ofPlace_val false p).symm⟩, ?_⟩
          cases negative with
          | false => exact hself
          | true =>
            -- the one number that loses its sign is zero
            have hzero : k = 0 := by
              rw [if_pos rfl] at hless
              omega
            subst hzero
            have hplace : p.val = 0 := by
              refine magnitude_strictMono.injective ?_
              rw [← hk, magnitude_zero, Nat.cast_zero]
            simp [compare?, key, hplace]
      · exact ⟨_, hrender, hself⟩
    · exact ⟨_, hrender, hself⟩

end Segments.Double
