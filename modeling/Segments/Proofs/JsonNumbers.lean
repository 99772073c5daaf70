import Segments.Json.Reader
import Segments.Json.Writer
import Segments.Proofs.ByteOrder
import Segments.Proofs.DigitRuns
import Segments.Proofs.JsonTokens
import Segments.Proofs.Products

namespace Segments.Json

open Text

/-- What the scan takes from the front of some bytes it takes as well when more bytes follow, of which
the first is no part of a number. -/
def Stable {α : Type} (scan : Scan α) : Prop :=
  ∀ {bytes : Bytes} {a : α} {rest : Bytes}, scan bytes = .ok (a, rest) →
    rest <:+ bytes ∧ ∀ more, Ends more → scan (bytes ++ more) = .ok (a, rest ++ more)

theorem takeFitting_append {bytes more : Bytes} (hmore : Ends more) (significand count : Nat) :
    takeFitting significand count (bytes ++ more) =
      ((takeFitting significand count bytes).1, (takeFitting significand count bytes).2.1,
        (takeFitting significand count bytes).2.2 ++ more) := by
  induction bytes generalizing significand count with
  | nil =>
    cases more with
    | nil => rfl
    | cons b more => simp [takeFitting, (hmore b rfl).1]
  | cons b bytes ih =>
    unfold takeFitting
    by_cases hfits : (isDigitByte b && significand * 10 + digitOf b ≤ maxNatural) = true
    · simp only [List.cons_append, hfits, if_true]
      exact ih _ _
    · simp only [List.cons_append, hfits, Bool.false_eq_true, if_false]

theorem takeFitting_suffix (significand count : Nat) (bytes : Bytes) :
    (takeFitting significand count bytes).2.2 <:+ bytes := by
  induction bytes generalizing significand count with
  | nil => exact List.suffix_refl _
  | cons b bytes ih =>
    unfold takeFitting
    split
    · exact (ih _ _).trans (List.suffix_cons b bytes)
    · exact List.suffix_refl _

theorem skipDigits_ends {more : Bytes} (hmore : Ends more) (bytes : Bytes) :
    skipDigits (bytes ++ more) = ((skipDigits bytes).1, (skipDigits bytes).2 ++ more) := by
  induction bytes with
  | nil =>
    cases more with
    | nil => rfl
    | cons b more => simp [skipDigits, (hmore b rfl).1]
  | cons b bytes ih =>
    unfold skipDigits
    by_cases hdigit : isDigitByte b = true
    · simp only [List.cons_append, hdigit, if_true, ih]
    · simp only [List.cons_append, hdigit, Bool.false_eq_true, if_false]

theorem skipDigits_suffix (bytes : Bytes) : (skipDigits bytes).2 <:+ bytes := by
  obtain ⟨ds, -, -, hbytes⟩ := exists_skipDigits bytes
  exact ⟨ds, hbytes.symm⟩

/-- The digits that were taken end where something else comes, which more bytes do not change. -/
theorem takeExponent_ok {bytes rest : Bytes} {n m : Nat} (h : takeExponent n bytes = .ok (m, rest)) :
    rest <:+ bytes ∧ ∀ more, Ends more → takeExponent n (bytes ++ more) = .ok (m, rest ++ more) := by
  induction bytes generalizing n with
  | nil =>
    cases h
    refine ⟨List.suffix_refl _, ?_⟩
    intro more hmore
    cases more with
    | nil => rfl
    | cons b more => simp [takeExponent, (hmore b rfl).1]
  | cons b bytes ih =>
    simp only [List.cons_append, takeExponent] at h ⊢
    by_cases hdigit : isDigitByte b = true
    · simp only [hdigit, if_true] at h ⊢
      split at h
      · next hfits =>
        simp only [hfits, if_true]
        obtain ⟨hsuffix, hmore⟩ := ih h
        exact ⟨hsuffix.trans (List.suffix_cons b bytes), hmore⟩
      · cases h
    · simp only [hdigit, Bool.false_eq_true, if_false] at h ⊢
      cases h
      exact ⟨List.suffix_refl _, fun _ _ => rfl⟩

theorem takeExponent_error {bytes rest : Bytes} {n : Nat} (h : takeExponent n bytes = .error rest) :
    rest <:+ bytes ∧ ∀ more, takeExponent n (bytes ++ more) = .error (rest ++ more) := by
  induction bytes generalizing n with
  | nil => cases h
  | cons b bytes ih =>
    simp only [List.cons_append, takeExponent] at h ⊢
    by_cases hdigit : isDigitByte b = true
    · simp only [hdigit, if_true] at h ⊢
      split at h
      · next hfits =>
        simp only [hfits, if_true]
        obtain ⟨hsuffix, hmore⟩ := ih h
        exact ⟨hsuffix.trans (List.suffix_cons b bytes), hmore⟩
      · next hfits =>
        cases h
        exact ⟨List.suffix_cons _ _, fun _ => if_neg hfits⟩
    · simp only [hdigit, Bool.false_eq_true, if_false] at h
      cases h

section

variable {negative : Bool} {significand : Nat} {scale : Int}

/-- The number has been scanned when it is made. -/
theorem floatFrom_ok {bytes rest : Bytes} {n : Number}
    (h : floatFrom negative significand scale bytes = .ok (n, rest)) :
    rest = bytes ∧ ∀ more, floatFrom negative significand scale more = .ok (n, more) := by
  unfold floatFrom at h ⊢
  split at h
  · next p hp =>
    cases h
    exact ⟨rfl, fun _ => rfl⟩
  · cases h

def cutSign : Bytes → Bool × Bytes
  | 43 :: rest => (false, rest)
  | 45 :: rest => (true, rest)
  | rest => (false, rest)

theorem cutSign_append {b : UInt8} (bytes more : Bytes) :
    cutSign (b :: bytes ++ more) = ((cutSign (b :: bytes)).1, (cutSign (b :: bytes)).2 ++ more) := by
  by_cases hplus : b = 43
  · subst hplus
    rfl
  by_cases hminus : b = 45
  · subst hminus
    rfl
  have hcut : ∀ rest, cutSign (b :: rest) = (false, b :: rest) := by
    intro rest
    unfold cutSign
    split
    · next heq => exact absurd (List.cons.inj heq).1 hplus
    · next heq => exact absurd (List.cons.inj heq).1 hminus
    · rfl
  rw [List.cons_append, hcut, hcut]
  rfl

theorem cutSign_suffix (bytes : Bytes) : (cutSign bytes).2 <:+ bytes := by
  unfold cutSign
  split
  · exact List.suffix_cons _ _
  · exact List.suffix_cons _ _
  · exact List.suffix_refl _

def exponentDigits (negative : Bool) (significand : Nat) (start : Int) (down : Bool) :
    Scan Number
  | [] => .error (.before .endInValue [])
  | b :: rest =>
    if !isDigitByte b then .error (.before .invalidNumber rest)
    else
      match takeExponent (digitOf b) rest with
      | .ok (n, r) => floatFrom negative significand (if down then start - n else start + n) r
      | .error r =>
        if significand != 0 && !down then .error (.before .outOfRange r)
        else .ok (.float (.ofPlace negative 0), (skipDigits r).2)

theorem scanExponent_eq (start : Int) (bytes : Bytes) :
    scanExponent negative significand start bytes =
      exponentDigits negative significand start (cutSign bytes).1 (cutSign bytes).2 :=
  rfl

theorem stable_exponentDigits (start : Int) (down : Bool) :
    Stable (exponentDigits negative significand start down) := by
  intro bytes n rest h
  cases bytes with
  | nil => cases h
  | cons b bytes =>
    rw [exponentDigits] at h
    split at h
    · cases h
    next hdigit =>
    cases htake : takeExponent (digitOf b) bytes with
    | ok taken =>
      obtain ⟨m, after⟩ := taken
      rw [htake] at h
      obtain ⟨rfl, hfloat⟩ := floatFrom_ok h
      obtain ⟨hsuffix, htaken⟩ := takeExponent_ok htake
      refine ⟨hsuffix.trans (List.suffix_cons b bytes), ?_⟩
      intro more hmore
      rw [List.cons_append, exponentDigits, if_neg hdigit, htaken more hmore]
      exact hfloat _
    | error after =>
      rw [htake] at h
      dsimp only at h
      split at h
      · cases h
      next hrange =>
      cases h
      obtain ⟨hsuffix, htaken⟩ := takeExponent_error htake
      refine ⟨((skipDigits_suffix after).trans hsuffix).trans (List.suffix_cons b bytes), ?_⟩
      intro more hmore
      rw [List.cons_append, exponentDigits, if_neg hdigit, htaken more]
      dsimp only
      rw [if_neg hrange, skipDigits_ends hmore]

theorem stable_scanExponent (start : Int) : Stable (scanExponent negative significand start) := by
  intro bytes n rest h
  rw [scanExponent_eq] at h
  cases bytes with
  | nil => cases h
  | cons b bytes =>
    obtain ⟨hsuffix, hdigits⟩ := stable_exponentDigits start _ h
    refine ⟨hsuffix.trans (cutSign_suffix _), ?_⟩
    intro more hmore
    rw [scanExponent_eq, cutSign_append]
    exact hdigits more hmore

theorem stable_scanScale : Stable (scanScale negative significand scale) := by
  intro bytes n rest h
  cases bytes with
  | nil =>
    obtain ⟨rfl, hfloat⟩ := floatFrom_ok h
    refine ⟨List.suffix_refl _, ?_⟩
    intro more hmore
    cases more with
    | nil => exact hfloat []
    | cons b more =>
      rw [List.nil_append, scanScale, if_neg (by rw [(hmore b rfl).2.2]; exact Bool.false_ne_true)]
      exact hfloat _
  | cons b bytes =>
    rw [scanScale] at h
    split at h
    · next hmark =>
      obtain ⟨hsuffix, hexponent⟩ := stable_scanExponent scale h
      refine ⟨hsuffix.trans (List.suffix_cons b bytes), ?_⟩
      intro more hmore
      rw [List.cons_append, scanScale, if_pos hmark]
      exact hexponent more hmore
    · next hmark =>
      obtain ⟨rfl, hfloat⟩ := floatFrom_ok h
      refine ⟨List.suffix_refl _, ?_⟩
      intro more hmore
      rw [List.cons_append, scanScale, if_neg hmark]
      exact hfloat _

/-- A fraction has a digit that fits, or one that does not. -/
theorem scanFraction_eq_ok {start : Int} {bytes rest : Bytes} {x : Number} :
    scanFraction negative significand start bytes = .ok (x, rest) ↔
      ((takeFitting significand 0 bytes).2.1 ≠ 0 ∨
        ∃ b, (takeFitting significand 0 bytes).2.2.head? = some b ∧ isDigitByte b = true) ∧
      scanScale negative (takeFitting significand 0 bytes).1
        (start - (takeFitting significand 0 bytes).2.1)
        (skipDigits (takeFitting significand 0 bytes).2.2).2 = .ok (x, rest) := by
  unfold scanFraction
  cases takeFitting significand 0 bytes with
  | mk n taken =>
    obtain ⟨count, after⟩ := taken
    cases after with
    | nil =>
      have hscale : scanScale negative n (start - count) (skipDigits []).2 =
          floatFrom negative n (start - count) [] := rfl
      by_cases hcount : count = 0
      · simp [hcount]
      · simp [hcount, hscale]
    | cons b after =>
      by_cases hdigit : isDigitByte b = true
      · simp [hdigit]
      · have hskip : skipDigits (b :: after) = (0, b :: after) := by
          rw [skipDigits, if_neg hdigit]
        by_cases hcount : count = 0
        · simp [hcount, hdigit]
        · simp [hcount, hdigit, hskip]

theorem stable_scanFraction (start : Int) : Stable (scanFraction negative significand start) := by
  intro bytes x rest h
  obtain ⟨hdigit, hscale⟩ := scanFraction_eq_ok.mp h
  obtain ⟨hsuffix, hmore⟩ := stable_scanScale hscale
  refine ⟨(hsuffix.trans (skipDigits_suffix _)).trans (takeFitting_suffix _ _ _),
    fun more hends => scanFraction_eq_ok.mpr ?_⟩
  rw [takeFitting_append hends]
  dsimp only
  rw [skipDigits_ends hends]
  refine ⟨hdigit.imp id ?_, hmore more hends⟩
  rintro ⟨b, hb, hdigit⟩
  refine ⟨b, ?_, hdigit⟩
  rw [List.head?_append, hb]
  rfl

def longNumber (negative : Bool) (n extra : Nat) : Scan Number
  | 46 :: rest => scanFraction negative n extra rest
  | rest => scanScale negative n extra rest

theorem longNumber_else (n extra : Nat) {rest : Bytes} (h : rest.head? ≠ some 46) :
    longNumber negative n extra rest = scanScale negative n extra rest := by
  unfold longNumber
  split
  · exact absurd rfl h
  · rfl

theorem Ends.head?_append {bytes more : Bytes} (h : Ends more) (hbytes : bytes.head? ≠ some 46) :
    (bytes ++ more).head? ≠ some 46 := by
  cases bytes with
  | nil =>
    intro hhead
    exact (h 46 hhead).2.1 rfl
  | cons b bytes => exact hbytes

theorem stable_longNumber (n extra : Nat) : Stable (longNumber negative n extra) := by
  intro bytes x rest h
  by_cases hpoint : bytes.head? = some 46
  · obtain ⟨more, rfl⟩ := List.head?_eq_some_iff.mp hpoint
    obtain ⟨hsuffix, hfraction⟩ := stable_scanFraction _ (h : scanFraction negative n extra more = _)
    exact ⟨hsuffix.trans (List.suffix_cons 46 more), fun more hends => hfraction more hends⟩
  · rw [longNumber_else n extra hpoint] at h
    obtain ⟨hsuffix, hscale⟩ := stable_scanScale h
    refine ⟨hsuffix, ?_⟩
    intro more hends
    rw [longNumber_else n extra (hends.head?_append hpoint)]
    exact hscale more hends

/-- A number of which the first digits have been taken, as many as fit. -/
def numberFrom (negative : Bool) (first : UInt8) (n : Nat) : Scan Number
  | [] => .ok (wholeNumber negative n, [])
  | c :: rest =>
    if isDigitByte c then
      if first == 48 then .error (.on .invalidNumber (c :: rest))
      else longNumber negative n (skipDigits (c :: rest)).1 (skipDigits (c :: rest)).2
    else if c == 46 then scanFraction negative n 0 rest
    else if isExponentMark c then scanExponent negative n 0 rest
    else .ok (wholeNumber negative n, c :: rest)

def firstDigits (first : UInt8) (bytes : Bytes) : Nat × Bytes :=
  if first == 48 then (0, bytes)
  else ((takeFitting (digitOf first) 1 bytes).1, (takeFitting (digitOf first) 1 bytes).2.2)

theorem scanNumber_eq {first : UInt8} (h : isDigitByte first = true) (bytes : Bytes) :
    scanNumber negative (first :: bytes) =
      numberFrom negative first (firstDigits first bytes).1 (firstDigits first bytes).2 := by
  simp only [scanNumber, firstDigits, h, Bool.not_true, Bool.false_eq_true, if_false]
  by_cases hzero : (first == 48) = true
  · simp only [hzero, if_true]
    cases bytes with
    | nil => rfl
    | cons c bytes => simp only [numberFrom, hzero, if_true]
  · simp only [hzero]
    cases takeFitting (digitOf first) 1 bytes with
    | mk n taken =>
      obtain ⟨count, after⟩ := taken
      cases after with
      | nil => rfl
      | cons c after =>
        simp only [numberFrom, hzero]
        rfl

/-- A number is read from its own bytes, whatever follows. -/
theorem stable_numberFrom (first : UInt8) (n : Nat) : Stable (numberFrom negative first n) := by
  intro bytes x rest h
  cases bytes with
  | nil =>
    cases h
    refine ⟨List.suffix_refl _, ?_⟩
    intro more hends
    cases more with
    | nil => rfl
    | cons b more =>
      obtain ⟨hdigit, hpoint, hmark⟩ := hends b rfl
      simp [numberFrom, hdigit, hpoint, hmark]
  | cons c bytes =>
    have hcons := List.suffix_cons c bytes
    rw [numberFrom] at h
    by_cases hdigit : isDigitByte c = true
    · rw [if_pos hdigit] at h
      split at h
      · cases h
      next hzero =>
      obtain ⟨hsuffix, hlong⟩ := stable_longNumber _ _ h
      refine ⟨hsuffix.trans (skipDigits_suffix _), ?_⟩
      intro more hends
      have hskip := skipDigits_ends hends (c :: bytes)
      rw [List.cons_append] at hskip ⊢
      rw [numberFrom, if_pos hdigit, if_neg hzero, hskip]
      exact hlong more hends
    rw [if_neg hdigit] at h
    by_cases hpoint : (c == 46) = true
    · rw [if_pos hpoint] at h
      obtain ⟨hsuffix, hfraction⟩ := stable_scanFraction _ h
      refine ⟨hsuffix.trans hcons, ?_⟩
      intro more hends
      rw [List.cons_append, numberFrom, if_neg hdigit, if_pos hpoint]
      exact hfraction more hends
    rw [if_neg hpoint] at h
    by_cases hmark : isExponentMark c = true
    · rw [if_pos hmark] at h
      obtain ⟨hsuffix, hexponent⟩ := stable_scanExponent _ h
      refine ⟨hsuffix.trans hcons, ?_⟩
      intro more hends
      rw [List.cons_append, numberFrom, if_neg hdigit, if_neg hpoint, if_pos hmark]
      exact hexponent more hends
    · rw [if_neg hmark] at h
      cases h
      refine ⟨List.suffix_refl _, ?_⟩
      intro more _
      rw [List.cons_append, numberFrom, if_neg hdigit, if_neg hpoint, if_neg hmark]

theorem stable_scanNumber : Stable (scanNumber negative) := by
  intro bytes x rest h
  cases bytes with
  | nil => cases h
  | cons b bytes =>
    by_cases hdigit : isDigitByte b = true
    · rw [scanNumber_eq hdigit] at h
      obtain ⟨hsuffix, hmore⟩ := stable_numberFrom b _ h
      have hfirst : (firstDigits b bytes).2 <:+ bytes := by
        unfold firstDigits
        split
        · exact List.suffix_refl _
        · exact takeFitting_suffix _ _ _
      refine ⟨(hsuffix.trans hfirst).trans (List.suffix_cons b bytes), ?_⟩
      intro more hends
      have hall : firstDigits b (bytes ++ more) =
          ((firstDigits b bytes).1, (firstDigits b bytes).2 ++ more) := by
        unfold firstDigits
        split
        · rfl
        · rw [takeFitting_append hends]
      rw [List.cons_append, scanNumber_eq hdigit, hall]
      exact hmore more hends
    · have hnot : (!isDigitByte b) = true := by simpa using hdigit
      rw [scanNumber, if_pos hnot] at h
      cases h

end

/-- A digit is one byte. -/
theorem encodeChar_digit {c : Char} (h : isDigit c = true) : ∃ b, encodeChar c = [b] ∧
    isDigitByte b = true ∧ digitOf b = digitValue c ∧ (b = 48 → c = '0') := by
  have hrange := toNat_of_isDigit h
  have hbyte : (UInt8.ofNat c.toNat).toNat = c.toNat := toNat_ofNat_of_lt (by omega)
  refine ⟨UInt8.ofNat c.toNat, if_pos (by omega), ?_, ?_, ?_⟩
  · simp only [isDigitByte, UInt8.le_iff_toNat_le, hbyte, UInt8.reduceToNat, Bool.and_eq_true,
      decide_eq_true_eq]
    exact hrange
  · rw [digitOf, hbyte]
    rfl
  · intro hb
    rw [hb] at hbyte
    exact Char.toNat_inj.mp hbyte.symm

theorem encode_cons {c : Char} {b : UInt8} (h : encodeChar c = [b]) (cs : List Char) :
    encode (c :: cs) = b :: encode cs := by
  rw [encode, List.flatMap_cons, h]
  rfl

def digitsFrom (n : Nat) (ds : List Char) : Nat :=
  ds.foldl (fun n c => 10 * n + digitValue c) n

theorem le_digitsFrom (n : Nat) (ds : List Char) : n ≤ digitsFrom n ds := by
  induction ds generalizing n with
  | nil => exact Nat.le_refl n
  | cons d ds ih => exact Nat.le_trans (by omega) (ih (10 * n + digitValue d))

/-- Digits that fit in all fit one by one. -/
theorem takeFitting_encode {ds : List Char} (hds : Text.Digits ds) {n : Nat}
    (h : digitsFrom n ds ≤ maxNatural) (count : Nat) :
    takeFitting n count (encode ds) = (digitsFrom n ds, count + ds.length, []) := by
  induction ds generalizing n count with
  | nil => rfl
  | cons d ds ih =>
    obtain ⟨b, hb, hdigit, hvalue, -⟩ := encodeChar_digit (hds d List.mem_cons_self)
    have hnext : n * 10 + digitOf b = 10 * n + digitValue d := by
      rw [hvalue]
      omega
    have hfits : 10 * n + digitValue d ≤ maxNatural := Nat.le_trans (le_digitsFrom _ ds) h
    have hmore := ih (fun c hc => hds c (List.mem_cons_of_mem d hc)) h (count + 1)
    have hcount : count + 1 + ds.length = count + (d :: ds).length := by
      rw [List.length_cons]
      omega
    rw [hcount] at hmore
    rw [encode_cons hb, takeFitting, if_pos (by simp [hdigit, hnext, hfits]), hnext]
    exact hmore

/-- No zero leads the digits of a number, but that of zero. -/
theorem head_toDigits {n : Nat} (h : n ≠ 0) : (Nat.toDigits 10 n).head? ≠ some '0' := by
  induction n using Nat.strongRecOn with
  | ind n ih =>
    by_cases hten : 10 ≤ n
    · rw [Nat.toDigits_of_base_le (by decide) hten]
      have hlead := ih (n / 10) (by omega) (by omega)
      have hne : Nat.toDigits 10 (n / 10) ≠ [] := Nat.toDigits_ne_nil
      cases hdigits : Nat.toDigits 10 (n / 10) with
      | nil => exact absurd hdigits hne
      | cons d ds =>
        rw [hdigits] at hlead
        exact hlead
    · rw [Nat.toDigits_of_lt_base (by omega)]
      simp [h]

/-- A whole number of 64 bits is read from its digits. -/
theorem scanNumber_toDigits (negative : Bool) {n : Nat} (h : n ≤ maxNatural) :
    scanNumber negative (encode (Nat.toDigits 10 n)) = .ok (wholeNumber negative n, []) := by
  by_cases hzero : n = 0
  · subst hzero
    cases negative <;> rfl
  have hds := digits_toDigits n
  have hvalue : digitsFrom 0 (Nat.toDigits 10 n) = n := decimalValue_toDigits n
  have hlead := head_toDigits hzero
  cases hdigits : Nat.toDigits 10 n with
  | nil => exact absurd hdigits Nat.toDigits_ne_nil
  | cons d ds =>
    rw [hdigits] at hds hvalue hlead
    obtain ⟨b, hb, hdigit, hfirst, hnot⟩ := encodeChar_digit (hds d List.mem_cons_self)
    have hne : ¬ (b == 48) = true := by
      intro heq
      exact hlead (congrArg some (hnot (beq_iff_eq.mp heq)))
    have hrest : digitsFrom (digitOf b) ds = n := by
      rw [hfirst, ← hvalue]
      simp [digitsFrom]
    have htake := takeFitting_encode (fun c hc => hds c (List.mem_cons_of_mem d hc))
      (n := digitOf b) (by rw [hrest]; exact h) 1
    rw [encode_cons hb, scanNumber_eq hdigit, firstDigits, if_neg hne, htake, hrest]
    rfl

end Segments.Json
