import Segments.Http.Url
import Segments.Proofs.ByteOrder
import Segments.Proofs.Trimming

namespace Segments

namespace Text

theorem encode_inj {as bs : List Char} (h : encode as = encode bs) : as = bs :=
  compareText_eq (by rw [← compareBytes_encode, h, compareBytes_self])

end Text

namespace Http.Url

open Text

theorem inForm_lt {c : Char} (h : inForm c = true) : c.toNat < 0x80 := by
  have hval : c.val.toNat = c.toNat := rfl
  delta inForm Char.isAlphanum Char.isAlpha Char.isUpper Char.isLower Char.isDigit at h
  simp only [Bool.or_eq_true, Bool.and_eq_true, decide_eq_true_eq, List.contains_cons,
    List.contains_nil, beq_iff_eq, Bool.or_false, ge_iff_le, UInt32.le_iff_toNat_le] at h
  rcases h with h | rfl | rfl | rfl | rfl
  · simp at h
    omega
  all_goals decide

def formByte (b : UInt8) : List Char :=
  if b.toNat = 32 then ['+']
  else if inForm (Char.ofNat b.toNat) then [Char.ofNat b.toNat]
  else percent b

theorem toNat_ofNat_byte (b : UInt8) : (Char.ofNat b.toNat).toNat = b.toNat := by
  have hvalid : b.toNat.isValidChar := .inl (Nat.lt_trans b.toNat_lt (by decide))
  rw [Char.ofNat, dif_pos hvalid]
  rfl

/-- A byte is written in one of three ways, which the first character tells apart. -/
theorem formByte_cases (b : UInt8) :
    (b.toNat = 32 ∧ formByte b = ['+']) ∨
    (∃ c, inForm c = true ∧ c.toNat = b.toNat ∧ formByte b = [c]) ∨
    formByte b = percent b := by
  unfold formByte
  split
  · exact .inl ⟨by assumption, rfl⟩
  · split
    · rename_i h
      exact .inr (.inl ⟨_, h, toNat_ofNat_byte b, rfl⟩)
    · exact .inr (.inr rfl)

def hexDigit (n : Nat) : Char :=
  Char.ofNat (if n < 10 then 48 + n else 55 + n)

theorem percent_eq (b : UInt8) :
    percent b = ['%', hexDigit (b.toNat / 16), hexDigit (b.toNat % 16)] := rfl

theorem hexDigit_inj : ∀ m n : Fin 16, hexDigit m = hexDigit n → m = n := by decide

theorem hexDigit_ne : ∀ n : Fin 16, '&' ≠ hexDigit n := by decide

theorem percent_inj {a b : UInt8} {as bs : List Char} (h : percent a ++ as = percent b ++ bs) :
    a = b := by
  have ha := a.toNat_lt
  have hb := b.toNat_lt
  simp only [percent_eq, List.cons_append, List.nil_append, List.cons.injEq, true_and] at h
  obtain ⟨hhigh, hlow, -⟩ := h
  have hdiv : a.toNat / 16 = b.toNat / 16 := congrArg Fin.val
    (hexDigit_inj ⟨a.toNat / 16, by omega⟩ ⟨b.toNat / 16, by omega⟩ hhigh)
  have hmod : a.toNat % 16 = b.toNat % 16 := congrArg Fin.val
    (hexDigit_inj ⟨a.toNat % 16, by omega⟩ ⟨b.toNat % 16, by omega⟩ hlow)
  exact UInt8.toNat_inj.mp (by omega)

/-- What one byte is written as does not start what another is written as. -/
theorem formByte_inj {a b : UInt8} {as bs : List Char} (h : formByte a ++ as = formByte b ++ bs) :
    a = b := by
  rcases formByte_cases a with ⟨ha, hfa⟩ | ⟨c, hc, ha, hfa⟩ | hfa <;>
    rcases formByte_cases b with ⟨hb, hfb⟩ | ⟨d, hd, hb, hfb⟩ | hfb <;>
    rw [hfa, hfb] at h
  · exact UInt8.toNat_inj.mp (ha.trans hb.symm)
  · cases h
    cases hd
  · cases h
  · cases h
    cases hc
  · cases h
    exact UInt8.toNat_inj.mp (ha.symm.trans hb)
  · rw [percent_eq] at h
    cases h
    cases hc
  · cases h
  · rw [percent_eq] at h
    cases h
    cases hd
  · exact percent_inj h

theorem amp_not_mem_formByte (b : UInt8) : '&' ∉ formByte b := by
  have hb := b.toNat_lt
  rcases formByte_cases b with ⟨-, h⟩ | ⟨c, hc, -, h⟩ | h <;> rw [h]
  · decide
  · rintro hmem
    cases List.mem_singleton.mp hmem
    cases hc
  · rw [percent_eq]
    have hhigh := hexDigit_ne ⟨b.toNat / 16, by omega⟩
    have hlow := hexDigit_ne ⟨b.toNat % 16, by omega⟩
    simp only [List.mem_cons, List.not_mem_nil, or_false, not_or]
    exact ⟨by decide, hhigh, hlow⟩

/-- A byte of a character that is no byte itself is written by its number. -/
theorem formByte_high {b : UInt8} (hb : 0x80 ≤ b.toNat) : formByte b = percent b := by
  rcases formByte_cases b with ⟨h, -⟩ | ⟨c, hc, h, -⟩ | h
  · omega
  · have hlt := inForm_lt hc
    omega
  · exact h

/-- A character is written as its bytes are. -/
theorem formChar_eq (c : Char) :
    (if c == ' ' then ['+'] else escapeChar inForm c) = (encodeChar c).flatMap formByte := by
  rcases Nat.lt_or_ge c.toNat 0x80 with hlow | hhigh
  · have hbytes : encodeChar c = [UInt8.ofNat c.toNat] := if_pos hlow
    have hb : (UInt8.ofNat c.toNat).toNat = c.toNat := toNat_ofNat_of_lt (by omega)
    rw [escapeChar, hbytes, List.flatMap_singleton, List.flatMap_singleton, formByte, hb,
      Char.ofNat_toNat]
    by_cases hc : c = ' '
    · subst hc
      rfl
    · have hne : c.toNat ≠ 32 := fun h => hc (Char.toNat_inj.mp h)
      rw [if_neg hne, if_neg (by simpa using hc)]
  · have hspace : (c == ' ') = false := by
      refine beq_false_of_ne fun hc => ?_
      rw [hc] at hhigh
      exact absurd hhigh (by decide)
    have hkept : inForm c = false := by
      refine Bool.eq_false_iff.mpr fun hc => ?_
      have hlt := inForm_lt hc
      omega
    have hsame : (encodeChar c).map formByte = (encodeChar c).map percent :=
      List.map_congr_left fun b hb => formByte_high (le_of_mem_encodeChar hhigh b hb)
    rw [hspace, escapeChar, hkept, List.flatMap_def, List.flatMap_def, hsame]
    rfl

theorem formText_eq (s : String) : formText s = (encode s.toList).flatMap formByte := by
  rw [encode, List.flatMap_assoc, formText]
  exact congrArg (s.toList.flatMap ·) (funext formChar_eq)

/-- No written byte starts another, so that the text of a form is taken apart in one way. -/
theorem flatMap_formByte_inj {as bs : Bytes} (h : as.flatMap formByte = bs.flatMap formByte) :
    as = bs := by
  have hne : ∀ b, formByte b ≠ [] := by
    intro b hb
    rcases formByte_cases b with ⟨-, h⟩ | ⟨c, -, -, h⟩ | h <;> rw [h] at hb <;> cases hb
  induction as generalizing bs with
  | nil =>
    cases bs with
    | nil => rfl
    | cons b bs => exact absurd (List.append_eq_nil_iff.mp h.symm).1 (hne b)
  | cons a as ih =>
    cases bs with
    | nil => exact absurd (List.append_eq_nil_iff.mp h).1 (hne a)
    | cons b bs =>
      rw [List.flatMap_cons, List.flatMap_cons] at h
      obtain rfl := formByte_inj h
      rw [ih (List.append_cancel_left h)]

theorem formText_inj {s t : String} (h : formText s = formText t) : s = t := by
  rw [formText_eq, formText_eq] at h
  exact String.toList_inj.mp (encode_inj (flatMap_formByte_inj h))

theorem amp_not_mem_formText (s : String) : '&' ∉ formText s := by
  rw [formText_eq, List.mem_flatMap]
  rintro ⟨b, -, hb⟩
  exact amp_not_mem_formByte b hb

/-- Two pairs with the same names are written alike only if they have the same values. -/
theorem formPairs_inj {name other first second first' second' : String}
    (h : formPairs [(name, first), (other, second)] = formPairs [(name, first'), (other, second')]) :
    first = first' ∧ second = second' := by
  have hpairs : ∀ a b : String, formPairs [(name, a), (other, b)] =
      formText name ++ '=' :: (formText a ++ '&' :: (formText other ++ '=' :: formText b)) := by
    intro a b
    simp [formPairs, formPair, List.intercalate]
  rw [hpairs, hpairs] at h
  have h := (List.cons.inj (List.append_cancel_left h)).2
  have hrun : ∀ s, ∀ c ∈ formText s, (c != '&') = true := fun s c hc =>
    bne_iff_ne.mpr fun he => amp_not_mem_formText s (he ▸ hc)
  obtain ⟨hfirst, hrest⟩ := run_append_inj h (hrun _) (by simp) (hrun _) (by simp)
  have hsecond := (List.cons.inj (List.append_cancel_left (List.cons.inj hrest).2)).2
  exact ⟨formText_inj hfirst, formText_inj hsecond⟩

end Http.Url

end Segments
