import Segments.Proofs.ByteOrder

namespace Segments.Text

/-- Characters have no surrogates among them, so that only a shorter form remains to be ruled
out. -/
theorem charFrom?_eq_some {least n : Nat} {c : Char} :
    charFrom? least n = some c ↔ least ≤ n ∧ c.toNat = n := by
  by_cases h : least ≤ n ∧ n.isValidChar
  · have hn : (Char.ofNatAux n h.2).toNat = n := rfl
    rw [charFrom?, dif_pos h]
    constructor
    · intro hc
      exact ⟨h.1, Option.some.inj hc ▸ hn⟩
    · rintro ⟨-, hc⟩
      exact congrArg some (Char.toNat_inj.mp (hn.trans hc.symm))
  · rw [charFrom?, dif_neg h]
    constructor
    · intro hc
      cases hc
    · rintro ⟨hleast, rfl⟩
      exact absurd ⟨hleast, c.valid⟩ h

theorem isTail_iff {b : UInt8} : isTail b = true ↔ 128 ≤ b.toNat ∧ b.toNat < 192 := by
  simp [isTail, UInt8.le_iff_toNat_le, UInt8.lt_iff_toNat_lt]

/-- Each byte after the first has six bits of the character. -/
theorem exists_tail {q : Nat} (h : q < 64) :
    ∃ b, UInt8.ofNat (128 + q) = b ∧ isTail b = true ∧ tailBits b = q := by
  have hb : (UInt8.ofNat (128 + q)).toNat = 128 + q := toNat_ofNat_of_lt (by omega)
  exact ⟨_, rfl, isTail_iff.mpr (by omega), by unfold tailBits; omega⟩

theorem ofNat_eq {b : UInt8} {n : Nat} (h : n = b.toNat) : UInt8.ofNat n = b := by
  rw [h, UInt8.ofNat_toNat]

theorem decodeChar?_encodeChar (c : Char) (rest : Bytes) :
    decodeChar? (encodeChar c ++ rest) = some (c, rest) := by
  rcases encodeChar_cases c with ⟨_, h⟩ | ⟨p, q, _, hq, _, hc, h⟩ | ⟨p, q, r, _, hq, hr, _, hc, h⟩ |
      ⟨p, q, r, s, _, hq, hr, hs, _, hc, h⟩
  all_goals rw [h]
  · have ha : (UInt8.ofNat c.toNat).toNat = c.toNat := toNat_ofNat_of_lt (by omega)
    have hless : UInt8.ofNat c.toNat < 128 := by
      rw [UInt8.lt_iff_toNat_lt, ha]
      assumption
    simp [decodeChar?, hless, ha]
  · have ha : (UInt8.ofNat (192 + p)).toNat = 192 + p := toNat_ofNat_of_lt (by omega)
    obtain ⟨b, hb, htail, rfl⟩ := exists_tail hq
    rw [hb]
    generalize UInt8.ofNat (192 + p) = a at ha ⊢
    have hchar : charFrom? 128 ((a.toNat - 192) * 64 + tailBits b) = some c :=
      charFrom?_eq_some.mpr (by omega)
    have h₁ : ¬ a.toNat < 128 := by omega
    have h₂ : 192 ≤ a.toNat ∧ a.toNat < 224 := by omega
    simp [decodeChar?, UInt8.lt_iff_toNat_lt, UInt8.le_iff_toNat_le, h₁, h₂, htail, hchar]
  · have ha : (UInt8.ofNat (224 + p)).toNat = 224 + p := toNat_ofNat_of_lt (by omega)
    obtain ⟨b, hb, htail, rfl⟩ := exists_tail hq
    obtain ⟨b', hb', htail', rfl⟩ := exists_tail hr
    rw [hb, hb']
    generalize UInt8.ofNat (224 + p) = a at ha ⊢
    have hchar : charFrom? 2048 ((a.toNat - 224) * 4096 + tailBits b * 64 + tailBits b') = some c :=
      charFrom?_eq_some.mpr (by omega)
    have h₁ : ¬ a.toNat < 128 := by omega
    have h₂ : ¬ (192 ≤ a.toNat ∧ a.toNat < 224) := by omega
    have h₃ : 224 ≤ a.toNat ∧ a.toNat < 240 := by omega
    simp [decodeChar?, UInt8.lt_iff_toNat_lt, UInt8.le_iff_toNat_le, h₁, h₂, h₃, htail, htail',
      hchar]
  · have ha : (UInt8.ofNat (240 + p)).toNat = 240 + p := toNat_ofNat_of_lt (by omega)
    obtain ⟨b, hb, htail, rfl⟩ := exists_tail hq
    obtain ⟨b', hb', htail', rfl⟩ := exists_tail hr
    obtain ⟨b'', hb'', htail'', rfl⟩ := exists_tail hs
    rw [hb, hb', hb'']
    generalize UInt8.ofNat (240 + p) = a at ha ⊢
    have hchar : charFrom? 65536 ((a.toNat - 240) * 262144 + tailBits b * 4096 + tailBits b' * 64 +
        tailBits b'') = some c := charFrom?_eq_some.mpr (by omega)
    have h₁ : ¬ a.toNat < 128 := by omega
    have h₂ : ¬ (192 ≤ a.toNat ∧ a.toNat < 224) := by omega
    have h₃ : ¬ (224 ≤ a.toNat ∧ a.toNat < 240) := by omega
    have h₄ : 240 ≤ a.toNat ∧ a.toNat < 248 := by omega
    simp [decodeChar?, UInt8.lt_iff_toNat_lt, UInt8.le_iff_toNat_le, h₁, h₂, h₃, h₄, htail, htail',
      htail'', hchar]

section

variable {a b b' b'' : UInt8} {c : Char}

theorem encodeChar_eq_two (ha : 192 ≤ a.toNat) (hb : isTail b = true)
    (h : charFrom? 128 ((a.toNat - 192) * 64 + tailBits b) = some c) (htop : a.toNat < 224) :
    encodeChar c = [a, b] := by
  obtain ⟨hleast, hc⟩ := charFrom?_eq_some.mp h
  have hbits := isTail_iff.mp hb
  unfold tailBits at hleast hc
  rcases encodeChar_cases c with ⟨_, _⟩ | ⟨p, q, _, _, _, _, henc⟩ |
    ⟨p, q, r, _, _, _, _, _, _⟩ | ⟨p, q, r, s, _, _, _, _, _, _, _⟩ <;> try omega
  rw [henc, ofNat_eq (b := a) (by omega), ofNat_eq (b := b) (by omega)]

theorem encodeChar_eq_three (ha : 224 ≤ a.toNat) (hb : isTail b = true) (hb' : isTail b' = true)
    (h : charFrom? 2048 ((a.toNat - 224) * 4096 + tailBits b * 64 + tailBits b') = some c)
    (htop : a.toNat < 240) : encodeChar c = [a, b, b'] := by
  obtain ⟨hleast, hc⟩ := charFrom?_eq_some.mp h
  have hbits := isTail_iff.mp hb
  have hbits' := isTail_iff.mp hb'
  unfold tailBits at hleast hc
  rcases encodeChar_cases c with ⟨_, _⟩ | ⟨p, q, _, _, _, _, _⟩ |
    ⟨p, q, r, _, _, _, _, _, henc⟩ | ⟨p, q, r, s, _, _, _, _, _, _, _⟩ <;> try omega
  rw [henc, ofNat_eq (b := a) (by omega), ofNat_eq (b := b) (by omega),
    ofNat_eq (b := b') (by omega)]

theorem encodeChar_eq_four (ha : 240 ≤ a.toNat) (hb : isTail b = true) (hb' : isTail b' = true)
    (hb'' : isTail b'' = true)
    (h : charFrom? 65536 ((a.toNat - 240) * 262144 + tailBits b * 4096 + tailBits b' * 64 +
      tailBits b'') = some c) : encodeChar c = [a, b, b', b''] := by
  obtain ⟨hleast, hc⟩ := charFrom?_eq_some.mp h
  have hbits := isTail_iff.mp hb
  have hbits' := isTail_iff.mp hb'
  have hbits'' := isTail_iff.mp hb''
  unfold tailBits at hleast hc
  rcases encodeChar_cases c with ⟨_, _⟩ | ⟨p, q, _, _, _, _, _⟩ |
    ⟨p, q, r, _, _, _, _, _, _⟩ | ⟨p, q, r, s, _, _, _, _, _, _, henc⟩ <;> try omega
  rw [henc, ofNat_eq (b := a) (by omega), ofNat_eq (b := b) (by omega),
    ofNat_eq (b := b') (by omega), ofNat_eq (b := b'') (by omega)]

end

/-- Only the shortest form of a character is decoded. -/
theorem eq_encodeChar {bs rest : Bytes} {c : Char} (h : decodeChar? bs = some (c, rest)) :
    bs = encodeChar c ++ rest := by
  cases bs with
  | nil => cases h
  | cons a bs =>
    unfold decodeChar? at h
    simp only [UInt8.lt_iff_toNat_lt, UInt8.le_iff_toNat_le, UInt8.reduceToNat, Bool.and_eq_true,
      decide_eq_true_eq] at h
    split at h
    · next hone =>
      cases h
      have hvalid : a.toNat.isValidChar := .inl (by omega)
      have hc : (Char.ofNat a.toNat).toNat = a.toNat := by
        rw [Char.ofNat, dif_pos hvalid]
        rfl
      simp [encodeChar, hc, hone]
    -- of the others each needs the bytes after the first, and that these are tails
    split at h
    · next htwo =>
      split at h
      · next b more =>
        split at h
        · next htail =>
          obtain ⟨d, hd, heq⟩ := Option.map_eq_some_iff.mp h
          cases heq
          rw [encodeChar_eq_two htwo.1 htail hd htwo.2]
          rfl
        · cases h
      · cases h
    split at h
    · next hthree =>
      split at h
      · next b b' more =>
        split at h
        · next htails =>
          obtain ⟨d, hd, heq⟩ := Option.map_eq_some_iff.mp h
          cases heq
          rw [encodeChar_eq_three hthree.1 htails.1 htails.2 hd hthree.2]
          rfl
        · cases h
      · cases h
    split at h
    · next hfour =>
      split at h
      · next b b' b'' more =>
        split at h
        · next htails =>
          obtain ⟨d, hd, heq⟩ := Option.map_eq_some_iff.mp h
          cases heq
          rw [encodeChar_eq_four hfour.1 htails.1.1 htails.1.2 htails.2 hd]
          rfl
        · cases h
      · cases h
    · cases h

/-- Each character takes one step of fuel. -/
theorem decodeOnto?_encode (cs done : List Char) {fuel : Nat} (h : cs.length ≤ fuel) :
    decodeOnto? fuel done (encode cs) = some (done.reverse ++ cs) := by
  induction cs generalizing done fuel with
  | nil =>
    cases fuel <;> simp [encode, decodeOnto?]
  | cons c cs ih =>
    cases fuel with
    | zero => cases h
    | succ fuel =>
      obtain ⟨b, bs, hb⟩ := encodeChar_cons c
      have hfirst := decodeChar?_encodeChar c (encode cs)
      have hcons : encode (c :: cs) = b :: (bs ++ encode cs) := by
        rw [encode, List.flatMap_cons, hb]
        rfl
      rw [hb, List.cons_append] at hfirst
      rw [hcons, decodeOnto?, hfirst]
      simp only
      rw [ih (c :: done) (Nat.le_of_succ_le_succ h), List.reverse_cons, List.append_assoc]
      rfl

/-- Bytes that are decoded are an encoded text: no text has a second form. -/
theorem eq_encode_of_decodeOnto? {fuel : Nat} {done cs : List Char} {bs : Bytes}
    (h : decodeOnto? fuel done bs = some cs) : ∃ more, cs = done.reverse ++ more ∧ bs = encode more := by
  induction fuel generalizing done bs with
  | zero =>
    cases bs with
    | nil =>
      cases h
      exact ⟨[], (List.append_nil _).symm, rfl⟩
    | cons b bs => cases h
  | succ fuel ih =>
    cases bs with
    | nil =>
      cases h
      exact ⟨[], (List.append_nil _).symm, rfl⟩
    | cons b bs =>
      unfold decodeOnto? at h
      split at h
      · next c rest hfirst =>
        obtain ⟨more, rfl, rfl⟩ := ih h
        refine ⟨c :: more, by simp, ?_⟩
        rw [eq_encodeChar hfirst, encode, encode, List.flatMap_cons]
      · cases h

theorem length_le_encode (cs : List Char) : cs.length ≤ (encode cs).length := by
  induction cs with
  | nil => exact Nat.zero_le _
  | cons c cs ih =>
    obtain ⟨b, bs, hb⟩ := encodeChar_cons c
    simp only [encode, List.flatMap_cons, hb, List.length_append, List.length_cons] at ih ⊢
    omega

/-- What is decoded are just the encoded texts. -/
theorem decode?_eq_some {bs : Bytes} {cs : List Char} : decode? bs = some cs ↔ bs = encode cs := by
  constructor
  · intro h
    obtain ⟨more, rfl, rfl⟩ := eq_encode_of_decodeOnto? h
    rfl
  · rintro rfl
    exact decodeOnto?_encode cs [] (length_le_encode cs)

/-- The first byte of a character is told from the others. -/
theorem encodeChar_tails (c : Char) :
    ∃ b bs, encodeChar c = b :: bs ∧ isTail b = false ∧ ∀ d ∈ bs, isTail d = true := by
  have hfirst : ∀ n, n < 128 ∨ 192 ≤ n ∧ n < 256 → isTail (UInt8.ofNat n) = false := by
    intro n hn
    rw [← Bool.not_eq_true, isTail_iff, toNat_ofNat_of_lt (by omega)]
    omega
  have htail : ∀ n, n < 64 → isTail (UInt8.ofNat (128 + n)) = true := by
    intro n hn
    rw [isTail_iff, toNat_ofNat_of_lt (by omega)]
    omega
  rcases encodeChar_cases c with ⟨hc, h⟩ | ⟨p, q, hp, hq, -, -, h⟩ |
    ⟨p, q, r, hp, hq, hr, -, -, h⟩ | ⟨p, q, r, s, hp, hq, hr, hs, -, -, h⟩
  · exact ⟨_, _, h, hfirst _ (.inl hc), by simp⟩
  all_goals
    refine ⟨_, _, h, hfirst _ (.inr (by omega)), ?_⟩
    simp only [List.forall_mem_cons, List.not_mem_nil, false_imp_iff, implies_true, and_true]
  · exact htail q hq
  · exact ⟨htail q hq, htail r hr⟩
  · exact ⟨htail q hq, htail r hr, htail s hs⟩

theorem head_encode {cs : List Char} {b : UInt8} (h : (encode cs).head? = some b) :
    ∃ c rest, cs = c :: rest ∧ b ∈ encodeChar c := by
  cases cs with
  | nil => cases h
  | cons c rest =>
    obtain ⟨x, xs, hx⟩ := encodeChar_cons c
    rw [encode_cons, hx, List.cons_append, List.head?_cons, Option.some.injEq] at h
    exact ⟨c, rest, rfl, by simp [hx, h]⟩

theorem last_encode {cs : List Char} {b : UInt8} (h : (encode cs).getLast? = some b) :
    ∃ front c, cs = front ++ [c] ∧ b ∈ encodeChar c := by
  cases hend : cs.getLast? with
  | none =>
    rw [List.getLast?_eq_none_iff.mp hend] at h
    cases h
  | some c =>
    obtain ⟨front, rfl⟩ := List.getLast?_eq_some_iff.mp hend
    rw [encode_append, encode_singleton, List.getLast?_append] at h
    cases hchar : (encodeChar c).getLast? with
    | none =>
      obtain ⟨x, xs, hx⟩ := encodeChar_cons c
      rw [hx] at hchar
      cases hchar
    | some d =>
      rw [hchar, Option.some_or] at h
      exact ⟨front, c, rfl, List.mem_of_getLast? (hchar.trans h)⟩

theorem encode_prefix_iff {as bs : List Char} : encode as <+: encode bs ↔ as <+: bs := by
  constructor
  · rintro ⟨rest, h⟩
    induction as generalizing bs with
    | nil => exact List.nil_prefix
    | cons a as ih =>
      cases bs with
      | nil =>
        obtain ⟨x, xs, hx⟩ := encodeChar_cons a
        rw [encode_cons, hx] at h
        cases h
      | cons b bs =>
        rw [encode_cons, encode_cons, List.append_assoc] at h
        have hdecode := congrArg decodeChar? h
        rw [decodeChar?_encodeChar, decodeChar?_encodeChar] at hdecode
        simp only [Option.some.injEq, Prod.mk.injEq] at hdecode
        obtain ⟨rfl, hrest⟩ := hdecode
        exact List.cons_prefix_cons.mpr ⟨rfl, ih hrest⟩
  · rintro ⟨rest, rfl⟩
    exact ⟨encode rest, (encode_append as rest).symm⟩

end Segments.Text
