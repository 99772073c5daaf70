import Segments.Json.Decode
import Segments.Json.Scan
import Segments.Proofs.Encoding

namespace Segments.Json

open Text

inductive Hex : Bytes → Nat → Prop
  | mk {a b c d : UInt8} {w x y z : Nat} : hexOf? a = some w → hexOf? b = some x →
      hexOf? c = some y → hexOf? d = some z → Hex [a, b, c, d] (((w * 16 + x) * 16 + y) * 16 + z)

/-- The letters that may follow a backslash and what they stand for there. -/
def escapes : List (UInt8 × UInt8) :=
  [(34, 34), (92, 92), (47, 47), (98, 8), (102, 12), (110, 10), (114, 13), (116, 9)]

inductive Piece : Bytes → Bytes → Prop
  | plain {b : UInt8} : ¬ b < 32 → b ≠ 34 → b ≠ 92 → Piece [b] [b]
  | escape {e b : UInt8} : (e, b) ∈ escapes → Piece [92, e] [b]
  | number {hex : Bytes} {n : Nat} : Hex hex n → ¬ (0xD800 ≤ n ∧ n ≤ 0xDFFF) →
      Piece (92 :: 117 :: hex) (encodeChar (Char.ofNat n))
  | pair {high low : Bytes} {m n : Nat} : Hex high m → 0xD800 ≤ m ∧ m ≤ 0xDBFF → Hex low n →
      0xDC00 ≤ n ∧ n ≤ 0xDFFF → Piece (92 :: 117 :: (high ++ 92 :: 117 :: low))
        (encodeChar (Char.ofNat ((m - 0xD800) * 1024 + (n - 0xDC00) + 0x10000)))

/-- A quoted text after its opening quote, and the bytes that it stands for. -/
inductive Pieces : Bytes → Bytes → Prop
  | close : Pieces [34] []
  | piece {bs cs more ds : Bytes} : Piece bs cs → Pieces more ds → Pieces (bs ++ more) (cs ++ ds)

def Writes (bs : Bytes) (s : String) : Prop :=
  Pieces bs (encode s.toList)

theorem scanHex_append {hex : Bytes} {n : Nat} (h : Hex hex n) (rest : Bytes) :
    scanHex (hex ++ rest) = .ok (n, rest) := by
  obtain ⟨ha, hb, hc, hd⟩ := h
  simp only [List.cons_append, List.nil_append, scanHex, ha, hb, hc, hd]

theorem hex_of_scanHex {bytes rest : Bytes} {n : Nat} (h : scanHex bytes = .ok (n, rest)) :
    ∃ hex, Hex hex n ∧ bytes = hex ++ rest := by
  unfold scanHex at h
  split at h
  · split at h
    · next ha hb hc hd =>
      cases h
      exact ⟨_, .mk ha hb hc hd, rfl⟩
    · cases h
  · cases h

theorem scanPair_append {low : Bytes} {m n : Nat} (h : Hex low n) (hn : 0xDC00 ≤ n ∧ n ≤ 0xDFFF)
    (rest : Bytes) : scanPair m (92 :: 117 :: (low ++ rest)) =
      .ok (encodeChar (Char.ofNat ((m - 0xD800) * 1024 + (n - 0xDC00) + 0x10000)), rest) := by
  have hrange : ¬ (n < 0xDC00 ∨ n > 0xDFFF) := by omega
  simp [scanPair, scanHex_append h, hrange, bind, Except.bind]

theorem pair_of_scanPair {m : Nat} {bytes cs rest : Bytes} (h : scanPair m bytes = .ok (cs, rest)) :
    ∃ low n, Hex low n ∧ (0xDC00 ≤ n ∧ n ≤ 0xDFFF) ∧ bytes = 92 :: 117 :: (low ++ rest) ∧
      cs = encodeChar (Char.ofNat ((m - 0xD800) * 1024 + (n - 0xDC00) + 0x10000)) := by
  unfold scanPair at h
  split at h
  · cases h
  next b bs =>
  split at h
  · cases h
  next hslash =>
  split at h
  · cases h
  next u more =>
  split at h
  · cases h
  next hletter =>
  obtain ⟨⟨n, after⟩, hhex, hrest⟩ := bind_eq_ok.mp h
  obtain ⟨low, hlow, rfl⟩ := hex_of_scanHex hhex
  simp only [Bool.or_eq_true, decide_eq_true_eq] at hrest
  split at hrest
  · cases hrest
  next hrange =>
  simp only [Except.ok.injEq, Prod.mk.injEq] at hrest
  obtain ⟨rfl, rfl⟩ := hrest
  refine ⟨low, n, hlow, by omega, ?_, rfl⟩
  rw [show b = 92 by simpa using hslash, show u = 117 by simpa using hletter]

theorem scanEscape_ok {bytes rest : Bytes} {n : Nat} (h : scanHex bytes = .ok (n, rest)) :
    scanEscape (117 :: bytes) =
      if 0xDC00 ≤ n && n ≤ 0xDFFF then .error (.before .loneSurrogate rest)
      else if n < 0xD800 || n > 0xDBFF then .ok (encodeChar (Char.ofNat n), rest)
      else scanPair n rest := by
  show scanHex bytes >>= _ = _
  rw [h]
  rfl

theorem scanEscape_append {bs cs : Bytes} (h : Piece (92 :: bs) cs) (rest : Bytes) :
    scanEscape (bs ++ rest) = .ok (cs, rest) := by
  generalize hall : 92 :: bs = all at h
  cases h with
  | plain hcontrol hquote hslash =>
    cases hall
    exact absurd rfl hslash
  | @escape e b he =>
    cases hall
    simp only [escapes, List.mem_cons, Prod.mk.injEq, List.not_mem_nil, or_false] at he
    rcases he with ⟨rfl, rfl⟩ | ⟨rfl, rfl⟩ | ⟨rfl, rfl⟩ | ⟨rfl, rfl⟩ | ⟨rfl, rfl⟩ | ⟨rfl, rfl⟩ |
      ⟨rfl, rfl⟩ | ⟨rfl, rfl⟩ <;> rfl
  | @number hex n hhex hn =>
    cases hall
    have hlone : ¬ (0xDC00 ≤ n ∧ n ≤ 0xDFFF) := by omega
    have hplain : n < 0xD800 ∨ 0xDBFF < n := by omega
    rw [List.cons_append, scanEscape_ok (scanHex_append hhex rest)]
    simp [hlone, hplain]
  | @pair high low m n hhigh hm hlow hn =>
    cases hall
    have hlone : ¬ (0xDC00 ≤ m ∧ m ≤ 0xDFFF) := by omega
    have hplain : ¬ (m < 0xD800 ∨ 0xDBFF < m) := by omega
    rw [List.cons_append, List.append_assoc, scanEscape_ok (scanHex_append hhigh _)]
    simp [hlone, hplain, scanPair_append hlow hn]

theorem number_of_scanEscape {bytes cs rest : Bytes} (h : scanEscape (117 :: bytes) = .ok (cs, rest)) :
    ∃ bs, Piece (92 :: 117 :: bs) cs ∧ bytes = bs ++ rest := by
  obtain ⟨⟨n, more⟩, hhex, -⟩ := bind_eq_ok.mp (show scanHex bytes >>= _ = .ok (cs, rest) from h)
  obtain ⟨hex, hn, rfl⟩ := hex_of_scanHex hhex
  rw [scanEscape_ok hhex] at h
  simp only [Bool.and_eq_true, decide_eq_true_eq, Bool.or_eq_true] at h
  split at h
  · cases h
  split at h
  · cases h
    exact ⟨hex, .number hn (by omega), rfl⟩
  · obtain ⟨low, m, hlow, hm, hmore, hcs⟩ := pair_of_scanPair h
    rw [hmore, hcs]
    exact ⟨hex ++ 92 :: 117 :: low, .pair hn (by omega) hlow hm, by
      rw [List.append_assoc, List.cons_append, List.cons_append]⟩

theorem escape_of_scanEscape {e : UInt8} {bytes cs rest : Bytes} (hletter : e ≠ 117)
    (h : scanEscape (e :: bytes) = .ok (cs, rest)) : ∃ b, (e, b) ∈ escapes ∧ cs = [b] ∧ bytes = rest := by
  simp only [scanEscape, Bool.or_eq_true, beq_iff_eq, hletter, if_false] at h
  split at h
  · next he =>
    cases h
    refine ⟨e, ?_, rfl, rfl⟩
    rcases he with (rfl | rfl) | rfl <;> decide
  -- each of the other letters stands for a control character
  iterate 5
    split at h
    · next he =>
      cases h
      subst he
      exact ⟨_, by decide, rfl, rfl⟩
  cases h

theorem piece_of_scanEscape {bytes cs rest : Bytes} (h : scanEscape bytes = .ok (cs, rest)) :
    ∃ bs, Piece (92 :: bs) cs ∧ bytes = bs ++ rest := by
  cases bytes with
  | nil => cases h
  | cons e bytes =>
    by_cases hletter : e = 117
    · subst hletter
      obtain ⟨bs, hpiece, rfl⟩ := number_of_scanEscape h
      exact ⟨117 :: bs, hpiece, rfl⟩
    · obtain ⟨b, hb, rfl, rfl⟩ := escape_of_scanEscape hletter h
      exact ⟨[e], .escape hb, rfl⟩

theorem Piece.length_pos {bs cs : Bytes} (h : Piece bs cs) : 0 < bs.length := by
  cases h <;> simp

theorem scanQuoted_piece {bs cs : Bytes} (h : Piece bs cs) (fuel : Nat) (done rest : Bytes) :
    scanQuoted (fuel + 1) done (bs ++ rest) = scanQuoted fuel (cs.reverse ++ done) rest := by
  cases bs with
  | nil => exact absurd h.length_pos (Nat.lt_irrefl 0)
  | cons b bs =>
    by_cases hslash : b = 92
    · subst hslash
      have hescape := scanEscape_append h rest
      simp only [List.cons_append, scanQuoted, hescape]
      rfl
    · cases h with
      | plain hcontrol hquote hother =>
        simp only [List.cons_append, List.nil_append, scanQuoted, beq_iff_eq, hquote, hslash, hcontrol,
          if_false]
        rfl
      | escape | number | pair => exact absurd rfl hslash

/-- Each piece takes one step of fuel and has a byte at least. -/
theorem scanQuoted_append {bs cs : Bytes} (h : Pieces bs cs) {fuel : Nat} (hfuel : bs.length ≤ fuel)
    (done rest : Bytes) : scanQuoted fuel done (bs ++ rest) = .ok (done.reverse ++ cs, rest) := by
  induction h generalizing fuel done with
  | close =>
    cases fuel with
    | zero => cases hfuel
    | succ fuel => simp [scanQuoted]
  | @piece bs cs more ds hpiece _ ih =>
    have hpos := hpiece.length_pos
    rw [List.length_append] at hfuel
    cases fuel with
    | zero => omega
    | succ fuel =>
      rw [List.append_assoc, scanQuoted_piece hpiece, ih (by omega), List.reverse_append,
        List.reverse_reverse, List.append_assoc]

/-- What is scanned as a quoted text is made of pieces. -/
theorem pieces_of_scanQuoted {fuel : Nat} {done bytes out rest : Bytes}
    (h : scanQuoted fuel done bytes = .ok (out, rest)) :
    ∃ bs cs, Pieces bs cs ∧ bytes = bs ++ rest ∧ out = done.reverse ++ cs := by
  induction fuel generalizing done bytes with
  | zero => cases h
  | succ fuel ih =>
    cases bytes with
    | nil => cases h
    | cons b bytes =>
      simp only [scanQuoted, beq_iff_eq] at h
      split at h
      · next hquote =>
        cases h
        exact ⟨[34], [], .close, by rw [hquote]; rfl, (List.append_nil _).symm⟩
      split at h
      · next hslash =>
        obtain ⟨⟨cs, more⟩, hescape, hrest⟩ := bind_eq_ok.mp h
        obtain ⟨bs, hpiece, rfl⟩ := piece_of_scanEscape hescape
        obtain ⟨bs', ds, hpieces, rfl, rfl⟩ := ih hrest
        exact ⟨_, _, .piece hpiece hpieces, by rw [hslash]; simp, by simp⟩
      split at h
      · cases h
      · next hquote hslash hcontrol =>
        obtain ⟨bs, cs, hpieces, rfl, rfl⟩ := ih h
        exact ⟨_, _, .piece (.plain hcontrol hquote hslash) hpieces, rfl, by simp⟩

/-- What is written as a text is read as it, whatever follows. -/
theorem scanText_append {bs : Bytes} {s : String} (h : Writes bs s) (rest : Bytes) :
    scanText (bs ++ rest) = .ok (s, rest) := by
  have hquoted : scanQuoted ((bs ++ rest).length + 1) [] (bs ++ rest) = .ok (encode s.toList, rest) :=
    scanQuoted_append h (by simp; omega) [] rest
  have hdecode : decode? (encode s.toList) = some s.toList := decode?_eq_some.mpr rfl
  unfold scanText
  simp only [hquoted, bind, Except.bind, hdecode, String.ofList_toList]

theorem writes_of_scanText {bytes rest : Bytes} {s : String} (h : scanText bytes = .ok (s, rest)) :
    ∃ bs, Writes bs s ∧ bytes = bs ++ rest := by
  obtain ⟨⟨out, more⟩, hquoted, hrest⟩ := bind_eq_ok.mp h
  obtain ⟨bs, cs, hpieces, rfl, hout⟩ := pieces_of_scanQuoted hquoted
  dsimp only at hrest
  split at hrest
  · next chars hdecode =>
    cases hrest
    have hcs : cs = encode chars := hout.symm.trans (decode?_eq_some.mp hdecode)
    refine ⟨bs, ?_, rfl⟩
    rw [Writes, String.toList_ofList, ← hcs]
    exact hpieces
  · cases hrest

end Segments.Json
