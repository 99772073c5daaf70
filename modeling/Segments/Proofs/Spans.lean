import Segments.Proofs.Encoding
import Segments.Proofs.Trimming

namespace Segments.Text

theorem length_encodeChar (c : Char) : (encodeChar c).length = c.utf8Size := by
  have hval : c.val.toNat = c.toNat := rfl
  rcases encodeChar_cases c with ⟨hc, h⟩ | ⟨p, q, hp, hq, hc, hsum, h⟩ |
    ⟨p, q, r, hp, hq, hr, hc, hsum, h⟩ | ⟨p, q, r, s, hp, hq, hr, hs, hc, hsum, h⟩
  all_goals
    rw [h]
    symm
  · refine Char.utf8Size_eq_one_iff.mpr ?_
    simp only [UInt32.le_iff_toNat_le, UInt32.reduceToNat]
    omega
  · refine Char.utf8Size_eq_two_iff.mpr ?_
    simp only [UInt32.le_iff_toNat_le, UInt32.lt_iff_toNat_lt, UInt32.reduceToNat]
    omega
  · refine Char.utf8Size_eq_three_iff.mpr ?_
    simp only [UInt32.le_iff_toNat_le, UInt32.lt_iff_toNat_lt, UInt32.reduceToNat]
    omega
  · refine Char.utf8Size_eq_four_iff.mpr ?_
    simp only [UInt32.lt_iff_toNat_lt, UInt32.reduceToNat]
    omega

theorem length_encode (cs : List Char) : (encode cs).length = byteSize cs := by
  have hsum : ∀ n, cs.foldl (fun n c => n + c.utf8Size) n = n + (encode cs).length := by
    induction cs with
    | nil => simp [encode]
    | cons c cs ih =>
      intro n
      rw [List.foldl_cons, ih, encode_cons, List.length_append, length_encodeChar, Nat.add_assoc]
  simp [byteSize, hsum]

theorem encode_flatten (parts : List (List Char)) :
    encode parts.flatten = (parts.map encode).flatten := by
  induction parts with
  | nil => rfl
  | cons part parts ih => rw [List.flatten_cons, encode_append, ih, List.map_cons, List.flatten_cons]

@[simp] theorem byteSize_nil : byteSize [] = 0 := rfl

@[simp] theorem byteSize_append (as bs : List Char) :
    byteSize (as ++ bs) = byteSize as + byteSize bs := by
  rw [← length_encode, ← length_encode, ← length_encode, encode_append, List.length_append]

theorem byteSize_eq_zero {cs : List Char} : byteSize cs = 0 ↔ cs = [] := by
  constructor
  · intro h
    have hlength := length_le_encode cs
    rw [length_encode, h] at hlength
    exact List.length_eq_zero_iff.mp (Nat.le_zero.mp hlength)
  · rintro rfl
    rfl

/-- The byte at the offset is the first of a character, or the offset is the end. -/
def isBoundary (bs : Bytes) (i : Nat) : Bool :=
  match bs[i]? with
  | some b => !isTail b
  | none => i == bs.length

/-- The offset is where one character of the text ends and the next begins, or an end. -/
def Between (cs : List Char) (i : Nat) : Prop :=
  ∃ before after, cs = before ++ after ∧ i = byteSize before

/-- What a look at one byte tells is whether a character would be cut through. -/
theorem isBoundary_encode {cs : List Char} {i : Nat} :
    isBoundary (encode cs) i = true ↔ Between cs i := by
  induction cs generalizing i with
  | nil =>
    have hempty : isBoundary (encode []) i = (i == 0) := rfl
    rw [hempty, beq_iff_eq]
    constructor
    · intro h
      exact ⟨[], [], rfl, h⟩
    · rintro ⟨before, after, hnil, rfl⟩
      rw [(List.append_eq_nil_iff.mp hnil.symm).1, byteSize_nil]
  | cons c cs ih =>
    obtain ⟨b, bs, hchar, hfirst, htails⟩ := encodeChar_tails c
    have henc : encode (c :: cs) = b :: (bs ++ encode cs) := by
      rw [encode_cons, hchar, List.cons_append]
    have hsize : ∀ ds, byteSize (c :: ds) = bs.length + 1 + byteSize ds := by
      intro ds
      rw [← length_encode, ← length_encode, encode_cons, hchar, List.length_append, List.length_cons]
    rw [henc]
    cases i with
    | zero =>
      simp only [isBoundary, List.getElem?_cons_zero, hfirst, Bool.not_false, true_iff]
      exact ⟨[], c :: cs, rfl, rfl⟩
    | succ i =>
      by_cases hi : i < bs.length
      · -- a byte of this character that is not its first
        have hbyte : isTail bs[i] = true := htails _ (List.getElem_mem hi)
        simp only [isBoundary, List.getElem?_cons_succ, List.getElem?_append_left hi,
          List.getElem?_eq_getElem hi, hbyte, Bool.not_true, Bool.false_eq_true, false_iff]
        rintro ⟨before, after, hcs, hsum⟩
        cases before with
        | nil => cases hsum
        | cons d before =>
          obtain ⟨rfl, -⟩ := List.cons.inj hcs
          rw [hsize] at hsum
          omega
      · obtain ⟨j, rfl⟩ := Nat.exists_eq_add_of_le (Nat.le_of_not_lt hi)
        have hshift : isBoundary (b :: (bs ++ encode cs)) (bs.length + j + 1) =
            isBoundary (encode cs) j := by
          have hlength : (bs.length + j + 1 == (b :: (bs ++ encode cs)).length) =
              (j == (encode cs).length) := by
            rw [Bool.eq_iff_iff]
            simp only [List.length_cons, List.length_append, beq_iff_eq]
            omega
          simp only [isBoundary, List.getElem?_cons_succ, hlength]
          rw [List.getElem?_append_right (Nat.le_add_right _ _), Nat.add_sub_cancel_left]
        rw [hshift, ih]
        constructor
        · rintro ⟨before, after, rfl, rfl⟩
          exact ⟨c :: before, after, rfl, by rw [hsize]; omega⟩
        · rintro ⟨before, after, hcs, hsum⟩
          cases before with
          | nil => cases hsum
          | cons d before =>
            obtain ⟨rfl, hrest⟩ := List.cons.inj hcs
            rw [hsize] at hsum
            exact ⟨before, after, hrest, by omega⟩

/-- A part of a text, from the byte at `start` up to the byte before `stop`. -/
structure Span where
  start : Nat
  stop : Nat
  deriving DecidableEq, Repr

namespace Span

def whole (bs : Bytes) : Span :=
  ⟨0, bs.length⟩

def length (w : Span) : Nat :=
  w.stop - w.start

def bytes (bs : Bytes) (w : Span) : Bytes :=
  (bs.drop w.start).take w.length

def chars (bs : Bytes) (w : Span) : List Char :=
  (decode? (w.bytes bs)).getD []

/-- The part from one offset in a part up to another. `none` stands for the end of the program:
the offsets are out of order or out of bounds, or one is inside a character. -/
def slice? (bs : Bytes) (w : Span) (i j : Nat) : Option Span :=
  if i ≤ j && isBoundary (w.bytes bs) i && isBoundary (w.bytes bs) j then
    some ⟨w.start + i, w.start + j⟩
  else none

theorem eq_of_slice? {bs : Bytes} {w v : Span} {i j : Nat} (h : w.slice? bs i j = some v) :
    v = ⟨w.start + i, w.start + j⟩ := by
  unfold slice? at h
  split at h
  · exact (Option.some.inj h).symm
  · cases h

def find? (bs : Bytes) (w : Span) (p : Char → Bool) : Option Nat :=
  if (w.chars bs).any p then some (byteSize ((w.chars bs).takeWhile (!p ·))) else none

def trimStart (bs : Bytes) (w : Span) : Span :=
  { w with start := w.start + byteSize ((w.chars bs).takeWhile isBlank) }

def trimEnd (bs : Bytes) (w : Span) : Span :=
  { w with stop := w.start + byteSize (Text.trimEnd (w.chars bs)) }

def trim (bs : Bytes) (w : Span) : Span :=
  (w.trimStart bs).trimEnd bs

/-- In the text, the span is that of `part`, and `before` is what comes before it. -/
structure Shows (w : Span) (cs before part : List Char) : Prop where
  text : before ++ part <+: cs
  start : w.start = byteSize before
  stop : w.stop = byteSize (before ++ part)

theorem shows_whole (cs : List Char) : (whole (encode cs)).Shows cs [] cs :=
  ⟨List.prefix_refl cs, rfl, length_encode cs⟩

namespace Shows

variable {w : Span} {cs before part lead body rest tail as xs ys : List Char}

theorem length (h : w.Shows cs before part) : w.length = byteSize part := by
  rw [Span.length, h.start, h.stop, byteSize_append, Nat.add_sub_cancel_left]

theorem bytes (h : w.Shows cs before part) : w.bytes (encode cs) = encode part := by
  obtain ⟨after, rfl⟩ := h.text
  rw [Span.bytes, h.length, h.start, ← length_encode, ← length_encode, encode_append, encode_append,
    List.append_assoc, List.drop_left, List.take_left]

theorem chars (h : w.Shows cs before part) : w.chars (encode cs) = part := by
  rw [Span.chars, h.bytes, decode?_eq_some.mpr rfl]
  rfl

/-- A part of a part. -/
theorem within (h : w.Shows cs before (as ++ (xs ++ ys))) {v : Span}
    (hstart : v.start = w.start + byteSize as)
    (hstop : v.stop = w.start + byteSize (as ++ xs)) : v.Shows cs (before ++ as) xs := by
  refine ⟨?_, ?_, ?_⟩
  · have hprefix : before ++ as ++ xs <+: before ++ (as ++ (xs ++ ys)) :=
      ⟨ys, by simp only [List.append_assoc]⟩
    exact hprefix.trans h.text
  · rw [hstart, h.start, byteSize_append]
  · rw [hstop, h.start, List.append_assoc, byteSize_append before]

/-- What is refused are offsets that are out of order, out of bounds or inside a character. -/
theorem isSome_slice? (h : w.Shows cs before part) {i j : Nat} :
    (w.slice? (encode cs) i j).isSome = true ↔ i ≤ j ∧ Between part i ∧ Between part j := by
  rw [← isBoundary_encode, ← isBoundary_encode, Span.slice?, h.bytes, Option.isSome_ite]
  simp only [Bool.and_eq_true, decide_eq_true_eq, and_assoc]

/-- A part begins and ends where characters do, so that it can be cut out. -/
theorem slice? (h : w.Shows cs before (as ++ (xs ++ ys))) :
    ∃ v, w.slice? (encode cs) (byteSize as) (byteSize (as ++ xs)) = some v ∧
      v.Shows cs (before ++ as) xs := by
  have horder : byteSize as ≤ byteSize (as ++ xs) := by simp
  have hto : Between (as ++ (xs ++ ys)) (byteSize (as ++ xs)) :=
    ⟨as ++ xs, ys, (List.append_assoc _ _ _).symm, rfl⟩
  obtain ⟨v, hv⟩ := Option.isSome_iff_exists.mp
    (h.isSome_slice?.mpr ⟨horder, ⟨as, xs ++ ys, rfl, rfl⟩, hto⟩)
  refine ⟨v, hv, ?_⟩
  rw [eq_of_slice? hv]
  exact h.within rfl rfl

/-- The size of a run of one kind of character that is as long as can be. -/
theorem find? {p : Char → Bool} {run : List Char} (h : w.Shows cs before (run ++ rest))
    (hrun : ∀ c ∈ run, p c = false) (hrest : ∀ c, rest.head? = some c → p c = true) :
    (w.find? (encode cs) p).getD w.length = byteSize run := by
  rw [Span.find?, h.chars, h.length]
  cases rest with
  | nil =>
    have hnone : (run ++ []).any p = false := by simpa using hrun
    rw [hnone, List.append_nil]
    rfl
  | cons c rest =>
    have hsome : (run ++ c :: rest).any p = true := by simp [hrest c rfl]
    have htake : (run ++ c :: rest).takeWhile (!p ·) = run :=
      takeWhile_run_append (by simpa using hrun) (by simpa using hrest)
    rw [hsome, htake]
    rfl

theorem trimStart (h : w.Shows cs before (lead ++ rest)) (hlead : Blanks lead)
    (hrest : ∀ c, rest.head? = some c → isBlank c = false) :
    (w.trimStart (encode cs)).Shows cs (before ++ lead) rest := by
  have htake : (w.chars (encode cs)).takeWhile isBlank = lead := by
    rw [h.chars, takeWhile_run_append hlead hrest]
  have hwhole : w.Shows cs before (lead ++ (rest ++ [])) := by simpa using h
  refine hwhole.within ?_ ?_
  · rw [Span.trimStart, htake]
  · rw [Span.trimStart, h.stop, h.start, byteSize_append before]

theorem trimEnd (h : w.Shows cs before (body ++ tail))
    (hbody : ∀ c, body.getLast? = some c → isBlank c = false) (htail : Blanks tail) :
    (w.trimEnd (encode cs)).Shows cs before body := by
  have htrim : Text.trimEnd (w.chars (encode cs)) = body := by
    rw [h.chars, trimEnd_append hbody htail]
  have hwhole : w.Shows cs before ([] ++ (body ++ tail)) := h
  have hpart : (w.trimEnd (encode cs)).Shows cs (before ++ []) body := by
    refine hwhole.within rfl ?_
    rw [Span.trimEnd, htrim]
    rfl
  simpa using hpart

theorem trim (h : w.Shows cs before (lead ++ (body ++ tail))) (hlead : Blanks lead)
    (hrest : ∀ c, (body ++ tail).head? = some c → isBlank c = false)
    (hbody : Trimmed body) (htail : Blanks tail) :
    (w.trim (encode cs)).Shows cs (before ++ lead) body :=
  (h.trimStart hlead hrest).trimEnd hbody.last htail

end Shows

end Span

def piecesFrom (bs : Bytes) (start : Nat) : List Nat → List Bytes
  | [] => [bs.drop start]
  | i :: is => Span.bytes bs ⟨start, i⟩ :: piecesFrom bs i is

def pieces (bs : Bytes) (cuts : List Nat) : List Bytes :=
  piecesFrom bs 0 cuts

/-- Offsets at which a text can be cut from left to right: they are in order and in bounds, none is
inside a character, and nothing gets lost. -/
structure Cuts (cs : List Char) (cuts : List Nat) : Prop where
  sorted : cuts.Pairwise (· ≤ ·)
  bounded : ∀ i ∈ cuts, i ≤ (encode cs).length
  between : ∀ i ∈ cuts, Between cs i
  whole : (pieces (encode cs) cuts).flatten = encode cs

/-- Behind `n` bytes, each offset is where the next of the parts ends. -/
inductive Divides : Nat → List Nat → List (List Char) → Prop
  | last {n : Nat} {part : List Char} : Divides n [] [part]
  | cut {n i : Nat} {part : List Char} {cuts : List Nat} {parts : List (List Char)} :
      i = n + byteSize part → Divides i cuts parts → Divides n (i :: cuts) (part :: parts)

namespace Divides

variable {n : Nat} {cuts : List Nat} {parts : List (List Char)}

theorem le (h : Divides n cuts parts) : ∀ i ∈ cuts, n ≤ i := by
  induction h with
  | last => simp
  | cut hi _ ih =>
    intro j hj
    rcases List.mem_cons.mp hj with rfl | hj
    · omega
    · exact Nat.le_trans (by omega) (ih j hj)

theorem sorted (h : Divides n cuts parts) : cuts.Pairwise (· ≤ ·) := by
  induction h with
  | last => exact .nil
  | cut _ hrest ih => exact .cons hrest.le ih

theorem between (h : Divides n cuts parts) {before : List Char} (hn : n = byteSize before) :
    ∀ i ∈ cuts, Between (before ++ parts.flatten) i := by
  induction h generalizing before with
  | last => simp
  | @cut n i part cuts parts hi _ ih =>
    have hsize : i = byteSize (before ++ part) := by rw [hi, hn, byteSize_append]
    rw [List.flatten_cons, ← List.append_assoc]
    intro j hj
    rcases List.mem_cons.mp hj with rfl | hj
    · exact ⟨_, _, rfl, hsize⟩
    · exact ih hsize j hj

theorem piecesFrom (h : Divides n cuts parts) {before : List Char} (hn : n = byteSize before) :
    piecesFrom (encode (before ++ parts.flatten)) n cuts = parts.map encode := by
  induction h generalizing before with
  | @last n part =>
    rw [Text.piecesFrom, hn, ← length_encode, encode_append, List.drop_left]
    simp
  | @cut n i part cuts parts hi _ ih =>
    have hsize : i = byteSize (before ++ part) := by rw [hi, hn, byteSize_append]
    have hspan : (Span.mk n i).Shows (before ++ (part :: parts).flatten) before part :=
      ⟨⟨parts.flatten, by rw [List.flatten_cons, List.append_assoc]⟩, hn, hsize⟩
    rw [Text.piecesFrom, hspan.bytes, List.flatten_cons, ← List.append_assoc, ih hsize,
      List.map_cons]

theorem pieces (h : Divides 0 cuts parts) {cs : List Char} (hcs : cs = parts.flatten) :
    pieces (encode cs) cuts = parts.map encode := by
  subst hcs
  exact h.piecesFrom byteSize_nil.symm

/-- The ends of the parts of a text are places where it can be cut. -/
theorem toCuts (h : Divides 0 cuts parts) {cs : List Char} (hcs : cs = parts.flatten) :
    Cuts cs cuts := by
  have hbetween : ∀ i ∈ cuts, Between cs i := hcs ▸ h.between byteSize_nil.symm
  refine ⟨h.sorted, ?_, hbetween, ?_⟩
  · intro i hi
    obtain ⟨before, after, htext, rfl⟩ := hbetween i hi
    rw [htext, length_encode, byteSize_append]
    exact Nat.le_add_right _ _
  · rw [h.pieces hcs, hcs, encode_flatten]

end Divides

end Segments.Text
