import Segments.Proofs.JsonNumbers
import Segments.Proofs.MemberOrder
import Segments.Proofs.TextGrammar

namespace Segments.Json

open Text

theorem Pieces.plain {bs more ds : Bytes} (h : Pieces more ds)
    (hbs : ∀ b ∈ bs, ¬ b < 32 ∧ b ≠ 34 ∧ b ≠ 92) : Pieces (bs ++ more) (bs ++ ds) := by
  induction bs with
  | nil => exact h
  | cons b bs ih =>
    obtain ⟨hcontrol, hquote, hslash⟩ := hbs b List.mem_cons_self
    have hrest := ih fun c hc => hbs c (List.mem_cons_of_mem b hc)
    have hpiece : Piece [b] [b] := .plain hcontrol hquote hslash
    show Pieces ([b] ++ (bs ++ more)) ([b] ++ (bs ++ ds))
    exact .piece hpiece hrest

/-- The number of a control character in four hexadecimal digits. -/
theorem hex_control {n : Nat} (h : n < 32) : Hex (encode ('0' :: '0' ::
    (if n < 16 then '0' :: hexDigits n else hexDigits n))) n := by
  have hall : (List.range 32).all (fun n => (scanHex (encode ('0' :: '0' ::
      (if n < 16 then '0' :: hexDigits n else hexDigits n)))).toOption == some (n, [])) = true := by
    decide
  have hscan := List.all_eq_true.mp hall n (List.mem_range.mpr h)
  cases hhex : scanHex (encode ('0' :: '0' ::
      (if n < 16 then '0' :: hexDigits n else hexDigits n))) with
  | error e =>
    rw [hhex] at hscan
    cases hscan
  | ok out =>
    rw [hhex] at hscan
    have hout : out = (n, []) := by simpa [Except.toOption] using hscan
    rw [hout] at hhex
    obtain ⟨hex, hn, hbytes⟩ := hex_of_scanHex hhex
    rw [hbytes, List.append_nil]
    exact hn

theorem pieces_escapeChar (c : Char) {more ds : Bytes} (h : Pieces more ds) :
    Pieces (encode (escapeChar c) ++ more) (encodeChar c ++ ds) := by
  have hletter : ∀ {e b : UInt8}, (e, b) ∈ escapes → Pieces ([92, e] ++ more) ([b] ++ ds) :=
    fun he => .piece (.escape he) h
  unfold escapeChar
  by_cases hquote : c = '"'
  · subst hquote
    exact hletter (e := 34) (b := 34) (by decide)
  by_cases hslash : c = '\\'
  · subst hslash
    exact hletter (e := 92) (b := 92) (by decide)
  by_cases hline : c = '\n'
  · subst hline
    exact hletter (e := 110) (b := 10) (by decide)
  by_cases hreturn : c = '\r'
  · subst hreturn
    exact hletter (e := 114) (b := 13) (by decide)
  by_cases htab : c = '\t'
  · subst htab
    exact hletter (e := 116) (b := 9) (by decide)
  by_cases hback : c = '\x08'
  · subst hback
    exact hletter (e := 98) (b := 8) (by decide)
  by_cases hform : c = '\x0c'
  · subst hform
    exact hletter (e := 102) (b := 12) (by decide)
  have hnumbers : c.toNat ≠ 8 ∧ c.toNat ≠ 12 :=
    ⟨fun heq => hback (Char.toNat_inj.mp heq), fun heq => hform (Char.toNat_inj.mp heq)⟩
  simp only [beq_iff_eq, hquote, hslash, hline, hreturn, htab, hnumbers, if_false]
  by_cases hcontrol : c.toNat < 32
  · rw [if_pos hcontrol]
    have hsurrogate : ¬ (0xD800 ≤ c.toNat ∧ c.toNat ≤ 0xDFFF) := by omega
    have hpiece := Piece.number (hex_control hcontrol) hsurrogate
    rw [Char.ofNat_toNat] at hpiece
    exact .piece hpiece h
  · rw [if_neg hcontrol]
    have hone : encode [c] = encodeChar c := List.append_nil _
    rw [hone]
    refine h.plain fun b hb => ?_
    have hne : ∀ d : Char, d.toNat < 128 → c ≠ d → b.toNat ≠ d.toNat := by
      intro d hd hother heq
      rcases mem_encodeChar hb with hsame | hhigh
      · exact hother (Char.toNat_inj.mp (hsame.symm.trans heq))
      · omega
    refine ⟨?_, ?_, ?_⟩
    · rw [UInt8.lt_iff_toNat_lt]
      show ¬ b.toNat < 32
      rcases mem_encodeChar hb with hsame | hhigh <;> omega
    · rintro rfl
      exact hne '"' (by decide) hquote rfl
    · rintro rfl
      exact hne '\\' (by decide) hslash rfl

/-- What is written of a text stands for it. -/
theorem writes_quote (s : String) : ∃ bs, encode (quote s) = 34 :: bs ∧ Writes bs s := by
  refine ⟨encode (s.toList.flatMap escapeChar) ++ [34], ?_, ?_⟩
  · show 34 :: encode (s.toList.flatMap escapeChar ++ ['"']) = _
    rw [encode_append]
    rfl
  · have hall : ∀ cs : List Char,
        Pieces (encode (cs.flatMap escapeChar) ++ [34]) (encode cs) := by
      intro cs
      induction cs with
      | nil => exact .close
      | cons c cs ih =>
        rw [List.flatMap_cons, encode_append, List.append_assoc]
        exact pieces_escapeChar c ih
    exact hall s.toList

/-- From these bytes the value is read, and what follows is left, blanks before it apart. -/
def ReadAs (depth : Nat) (bytes : Bytes) (v : Json) : Prop :=
  ∀ more, Ends more → ∃ gap, Gap gap ∧ readValue depth (bytes ++ more) = .ok (v, gap ++ more)

theorem gap_nil : Gap [] := by
  intro b hb
  cases hb

theorem readAs_exact {depth : Nat} {bytes : Bytes} {v : Json}
    (h : ∀ more, Ends more → readValue depth (bytes ++ more) = .ok (v, more)) :
    ReadAs depth bytes v :=
  fun more hmore => ⟨[], gap_nil, h more hmore⟩

theorem readAs_null (depth : Nat) : ReadAs (depth + 1) (encode (writeChars .null)) .null :=
  readAs_exact fun more _ =>
    congrArg (Except.map (Json.null, ·)) (finishWord_append [117, 108, 108] more)

theorem readAs_boolean (depth : Nat) (b : Bool) :
    ReadAs (depth + 1) (encode (writeChars (.boolean b))) (.boolean b) := by
  apply readAs_exact
  intro more _
  cases b with
  | true => exact congrArg (Except.map (Json.boolean true, ·)) (finishWord_append [114, 117, 101] more)
  | false =>
    exact congrArg (Except.map (Json.boolean false, ·)) (finishWord_append [97, 108, 115, 101] more)

theorem readAs_text (depth : Nat) (s : String) :
    ReadAs (depth + 1) (encode (writeChars (.text s))) (.text s) := by
  apply readAs_exact
  intro more _
  obtain ⟨bs, hquote, hwrites⟩ := writes_quote s
  show readValue (depth + 1) (encode (quote s) ++ more) = _
  rw [hquote]
  exact congrArg (Except.map fun read : String × Bytes => (Json.text read.1, read.2))
    (scanText_append hwrites more)

theorem readValue_digit {b : UInt8} (h : isDigitByte b = true) (depth : Nat) (bytes : Bytes) :
    readValue (depth + 1) (b :: bytes) =
      (scanNumber false (b :: bytes)).map fun (n, rest) => (.number n, rest) := by
  have hne : ∀ c, isDigitByte c = false → b ≠ c := by
    rintro c hc rfl
    rw [h] at hc
    cases hc
  have hink : isBlankByte b = false := by
    simp [isBlankByte, hne 32 rfl, hne 10 rfl, hne 9 rfl, hne 13 rfl]
  simp [readValue, skipBlanks_ink hink, h, hne 110 rfl, hne 116 rfl, hne 102 rfl, hne 45 rfl]

theorem readAs_natural (depth : Nat) {n : Nat} (h : n ≤ maxNatural) :
    ReadAs (depth + 1) (encode (Number.natural n).write) (.number (.natural n)) := by
  apply readAs_exact
  intro more hmore
  have hdigits : (Number.natural n).write = Nat.toDigits 10 n := by
    simp [Number.write, Nat.toList_repr]
  have hscan := (stable_scanNumber (scanNumber_toDigits false h)).2 more hmore
  rw [hdigits]
  cases hds : Nat.toDigits 10 n with
  | nil => exact absurd hds Nat.toDigits_ne_nil
  | cons d ds =>
    have hd : isDigit d = true := digits_toDigits n d (by rw [hds]; exact List.mem_cons_self)
    obtain ⟨b, hb, hdigit, -⟩ := encodeChar_digit hd
    rw [hds, encode_cons hb] at hscan
    rw [encode_cons hb, List.cons_append, readValue_digit hdigit, ← List.cons_append, hscan]
    rfl

theorem readAs_negative (depth : Nat) {n : Nat} (hpos : 0 < n) (h : n ≤ 0x8000000000000000) :
    ReadAs (depth + 1) (encode (Number.negative n).write) (.number (.negative n)) := by
  apply readAs_exact
  intro more hmore
  have hdigits : (Number.negative n).write = '-' :: Nat.toDigits 10 n := by
    simp [Number.write, Nat.toList_repr]
  have hwhole : wholeNumber true n = .negative n := by
    have hrange : ¬ (n = 0 ∨ 0x8000000000000000 < n) := by omega
    simp [wholeNumber, hrange]
  have hscan := (stable_scanNumber (scanNumber_toDigits true
    (Nat.le_trans h (by decide)))).2 more hmore
  rw [hwhole] at hscan
  rw [hdigits]
  exact congrArg (Except.map fun read : Number × Bytes => (Json.number read.1, read.2)) hscan

theorem readValue_skipBlanks (depth : Nat) (bytes : Bytes) :
    readValue (depth + 1) (skipBlanks bytes) = readValue (depth + 1) bytes := by
  rw [readValue, readValue, skipBlanks_skipBlanks]

theorem skipBlanks_append {bytes rest : Bytes} {b : UInt8} (h : skipBlanks bytes = b :: rest)
    (more : Bytes) : skipBlanks (bytes ++ more) = b :: rest ++ more := by
  obtain ⟨gap, hgap, hbytes, hink⟩ := exists_gap bytes
  rw [h] at hbytes hink
  rw [hbytes, List.append_assoc, List.cons_append]
  exact skipBlanks_gap_ink hgap (hink b rfl) _

theorem ok_of_map {ε α β : Type} {x : Except ε α} {f : α → β} {b : β} (h : x.map f = .ok b) :
    ∃ a, x = .ok a ∧ f a = b := by
  cases x with
  | error e => cases h
  | ok a => exact ⟨a, rfl, Except.ok.inj h⟩

/-- A number is read from its sign and digits. -/
theorem scanNumber_of_readValue {depth : Nat} {b : UInt8} {bytes rest : Bytes} {n : Number}
    (hink : isBlankByte b = false) (h : readValue (depth + 1) (b :: bytes) = .ok (.number n, rest)) :
    b = 45 ∧ scanNumber true bytes = .ok (n, rest) ∨
      isDigitByte b = true ∧ scanNumber false (b :: bytes) = .ok (n, rest) := by
  rw [readValue, skipBlanks_ink hink] at h
  dsimp only at h
  iterate 3
    split at h
    · obtain ⟨_, _, heq⟩ := ok_of_map h
      cases heq
  split at h
  · next hminus =>
    obtain ⟨_, hscan, heq⟩ := ok_of_map h
    cases heq
    exact .inl ⟨beq_iff_eq.mp hminus, hscan⟩
  split at h
  · next hdigit =>
    obtain ⟨_, hscan, heq⟩ := ok_of_map h
    cases heq
    exact .inr ⟨hdigit, hscan⟩
  split at h
  · obtain ⟨_, _, heq⟩ := ok_of_map h
    cases heq
  iterate 2
    split at h
    · split at h
      · cases h
      · obtain ⟨_, _, heq⟩ := ok_of_map h
        cases heq
  cases h

/-- A number that is a whole text is read as well where it is not. -/
theorem readAs_of_read {bytes : Bytes} {n : Number} (h : read bytes = .ok (.number n)) (depth : Nat) :
    ReadAs (depth + 1) bytes (.number n) := by
  obtain ⟨⟨v, rest⟩, hvalue, hrest⟩ := bind_eq_ok.mp h
  intro more hmore
  have hblank : skipBlanks rest = [] ∧ v = .number n := by
    dsimp only at hrest
    split at hrest
    · next hblank => exact ⟨hblank, Except.ok.inj hrest⟩
    · cases hrest
  obtain ⟨hblank, rfl⟩ := hblank
  obtain ⟨gap, hgap, hbytes, hink⟩ := exists_gap bytes
  obtain ⟨trail, htrail, htext, -⟩ := exists_gap rest
  rw [hblank, List.append_nil] at htext
  rw [htext] at hvalue
  refine ⟨trail, htrail, ?_⟩
  rw [show maxDepth = 127 + 1 from rfl, ← readValue_skipBlanks] at hvalue
  rw [← readValue_skipBlanks]
  cases hfirst : skipBlanks bytes with
  | nil =>
    rw [hfirst] at hvalue
    cases hvalue
  | cons b bytes =>
    rw [hfirst] at hvalue hink
    rw [skipBlanks_append hfirst]
    have hb := hink b rfl
    rcases scanNumber_of_readValue hb hvalue with ⟨rfl, hscan⟩ | ⟨hdigit, hscan⟩
    · have hmore := (stable_scanNumber hscan).2 more hmore
      exact congrArg (Except.map fun read : Number × Bytes => (Json.number read.1, read.2)) hmore
    · rw [List.cons_append, readValue_digit hdigit, ← List.cons_append,
        (stable_scanNumber hscan).2 more hmore]
      rfl

/-- A value starts with ink that closes no list. -/
theorem head_of_readValue {depth : Nat} {bytes rest : Bytes} {v : Json}
    (h : readValue depth bytes = .ok (v, rest)) : ∃ b more, skipBlanks bytes = b :: more ∧ b ≠ 93 ∧
      readValue depth (b :: more) = .ok (v, rest) := by
  cases depth with
  | zero => cases h
  | succ depth =>
    rw [← readValue_skipBlanks] at h
    cases hfirst : skipBlanks bytes with
    | nil =>
      rw [hfirst] at h
      cases h
    | cons b more =>
      rw [hfirst] at h
      refine ⟨b, more, rfl, ?_, h⟩
      rintro rfl
      cases h

section List

variable {depth : Nat}

theorem ends_cons {b : UInt8} (h : isDigitByte b = false ∧ b ≠ 46 ∧ isExponentMark b = false)
    (bytes : Bytes) : Ends (b :: bytes) :=
  ends_gap gap_nil h bytes

/-- After an item comes a comma or the closing bracket, and either ends a number. -/
theorem ends_items (items : List Json) (rest : Bytes) :
    Ends (encode (writeItems false items) ++ 93 :: rest) := by
  cases items with
  | nil => exact ends_cons (by decide) rest
  | cons v items => exact ends_cons (b := 44) (by decide) _

theorem readItems_first {value : Scan Json} {fuel : Nat} {bytes more : Bytes} {b : UInt8}
    (hfirst : skipBlanks bytes = b :: more) (hb : b ≠ 93) :
    readItems value (fuel + 1) [] bytes =
      (value (b :: more)).bind fun read => readItems value fuel [read.1] read.2 := by
  rw [readItems, hfirst]
  split
  · next heq => cases heq
  · next heq => exact absurd (List.cons.inj heq).1 hb
  · next heq =>
    cases heq
    rfl

theorem readItems_next {value : Scan Json} {fuel : Nat} {bytes after more : Bytes} {b : UInt8}
    {w : Json} {done : List Json} (hcomma : skipBlanks bytes = 44 :: after)
    (hfirst : skipBlanks after = b :: more) (hb : b ≠ 93) :
    readItems value (fuel + 1) (w :: done) bytes =
      (value (b :: more)).bind fun read => readItems value fuel (read.1 :: w :: done) read.2 := by
  rw [readItems, hcomma]
  split
  · next heq => cases heq
  · next heq => cases heq
  · next heq =>
    cases heq
    rw [List.isEmpty_cons, if_neg Bool.false_ne_true, if_pos (beq_self_eq_true _), hfirst]
    split
    · next heq => cases heq
    · next heq => exact absurd (List.cons.inj heq).1 hb
    · rfl

/-- The items of a list are read one after another, behind those that have been read. -/
theorem readItems_items {items : List Json}
    (h : ∀ v ∈ items, ReadAs depth (encode (writeChars v)) v) {fuel : Nat} (hfuel : items.length < fuel)
    (done : List Json) {gap : Bytes} (hgap : Gap gap) (rest : Bytes) :
    readItems (readValue depth) fuel done
      (gap ++ (encode (writeItems done.isEmpty items) ++ 93 :: rest)) =
        .ok (items.reverse ++ done, rest) := by
  induction items generalizing fuel done gap with
  | nil =>
    cases fuel with
    | zero => cases hfuel
    | succ fuel =>
      have hclose : skipBlanks (gap ++ (encode (writeItems done.isEmpty []) ++ 93 :: rest)) =
          93 :: rest := skipBlanks_gap_ink hgap (by decide) rest
      simp only [readItems, hclose, List.reverse_nil, List.nil_append]
  | cons v items ih =>
    cases fuel with
    | zero => cases hfuel
    | succ fuel =>
      obtain ⟨gap', hgap', hread⟩ := h v List.mem_cons_self _ (ends_items items rest)
      have hrest := ih (fun w hw => h w (List.mem_cons_of_mem v hw))
        (Nat.lt_of_succ_lt_succ hfuel) (v :: done) hgap'
      have hwrite : encode (writeItems done.isEmpty (v :: items)) ++ 93 :: rest =
          encode (if done.isEmpty then [] else [',']) ++ (encode (writeChars v) ++
            (encode (writeItems false items) ++ 93 :: rest)) := by
        simp only [writeItems, encode_append, List.append_assoc]
      have hreverse : (v :: items).reverse ++ done = items.reverse ++ (v :: done) := by simp
      rw [hwrite, hreverse]
      rw [List.isEmpty_cons] at hrest
      cases done with
      | nil =>
        rw [show (encode (if ([] : List Json).isEmpty then [] else [','])) = [] from rfl,
          List.nil_append, ← hrest]
        obtain ⟨b, more, hfirst, hb, hvalue⟩ := head_of_readValue hread
        rw [readItems_first (by rw [skipBlanks_gap hgap]; exact hfirst) hb, hvalue]
        rfl
      | cons w done =>
        obtain ⟨b, more, hfirst, hb, hvalue⟩ := head_of_readValue hread
        rw [← hrest]
        have hcomma := skipBlanks_gap_ink (b := 44) hgap (by decide)
          (encode (writeChars v) ++ (encode (writeItems false items) ++ 93 :: rest))
        exact (readItems_next hcomma hfirst hb).trans (by rw [hvalue]; rfl)

theorem ReadAs.length_pos {bytes : Bytes} {v : Json} (h : ReadAs depth bytes v) :
    0 < bytes.length := by
  obtain ⟨gap, -, hread⟩ := h [] (by intro b hb; cases hb)
  cases bytes with
  | nil => cases depth <;> cases hread
  | cons b bytes => exact Nat.succ_pos _

/-- Each item takes a byte at least, so that the bytes are fuel enough for the items. -/
theorem length_le_items {items : List Json}
    (h : ∀ v ∈ items, ReadAs depth (encode (writeChars v)) v) (first : Bool) :
    items.length ≤ (encode (writeItems first items)).length := by
  induction items generalizing first with
  | nil => exact Nat.zero_le _
  | cons v items ih =>
    have hpos := (h v List.mem_cons_self).length_pos
    have hrest := ih (fun w hw => h w (List.mem_cons_of_mem v hw)) false
    simp only [writeItems, encode_append, List.length_append, List.length_cons]
    omega

/-- The items are read with one level less. -/
theorem readAs_array {items : List Json} (hdepth : depth ≠ 0)
    (h : ∀ v ∈ items, ReadAs depth (encode (writeChars v)) v) :
    ReadAs (depth + 1) (encode (writeChars (.array items))) (.array items) := by
  apply readAs_exact
  intro more _
  have hwrite : encode (writeChars (.array items)) ++ more =
      91 :: (encode (writeItems true items) ++ 93 :: more) := by
    rw [writeChars]
    show 91 :: encode (writeItems true items ++ [']']) ++ more = _
    rw [encode_append, List.cons_append, List.append_assoc]
    rfl
  have hread : readItems (readValue depth)
      ((encode (writeItems true items) ++ 93 :: more).length + 1) []
        (encode (writeItems true items) ++ 93 :: more) = .ok (items.reverse ++ [], more) := by
    refine readItems_items h ?_ [] gap_nil more
    have hlength := length_le_items h true
    rw [List.length_append]
    omega
  have hlevel : ¬ (depth == 0) = true := by simpa using hdepth
  rw [hwrite]
  show (if depth == 0 then _ else _) = _
  rw [if_neg hlevel, hread, List.append_nil]
  show Except.ok (Json.array items.reverse.reverse, more) = _
  rw [List.reverse_reverse]

end List

section Object

variable {depth : Nat} {value : Scan Json} {fuel : Nat} {done : List (String × Json)} {bytes : Bytes}

theorem readMember_append {name : String} {bs rest : Bytes} {v : Json} (hname : Writes bs name)
    (h : value bytes = .ok (v, rest)) :
    readMember value (bs ++ 58 :: bytes) = .ok ((name, v), rest) := by
  have hink : skipBlanks (58 :: bytes) = 58 :: bytes := skipBlanks_ink (by decide) bytes
  simp only [readMember, scanText_append hname, bind, Except.bind, hink, h]
  rfl

theorem readMembers_first {after : Bytes} (hquote : skipBlanks bytes = 34 :: after) :
    readMembers value (fuel + 1) true done bytes =
      (readMember value after).bind fun read =>
        readMembers value fuel false (insert read.1.1 read.1.2 done) read.2 := by
  rw [readMembers, hquote]
  rfl

theorem readMembers_next {after more : Bytes} (hcomma : skipBlanks bytes = 44 :: more)
    (hquote : skipBlanks more = 34 :: after) :
    readMembers value (fuel + 1) false done bytes =
      (readMember value after).bind fun read =>
        readMembers value fuel false (insert read.1.1 read.1.2 done) read.2 := by
  rw [readMembers, hcomma]
  split
  · next heq => cases heq
  · next heq => cases heq
  · next heq =>
    cases heq
    rw [if_neg Bool.false_ne_true, if_pos (beq_self_eq_true _), hquote]
    rfl

theorem ends_members (members : List (String × Json)) (rest : Bytes) :
    Ends (encode (writeMembers false members) ++ 125 :: rest) := by
  cases members with
  | nil => exact ends_cons (by decide) rest
  | cons m members => exact ends_cons (b := 44) (by decide) _

/-- The members of an object are read one after another, each into its place among those that have been
read. -/
theorem readMembers_members {members : List (String × Json)}
    (h : ∀ m ∈ members, ReadAs depth (encode (writeChars m.2)) m.2) (hfuel : members.length < fuel)
    (first : Bool) (done : List (String × Json)) {gap : Bytes} (hgap : Gap gap) (rest : Bytes) :
    readMembers (readValue depth) fuel first done
      (gap ++ (encode (writeMembers first members) ++ 125 :: rest)) =
        .ok (members.foldl (fun done m => insert m.1 m.2 done) done, rest) := by
  induction members generalizing fuel first done gap with
  | nil =>
    cases fuel with
    | zero => cases hfuel
    | succ fuel =>
      have hclose : skipBlanks (gap ++ (encode (writeMembers first []) ++ 125 :: rest)) =
          125 :: rest := skipBlanks_gap_ink hgap (by decide) rest
      rw [readMembers, hclose]
      rfl
  | cons m members ih =>
    obtain ⟨name, v⟩ := m
    cases fuel with
    | zero => cases hfuel
    | succ fuel =>
      obtain ⟨gap', hgap', hread⟩ := h (name, v) List.mem_cons_self _ (ends_members members rest)
      obtain ⟨bs, hquote, hwrites⟩ := writes_quote name
      have hmember := readMember_append hwrites hread
      have hrest := ih (fun m hm => h m (List.mem_cons_of_mem _ hm)) (Nat.lt_of_succ_lt_succ hfuel)
        false (insert name v done) hgap'
      have hwrite : encode (writeMembers first ((name, v) :: members)) ++ 125 :: rest =
          encode (if first then [] else [',']) ++ 34 :: (bs ++ 58 :: (encode (writeChars v) ++
            (encode (writeMembers false members) ++ 125 :: rest))) := by
        have hcolon : ∀ cs, encode (':' :: cs) = 58 :: encode cs := fun _ => rfl
        simp only [writeMembers, encode_append, hquote, hcolon, List.append_assoc, List.cons_append]
      rw [hwrite, List.foldl_cons, ← hrest]
      cases first with
      | true =>
        have hlead := skipBlanks_gap_ink (b := 34) hgap (by decide)
          (bs ++ 58 :: (encode (writeChars v) ++
            (encode (writeMembers false members) ++ 125 :: rest)))
        exact (readMembers_first hlead).trans (by rw [hmember]; rfl)
      | false =>
        have hcomma := skipBlanks_gap_ink (b := 44) hgap (by decide)
          (34 :: (bs ++ 58 :: (encode (writeChars v) ++
            (encode (writeMembers false members) ++ 125 :: rest))))
        exact (readMembers_next hcomma (skipBlanks_ink (by decide) _)).trans (by rw [hmember]; rfl)

theorem length_le_members (members : List (String × Json)) (first : Bool) :
    members.length ≤ (encode (writeMembers first members)).length := by
  induction members generalizing first with
  | nil => exact Nat.zero_le _
  | cons m members ih =>
    have hrest := ih false
    have hcolon : ∀ cs, encode (':' :: cs) = 58 :: encode cs := fun _ => rfl
    simp only [writeMembers, encode_append, hcolon, List.length_append, List.length_cons]
    omega

/-- Whatever the order in which members are written, they are read in that of their names. -/
theorem readAs_object {members : List (String × Json)} (hdepth : depth ≠ 0)
    (h : ∀ m ∈ members, ReadAs depth (encode (writeChars m.2)) m.2) :
    ReadAs (depth + 1) (encode (writeChars (.object members))) (ofMembers members) := by
  apply readAs_exact
  intro more _
  have hwrite : encode (writeChars (.object members)) ++ more =
      123 :: (encode (writeMembers true members) ++ 125 :: more) := by
    rw [writeChars]
    show 123 :: encode (writeMembers true members ++ ['\x7d']) ++ more = _
    rw [encode_append, List.cons_append, List.append_assoc]
    rfl
  have hread : readMembers (readValue depth)
      ((encode (writeMembers true members) ++ 125 :: more).length + 1) true []
        (encode (writeMembers true members) ++ 125 :: more) =
          .ok (members.foldl (fun done m => insert m.1 m.2 done) [], more) := by
    refine readMembers_members h ?_ true [] gap_nil more
    have hlength := length_le_members members true
    rw [List.length_append]
    omega
  have hlevel : ¬ (depth == 0) = true := by simpa using hdepth
  rw [hwrite]
  show (if depth == 0 then _ else _) = _
  rw [if_neg hlevel, hread]
  rfl

end Object

theorem readText_of_readAs {v w : Json} (h : ReadAs maxDepth (encode (writeChars v)) w) :
    readText (write v) = .ok w := by
  obtain ⟨gap, hgap, hread⟩ := h [] (by intro b hb; cases hb)
  rw [List.append_nil, List.append_nil] at hread
  have hblank : skipBlanks gap = [] := by
    have hskip := skipBlanks_gap hgap []
    rwa [List.append_nil] at hskip
  simp only [readText, write, String.toList_ofList, read, hread, bind, Except.bind, hblank]

/-- A number that comes back from its text, as every whole number of 64 bits does. -/
def Number.Kept : Number → Prop
  | .natural n => n ≤ maxNatural
  | .negative n => 0 < n ∧ n ≤ 0x8000000000000000
  | .float x => readText (Json.write (.number (.float x))) = .ok (.number (.float x))

theorem Number.Kept.readAs {n : Number} (h : n.Kept) (depth : Nat) :
    ReadAs (depth + 1) (encode (writeChars (.number n))) (.number n) := by
  cases n with
  | natural n => exact readAs_natural depth h
  | negative n => exact readAs_negative depth h.1 h.2
  | float x =>
    refine readAs_of_read ?_ depth
    have hread : readText (Json.write (.number (.float x))) = .ok (.number (.float x)) := h
    rwa [readText, Json.write, String.toList_ofList] at hread

/-- A value with lists and objects inside one another `depth - 1` times at most, the members of each
object in order and every number one that comes back. -/
def Kept : Nat → Json → Prop
  | 0, _ => False
  | _ + 1, .number n => n.Kept
  | depth + 1, .array items => depth ≠ 0 ∧ ∀ v ∈ items, Kept depth v
  | depth + 1, .object members => depth ≠ 0 ∧ Ordered members ∧ ∀ m ∈ members, Kept depth m.2
  | _ + 1, _ => True

/-- By induction on the depth, which the reader counts down as it goes inside. -/
theorem Kept.readAs {depth : Nat} {v : Json} (h : Kept depth v) :
    ReadAs depth (encode (writeChars v)) v := by
  induction depth generalizing v with
  | zero => exact h.elim
  | succ depth ih =>
    cases v with
    | null => exact readAs_null depth
    | boolean b => exact readAs_boolean depth b
    | number n => exact Number.Kept.readAs h depth
    | text s => exact readAs_text depth s
    | array items =>
      obtain ⟨hdepth, hitems⟩ := h
      exact readAs_array hdepth fun v hv => ih (hitems v hv)
    | object members =>
      obtain ⟨hdepth, hordered, hmembers⟩ := h
      have hread := readAs_object hdepth fun m hm => ih (hmembers m hm)
      rwa [ofMembers_eq hordered (.refl _)] at hread

/-- What is written of a value is read as the value. -/
theorem readText_write {v : Json} (h : v.Kept maxDepth) : readText (write v) = .ok v :=
  readText_of_readAs h.readAs

/-- The members of an object may be written in any order. -/
theorem readText_write_object {members written : List (String × Json)}
    (h : (object members).Kept maxDepth) (hperm : written.Perm members) :
    readText (write (.object written)) = .ok (.object members) := by
  obtain ⟨hdepth, hordered, hmembers⟩ := h
  have hread : ReadAs maxDepth (encode (writeChars (.object written))) (ofMembers written) :=
    readAs_object hdepth fun m hm => (hmembers m (hperm.mem_iff.mp hm)).readAs
  rw [ofMembers_eq hordered hperm] at hread
  exact readText_of_readAs hread

end Segments.Json
