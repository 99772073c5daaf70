import Segments.Proofs.DisplayedConditions
import Segments.Proofs.Spans

namespace Segments

open Text

def Operator.match? (bs : Bytes) : Option (Operator × Nat) :=
  (byLength.find? fun op => (encode op.token.toList).isPrefixOf bs).map fun op =>
    (op, byteSize op.token.toList)

/-- What is left of a part when one pair of equal straight quotes is taken off. -/
def Literal.unquoted? (bs : Bytes) (w : Span) : Option Span := do
  let written := w.bytes bs
  if 2 ≤ written.length then
    let first ← written[0]?
    let last ← written[written.length - 1]?
    if (first == 34 || first == 39) && last == first then w.slice? bs 1 (written.length - 1)
    else some w
  else some w

namespace Condition

/-- What was read of a text, and where the text was cut for it, from left to right. -/
structure Reading where
  outcome : Except Reason Condition
  cuts : List Nat
  deriving DecidableEq

def readValue? (bs : Bytes) (field : Span) (op : Operator) (behind : Span) : Option Reading :=
  let value := behind.trim bs
  if value.length == 0 then some ⟨.error .missingValue, []⟩
  else do
    let word ← Literal.unquoted? bs (value.trim bs)
    return ⟨.ok ⟨String.ofList (field.chars bs), op, .ofWord (word.chars bs)⟩,
      [value.start, word.start, word.stop, value.stop]⟩

def readOperator? (bs : Bytes) (field behind : Span) : Option Reading :=
  let rest := behind.trimStart bs
  match Operator.match? (rest.bytes bs) with
  | none => some ⟨.error .noOperator, [rest.start]⟩
  | some (op, size) => do
    let behind ← rest.slice? bs size rest.length
    let r ← readValue? bs field op behind
    return { r with cuts := rest.start :: behind.start :: r.cuts }

def readField? (bs : Bytes) (input : Span) : Option Reading :=
  let size := (input.find? bs (!isWordChar ·)).getD input.length
  if size == 0 then some ⟨.error .missingField, []⟩
  else do
    let field ← input.slice? bs 0 size
    let behind ← input.slice? bs size input.length
    let r ← readOperator? bs field behind
    return { r with cuts := field.stop :: r.cuts }

/-- Reads a condition from an encoded text. `none` stands for a slice that ends the program. -/
def readBytes? (bs : Bytes) : Option Reading :=
  let input := (Span.whole bs).trim bs
  if input.length == 0 then some ⟨.error .empty, []⟩
  else do
    let r ← readField? bs input
    return { r with cuts := input.start :: r.cuts }

end Condition

/-- Tokens compared byte by byte are found where they are as characters. -/
theorem Operator.match?_encode (cs : List Char) :
    match? (encode cs) = (split? cs).map fun found => (found.1, byteSize found.1.token.toList) := by
  unfold match? split?
  induction byLength with
  | nil => rfl
  | cons op ops ih =>
    cases hdrop : dropLead? op.token.toList cs with
    | none =>
      have hfalse : (encode op.token.toList).isPrefixOf (encode cs) = false := by
        rw [← Bool.not_eq_true, List.isPrefixOf_iff_prefix, encode_prefix_iff]
        rintro ⟨rest, hrest⟩
        rw [dropLead?_eq_some.mpr hrest.symm] at hdrop
        cases hdrop
      simp only [List.find?_cons, hfalse, List.findSome?_cons, hdrop, Option.map_none, ih]
    | some rest =>
      have htrue : (encode op.token.toList).isPrefixOf (encode cs) = true := by
        rw [List.isPrefixOf_iff_prefix, encode_prefix_iff]
        exact ⟨rest, (dropLead?_eq_some.mp hdrop).symm⟩
      simp only [List.find?_cons, htrue, List.findSome?_cons, hdrop, Option.map_some]

namespace Literal

variable {w : Span} {cs before part : List Char}

theorem quote_bytes {quote : Char} (h : quote = '"' ∨ quote = '\'') :
    ∃ b, encodeChar quote = [b] ∧ (b = 34 ∨ b = 39) := by
  rcases h with rfl | rfl
  · exact ⟨34, rfl, .inl rfl⟩
  · exact ⟨39, rfl, .inr rfl⟩

/-- A byte that is that of a quote is in no other character. -/
theorem exists_quote {b : UInt8} (h : b = 34 ∨ b = 39) :
    ∃ quote : Char, (quote = '"' ∨ quote = '\'') ∧ ∀ c, b ∈ encodeChar c → c = quote := by
  obtain ⟨quote, hquote, hnumber⟩ : ∃ quote : Char, (quote = '"' ∨ quote = '\'') ∧
      b.toNat = quote.toNat := by
    rcases h with rfl | rfl
    · exact ⟨'"', .inl rfl, rfl⟩
    · exact ⟨'\'', .inr rfl, rfl⟩
  have hascii : b.toNat < 128 := by rcases h with rfl | rfl <;> decide
  refine ⟨quote, hquote, ?_⟩
  intro c hc
  rcases mem_encodeChar hc with hsame | hhigh
  · exact Char.toNat_inj.mp (hsame.symm.trans hnumber)
  · omega

/-- Equal quotes that are seen as the first and the last byte are the first and the last character. -/
theorem enclosed_of_bytes {cs : List Char} {b : UInt8} (hb : b = 34 ∨ b = 39)
    (htwo : 2 ≤ (encode cs).length) (hfirst : (encode cs).head? = some b)
    (hlast : (encode cs).getLast? = some b) : Enclosed cs := by
  obtain ⟨quote, hquote, hsame⟩ := exists_quote hb
  obtain ⟨c, rest, rfl, hc⟩ := head_encode hfirst
  obtain ⟨front, d, hcs, hd⟩ := last_encode hlast
  rw [hsame c hc] at hcs htwo ⊢
  rw [hsame d hd] at hcs
  cases front with
  | nil =>
    -- one quote is not a pair
    obtain ⟨x, hx, -⟩ := quote_bytes hquote
    rw [hcs, List.nil_append, encode_singleton, hx] at htwo
    exact absurd htwo (by simp)
  | cons e inner =>
    obtain ⟨-, hrest⟩ := List.cons.inj hcs
    exact ⟨quote, inner, hquote, congrArg (quote :: ·) hrest⟩

/-- Quotes are single bytes, so that no character is cut through where they are taken off. -/
theorem unquoted?_enclosed {quote : Char} {inner : List Char} (hquote : quote = '"' ∨ quote = '\'')
    (h : w.Shows cs before (quote :: (inner ++ [quote]))) :
    ∃ v, unquoted? (encode cs) w = some v ∧ v.Shows cs (before ++ [quote]) inner := by
  have hparts : w.Shows cs before ([quote] ++ (inner ++ [quote])) := h
  obtain ⟨v, hslice, hv⟩ := hparts.slice?
  refine ⟨v, ?_, hv⟩
  obtain ⟨b, henc, hb⟩ := quote_bytes hquote
  have hbytes : w.bytes (encode cs) = b :: (encode inner ++ [b]) := by
    rw [h.bytes, encode_cons, encode_append, encode_singleton, henc]
    rfl
  have hfrom : byteSize [quote] = 1 := by rw [← length_encode, encode_singleton, henc]; rfl
  have hto : byteSize ([quote] ++ inner) = (b :: (encode inner ++ [b])).length - 1 := by
    rw [byteSize_append, hfrom, ← length_encode]
    simp
    omega
  have hlast : (b :: (encode inner ++ [b]))[(b :: (encode inner ++ [b])).length - 1]? = some b := by
    rw [← List.getLast?_eq_getElem?, ← List.cons_append, List.getLast?_concat]
  rw [hfrom, hto] at hslice
  unfold unquoted?
  simp only [hbytes]
  rw [if_pos (by simp), hlast, List.getElem?_cons_zero]
  simp only [Option.bind_eq_bind, Option.bind_some, beq_self_eq_true, Bool.and_true]
  rw [if_pos (by simpa using hb), hslice]

theorem unquoted?_bare (h : w.Shows cs before part) (hbare : ¬ Enclosed part) :
    unquoted? (encode cs) w = some w := by
  unfold unquoted?
  simp only [h.bytes]
  split
  · next htwo =>
    have hpos : (encode part).length - 1 < (encode part).length := by omega
    obtain ⟨first, hfirst⟩ : ∃ b, (encode part)[0]? = some b :=
      ⟨_, List.getElem?_eq_getElem (by omega)⟩
    obtain ⟨last, hlast⟩ : ∃ b, (encode part)[(encode part).length - 1]? = some b :=
      ⟨_, List.getElem?_eq_getElem hpos⟩
    simp only [hfirst, hlast, Option.bind_eq_bind, Option.bind_some]
    split
    · next hpair =>
      simp only [Bool.and_eq_true, Bool.or_eq_true, beq_iff_eq] at hpair
      obtain ⟨hb, rfl⟩ := hpair
      rw [← List.head?_eq_getElem?] at hfirst
      rw [← List.getLast?_eq_getElem?] at hlast
      exact absurd (enclosed_of_bytes hb htwo hfirst hlast) hbare
    · rfl
  · rfl

/-- Quotes are taken off without a character cut through, and the same ones as by characters. -/
theorem unquoted?_shows (h : w.Shows cs before part) :
    ∃ v quote, unquoted? (encode cs) w = some v ∧ v.Shows cs (before ++ quote) (unquote part) ∧
      part = quote ++ (unquote part ++ quote) ∧
      (quote = [] ∨ quote = ['"'] ∨ quote = ['\'']) := by
  by_cases henclosed : Enclosed part
  · obtain ⟨quote, inner, hquote, rfl⟩ := henclosed
    obtain ⟨v, hv, hshows⟩ := unquoted?_enclosed hquote h
    rw [unquote_enclosed hquote]
    refine ⟨v, [quote], hv, hshows, rfl, ?_⟩
    rcases hquote with rfl | rfl
    · exact .inr (.inl rfl)
    · exact .inr (.inr rfl)
  · rw [unquote_bare henclosed]
    exact ⟨w, [], unquoted?_bare h henclosed, by simpa using h, by simp, .inl rfl⟩

end Literal

namespace Condition

def valueFrom (field : List Char) (op : Operator) (behind : List Char) : Except Reason Condition :=
  if (trim behind).isEmpty then .error .missingValue
  else .ok ⟨String.ofList field, op, .ofChars (trim behind)⟩

def operatorFrom (field behind : List Char) : Except Reason Condition :=
  match Operator.split? (trimStart behind) with
  | none => .error .noOperator
  | some (op, rest) => valueFrom field op rest

def fieldFrom (input : List Char) : Except Reason Condition :=
  if (input.takeWhile isWordChar).isEmpty then .error .missingField
  else operatorFrom (input.takeWhile isWordChar) (input.dropWhile isWordChar)

theorem ofChars_eq (cs : List Char) :
    ofChars cs = if (trim cs).isEmpty then .error .empty else fieldFrom (trim cs) := rfl

inductive ValueParts (field : List Char) (op : Operator) :
    Except Reason Condition → List (List Char) → Prop
  | missing {blanks : List Char} : Blanks blanks →
      ValueParts field op (.error .missingValue) [blanks]
  | value {space quote word tail : List Char} : Blanks space →
      (quote = [] ∨ quote = ['"'] ∨ quote = ['\'']) → Blanks tail →
      ValueParts field op (.ok ⟨String.ofList field, op, .ofWord word⟩)
        [space, quote, word, quote, tail]

inductive OperatorParts (field : List Char) : Except Reason Condition → List (List Char) → Prop
  | missing {gap rest : List Char} : Blanks gap →
      OperatorParts field (.error .noOperator) [gap, rest]
  | operator {gap : List Char} {op : Operator} {outcome : Except Reason Condition}
      {parts : List (List Char)} : Blanks gap → ValueParts field op outcome parts →
      OperatorParts field outcome (gap :: op.token.toList :: parts)

inductive FieldParts : Except Reason Condition → List (List Char) → Prop
  | missing {rest : List Char} : FieldParts (.error .missingField) [rest]
  | field {field : List Char} {outcome : Except Reason Condition} {parts : List (List Char)} :
      field ≠ [] → (∀ c ∈ field, isWordChar c = true) → OperatorParts field outcome parts →
      FieldParts outcome (field :: parts)

/-- What a text is cut into when it is read: the field name, the token of the operator and the word
of the value, as far as it has them, and what is left out, which are blanks and a pair of quotes. -/
inductive TextParts : Except Reason Condition → List (List Char) → Prop
  | empty {blanks : List Char} : Blanks blanks → TextParts (.error .empty) [blanks]
  | input {lead : List Char} {outcome : Except Reason Condition} {parts : List (List Char)} :
      Blanks lead → FieldParts outcome parts → TextParts outcome (lead :: parts)

variable {w field : Span} {cs before part after name : List Char}

theorem readValue?_parts (op : Operator) (hfield : field.chars (encode cs) = name)
    (h : w.Shows cs before part) (hcs : cs = before ++ (part ++ after)) (hafter : Blanks after) :
    ∃ r parts, readValue? (encode cs) field op w = some r ∧ r.outcome = valueFrom name op part ∧
      ValueParts name op r.outcome parts ∧ cs = before ++ parts.flatten ∧
      Divides (byteSize before) r.cuts parts := by
  obtain ⟨space, rest, rfl, hspace, hrest⟩ := exists_run isBlank part
  obtain ⟨value, tail, rfl, hvalue, htail⟩ := exists_trimmed_append hrest
  have htrim : trim (space ++ (value ++ tail)) = value := by
    rw [← List.append_assoc]
    exact trim_append hspace hvalue htail
  have hshows := h.trim hspace hrest hvalue htail
  unfold readValue? valueFrom
  generalize w.trim (encode cs) = inner at hshows ⊢
  simp only [htrim, hshows.length, beq_iff_eq, byteSize_eq_zero, List.isEmpty_iff]
  by_cases hempty : value = []
  · subst hempty
    refine ⟨⟨.error .missingValue, []⟩, [space ++ tail ++ after], rfl, rfl, ?_, ?_, .last⟩
    · exact .missing ((Blanks.append hspace htail).append hafter)
    · rw [hcs]
      simp
  · have hagain : (inner.trim (encode cs)).Shows cs (before ++ space) value := by
      have hwhole : inner.Shows cs (before ++ space) ([] ++ (value ++ [])) := by simpa using hshows
      simpa using hwhole.trim .nil (by simpa using hvalue.first) hvalue .nil
    obtain ⟨v, quote, hv, hword, hvalueParts, hquote⟩ := Literal.unquoted?_shows hagain
    have hchars : Literal.ofChars value = .ofWord (Literal.unquote value) := by
      rw [Literal.ofChars, hvalue.trim]
    generalize Literal.unquote value = word at hword hvalueParts hchars
    refine ⟨⟨.ok ⟨String.ofList name, op, .ofWord word⟩, [inner.start, v.start, v.stop, inner.stop]⟩,
      [space, quote, word, quote, tail ++ after], ?_, ?_, ?_, ?_, ?_⟩
    · simp only [hempty, hv, hfield, hword.chars, if_false, Option.bind_eq_bind, Option.bind_some]
      rfl
    · rw [if_neg hempty, hchars]
    · exact .value hspace hquote (htail.append hafter)
    · rw [hcs, hvalueParts]
      simp
    · have hstop := hshows.stop
      rw [hvalueParts] at hstop
      refine .cut ?_ (.cut ?_ (.cut ?_ (.cut ?_ .last)))
      · rw [hshows.start, byteSize_append]
      · rw [hword.start, hshows.start, byteSize_append (before ++ space)]
      · rw [hword.stop, hword.start, byteSize_append _ word]
      · rw [hstop, hword.stop]
        simp only [byteSize_append]
        omega

theorem readOperator?_parts (hfield : field.chars (encode cs) = name)
    (h : w.Shows cs before part) (hcs : cs = before ++ (part ++ after)) (hafter : Blanks after) :
    ∃ r parts, readOperator? (encode cs) field w = some r ∧ r.outcome = operatorFrom name part ∧
      OperatorParts name r.outcome parts ∧ cs = before ++ parts.flatten ∧
      Divides (byteSize before) r.cuts parts := by
  obtain ⟨gap, rest, rfl, hgap, hrest⟩ := exists_run isBlank part
  have hshows := h.trimStart hgap hrest
  have hstart : (w.trimStart (encode cs)).start = byteSize before + byteSize gap := by
    rw [hshows.start, byteSize_append]
  unfold readOperator? operatorFrom
  generalize w.trimStart (encode cs) = inner at hshows hstart ⊢
  simp only [hshows.bytes, Operator.match?_encode, trimStart_append hgap hrest, hshows.length]
  cases hsplit : Operator.split? rest with
  | none =>
    refine ⟨⟨.error .noOperator, [inner.start]⟩, [gap, rest ++ after], rfl, rfl, .missing hgap, ?_,
      .cut hstart .last⟩
    rw [hcs]
    simp
  | some found =>
    obtain ⟨op, behind⟩ := found
    obtain ⟨rfl, -⟩ := Operator.split?_eq_some.mp hsplit
    have hpart : inner.Shows cs (before ++ gap) (op.token.toList ++ (behind ++ [])) := by
      simpa using hshows
    obtain ⟨v, hslice, hv⟩ := hpart.slice?
    have hbehind : cs = before ++ gap ++ op.token.toList ++ (behind ++ after) := by
      rw [hcs]
      simp
    obtain ⟨r, parts, hr, houtcome, hparts, hflat, hdivides⟩ :=
      readValue?_parts op hfield hv hbehind hafter
    refine ⟨{ r with cuts := inner.start :: v.start :: r.cuts }, gap :: op.token.toList :: parts,
      ?_, houtcome, .operator hgap hparts, ?_, .cut hstart (.cut ?_ ?_)⟩
    · simp only [Option.map_some, hslice, hr, Option.bind_eq_bind, Option.bind_some]
      rfl
    · rw [hflat]
      simp
    · rw [hv.start, hshows.start, byteSize_append _ op.token.toList]
    · rw [hv.start]
      exact hdivides

/-- The reader goes from left to right, so that the parts that it cuts are the text in their
order. -/
theorem readField?_parts (h : w.Shows cs before part) (hcs : cs = before ++ (part ++ after))
    (hafter : Blanks after) :
    ∃ r parts, readField? (encode cs) w = some r ∧ r.outcome = fieldFrom part ∧
      FieldParts r.outcome parts ∧ cs = before ++ parts.flatten ∧
      Divides (byteSize before) r.cuts parts := by
  obtain ⟨name, behind, rfl, hname, hbehind⟩ := exists_run isWordChar part
  have hsize : (w.find? (encode cs) (!isWordChar ·)).getD w.length = byteSize name :=
    h.find? (by simpa using hname) (by simpa using hbehind)
  unfold readField? fieldFrom
  simp only [hsize, takeWhile_run_append hname hbehind, dropWhile_run_append hname hbehind,
    beq_iff_eq, byteSize_eq_zero, List.isEmpty_iff]
  by_cases hempty : name = []
  · subst hempty
    exact ⟨⟨.error .missingField, []⟩, [behind ++ after], rfl, rfl, .missing, by simp [hcs], .last⟩
  · have hfront : w.Shows cs before ([] ++ (name ++ behind)) := h
    have hback : w.Shows cs before (name ++ (behind ++ [])) := by simpa using h
    obtain ⟨v, hv, hfield⟩ := hfront.slice?
    obtain ⟨u, hu, hshows⟩ := hback.slice?
    have hfirst : w.slice? (encode cs) 0 (byteSize name) = some v := hv
    have hsecond : w.slice? (encode cs) (byteSize name) w.length = some u := by
      rw [h.length]
      exact hu
    rw [List.append_nil] at hfield
    have hstop : v.stop = byteSize before + byteSize name := by rw [hfield.stop, byteSize_append]
    have hrest : cs = before ++ name ++ (behind ++ after) := by
      rw [hcs]
      simp
    obtain ⟨r, parts, hr, houtcome, hparts, hflat, hdivides⟩ :=
      readOperator?_parts hfield.chars hshows hrest hafter
    refine ⟨{ r with cuts := v.stop :: r.cuts }, name :: parts, ?_, ?_,
      .field hempty hname hparts, ?_, .cut hstop ?_⟩
    · simp only [hempty, hfirst, hsecond, hr, if_false, Option.bind_eq_bind, Option.bind_some]
      rfl
    · rw [if_neg hempty]
      exact houtcome
    · rw [hflat]
      simp
    · rw [hfield.stop]
      exact hdivides

/-- The outcome is that of the reader by characters, and every cut lies between two of them. -/
theorem readBytes?_parts (cs : List Char) :
    ∃ r parts, readBytes? (encode cs) = some r ∧ r.outcome = ofChars cs ∧
      TextParts r.outcome parts ∧ cs = parts.flatten ∧ Divides 0 r.cuts parts := by
  obtain ⟨lead, rest, hcs, hlead, hrest⟩ := exists_run isBlank cs
  obtain ⟨part, tail, rfl, hpart, htail⟩ := exists_trimmed_append hrest
  have htrim : trim cs = part := by
    rw [hcs, ← List.append_assoc]
    exact trim_append hlead hpart htail
  have hwhole : (Span.whole (encode cs)).Shows cs [] (lead ++ (part ++ tail)) :=
    hcs ▸ Span.shows_whole cs
  have hshows := hwhole.trim hlead hrest hpart htail
  rw [ofChars_eq, htrim]
  unfold readBytes?
  generalize (Span.whole (encode cs)).trim (encode cs) = inner at hshows ⊢
  simp only [hshows.length, beq_iff_eq, byteSize_eq_zero, List.isEmpty_iff]
  by_cases hempty : part = []
  · subst hempty
    refine ⟨⟨.error .empty, []⟩, [cs], rfl, rfl, .empty ?_, by simp, .last⟩
    rw [hcs]
    exact Blanks.append hlead htail
  · obtain ⟨r, parts, hr, houtcome, hparts, hflat, hdivides⟩ := readField?_parts hshows hcs htail
    have hstart : inner.start = 0 + byteSize lead := by
      rw [hshows.start, List.nil_append, Nat.zero_add]
    refine ⟨{ r with cuts := inner.start :: r.cuts }, lead :: parts, ?_, ?_, .input hlead hparts,
      hflat, .cut hstart ?_⟩
    · simp only [hempty, hr, if_false, Option.bind_eq_bind, Option.bind_some]
      rfl
    · rw [if_neg hempty]
      exact houtcome
    · rw [hshows.start]
      exact hdivides

/-- No slice of an encoded text ends the program when a condition is read, and what is read is what is
read by characters. The offsets cut the text from left to right and between characters into the
field name, the token, the word of the value and what is left out, and nothing gets lost. The same is
so of the quotes of any text. -/
theorem readBytes?_cuts (text : String) :
    (∃ r parts, readBytes? (encode text.toList) = some r ∧ r.outcome = parse text ∧
      Cuts text.toList r.cuts ∧ TextParts (parse text) parts ∧
      pieces (encode text.toList) r.cuts = parts.map encode) ∧
    ∃ w quote, Literal.unquoted? (encode text.toList) (.whole (encode text.toList)) = some w ∧
      Cuts text.toList [w.start, w.stop] ∧ (quote = [] ∨ quote = ['"'] ∨ quote = ['\'']) ∧
      pieces (encode text.toList) [w.start, w.stop] =
        [quote, Literal.unquote text.toList, quote].map encode := by
  constructor
  · obtain ⟨r, parts, hr, houtcome, hparts, hflat, hdivides⟩ := readBytes?_parts text.toList
    rw [houtcome] at hparts
    exact ⟨r, parts, hr, houtcome, hdivides.toCuts hflat, hparts, hdivides.pieces hflat⟩
  · obtain ⟨w, quote, hw, hword, hflat, hquote⟩ :=
      Literal.unquoted?_shows (Span.shows_whole text.toList)
    have hdivides : Divides 0 [w.start, w.stop] [quote, Literal.unquote text.toList, quote] := by
      refine .cut ?_ (.cut ?_ .last)
      · rw [hword.start, List.nil_append, Nat.zero_add]
      · rw [hword.stop, hword.start, byteSize_append _ (Literal.unquote text.toList)]
    have hparts : text.toList = [quote, Literal.unquote text.toList, quote].flatten := by
      simpa using hflat
    exact ⟨w, quote, hw, hdivides.toCuts hparts, hquote, hdivides.pieces hparts⟩

/-- Offsets in bytes between characters of one, two and three bytes. -/
example : (readBytes? (encode "\u3000title|=\u2003'Größe'\u00A0".toList)).map (·.cuts) =
    some [3, 8, 8, 10, 13, 14, 21, 22] := by
  decide +kernel

end Condition

end Segments
