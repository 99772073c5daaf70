import Segments.Proofs.Coercion
import Segments.Proofs.Timestamps
import Segments.Proofs.WholeNumbers

namespace Segments

open Catalog Text

namespace Time

/-- The second that an instant is in. A leap second is one of its own. -/
def Instant.second (i : Instant) : Instant :=
  ⟨i.seconds, i.nanos / 1000000000 * 1000000000⟩

/-- In years of four digits a date has no sign, and is written as in any timestamp. -/
theorem dateText_eq {d : Date} (h : d.Valid) (hfirst : 0 ≤ d.year) (hlast : d.year ≤ 9999) :
    ∃ w : WrittenDate, w.InRange ∧ w.toDate = d ∧ dateText d = w.text := by
  obtain ⟨year, month, day⟩ := d
  obtain ⟨-, -, hmonth, hmost, hday, hlength⟩ := h
  dsimp only at hfirst hlast hmonth hmost hday hlength
  have hthirtyone := Nat.le_trans hlength (daysInMonth_le year month)
  obtain ⟨n, rfl⟩ := Int.eq_ofNat_of_zero_le hfirst
  refine ⟨⟨⟨n, by omega⟩, ⟨month, by omega⟩, ⟨day, by omega⟩⟩, ⟨⟨hmonth, hmost⟩, hday, hthirtyone⟩, rfl, ?_⟩
  have hfour : yearText n = padded 4 n := if_pos (by simpa using hlast)
  simp [dateText, hfour, WrittenDate.text]

/-- A time of day is read to the whole second. -/
theorem clock_second (m : Manner) {t : TimeOfDay} (h : t.Valid) {rest : List Char}
    (hrest : rest.head? ≠ some '.') :
    m.clock (clockText t ++ rest) =
      .ok (⟨t.seconds, t.nanos / 1000000000 * 1000000000⟩, rest) := by
  obtain ⟨seconds, nanos⟩ := t
  obtain ⟨hseconds, hnanos, hleap⟩ := h
  dsimp only at hseconds hnanos hleap ⊢
  have hhours : ∀ rest, m.part 0 23 (padded 2 (seconds / 3600) ++ rest) =
      .ok (seconds / 3600, rest) := part_of_range (Nat.zero_le _) (by omega) (by omega) _
  have hminutes : ∀ rest, m.part 0 59 (padded 2 (seconds / 60 % 60) ++ rest) =
      .ok (seconds / 60 % 60, rest) := part_of_range (Nat.zero_le _) (by omega) (by omega) _
  have hlast : ∀ rest, m.part 0 60 (padded 2 (seconds % 60 + nanos / 1000000000) ++ rest) =
      .ok (seconds % 60 + nanos / 1000000000, rest) :=
    part_of_range (Nat.zero_le _) (by omega) (by omega) _
  have hcolon : isBlank ':' = false := by decide
  simp only [clockText, List.append_assoc, List.cons_append, Manner.clock, hhours, hminutes, hlast,
    mark_self hcolon, fraction?_of_head hrest, bind, Except.bind, beq_iff_eq]
  by_cases hsixty : seconds % 60 + nanos / 1000000000 = 60
  · rw [if_pos hsixty]
    congr 3
    · omega
    · omega
  · rw [if_neg hsixty]
    congr 3
    · omega
    · omega

namespace Instant

variable {i : Instant}

theorem ofLocal?_second (h : i.Valid) :
    ofLocal? i.date ⟨i.time.seconds, i.time.nanos / 1000000000 * 1000000000⟩ 0 = some i.second := by
  have hparts : ofParts i.date ⟨i.time.seconds, i.time.nanos / 1000000000 * 1000000000⟩ = i.second := by
    have hseconds : (ofParts i.date i.time).seconds = i.seconds := by rw [ofParts_date_time]
    exact congrArg (Instant.mk · _) hseconds
  have hrange : (earliest ≤ i.seconds && i.seconds ≤ latest) = true := by
    simpa using ⟨h.earliest, h.latest⟩
  have hsame : i.second.seconds = i.seconds := rfl
  simp only [ofLocal?, hparts, hsame, Int.sub_zero, hrange, if_true]
  rfl

theorem toList_renderWhole (i : Instant) : i.renderWhole.toList =
    dateText i.date ++ ('T' :: (clockText i.time ++ "+00:00".toList)) := by
  simp [renderWhole, List.append_assoc]

/-- The reader of stored records takes the text in any year. -/
theorem readWire_renderWhole (h : i.Valid) : readWire i.renderWhole = .ok i.second := by
  have hdate := date_dateText h.date ('T' :: (clockText i.time ++ "+00:00".toList))
  have hclock := clock_second .spacious h.time (show "+00:00".toList.head? ≠ some '.' by decide)
  have hseparator : ∀ rest, separator ('T' :: rest) = .ok ((), rest) := fun _ => rfl
  have hoffset : wireOffset (trimStart "+00:00".toList) = .ok (0, []) := by decide
  have hnothing : nothingLeft (trimStart []) = .ok () := rfl
  have hcheck : i.date.check = .ok () := if_pos h.date
  simp only [readWire, toList_renderWhole, hdate, hseparator, hclock, hoffset, hnothing, hcheck,
    ofLocal?_second h, bind, Except.bind]
  rfl

/-- The readers of conditions take it in a year of four digits. -/
theorem readStrict_renderWhole (h : i.Valid) (hfirst : 0 ≤ i.date.year) (hlast : i.date.year ≤ 9999) :
    readStrict i.renderWhole.toList = .ok i.second := by
  obtain ⟨w, hrange, hdate, htext⟩ := dateText_eq h.date hfirst hlast
  have hclock := clock_second .strict h.time (show "+00:00".toList.head? ≠ some '.' by decide)
  have hseparator : ∀ rest, separator ('T' :: rest) = .ok ((), rest) := fun _ => rfl
  have hoffset : offset (literal ':') "+00:00".toList = .ok (0, []) := by decide
  have hnothing : nothingLeft [] = .ok () := rfl
  have hcheck : i.date.check = .ok () := if_pos h.date
  simp only [readStrict, toList_renderWhole, htext, date_text, if_pos hrange, hdate, hseparator, hclock,
    hoffset, hnothing, hcheck, ofLocal?_second h, bind, Except.bind]
  rfl

def IsMark (c : Char) : Prop :=
  isDigit c = true ∨ c ∈ ['-', '+', ':', 'T']

theorem isMark_joined {mark : Char} (h : mark ∈ ['-', '+', ':', 'T']) (width n : Nat)
    {rest : List Char} (hrest : ∀ c ∈ rest, IsMark c) :
    ∀ c ∈ padded width n ++ mark :: rest, IsMark c := by
  intro c hc
  rcases List.mem_append.mp hc with hc | hc
  · exact .inl (digits_padded width n c hc)
  · rcases List.mem_cons.mp hc with rfl | hc
    · exact .inr h
    · exact hrest c hc

theorem isMark_of_mem_renderWhole : ∀ c ∈ i.renderWhole.toList, IsMark c := by
  have hpadded : ∀ width n, ∀ c ∈ padded width n, IsMark c :=
    fun width n c hc => .inl (digits_padded width n c hc)
  have hyear : ∀ year, ∀ c ∈ yearText year, IsMark c := by
    intro year c hc
    unfold yearText at hc
    split at hc
    · exact hpadded _ _ c hc
    · rcases List.mem_cons.mp hc with rfl | hc
      · split <;> exact .inr (by simp)
      · exact hpadded _ _ c hc
  have hdate : ∀ d : Date, ∀ c ∈ dateText d, IsMark c := by
    intro d c hc
    unfold dateText at hc
    simp only [List.append_assoc, List.cons_append] at hc
    rcases List.mem_append.mp hc with hc | hc
    · exact hyear _ c hc
    · rcases List.mem_cons.mp hc with rfl | hc
      · exact .inr (by simp)
      · exact isMark_joined (by simp) 2 d.month (hpadded 2 d.day) c hc
  have hclock : ∀ t : TimeOfDay, ∀ c ∈ clockText t, IsMark c := by
    intro t
    unfold clockText
    simp only [List.append_assoc, List.cons_append]
    exact isMark_joined (by simp) 2 _ (isMark_joined (by simp) 2 _ (hpadded 2 _))
  have hzone : ∀ c ∈ "+00:00".toList, IsMark c := by
    simp [IsMark, isDigit]
  intro c hc
  rw [toList_renderWhole] at hc
  rcases List.mem_append.mp hc with hc | hc
  · exact hdate _ c hc
  · rcases List.mem_cons.mp hc with rfl | hc
    · exact .inr (by simp)
    · rcases List.mem_append.mp hc with hc | hc
      · exact hclock _ c hc
      · exact hzone c hc

/-- Nothing is trimmed off such a text, nor taken off as a quote. -/
theorem IsMark.ink {c : Char} (h : IsMark c) : isBlank c = false ∧ c ≠ '"' ∧ c ≠ '\'' := by
  rcases h with hdigit | hmark
  · exact ⟨isBlank_of_isDigit hdigit, Double.ne_of_isDigit hdigit rfl, Double.ne_of_isDigit hdigit rfl⟩
  · simp only [List.mem_cons, List.not_mem_nil, or_false] at hmark
    rcases hmark with rfl | rfl | rfl | rfl <;> decide

theorem trim_renderWhole (i : Instant) : trim i.renderWhole.toList = i.renderWhole.toList :=
  (Trimmed.of_ink fun c hc => (isMark_of_mem_renderWhole c hc).ink.1).trim

theorem read?_renderWhole (h : i.Valid) (hfirst : 0 ≤ i.date.year) (hlast : i.date.year ≤ 9999) :
    read? i.renderWhole = some i.second := by
  apply read?_eq_some.mpr
  rw [trim_renderWhole]
  exact .inl (readStrict_renderWhole h hfirst hlast)

/-- The text tells the second. -/
theorem second_eq_of_renderWhole {j : Instant} (hi : i.Valid) (hj : j.Valid)
    (h : i.renderWhole = j.renderWhole) : i.second = j.second := by
  have hread := readWire_renderWhole hi
  rw [h, readWire_renderWhole hj] at hread
  exact (Except.ok.inj hread).symm

/-- An instant is not before its second, and is at its start if nothing is dropped. -/
theorem compare_second (i : Instant) :
    i.compare i.second = if i.nanos % 1000000000 = 0 then .eq else .gt := by
  have hseconds : Ord.compare i.seconds i.second.seconds = .eq := Int.compare_eq_eq.mpr rfl
  have hnanos : i.second.nanos = i.nanos / 1000000000 * 1000000000 := rfl
  unfold Instant.compare
  rw [hseconds, Ordering.eq_then, hnanos]
  split
  · next hwhole =>
    rw [Nat.compare_eq_eq]
    omega
  · next hpart =>
    rw [Nat.compare_eq_gt]
    omega

end Instant

end Time

namespace Literal

/-- A colon stands in no truth value and in no number. -/
theorem ofWord_of_colon {word : List Char} (h : ':' ∈ word) :
    ofWord word = .text (String.ofList word) := by
  refine ofWord_eq_self.mpr ⟨String.toList_ofList, ?_, ?_⟩
  · intro b hspells
    have hlower := hspells.toLower_mem h
    revert hlower
    decide
  · rintro x ⟨_, _, _, _, hnumeral, -⟩
    rcases hnumeral.char_cases h with hdigit | hsymbol
    · revert hdigit
      decide
    · simp at hsymbol

theorem ofChars_renderWhole (i : Time.Instant) :
    ofChars i.renderWhole.toList = .text i.renderWhole := by
  have hbare : ¬ Enclosed i.renderWhole.toList := by
    rintro ⟨quote, inner, hquote, heq⟩
    have hmark : Time.Instant.IsMark quote :=
      Time.Instant.isMark_of_mem_renderWhole quote (by rw [heq]; exact List.mem_cons_self)
    exact hquote.elim hmark.ink.2.1 hmark.ink.2.2
  have hcolon : ':' ∈ i.renderWhole.toList := by
    rw [Time.Instant.toList_renderWhole]
    simp
  rw [ofChars, Time.Instant.trim_renderWhole, unquote_bare hbare, ofWord_of_colon hcolon,
    String.ofList_toList]

end Literal

namespace Condition

theorem parse_createdAt (op : Operator) (i : Time.Instant) :
    parse ("created_at " ++ op.token ++ " " ++ i.renderWhole) =
      .ok ⟨"created_at", op, .text i.renderWhole⟩ := by
  have hblank : trim i.renderWhole.toList ≠ [] := by
    rw [Time.Instant.trim_renderWhole, Time.Instant.toList_renderWhole]
    simp
  rw [← Literal.ofChars_renderWhole]
  exact parse_spaced .createdAt op hblank

/-- The text has no fraction of a second, so that only an instant without one is as late. -/
theorem holdsOf_equal {i : Time.Instant} (h : Time.Instant.read? i.renderWhole = some i.second) :
    HoldsOf ⟨"created_at", .equal, .text i.renderWhole⟩ (.timestamp i) ↔ i.nanos % 1000000000 = 0 := by
  simp [HoldsOf, FieldValue.compare?, h, Time.Instant.compare_second]

/-- No instant is before the second that it is in. -/
theorem holdsOf_greaterOrEqual {i : Time.Instant}
    (h : Time.Instant.read? i.renderWhole = some i.second) :
    HoldsOf ⟨"created_at", .greaterOrEqual, .text i.renderWhole⟩ (.timestamp i) := by
  by_cases hwhole : i.nanos % 1000000000 = 0 <;>
    simp [HoldsOf, FieldValue.compare?, h, Time.Instant.compare_second, hwhole]

theorem holds_createdAt {op : Operator} {v : Literal} {r : Record} :
    Holds ⟨"created_at", op, v⟩ r ↔ HoldsOf ⟨"created_at", op, v⟩ (.timestamp r.createdAt) := by
  have hfield : Field.ofName? "created_at" = some .createdAt := by decide
  simp [Holds, hfield, Record.get, FieldValue.elements]

end Condition

namespace Segment

/-- A condition that asks for no pattern can be evaluated. -/
theorem evaluate_compared (s : Store) {text : String} {c : Condition}
    (hparse : Condition.parse text = .ok c) (hop : c.operator ≠ .matching) :
    ∃ rs, evaluate .open_ s (some [text]) = .ok rs ∧ ∀ r, r ∈ rs ↔ r ∈ s.records ∧ c.Holds r := by
  classical
  have hsearchable : ∀ t ∈ [text], Searchable t := by
    intro t ht d hd
    rw [List.mem_singleton.mp ht, hparse] at hd
    cases hd
    rcases Matcher.ofFilter_toFilter c with ⟨hm, -⟩ | ⟨-, hmatching, -⟩
    · exact hm
    · exact absurd hmatching hop
  refine ⟨_, evaluate_eq_ok.mpr ⟨rfl, hsearchable, rfl⟩, fun r => ?_⟩
  rw [List.mem_filter, decide_eq_true_iff]
  simp [Passes, hparse]

/-- The text of a record's moment, which patterns see, is read as the second of that moment, in the
years 0 to 9999. So the record is kept where it is asked to be as late as its own text just if no
fraction is dropped, and where it is asked to be as late or later in any case; and records of other
seconds have other texts. -/
theorem evaluate_own_text {r : Record} (h : r.createdAt.Valid) (hfirst : 0 ≤ r.createdAt.date.year)
    (hlast : r.createdAt.date.year ≤ 9999) {text : String}
    (htext : (r.get .createdAt).textForm? = some text) :
    Time.Instant.read? text = some r.createdAt.second ∧
    (∀ s : Store, r ∈ s.records →
      (∃ rs, evaluate .open_ s (some ["created_at = " ++ text]) = .ok rs ∧
        (r ∈ rs ↔ r.createdAt.nanos % 1000000000 = 0)) ∧
      ∃ rs, evaluate .open_ s (some ["created_at >= " ++ text]) = .ok rs ∧ r ∈ rs) ∧
    (∀ t : Record, t.createdAt.Valid → t.createdAt.second ≠ r.createdAt.second →
      (t.get .createdAt).textForm? ≠ some text) := by
  have hread := Time.Instant.read?_renderWhole h hfirst hlast
  obtain rfl : r.createdAt.renderWhole = text := Option.some.inj htext
  refine ⟨hread, fun s hr => ⟨?_, ?_⟩, fun t ht hsecond hsame => ?_⟩
  · obtain ⟨rs, hrs, hmem⟩ := evaluate_compared s (Condition.parse_createdAt .equal r.createdAt)
      (show Operator.equal ≠ .matching by decide)
    refine ⟨rs, hrs, ?_⟩
    rw [hmem, Condition.holds_createdAt, Condition.holdsOf_equal hread]
    exact and_iff_right hr
  · obtain ⟨rs, hrs, hmem⟩ :=
      evaluate_compared s (Condition.parse_createdAt .greaterOrEqual r.createdAt)
        (show Operator.greaterOrEqual ≠ .matching by decide)
    refine ⟨rs, hrs, ?_⟩
    rw [hmem, Condition.holds_createdAt]
    exact ⟨hr, Condition.holdsOf_greaterOrEqual hread⟩
  · exact hsecond (Time.Instant.second_eq_of_renderWhole ht h (Option.some.inj hsame))

/-- Half a second into the leap second at the end of 2016. -/
def fireworks : Record :=
  ⟨1, "Fireworks", .ofInt 20, "instock", none, "Party", [], false, ⟨1483228799, 1500000000⟩⟩

theorem evaluate_own_text_leap_second :
    (fireworks.createdAt.Valid ∧
      (fireworks.get .createdAt).textForm? = some "2016-12-31T23:59:60+00:00") ∧
    Time.Instant.read? "2016-12-31T23:59:60+00:00" = some ⟨1483228799, 1000000000⟩ ∧
    (∃ rs, evaluate .open_ (.ofRecords [fireworks]) (some ["created_at = 2016-12-31T23:59:60+00:00"]) =
      .ok rs ∧ fireworks ∉ rs) ∧
    ∃ rs, evaluate .open_ (.ofRecords [fireworks]) (some ["created_at >= 2016-12-31T23:59:60+00:00"]) =
      .ok rs ∧ fireworks ∈ rs := by
  have hvalid : fireworks.createdAt.Valid := ⟨by decide, by decide, by decide, by decide⟩
  have htext : (fireworks.get .createdAt).textForm? = some "2016-12-31T23:59:60+00:00" := by decide
  obtain ⟨hread, hselected, -⟩ := evaluate_own_text hvalid (by decide) (by decide) htext
  have hmem : fireworks ∈ (Store.ofRecords [fireworks]).records := List.mem_singleton.mpr rfl
  obtain ⟨⟨rs, hrs, hequal⟩, hlater⟩ := hselected (.ofRecords [fireworks]) hmem
  refine ⟨⟨hvalid, htext⟩, hread, ⟨rs, hrs, ?_⟩, hlater⟩
  rw [hequal]
  decide

end Segment

end Segments
