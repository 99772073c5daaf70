import Segments.Proofs.DisplayedConditions

namespace Segments.Literal

open Text

/-- The word in a text is what stands between the blanks at its ends, without the pair of equal straight
quotes around it if there is one. -/
inductive Word : List Char → List Char → Prop
  | quoted {lead inner tail : List Char} {quote : Char} : Blanks lead → quote = '"' ∨ quote = '\'' →
      Blanks tail → Word (lead ++ quote :: (inner ++ [quote]) ++ tail) inner
  | bare {lead body tail : List Char} : Blanks lead → Trimmed body → ¬ Enclosed body → Blanks tail →
      Word (lead ++ body ++ tail) body

def Spells (word : List Char) (b : Bool) : Prop :=
  lowerAscii word = (if b then "true" else "false").toList

instance (word : List Char) (b : Bool) : Decidable (Spells word b) :=
  inferInstanceAs (Decidable (_ = _))

/-- A word that writes a number, and the number that lies nearest to it, if that is finite. -/
def Denotes (word : List Char) (x : Double) : Prop :=
  ∃ negative digits scale p, Double.Numeral word negative digits scale ∧
    Double.Rounds (digits * 10 ^ scale) p ∧ p < Double.infinity ∧ x = .ofPlace negative p

theorem trimmed_enclosed {quote : Char} {inner : List Char} (h : quote = '"' ∨ quote = '\'') :
    Trimmed (quote :: (inner ++ [quote])) := by
  have hquote : isBlank quote = false := by rcases h with rfl | rfl <;> decide
  refine ⟨fun c hc => ?_, fun c hc => ?_⟩
  · cases hc
    exact hquote
  · rw [← List.cons_append, List.getLast?_concat, Option.some.injEq] at hc
    rw [← hc]
    exact hquote

theorem Word.unquote_trim {cs word : List Char} (h : Word cs word) : unquote (trim cs) = word := by
  cases h with
  | quoted hlead hquote htail =>
    rw [trim_append hlead (trimmed_enclosed hquote) htail, unquote_enclosed hquote]
  | bare hlead hbody hbare htail => rw [trim_append hlead hbody htail, unquote_bare hbare]

theorem word_unquote_trim (cs : List Char) : Word cs (unquote (trim cs)) := by
  obtain ⟨lead, rest, rfl, hlead, hrest⟩ := exists_run isBlank cs
  obtain ⟨body, tail, rfl, hbody, htail⟩ := exists_trimmed_append hrest
  rw [← List.append_assoc, trim_append hlead hbody htail]
  by_cases henclosed : Enclosed body
  · obtain ⟨quote, inner, hquote, rfl⟩ := henclosed
    rw [unquote_enclosed hquote]
    exact .quoted hlead hquote htail
  · rw [unquote_bare henclosed]
    exact .bare hlead hbody henclosed htail

theorem word_iff {cs word : List Char} : Word cs word ↔ word = unquote (trim cs) := by
  constructor
  · exact fun h => h.unquote_trim.symm
  · rintro rfl
    exact word_unquote_trim cs

theorem ofWord_of_spells {word : List Char} {b : Bool} (h : Spells word b) :
    ofWord word = .boolean b := by
  cases b with
  | true => exact ofWord_true h
  | false => exact ofWord_false h

theorem ofWord_of_not_spells {word : List Char} (h : ∀ b, ¬ Spells word b) :
    ofWord word = (Double.readFinite? word).elim (.text (String.ofList word)) .number :=
  ofWord_else (h true) (h false)

/-- A number has a digit, and the truth values have none. -/
theorem not_spells_of_numeral {word : List Char} {negative : Bool} {digits : Nat} {scale : Int}
    (h : Double.Numeral word negative digits scale) (b : Bool) : ¬ Spells word b := by
  cases b with
  | true => exact h.lowerAscii_ne (.inr (.inl (by decide)))
  | false => exact h.lowerAscii_ne (.inr (.inr (by decide)))

theorem ofWord_eq_boolean {word : List Char} {b : Bool} :
    ofWord word = .boolean b ↔ Spells word b := by
  refine ⟨fun h => ?_, ofWord_of_spells⟩
  by_cases hspells : ∃ b, Spells word b
  · obtain ⟨b', hb'⟩ := hspells
    rw [ofWord_of_spells hb', boolean.injEq] at h
    exact h ▸ hb'
  · rw [ofWord_of_not_spells (not_exists.mp hspells)] at h
    cases hread : Double.readFinite? word <;> rw [hread] at h <;> cases h

theorem ofWord_eq_number {word : List Char} {x : Double} :
    ofWord word = .number x ↔ Denotes word x := by
  unfold Denotes
  rw [← Double.readFinite?_eq_some]
  constructor
  · intro h
    by_cases hspells : ∃ b, Spells word b
    · obtain ⟨b, hb⟩ := hspells
      rw [ofWord_of_spells hb] at h
      cases h
    · rw [ofWord_of_not_spells (not_exists.mp hspells)] at h
      cases hread : Double.readFinite? word with
      | none =>
        rw [hread] at h
        cases h
      | some y =>
        rw [hread] at h
        cases h
        rfl
  · intro h
    obtain ⟨_, _, _, _, hnumeral, -⟩ := Double.readFinite?_eq_some.mp h
    rw [ofWord_of_not_spells (not_spells_of_numeral hnumeral), h]
    rfl

theorem numeric_iff {word : List Char} : Numeric word ↔ ∃ x, Denotes word x := by
  constructor
  · rintro ⟨negative, digits, scale, p, hnumeral, hp, hfinite⟩
    exact ⟨_, negative, digits, scale, p, hnumeral, hp, hfinite, rfl⟩
  · rintro ⟨_, negative, digits, scale, p, hnumeral, hp, hfinite, -⟩
    exact ⟨negative, digits, scale, p, hnumeral, hp, hfinite⟩

theorem ofWord_eq_self {word : List Char} {s : String} : ofWord word = .text s ↔
    s.toList = word ∧ (∀ b, ¬ Spells word b) ∧ ∀ x, ¬ Denotes word x := by
  have hspells : (∀ b, ¬ Spells word b) ↔
      lowerAscii word ≠ "true".toList ∧ lowerAscii word ≠ "false".toList := by
    rw [Bool.forall_bool, and_comm]
    rfl
  rw [ofWord_eq_text, numeric_iff, not_exists, hspells, and_rotate (a := s.toList = word)]

theorem isWordChar_of_toLower {c : Char} (h : Condition.isWordChar c.toLower = true) :
    Condition.isWordChar c = true := by
  unfold Char.toLower at h
  split at h
  · next hupper =>
    have hc : c.isUpper = true := decide_eq_true hupper
    show (c.isUpper || c.isLower || c.isDigit || c == '_') = true
    rw [hc, Bool.true_or, Bool.true_or, Bool.true_or]
  · exact h

theorem Spells.toLower_mem {word : List Char} {b : Bool} (h : Spells word b) {c : Char}
    (hc : c ∈ word) : c.toLower ∈ "aeflrstu".toList := by
  have hmem : c.toLower ∈ (if b then "true" else "false").toList := h ▸ List.mem_map_of_mem hc
  cases b with
  | true =>
    have hall : ∀ d ∈ "true".toList, d ∈ "aeflrstu".toList := by simp
    exact hall _ hmem
  | false =>
    have hall : ∀ d ∈ "false".toList, d ∈ "aeflrstu".toList := by simp
    exact hall _ hmem

/-- A character that stands in no truth value and in no number. -/
def Telling (c : Char) : Prop :=
  isBlank c = true ∨ c = '"' ∨ c = '\'' ∨ c.toLower = 'n'

theorem Spells.not_telling {word : List Char} {b : Bool} (h : Spells word b) {c : Char}
    (hc : c ∈ word) : ¬ Telling c := by
  have hletters : ∀ d ∈ "aeflrstu".toList, Condition.isWordChar d = true ∧ d ≠ 'n' := by
    simp [Condition.isWordChar]
  obtain ⟨hlower, hn⟩ := hletters _ (h.toLower_mem hc)
  have hword := isWordChar_of_toLower hlower
  rintro (hblank | rfl | rfl | hletter)
  · rw [Condition.isBlank_of_isWordChar hword] at hblank
    cases hblank
  · cases hword
  · cases hword
  · exact hn hletter

theorem not_telling_of_numeral {word : List Char} {negative : Bool} {digits : Nat} {scale : Int}
    (h : Double.Numeral word negative digits scale) {c : Char} (hc : c ∈ word) : ¬ Telling c := by
  obtain ⟨hink, hdouble, hsingle⟩ := h.ink c hc
  rintro (hblank | rfl | rfl | hletter)
  · rw [hink] at hblank
    cases hblank
  · exact hdouble rfl
  · exact hsingle rfl
  · exact (h.toLower_ne hc).1 hletter

/-- One such character is enough for a word to be kept. -/
theorem ofWord_of_telling {word : List Char} {c : Char} (hc : c ∈ word) (h : Telling c) :
    ofWord word = .text (String.ofList word) := by
  have hnone : Double.readFinite? word = none := by
    refine readFinite?_eq_none.mpr ?_
    rintro ⟨_, _, _, _, hnumeral, -⟩
    exact not_telling_of_numeral hnumeral hc h
  rw [ofWord_of_not_spells fun b hb => hb.not_telling hc h, hnone]
  rfl

/-- Every name of infinity or of not-a-number has an `n`. -/
theorem exists_telling_of_named {word : List Char} {negative : Bool} {x : Double}
    (h : Double.Named word negative x) : ∃ c ∈ word, Telling c := by
  obtain ⟨name, hlower, hn, -⟩ := h.lowerAscii_eq
  rw [← hlower] at hn
  obtain ⟨c, hc, heq⟩ := List.mem_map.mp hn
  exact ⟨c, hc, .inr (.inr (.inr heq))⟩

/-- A number that lies nearest to infinity is kept as a text. -/
theorem ofWord_of_infinite {word : List Char} {negative : Bool} {digits p : Nat} {scale : Int}
    (h : Double.Numeral word negative digits scale) (hp : Double.Rounds (digits * 10 ^ scale) p)
    (hinfinite : Double.infinity ≤ p) : ofWord word = .text (String.ofList word) := by
  have hnone : Double.readFinite? word = none := by
    rw [Double.readFinite?, h.read?, Double.ofDecimal_eq hp, Option.filter_eq_none_iff]
    rintro x hx hfinite
    cases hx
    exact absurd (Double.isFinite_ofPlace.mp hfinite) (Nat.not_lt.mpr hinfinite)
  rw [ofWord_of_not_spells (not_spells_of_numeral h), hnone]
  rfl

/-- Words that are kept to the letter although they name a number, write one that is too large, or have
blanks or quotes in them. -/
inductive Verbatim : List Char → Prop
  | name {sign name : List Char} {negative : Bool} {x : Double} : Double.Sign sign negative →
      Double.Named name negative x → Verbatim (sign ++ name)
  | large {word : List Char} {negative : Bool} {digits p : Nat} {scale : Int} :
      Double.Numeral word negative digits scale → Double.Rounds (digits * 10 ^ scale) p →
      Double.infinity ≤ p → Verbatim word
  | blank {word : List Char} {c : Char} : c ∈ word → isBlank c = true → Verbatim word
  | quote {word : List Char} {c : Char} : c ∈ word → c = '"' ∨ c = '\'' → Verbatim word

theorem Verbatim.ofWord {word : List Char} (h : Verbatim word) :
    ofWord word = .text (String.ofList word) := by
  cases h with
  | name _ hname =>
    obtain ⟨c, hc, htelling⟩ := exists_telling_of_named hname
    exact ofWord_of_telling (List.mem_append_right _ hc) htelling
  | large hnumeral hp hinfinite => exact ofWord_of_infinite hnumeral hp hinfinite
  | blank hc hblank => exact ofWord_of_telling hc (.inl hblank)
  | quote hc hquote => exact ofWord_of_telling hc (.inr (hquote.imp_right .inl))

/-- In quotes every text is kept that is neither a truth value nor a number without them. -/
theorem read_enclosed {quote : Char} (hquote : quote = '"' ∨ quote = '\'') {t : String}
    (hspells : ∀ b, ¬ Spells t.toList b) (hdenotes : ∀ x, ¬ Denotes t.toList x) :
    ofChars (quote :: (t.toList ++ [quote])) = .text t := by
  rw [ofChars, (trimmed_enclosed hquote).trim, unquote_enclosed hquote]
  exact ofWord_eq_self.mpr ⟨rfl, hspells, hdenotes⟩

/-- Every text has one word, and is read as the truth value that the word spells, as the finite number
that lies nearest to the one it writes, or as the word, if it is neither. A text that is neither is
read as it is from between quotes. -/
theorem read_exact (t : String) :
    (∃ word, (∀ other, Word t.toList other ↔ other = word) ∧
      (∀ b, read t = .boolean b ↔ Spells word b) ∧
      (∀ x, read t = .number x ↔ Denotes word x) ∧
      (∀ s, read t = .text s ↔
        s.toList = word ∧ (∀ b, ¬ Spells word b) ∧ ∀ x, ¬ Denotes word x) ∧
      (Verbatim word → read t = .text (String.ofList word))) ∧
    ((∀ b, ¬ Spells t.toList b) → (∀ x, ¬ Denotes t.toList x) →
      read ("\"" ++ t ++ "\"") = .text t ∧ read ("'" ++ t ++ "'") = .text t) := by
  refine ⟨⟨unquote (trim t.toList), fun other => word_iff, fun b => ofWord_eq_boolean,
    fun x => ofWord_eq_number, fun s => ofWord_eq_self, fun h => h.ofWord⟩, fun hspells hdenotes => ?_⟩
  have htext : ∀ quote : Char,
      (String.singleton quote ++ t ++ String.singleton quote).toList =
        quote :: (t.toList ++ [quote]) := by
    intro quote
    simp [String.toList_append]
  constructor
  · exact (congrArg ofChars (htext '"')).trans (read_enclosed (.inl rfl) hspells hdenotes)
  · exact (congrArg ofChars (htext '\'')).trans (read_enclosed (.inr rfl) hspells hdenotes)

/-- A name of infinity is kept, and so are the blanks and the quote that stand between quotes. -/
theorem read_exact_spaced :
    (Verbatim "-Infinity".toList ∧ read " '-Infinity' " = .text "-Infinity") ∧
      (∀ b, ¬ Spells " it's ".toList b) ∧ (∀ x, ¬ Denotes " it's ".toList x) ∧
        read "\" it's \"" = .text " it's " := by
  have hname : Verbatim "-Infinity".toList := .name .minus (.infinity (.inr (by decide)))
  have hspells : ∀ b, ¬ Spells " it's ".toList b := by decide
  have hdenotes : ∀ x, ¬ Denotes " it's ".toList x := by
    rintro x ⟨_, _, _, _, hnumeral, -⟩
    exact not_telling_of_numeral hnumeral (c := ' ') (by decide) (.inl (by decide))
  refine ⟨⟨hname, ?_⟩, hspells, hdenotes, ((read_exact " it's ").2 hspells hdenotes).1⟩
  obtain ⟨⟨word, hword, -, -, -, hverbatim⟩, -⟩ := read_exact " '-Infinity' "
  have hblank : Blanks [' '] := by simp [Blanks, isBlank]
  have heq : "-Infinity".toList = word :=
    (hword _).mp (@Word.quoted [' '] "-Infinity".toList [' '] '\'' hblank (.inr rfl) hblank)
  rw [← heq] at hverbatim
  exact hverbatim hname

end Segments.Literal
