import Segments.Proofs.LiteralSearch
import Segments.Proofs.Numerals

namespace Segments

namespace Pattern

open Text

def IsBare (c : Char) : Prop :=
  isMeta c = false ∨ c = '-' ∨ c = '.'

def partOf (c : Char) : Tree :=
  if c = '.' then .anyChar else literal .plain c

theorem readBranches_bare (fuel : Nat) (parts : List Tree) {c : Char} (h : IsBare c)
    (rest : List Char) : readBranches (fuel + 1) [] parts ⟨c :: rest, false, []⟩ =
      readBranches fuel [] (partOf c :: parts) ⟨rest, false, []⟩ := by
  rcases h with h | rfl | rfl
  · have hplain := readBranches_escapedChar fuel parts c rest
    have hpoint : c ≠ '.' := by
      rintro rfl
      exact absurd h (by decide)
    simpa [escapedChar, treeOf, partOf, h, hpoint] using hplain
  · simp [readBranches, skip, readPart, partOf]
  · simp [readBranches, skip, readPart, partOf]

theorem readBranches_run {cs : List Char} (h : ∀ c ∈ cs, IsBare c) (fuel : Nat) (parts : List Tree)
    (rest : List Char) : readBranches (cs.length + fuel) [] parts ⟨cs ++ rest, false, []⟩ =
      readBranches fuel [] ((cs.map partOf).reverse ++ parts) ⟨rest, false, []⟩ := by
  induction cs generalizing parts with
  | nil => simp
  | cons c cs ih =>
    rw [List.forall_mem_cons] at h
    rw [List.length_cons, Nat.add_right_comm, List.cons_append, readBranches_bare _ _ h.1, ih h.2]
    simp

/-- The pattern of a text by its parts. -/
theorem compile_parts {text : String} (ts : List Tree) {es : List Expr}
    (hread : readBranches (text.toList.length + 1) [] [] ⟨text.toList, false, []⟩ =
      some (.ofReversed ts.reverse, ⟨[], false, []⟩))
    (hdepth : ∀ t ∈ ts, t.depth ≤ 1)
    (hts : List.Forall₂ (fun t e => Expr.ofTree? .start t = some (e, .start)) ts es) :
    compile text = if (Expr.ofParts es).fits then .ok ⟨.ofParts es⟩ else .error .tooLarge := by
  simp only [compile, read?_parts hread hdepth, Option.bind_some, ofTree?_ofReversed hts]

def setOf (c : Char) : CodeSet :=
  if c = '.' then (CodeSet.ofCodes [10]).complement else caseless c

theorem depth_partOf (c : Char) : (partOf c).depth = 0 := by
  unfold partOf
  split <;> rfl

theorem ofTree?_partOf (c : Char) :
    Expr.ofTree? .start (partOf c) = some (.one (setOf c), .start) := by
  unfold partOf setOf
  split
  · rfl
  · simp [literal, Expr.ofTree?, Flags.character?, Flags.start, caseless]

theorem depth_le_of_mem_parts {cs : List Char} {t : Tree} (ht : t ∈ cs.map partOf) :
    t.depth ≤ 1 := by
  obtain ⟨c, -, rfl⟩ := List.mem_map.mp ht
  rw [depth_partOf]
  exact Nat.zero_le 1

theorem ofTree?_parts (cs : List Char) :
    List.Forall₂ (fun t e => Expr.ofTree? .start t = some (e, .start))
      (cs.map partOf) ((cs.map setOf).map .one) := by
  rw [List.map_map, List.forall₂_map_left_iff, List.forall₂_map_right_iff]
  exact List.forall₂_same.mpr fun c _ => ofTree?_partOf c

theorem compile_bare {text : String} (h : ∀ c ∈ text.toList, IsBare c) : compile text =
    if (Expr.ofParts ((text.toList.map setOf).map .one)).fits
    then .ok ⟨.ofParts ((text.toList.map setOf).map .one)⟩ else .error .tooLarge := by
  refine compile_parts (text.toList.map partOf) ?_ (fun _ => depth_le_of_mem_parts)
    (ofTree?_parts _)
  have hrun := readBranches_run h 1 [] []
  rw [List.append_nil, List.append_nil] at hrun
  rw [hrun]
  rfl

/-- Somewhere in the text stands a run of as many characters, each of which is the character in its
place but for case, or stands where a point is. -/
def OccursLoosely (cs text : List Char) : Prop :=
  ∃ run, run <:+: text ∧ List.Forall₂ (fun c d => c = '.' ∨ sameFold c d = true) cs run

theorem Occurs.loosely {cs text : List Char} (h : Occurs cs text) : OccursLoosely cs text := by
  obtain ⟨run, hrun, hall⟩ := h
  exact ⟨run, hrun, hall.imp fun _ _ hsame => .inr hsame⟩

theorem contains_setOf {c d : Char} (h : (setOf c).contains d = true) :
    c = '.' ∨ sameFold c d = true := by
  unfold setOf at h
  split at h
  · next hpoint => exact .inl hpoint
  · exact .inr ((contains_caseless c d).mp h)

theorem contains_setOf_self (c : Char) : (setOf c).contains c = true := by
  unfold setOf
  split
  · next hpoint =>
    rw [hpoint, CodeSet.ofCodes_singleton]
    decide
  · exact (contains_caseless c c).mpr (sameFold_iff.mpr rfl)

/-- A text without a plus sign is found only where it occurs loosely, and in itself. -/
theorem finds_bare {word s : String} (h : ∀ c ∈ word.toList, IsBare c)
    (hfinds : Finds (portable word) s) : OccursLoosely word.toList s.toList := by
  by_cases hkept : Kept word
  · rw [portable_of_kept hkept] at hfinds
    obtain ⟨p, hp, hmatch⟩ := hfinds
    rw [compile_bare h] at hp
    split at hp
    · cases hp
      obtain ⟨i, j, -, hspans⟩ := (found_ofParts _ _).mp hmatch
      obtain ⟨-, run, hrun, hall⟩ := Expr.inTurn_ones.mp hspans
      rw [List.forall₂_map_left_iff] at hall
      exact ⟨run, hrun.isInfix.trans (List.drop_suffix _ _).isInfix,
        hall.imp fun _ _ hc => contains_setOf hc⟩
    · cases hp
  · rw [portable_of_not_kept hkept] at hfinds
    exact (finds_escape.mp hfinds).2.loosely

/-- A point stands for any character, and so for a point. -/
theorem finds_self {word : String} (h : ∀ c ∈ word.toList, IsBare c)
    (hcompiles : ∃ p, compile (portable word) = .ok p) : Finds (portable word) word := by
  by_cases hkept : Kept word
  · rw [portable_of_kept hkept]
    obtain ⟨⟨p, hp⟩, -⟩ := hkept
    refine ⟨p, hp, ?_⟩
    rw [compile_bare h] at hp
    split at hp
    · cases hp
      refine (found_ofParts _ _).mpr
        ⟨0, _, Nat.zero_le _, Expr.inTurn_ones.mpr ⟨rfl, word.toList, ?_, ?_⟩⟩
      · exact List.prefix_refl _
      · rw [List.forall₂_map_left_iff]
        exact List.forall₂_same.mpr fun c _ => contains_setOf_self c
    · cases hp
  · rw [portable_of_not_kept hkept] at hcompiles ⊢
    exact finds_escape.mpr ⟨hcompiles, word.toList, List.infix_refl _,
      List.forall₂_same.mpr fun c _ => sameFold_iff.mpr rfl⟩

theorem Occurs.of_mem {cs text : List Char} (h : Occurs cs text) {c : Char} (hc : c ∈ cs) :
    ∃ d ∈ text, sameFold c d = true := by
  obtain ⟨run, hrun, hall⟩ := h
  have hmem : ∀ {cs run : List Char}, List.Forall₂ (fun c d => sameFold c d = true) cs run →
      c ∈ cs → ∃ d ∈ run, sameFold c d = true := by
    intro cs run hall hc
    induction hall with
    | nil => cases hc
    | cons hsame _ ih =>
      rcases List.mem_cons.mp hc with rfl | hc
      · exact ⟨_, List.mem_cons_self, hsame⟩
      · obtain ⟨d, hd, hsame⟩ := ih hc
        exact ⟨d, List.mem_cons_of_mem _ hd, hsame⟩
  obtain ⟨d, hd, hsame⟩ := hmem hall hc
  exact ⟨d, hrun.subset hd, hsame⟩

/-- A plus sign at the start has nothing before it to repeat. -/
theorem not_kept_plus {word : String} {rest : List Char} (h : word.toList = '+' :: rest) :
    ¬ Kept word := by
  rintro ⟨⟨p, hp⟩, -⟩
  have hread : Tree.read? word.toList = none := by
    rw [h, Tree.read?]
    simp [readBranches, skip, readPart, readPart.mark, repeatLast?]
  rw [compile, hread] at hp
  cases hp

theorem spans_of_mem {subject : Subject} {es : List Expr} {i j : Nat}
    (h : Expr.Spans.inTurn subject es i j) {e : Expr} (he : e ∈ es) :
    ∃ a b, e.Spans subject a b := by
  induction es generalizing i with
  | nil => cases he
  | cons e' es ih =>
    obtain ⟨k, hfirst, hrest⟩ := by simpa only [Expr.Spans.inTurn] using h
    rcases List.mem_cons.mp he with rfl | he
    · exact ⟨i, k, hfirst⟩
    · exact ih hrest he

/-- What is repeated once or more stands there once. -/
theorem exists_of_repetition {subject : Subject} {s : CodeSet} {i j : Nat}
    (h : (Expr.repetition ⟨1, none⟩ (.one s)).Spans subject i j) :
    ∃ c ∈ subject.chars, s.contains c = true := by
  obtain ⟨n, hleast, -, hsteps⟩ := by simpa only [Expr.Spans] using h
  cases hsteps with
  | stay => cases hleast
  | step hstep =>
    obtain ⟨-, c, hc, hcontains⟩ := hstep
    exact ⟨c, List.mem_of_getElem? hc, hcontains⟩

theorem readBranches_plus (fuel : Nat) (parts : List Tree) (c : Char) {ds : List Char}
    (hds : ds.head? ≠ some '?') :
    readBranches (fuel + 1) [] (partOf c :: parts) ⟨'+' :: ds, false, []⟩ =
      readBranches fuel [] (.repetition ⟨1, none⟩ false (partOf c) :: parts) ⟨ds, false, []⟩ := by
  have hlazy : readLazy ds = (false, ds) := by
    unfold readLazy
    split
    · exact absurd rfl hds
    · rfl
  have hrepeat : repeatLast? ⟨1, none⟩ false (partOf c :: parts) =
      some (.repetition ⟨1, none⟩ false (partOf c) :: parts) := by
    unfold partOf literal
    split <;> rfl
  simp [readBranches, skip, readPart, readPart.mark, hlazy, hrepeat]

/-- A plus sign is no part of its own but repeats the digit before it. -/
theorem compile_repeated {word : String} {before ds : List Char} {c : Char}
    (htext : word.toList = before ++ c :: '+' :: ds) (hbefore : ∀ c ∈ before, IsBare c)
    (hc : IsBare c) (hds : ∀ c ∈ ds, IsBare c) (hlast : ds.head? ≠ some '?') : ∃ first rest,
      compile word =
        if (Expr.ofParts (first ++ .repetition ⟨1, none⟩ (.one (setOf c)) :: rest)).fits
        then .ok ⟨.ofParts (first ++ .repetition ⟨1, none⟩ (.one (setOf c)) :: rest)⟩
        else .error .tooLarge := by
  refine ⟨(before.map setOf).map .one, (ds.map setOf).map .one,
    compile_parts (before.map partOf ++
      .repetition ⟨1, none⟩ false (partOf c) :: ds.map partOf) ?_ ?_ ?_⟩
  · have hlength : word.toList.length + 1 = before.length + (ds.length + 1 + 1 + 1) := by
      rw [htext]
      simp only [List.length_append, List.length_cons]
      omega
    rw [hlength, htext, readBranches_run hbefore, readBranches_bare _ _ hc,
      readBranches_plus _ _ _ hlast]
    have hrun := readBranches_run hds 1
      (.repetition ⟨1, none⟩ false (partOf c) :: (before.map partOf).reverse) []
    rw [List.append_nil] at hrun
    rw [List.append_nil, hrun]
    simp [readBranches, skip, Tree.ofBranches]
  · intro t ht
    rcases List.mem_append.mp ht with ht | ht
    · exact depth_le_of_mem_parts ht
    · rcases List.mem_cons.mp ht with rfl | ht
      · simp [Tree.depth, depth_partOf]
      · exact depth_le_of_mem_parts ht
  · refine List.rel_append (ofTree?_parts before) (.cons ?_ (ofTree?_parts ds))
    simp [Expr.ofTree?, ofTree?_partOf]

/-- A plus sign behind a character repeats it, so that the character is needed. -/
theorem exists_of_finds_repeated {word s : String} {before ds : List Char} {c : Char}
    (htext : word.toList = before ++ c :: '+' :: ds) (hbefore : ∀ c ∈ before, IsBare c)
    (hc : IsBare c) (hpoint : c ≠ '.') (hds : ∀ c ∈ ds, IsBare c) (hlast : ds.head? ≠ some '?')
    (hfinds : Finds (portable word) s) : ∃ d ∈ s.toList, sameFold c d = true := by
  by_cases hkept : Kept word
  · rw [portable_of_kept hkept] at hfinds
    obtain ⟨p, hp, hmatch⟩ := hfinds
    obtain ⟨first, rest, hcompile⟩ := compile_repeated htext hbefore hc hds hlast
    rw [hcompile] at hp
    split at hp
    · cases hp
      obtain ⟨i, j, -, hspans⟩ := (found_ofParts _ _).mp hmatch
      obtain ⟨a, b, hrepeated⟩ :=
        spans_of_mem hspans (List.mem_append_right first List.mem_cons_self)
      obtain ⟨d, hd, hcontains⟩ := exists_of_repetition hrepeated
      exact ⟨d, hd, (contains_setOf hcontains).resolve_left hpoint⟩
    · cases hp
  · rw [portable_of_not_kept hkept] at hfinds
    exact (finds_escape.mp hfinds).2.of_mem (by simp [htext])

theorem isBare_of_isDigit {c : Char} (h : isDigit c = true) : IsBare c :=
  .inl (isMeta_eq_false h (by decide))

/-- A written number has no plus sign, or one at its start, or one behind the letter of its
exponent. -/
theorem plus_cases {cs : List Char} {negative : Bool} {digits : Nat} {scale : Int}
    (h : Double.Numeral cs negative digits scale) :
    (∀ c ∈ cs, IsBare c) ∨ (∃ rest, cs = '+' :: rest) ∨
      ∃ before c ds, cs = before ++ c :: '+' :: ds ∧ (∀ c ∈ before, IsBare c) ∧
        (c = 'e' ∨ c = 'E') ∧ Digits ds := by
  have hdigits : ∀ {ds : List Char}, Digits ds → ∀ c ∈ ds, IsBare c :=
    fun hds c hc => isBare_of_isDigit (hds c hc)
  have hletter : ∀ {c : Char}, c = 'e' ∨ c = 'E' → IsBare c := by
    rintro c (rfl | rfl) <;> exact .inl (by decide)
  have hsigns : ∀ {sign : List Char} {minus : Bool}, Double.Sign sign minus →
      sign = ['+'] ∨ ∀ c ∈ sign, IsBare c := by
    intro sign minus hsign
    cases hsign with
    | absent => exact .inr (by simp)
    | plus => exact .inl rfl
    | minus => exact .inr (by simp [IsBare])
  obtain ⟨hsign, hbody⟩ := h
  obtain ⟨hwhole, hpoint, -, hexponent⟩ := hbody
  next sign whole point ds exponent e =>
  have hfraction : ∀ c ∈ point, IsBare c := by
    cases hpoint with
    | absent => simp
    | present hds => simpa [IsBare] using hdigits hds
  rcases hsigns hsign with rfl | hsign
  · exact .inr (.inl ⟨_, rfl⟩)
  · have hfirst : ∀ c ∈ sign ++ (whole ++ point), IsBare c := by
      simp only [List.forall_mem_append]
      exact ⟨hsign, hdigits hwhole, hfraction⟩
    cases hexponent with
    | absent => exact .inl (by simpa using hfirst)
    | @present mark sign' ds' minus hmark hsign' _ hds' =>
      rcases hsigns hsign' with rfl | hsign'
      · exact .inr (.inr ⟨sign ++ (whole ++ point), mark, ds', by simp, hfirst, hmark, hds'⟩)
      · left
        have hlast : ∀ c ∈ mark :: (sign' ++ ds'), IsBare c := by
          simp only [List.forall_mem_cons, List.forall_mem_append]
          exact ⟨hletter hmark, hsign', hdigits hds'⟩
        simp only [List.forall_mem_append] at hfirst ⊢
        exact ⟨hfirst.1, hfirst.2.1, hfirst.2.2, hlast⟩

theorem positional_chars (d : Double.Decimal) :
    ∀ c ∈ Double.positional false d, isDigit c = true ∨ c = '.' := by
  have hdigits := digits_toDigits d.digits
  have hzeros := fun n => digits_zeros n
  intro c hc
  unfold Double.positional at hc
  simp only [Bool.false_eq_true, if_false, List.append_nil] at hc
  split at hc
  · exact .inl ((hdigits.append (hzeros _)) c hc)
  · split at hc
    · unfold Double.withPoint at hc
      rcases List.mem_append.mp hc with hc | hc
      · exact .inl (hdigits c (List.mem_of_mem_take hc))
      · rcases List.mem_cons.mp hc with rfl | hc
        · exact .inr rfl
        · exact .inl (hdigits c (List.mem_of_mem_drop hc))
    · rcases List.mem_cons.mp hc with rfl | hc
      · exact .inl rfl
      · rcases List.mem_cons.mp hc with rfl | hc
        · exact .inr rfl
        · exact .inl (((hzeros _).append hdigits) c hc)

/-- A number is displayed without a plus sign and without an exponent. -/
theorem display_chars {x : Double} (hx : x.isFinite = true) :
    ∀ c ∈ x.display.toList, isDigit c = true ∨ c = '.' ∨ c = '-' := by
  have hsigned : ∀ {negative : Prop} [Decidable negative] {cs : List Char},
      (∀ c ∈ cs, isDigit c = true ∨ c = '.') →
        ∀ c ∈ (if negative then '-' :: cs else cs), isDigit c = true ∨ c = '.' ∨ c = '-' := by
    intro negative _ cs hcs c hc
    split at hc
    · rcases List.mem_cons.mp hc with rfl | hc
      · exact .inr (.inr rfl)
      · exact (hcs c hc).imp_right .inl
    · exact (hcs c hc).imp_right .inl
  have hrender : ∀ c ∈ x.render.toList, isDigit c = true ∨ c = '.' ∨ c = '-' := by
    cases x with
    | nan => cases hx
    | number negative p =>
      have hp : p.val < Double.infinity := by simpa [Double.isFinite] using hx
      have hplace : Double.renderPlace .plain p =
          Double.positional false (Double.shortest .up p) := by
        simp [Double.renderPlace, Double.Layout.plain]
      simp only [Double.render, Double.renderWith, if_pos hp, hplace, String.toList_ofList]
      exact hsigned (positional_chars _)
  unfold Double.display
  split
  · next n hn =>
    split
    · rw [Double.toList_toString_int]
      exact hsigned fun c hc => .inl (digits_toDigits _ c hc)
    · exact hrender
  · exact hrender

theorem toNat_lt_of_display {c : Char} (h : isDigit c = true ∨ c = '.' ∨ c = '-') :
    c.toNat < 65 := by
  rcases h with h | rfl | rfl
  · exact Nat.lt_of_le_of_lt (toNat_of_isDigit h).2 (by decide)
  · decide
  · decide

/-- A character without case differs by more from every other. -/
theorem eq_of_sameFold {c d : Char} (hlow : c.toNat < 65 ∨ d.toNat < 65)
    (h : sameFold c d = true) : c = d := by
  wlog hd : d.toNat < 65 generalizing c d
  · exact (this hlow.symm (sameFold_iff.mpr (sameFold_iff.mp h).symm) (hlow.resolve_right hd)).symm
  have hself := self_mem_orbitOf c
  rw [sameFold_iff.mp h, orbitOf_of_lt hd, List.mem_singleton] at hself
  exact Char.toNat_inj.mp hself

/-- Characters below the letters have no other case; so of two such texts that match each other,
neither has a point where the other has none. -/
theorem eq_of_forall₂ {cs ds : List Char} (hds : ∀ d ∈ ds, d.toNat < 65)
    (h : List.Forall₂ (fun c d => c = '.' ∨ sameFold c d = true) cs ds)
    (h' : List.Forall₂ (fun c d => c = '.' ∨ sameFold c d = true) ds cs) : cs = ds := by
  induction h with
  | nil => rfl
  | cons hc _ ih =>
    cases h' with
    | cons hd hrest =>
      rw [List.forall_mem_cons] at hds
      rw [ih hds.2 hrest]
      congr 1
      -- a point on either side stands for a point only if there is one on the other side too
      rcases hc with rfl | hc
      · rcases hd with rfl | hd
        · rfl
        · exact (eq_of_sameFold (.inr (by decide)) hd).symm
      · exact eq_of_sameFold (.inr hds.1) hc

/-- Two texts that each occur loosely in the other are the same, if in one of them no character has
case. -/
theorem eq_of_occursLoosely {cs ds : List Char} (hds : ∀ d ∈ ds, d.toNat < 65)
    (h : OccursLoosely cs ds) (h' : OccursLoosely ds cs) : cs = ds := by
  obtain ⟨run, hrun, hall⟩ := h
  obtain ⟨run', hrun', hall'⟩ := h'
  have hlength := hall.length_eq.trans_le hrun.length_le
  have hlength' := hall'.length_eq.trans_le hrun'.length_le
  have heq : run = ds := hrun.eq_of_length (by have := hall.length_eq; omega)
  have heq' : run' = cs := hrun'.eq_of_length (by have := hall'.length_eq; omega)
  subst heq heq'
  exact eq_of_forall₂ hds hall hall'

/-- The display of a number is found in the same texts as what was written just if it is what was
written. -/
theorem finds_display_iff {word : String} {x : Double}
    (hread : Double.readFinite? word.toList = some x)
    (hcompiles : ∃ p, compile (portable x.display) = .ok p) :
    (∀ s, Finds (portable x.display) s ↔ Finds (portable word) s) ↔ x.display = word := by
  obtain ⟨negative, digits, scale, p, hnumeral, -, hp, rfl⟩ := Double.readFinite?_eq_some.mp hread
  generalize hx : Double.ofPlace negative p = x at hread hcompiles ⊢
  have hchars := display_chars (x := x) (hx ▸ Double.isFinite_ofPlace.mpr hp)
  have hbare : ∀ c ∈ x.display.toList, IsBare c := fun c hc =>
    (hchars c hc).elim isBare_of_isDigit fun h => h.elim (.inr ∘ .inr) (.inr ∘ .inl)
  have hlow : ∀ c ∈ x.display.toList, c.toNat < 65 := fun c hc => toNat_lt_of_display (hchars c hc)
  constructor
  · intro hsame
    have hself := (hsame _).mp (finds_self hbare hcompiles)
    -- a sign that stands in what was written, or a letter, would have to stand in the display
    have hnone : ∀ c, c = '+' ∨ c = 'e' ∨ c = 'E' →
        ¬ ∃ d ∈ x.display.toList, sameFold c d = true := by
      rintro c hc ⟨d, hd, hfold⟩
      have hcd := eq_of_sameFold (.inr (hlow d hd)) hfold
      subst hcd
      have hno := hchars c hd
      rcases hc with rfl | rfl | rfl <;> revert hno <;> decide
    rcases plus_cases hnumeral with hword | ⟨rest, hplus⟩ | ⟨before, c, ds, htext, hbefore, hc, hds⟩
    · have hback := (hsame word).mpr (finds_self hword ?_)
      · have heq := eq_of_occursLoosely hlow (finds_bare hword hself) (finds_bare hbare hback)
        exact (String.toList_inj.mp heq).symm
      · obtain ⟨q, hq, -⟩ := hself
        exact ⟨q, hq⟩
    · rw [portable_of_not_kept (not_kept_plus hplus)] at hself
      exact absurd ((finds_escape.mp hself).2.of_mem (by simp [hplus])) (hnone '+' (.inl rfl))
    · refine absurd (exists_of_finds_repeated htext hbefore ?_ ?_ ?_ ?_ hself) (hnone c (.inr hc))
      · rcases hc with rfl | rfl <;> exact .inl (by decide)
      · rcases hc with rfl | rfl <;> decide
      · exact fun d hd => isBare_of_isDigit (hds d hd)
      · intro hhead
        exact absurd (hds _ (List.mem_of_head? hhead)) (by decide)
  · intro heq s
    rw [heq]

end Pattern

end Segments
