import Mathlib.Data.List.Forall2
import Mathlib.Data.List.Perm.Basic
import Segments.Condition.Basic

namespace Segments.Condition

def skip? (entry : String × Nat) : Option Skip :=
  match read entry.1 with
  | .ok _ => none
  | .error m => some ⟨entry.2, m.text, m.reason⟩

def isCondition (text : String) : Bool :=
  (parse text).isOk

def Skip.shift (before : Nat) (s : Skip) : Skip :=
  { s with index := before + s.index }

def unskipped (texts : List String) : List String :=
  (texts.zipIdx.filter fun entry =>
    entry.2 ∉ (compile texts).skipped.map Skip.index).map Prod.fst

/-- Puts skips back in their places, and conditions in the places between them. -/
def merge (index : Nat) : List Condition → List Skip → List (Except Misreading Condition)
  | cs, [] => cs.map .ok
  | cs, s :: ss =>
    if s.index = index then .error ⟨s.condition, s.reason⟩ :: merge (index + 1) cs ss
    else
      match cs with
      | [] => []
      | c :: cs => .ok c :: merge (index + 1) cs (s :: ss)
termination_by cs ss => cs.length + ss.length

theorem read_of_ok {text : String} {c : Condition} (h : parse text = .ok c) : read text = .ok c := by
  rw [read, h]

theorem read_of_error {text : String} {reason : Reason} (h : parse text = .error reason) :
    read text = .error ⟨text, reason⟩ := by
  rw [read, h]

theorem skip?_of_ok {text : String} {c : Condition} (h : parse text = .ok c) (index : Nat) :
    skip? (text, index) = none := by
  rw [skip?, read_of_ok h]

theorem skip?_of_error {text : String} {reason : Reason} (h : parse text = .error reason)
    (index : Nat) : skip? (text, index) = some ⟨index, text, reason⟩ := by
  rw [skip?, read_of_error h]

theorem skip?_eq_some {entry : String × Nat} {s : Skip} (h : skip? entry = some s) :
    s.index = entry.2 ∧ s.condition = entry.1 ∧ read entry.1 = .error ⟨entry.1, s.reason⟩ := by
  obtain ⟨text, index⟩ := entry
  cases ht : parse text with
  | ok c =>
    rw [skip?_of_ok ht] at h
    cases h
  | error reason =>
    rw [skip?_of_error ht] at h
    cases h
    exact ⟨rfl, rfl, read_of_error ht⟩

/-- Each text is skipped by itself; its place is all that it learns of the others. -/
theorem skipped_compileFrom (index : Nat) (texts : List String) :
    (compileFrom index texts).skipped = (texts.zipIdx index).filterMap skip? := by
  induction texts generalizing index with
  | nil => rfl
  | cons t ts ih =>
    rw [List.zipIdx_cons]
    cases ht : parse t with
    | ok c =>
      rw [List.filterMap_cons_none (skip?_of_ok ht index), ← ih]
      simp only [compileFrom, read_of_ok ht]
    | error reason =>
      rw [List.filterMap_cons_some (skip?_of_error ht index), ← ih]
      simp only [compileFrom, read_of_error ht]

/-- Where a list stands in another one only shifts its skips. -/
theorem skipped_shift (before : Nat) (texts : List String) :
    (compileFrom before texts).skipped = (compile texts).skipped.map (Skip.shift before) := by
  rw [compile, skipped_compileFrom, skipped_compileFrom, List.zipIdx_eq_map_add, List.filterMap_map,
    List.map_filterMap]
  refine List.filterMap_congr fun entry _ => ?_
  obtain ⟨text, index⟩ := entry
  cases ht : parse text with
  | ok c => simp [skip?_of_ok ht]
  | error reason => simp [skip?_of_error ht, Skip.shift]

/-- Only the places of the later skips depend on the earlier texts. -/
theorem compile_append (texts others : List String) : compile (texts ++ others) =
    ⟨(compile texts).conditions ++ (compile others).conditions,
      (compile texts).skipped ++ (compile others).skipped.map (Skip.shift texts.length)⟩ := by
  have hconditions : (compile (texts ++ others)).conditions =
      (compile texts).conditions ++ (compile others).conditions := by
    simp only [compile, conditions_compileFrom, List.filterMap_append]
  have hskipped : (compile (texts ++ others)).skipped =
      (compile texts).skipped ++ (compile others).skipped.map (Skip.shift texts.length) := by
    rw [← skipped_shift]
    simp only [compile, skipped_compileFrom, List.zipIdx_append, List.filterMap_append, Nat.zero_add]
  rw [← hconditions, ← hskipped]

theorem pairwise_zipIdx (index : Nat) (texts : List String) :
    (texts.zipIdx index).Pairwise fun a b => a.2 < b.2 := by
  have h : ((texts.zipIdx index).map Prod.snd).Pairwise (· < ·) := by
    rw [List.zipIdx_map_snd]
    exact List.pairwise_lt_range'
  exact List.pairwise_map.mp h

theorem pairwise_skipped (texts : List String) :
    (compile texts).skipped.Pairwise fun s s' => s.index < s'.index := by
  rw [compile, skipped_compileFrom]
  refine (pairwise_zipIdx 0 texts).filterMap skip? fun a b hab s hs s' hs' => ?_
  rw [(skip?_eq_some hs).1, (skip?_eq_some hs').1]
  exact hab

/-- A skip shows the text at its place, and why that is no condition. -/
theorem of_mem_skipped {index : Nat} {texts : List String} {s : Skip}
    (h : s ∈ (compileFrom index texts).skipped) :
    index ≤ s.index ∧ texts[s.index - index]? = some s.condition ∧
      read s.condition = .error ⟨s.condition, s.reason⟩ := by
  rw [skipped_compileFrom] at h
  obtain ⟨⟨text, place⟩, hentry, hs⟩ := List.mem_filterMap.mp h
  obtain ⟨hindex, hcondition, hread⟩ := skip?_eq_some hs
  rw [List.mem_zipIdx_iff_le_and_getElem?_sub] at hentry
  rw [hindex, hcondition]
  exact ⟨hentry.1, hentry.2, hread⟩

theorem merge_kept {index : Nat} (c : Condition) (cs : List Condition) {ss : List Skip}
    (h : ∀ s ∈ ss, index < s.index) :
    merge index (c :: cs) ss = .ok c :: merge (index + 1) cs ss := by
  cases ss with
  | nil => rw [merge, merge, List.map_cons]
  | cons s ss => rw [merge, if_neg (Nat.ne_of_gt (h s List.mem_cons_self))]

theorem merge_skip (index : Nat) (cs : List Condition) (ss : List Skip) (text : String)
    (reason : Reason) : merge index cs (⟨index, text, reason⟩ :: ss) =
      .error ⟨text, reason⟩ :: merge (index + 1) cs ss := by
  cases cs <;> rw [merge, if_pos rfl]

/-- What was kept and what was skipped are the list again, each in its place. -/
theorem merge_compileFrom (index : Nat) (texts : List String) :
    merge index (compileFrom index texts).conditions (compileFrom index texts).skipped =
      texts.map read := by
  induction texts generalizing index with
  | nil => simp [compileFrom, merge]
  | cons t ts ih =>
    rw [List.map_cons, ← ih (index + 1)]
    cases ht : parse t with
    | ok c =>
      -- the next skip stands further on, so the condition is in this place
      simp only [compileFrom, read_of_ok ht]
      exact merge_kept c _ fun s hs => (of_mem_skipped hs).1
    | error reason =>
      simp only [compileFrom, read_of_error ht]
      exact merge_skip index _ _ t reason

theorem isCondition_of_ok {text : String} {c : Condition} (h : parse text = .ok c) :
    isCondition text = true := by
  rw [isCondition, h]
  rfl

theorem isCondition_of_error {text : String} {reason : Reason} (h : parse text = .error reason) :
    isCondition text = false := by
  rw [isCondition, h]
  rfl

def places (texts : List String) : List Nat :=
  (texts.zipIdx.filter fun entry => isCondition entry.1).map Prod.snd

theorem map_index_skipped (texts : List String) : (compile texts).skipped.map Skip.index =
    (texts.zipIdx.filter fun entry => !isCondition entry.1).map Prod.snd := by
  rw [compile, skipped_compileFrom]
  induction texts.zipIdx with
  | nil => rfl
  | cons entry entries ih =>
    obtain ⟨text, index⟩ := entry
    cases ht : parse text with
    | ok c =>
      rw [List.filterMap_cons_none (skip?_of_ok ht index), ih, List.filter_cons_of_neg]
      simp [isCondition_of_ok ht]
    | error reason =>
      rw [List.filterMap_cons_some (skip?_of_error ht index), List.map_cons, ih,
        List.filter_cons_of_pos (by simp [isCondition_of_error ht]), List.map_cons]

/-- Every place is that of a condition or of a skip, and of one only. -/
theorem places_append_skipped (texts : List String) :
    (places texts ++ (compile texts).skipped.map Skip.index).Perm (List.range texts.length) := by
  have hperm := (List.filter_append_perm (fun entry : String × Nat => isCondition entry.1)
    texts.zipIdx).map Prod.snd
  rw [List.map_append, List.zipIdx_map_snd, ← List.range_eq_range'] at hperm
  rw [map_index_skipped]
  exact hperm

theorem pairwise_places (texts : List String) : (places texts).Pairwise (· < ·) :=
  List.pairwise_map.mpr ((pairwise_zipIdx 0 texts).filter _)

/-- The conditions are those of the texts in these places, in this order. -/
theorem forall₂_places (texts : List String) :
    List.Forall₂ (fun index c => ∃ t, texts[index]? = some t ∧ read t = .ok c) (places texts)
      (compile texts).conditions := by
  have hall : ∀ entries : List (String × Nat),
      (∀ entry ∈ entries, texts[entry.2]? = some entry.1) →
      List.Forall₂ (fun index c => ∃ t, texts[index]? = some t ∧ read t = .ok c)
        ((entries.filter fun entry => isCondition entry.1).map Prod.snd)
        ((entries.map Prod.fst).filterMap fun t => (parse t).toOption) := by
    intro entries hentries
    induction entries with
    | nil => exact .nil
    | cons entry entries ih =>
      rw [List.forall_mem_cons] at hentries
      obtain ⟨text, index⟩ := entry
      cases ht : parse text with
      | ok c =>
        rw [List.filter_cons_of_pos (by simp [isCondition_of_ok ht]), List.map_cons, List.map_cons,
          List.filterMap_cons_some (by rw [ht]; rfl)]
        exact .cons ⟨text, hentries.1, read_of_ok ht⟩ (ih hentries.2)
      | error reason =>
        rw [List.filter_cons_of_neg (by simp [isCondition_of_error ht]), List.map_cons,
          List.filterMap_cons_none (by rw [ht]; rfl)]
        exact ih hentries.2
  have hplaces := hall texts.zipIdx fun entry hentry => List.mem_zipIdx_iff_getElem?.mp hentry
  rw [List.zipIdx_map_fst] at hplaces
  rwa [compile, conditions_compileFrom]

theorem unskipped_eq (texts : List String) : unskipped texts = texts.filter isCondition := by
  have hfilter : (texts.zipIdx.filter fun entry =>
      entry.2 ∉ (compile texts).skipped.map Skip.index) =
        texts.zipIdx.filter fun entry => isCondition entry.1 := by
    refine List.filter_congr fun entry hentry => ?_
    rw [List.mem_zipIdx_iff_getElem?] at hentry
    rw [map_index_skipped]
    cases hcondition : isCondition entry.1 with
    | true =>
      refine decide_eq_true fun hskipped => ?_
      obtain ⟨other, hother, hindex⟩ := List.mem_map.mp hskipped
      obtain ⟨hmem, hnot⟩ := List.mem_filter.mp hother
      rw [List.mem_zipIdx_iff_getElem?, hindex, hentry, Option.some.injEq] at hmem
      rw [← hmem, hcondition] at hnot
      cases hnot
    | false =>
      refine decide_eq_false (not_not_intro (List.mem_map.mpr ⟨entry, ?_, rfl⟩))
      exact List.mem_filter.mpr ⟨List.mem_zipIdx_iff_getElem?.mpr hentry, by rw [hcondition]; rfl⟩
  rw [unskipped, hfilter]
  conv_rhs => rw [← List.zipIdx_map_fst 0 texts, List.filter_map]
  rfl

/-- The skipped texts can be left out beforehand. -/
theorem compile_unskipped (texts : List String) :
    compile (unskipped texts) = ⟨(compile texts).conditions, []⟩ := by
  have hconditions : (compile (unskipped texts)).conditions = (compile texts).conditions := by
    simp only [compile, conditions_compileFrom, unskipped_eq, List.filterMap_filter]
    refine List.filterMap_congr fun text _ => ?_
    cases ht : parse text with
    | ok c => rw [isCondition_of_ok ht, if_pos rfl]
    | error reason =>
      rw [isCondition_of_error ht, if_neg Bool.false_ne_true]
      rfl
  have hskipped : (compile (unskipped texts)).skipped = [] := by
    rw [← List.map_eq_nil_iff (f := Skip.index), map_index_skipped, List.map_eq_nil_iff,
      List.filter_eq_nil_iff]
    intro entry hentry
    have hmem := List.mem_of_getElem? (List.mem_zipIdx_iff_getElem?.mp hentry)
    rw [unskipped_eq, List.mem_filter] at hmem
    rw [hmem.2]
    exact Bool.false_ne_true
  rw [← hconditions, ← hskipped]

/-- Compiling loses nothing: every place of the list has either its condition or one skip with the text
and what is wrong with it, the two lists put the outcome of every text back in its place, lists behind
each other are compiled one by one, and without the texts that were skipped the conditions are the same. -/
theorem compile_lossless (texts : List String) :
    (∃ kept : List Nat, kept.Pairwise (· < ·) ∧
      List.Forall₂ (fun index c => ∃ t, texts[index]? = some t ∧ read t = .ok c) kept
        (compile texts).conditions ∧
      (kept ++ (compile texts).skipped.map Skip.index).Perm (List.range texts.length)) ∧
    (∀ s ∈ (compile texts).skipped, texts[s.index]? = some s.condition ∧
      read s.condition = .error ⟨s.condition, s.reason⟩) ∧
    ((compile texts).skipped.Pairwise fun s s' => s.index < s'.index) ∧
    merge 0 (compile texts).conditions (compile texts).skipped = texts.map read ∧
    (∀ others, compile (texts ++ others) =
      ⟨(compile texts).conditions ++ (compile others).conditions,
        (compile texts).skipped ++ (compile others).skipped.map (Skip.shift texts.length)⟩) ∧
    compile (unskipped texts) = ⟨(compile texts).conditions, []⟩ := by
  refine ⟨⟨places texts, pairwise_places texts, forall₂_places texts, places_append_skipped texts⟩,
    fun s hs => ?_, pairwise_skipped texts, merge_compileFrom 0 texts,
    fun others => compile_append texts others, compile_unskipped texts⟩
  obtain ⟨-, htext, hread⟩ := of_mem_skipped hs
  exact ⟨htext, hread⟩

/-- The second text is none, and is told by its place and as it was given. -/
theorem compile_lossless_blank :
    ⟨1, " oops ", .noOperator⟩ ∈ (compile ["price > 10", " oops ", "on_sale = true"]).skipped ∧
      ["price > 10", " oops ", "on_sale = true"][1]? = some " oops " ∧
      read " oops " = .error ⟨" oops ", .noOperator⟩ := by
  have hmem : ⟨1, " oops ", .noOperator⟩ ∈
      (compile ["price > 10", " oops ", "on_sale = true"]).skipped := by
    decide +kernel
  exact ⟨hmem, (compile_lossless ["price > 10", " oops ", "on_sale = true"]).2.1 _ hmem⟩

end Segments.Condition
