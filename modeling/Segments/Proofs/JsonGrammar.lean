import Segments.Proofs.JsonTokens

namespace Segments.Json

open Text

def opening (inObject : Bool) : UInt8 :=
  if inObject then 123 else 91

def closing (inObject : Bool) : UInt8 :=
  if inObject then 125 else 93

inductive Part
  | value
  /-- An item of a list, or a member of an object. -/
  | item (inObject : Bool)
  /-- What follows an item, with the closing bracket or brace. -/
  | rest (inObject : Bool)

inductive Spelling : Part → Bytes → Prop
  | scalar {v : Bytes} : Scalar v → Spelling .value v
  | empty {o : Bool} {gap : Bytes} : Gap gap → Spelling .value (opening o :: (gap ++ [closing o]))
  | filled {o : Bool} {item more : Bytes} : Spelling (.item o) item → Spelling (.rest o) more →
      Spelling .value (opening o :: (item ++ more))
  | item {gap v : Bytes} : Gap gap → Spelling .value v → Spelling (.item false) (gap ++ v)
  | member {name gap v : Bytes} : Name name → Gap gap → Spelling .value v →
      Spelling (.item true) (name ++ (gap ++ v))
  | close {o : Bool} {gap : Bytes} : Gap gap → Spelling (.rest o) (gap ++ [closing o])
  | next {o : Bool} {gap item more : Bytes} : Gap gap → Spelling (.item o) item →
      Spelling (.rest o) more → Spelling (.rest o) (gap ++ 44 :: (item ++ more))

/-- Goes on with the first item of a list or object, or with another after a comma. -/
def enter? (fuel : Nat) (o : Bool) (opened : List Bool) (bs : Bytes) : Option Bytes :=
  if o then (skipName? bs).bind (skipOpen? fuel .value (true :: opened))
  else skipOpen? fuel .value (false :: opened) bs

theorem skipOpen?_skipBlanks (fuel : Nat) (opened : List Bool) (bs : Bytes) :
    skipOpen? fuel .value opened (skipBlanks bs) = skipOpen? fuel .value opened bs := by
  cases fuel with
  | zero => rfl
  | succ fuel => simp only [skipOpen?, skipBlanks_skipBlanks]

theorem enter?_skipBlanks (fuel : Nat) (o : Bool) (opened : List Bool) (bs : Bytes) :
    enter? fuel o opened (skipBlanks bs) = enter? fuel o opened bs := by
  rw [enter?, enter?, skipName?_skipBlanks, skipOpen?_skipBlanks]

theorem closing_ink (o : Bool) : isBlankByte (closing o) = false := by
  cases o <;> rfl

theorem opening_ink (o : Bool) : isBlankByte (opening o) = false := by
  cases o <;> rfl

section

variable {fuel : Nat} {o : Bool} {opened : List Bool} {gap gap' : Bytes}

theorem skipOpen?_comma (hgap : Gap gap) (bs : Bytes) :
    skipOpen? (fuel + 1) .next (o :: opened) (gap ++ 44 :: bs) = enter? fuel o opened bs := by
  simp only [skipOpen?, skipBlanks_gap_ink (b := 44) hgap rfl, enter?]
  cases o <;> rfl

theorem skipOpen?_close (hgap : Gap gap) (bs : Bytes) :
    skipOpen? (fuel + 1) .next (o :: opened) (gap ++ closing o :: bs) =
      skipOpen? fuel .next opened bs := by
  simp only [skipOpen?, skipBlanks_gap_ink hgap (closing_ink o)]
  cases o <;> rfl

theorem skipOpen?_empty (hgap : Gap gap) (hgap' : Gap gap') (bs : Bytes) :
    skipOpen? (fuel + 1) .value opened (gap ++ opening o :: (gap' ++ closing o :: bs)) =
      skipOpen? fuel .next opened bs := by
  have hclose := skipBlanks_gap_ink hgap' (closing_ink o) bs
  rw [skipOpen?, skipBlanks_gap_ink hgap (opening_ink o)]
  cases o with
  | false =>
    simp only [opening, Bool.false_eq_true, if_false, hclose]
    rfl
  | true =>
    simp only [opening, if_true, hclose]
    rfl

theorem skipOpen?_filled (hgap : Gap gap) {bs : Bytes}
    (hbs : ∀ b, (skipBlanks bs).head? = some b → b ≠ closing o) :
    skipOpen? (fuel + 1) .value opened (gap ++ opening o :: bs) = enter? fuel o opened bs := by
  rw [← enter?_skipBlanks, skipOpen?, skipBlanks_gap_ink hgap (opening_ink o)]
  cases o with
  | false =>
    simp only [opening, Bool.false_eq_true, if_false]
    split
    · next heq => exact absurd rfl (hbs 93 (by rw [heq]; rfl))
    · rfl
  | true =>
    simp only [opening, if_true]
    split
    · next heq => exact absurd rfl (hbs 125 (by rw [heq]; rfl))
    · rfl

theorem skipOpen?_scalar (hgap : Gap gap) {b : UInt8} (hink : isBlankByte b = false)
    (hlist : b ≠ 91) (hobject : b ≠ 123) (bs : Bytes) :
    skipOpen? (fuel + 1) .value opened (gap ++ b :: bs) =
      (skipScalar? (b :: bs)).bind (skipOpen? fuel .next opened) := by
  rw [skipOpen?, skipBlanks_gap_ink hgap hink]
  split
  · next heq =>
    cases heq
    exact absurd rfl hlist
  · next heq =>
    cases heq
    exact absurd rfl hobject
  · rfl

end

/-- No value starts with a blank or with a byte that closes something. -/
theorem Spelling.head_value {v : Bytes} (h : Spelling .value v) :
    ∃ b more, v = b :: more ∧ isBlankByte b = false ∧ ∀ o, b ≠ closing o := by
  cases h with
  | scalar h =>
    obtain ⟨b, more, rfl, hink, hb⟩ := h.head
    refine ⟨b, more, rfl, hink, fun o hclose => hb ?_⟩
    cases o <;> simp [hclose, closing]
  | @empty o gap hgap =>
    exact ⟨_, _, rfl, opening_ink o, fun o' => by cases o <;> cases o' <;> decide⟩
  | @filled o item more hitem hmore =>
    exact ⟨_, _, rfl, opening_ink o, fun o' => by cases o <;> cases o' <;> decide⟩

/-- No item starts as its list or object closes. -/
theorem Spelling.head_item {o : Bool} {item : Bytes} (h : Spelling (.item o) item) (more : Bytes) :
    ∀ b, (skipBlanks (item ++ more)).head? = some b → b ≠ closing o := by
  intro b hb
  cases h with
  | item hgap hv =>
    obtain ⟨c, rest, rfl, hink, hc⟩ := hv.head_value
    rw [List.append_assoc, List.cons_append, skipBlanks_gap_ink hgap hink] at hb
    cases hb
    exact hc false
  | member hname hgap hv =>
    obtain ⟨hlead, hquoted, hgap'⟩ := hname
    rw [List.append_assoc, List.append_assoc, List.cons_append,
      skipBlanks_gap_ink hlead (b := 34) rfl] at hb
    cases hb
    decide

theorem Spelling.ends {o : Bool} {bs : Bytes} (h : Spelling (.rest o) bs) (more : Bytes) :
    Ends (bs ++ more) := by
  cases h with
  | close hgap =>
    rw [List.append_assoc]
    exact ends_gap hgap (by cases o <;> decide) more
  | next hgap hitem hmore =>
    rw [List.append_assoc]
    exact ends_gap hgap (by decide) _

def Steps (n : Nat) : Part → Bytes → Prop
  | .value, bs => ∀ gap opened follow fuel, Gap gap → Ends follow →
      skipOpen? (fuel + n) .value opened (gap ++ (bs ++ follow)) = skipOpen? fuel .next opened follow
  | .item o, bs => ∀ opened follow fuel, Ends follow →
      enter? (fuel + n) o opened (bs ++ follow) = skipOpen? fuel .next (o :: opened) follow
  | .rest o, bs => ∀ opened follow fuel,
      skipOpen? (fuel + n) .next (o :: opened) (bs ++ follow) = skipOpen? fuel .next opened follow

/-- No more steps are needed than there are bytes. -/
theorem Spelling.steps {part : Part} {bs : Bytes} (h : Spelling part bs) :
    ∃ n ≤ bs.length, Steps n part bs := by
  induction h with
  | @scalar v hv =>
    obtain ⟨b, more, rfl, hink, hb⟩ := hv.head
    refine ⟨1, by simp, fun gap opened follow fuel hgap hfollow => ?_⟩
    have hskip := skipScalar?_append hv hfollow
    rw [List.cons_append] at hskip ⊢
    rw [skipOpen?_scalar hgap hink (by rintro rfl; simp at hb) (by rintro rfl; simp at hb), hskip]
    rfl
  | @empty o gap hgap =>
    refine ⟨1, by simp, fun lead opened follow fuel hlead _ => ?_⟩
    simp only [List.cons_append, List.append_assoc, List.nil_append]
    exact skipOpen?_empty hlead hgap follow
  | @filled o item more hitem hmore ihitem ihmore =>
    obtain ⟨n, hn, hsteps⟩ := ihitem
    obtain ⟨m, hm, hsteps'⟩ := ihmore
    refine ⟨m + n + 1, by simp; omega, fun lead opened follow fuel hlead _ => ?_⟩
    rw [List.cons_append, List.append_assoc, ← Nat.add_assoc, ← Nat.add_assoc,
      skipOpen?_filled hlead (hitem.head_item _), hsteps _ _ _ (hmore.ends follow), hsteps']
  | item hgap _ ih =>
    obtain ⟨n, hn, hsteps⟩ := ih
    refine ⟨n, by simp; omega, fun opened follow fuel hfollow => ?_⟩
    rw [List.append_assoc]
    exact hsteps _ _ follow fuel hgap hfollow
  | member hname hgap _ ih =>
    obtain ⟨n, hn, hsteps⟩ := ih
    refine ⟨n, by simp; omega, fun opened follow fuel hfollow => ?_⟩
    rw [List.append_assoc, List.append_assoc, enter?, if_pos rfl, skipName?_append hname]
    exact hsteps _ _ follow fuel hgap hfollow
  | close hgap =>
    refine ⟨1, by simp, fun opened follow fuel => ?_⟩
    rw [List.append_assoc]
    exact skipOpen?_close hgap follow
  | @next o gap item more hgap hitem hmore ihitem ihmore =>
    obtain ⟨n, hn, hsteps⟩ := ihitem
    obtain ⟨m, hm, hsteps'⟩ := ihmore
    refine ⟨m + n + 1, by simp; omega, fun opened follow fuel => ?_⟩
    rw [List.append_assoc, List.cons_append, List.append_assoc, ← Nat.add_assoc, ← Nat.add_assoc,
      skipOpen?_comma hgap, hsteps _ _ _ (hmore.ends follow), hsteps']

/-- The text of a value is passed over. -/
theorem skipValue?_append {gap v rest : Bytes} (hgap : Gap gap) (h : Spelling .value v)
    (hrest : Ends rest) : skipValue? (gap ++ (v ++ rest)) = some rest := by
  obtain ⟨n, hn, hsteps⟩ := h.steps
  have hfuel : 2 * (gap ++ (v ++ rest)).length + 2 =
      2 * (gap ++ (v ++ rest)).length + 1 - n + 1 + n := by
    simp only [List.length_append]
    omega
  rw [skipValue?, hfuel, hsteps gap [] rest _ hgap hrest, skipOpen?_done]

def Closes : List Bool → Bytes → Prop
  | [], bs => bs = []
  | o :: opened, bs => ∃ more after, bs = more ++ after ∧ Spelling (.rest o) more ∧ Closes opened after

/-- What has been gone over, from a value or from what follows one. -/
def Passed : Expected → List Bool → Bytes → Prop
  | .value, opened, bs => ∃ gap v more, bs = gap ++ (v ++ more) ∧ Gap gap ∧ Spelling .value v ∧
      Closes opened more
  | .next, opened, bs => Closes opened bs

section

variable {fuel : Nat} {o : Bool} {opened : List Bool} {bytes rest : Bytes}

/-- After a value comes a comma, or the end of the innermost list or object. -/
theorem skipOpen?_next_cases (h : skipOpen? (fuel + 1) .next (o :: opened) bytes = some rest) :
    ∃ gap bs, Gap gap ∧
      (bytes = gap ++ 44 :: bs ∧ enter? fuel o opened bs = some rest ∨
        bytes = gap ++ closing o :: bs ∧ skipOpen? fuel .next opened bs = some rest) := by
  obtain ⟨gap, hgap, hbytes, -⟩ := exists_gap bytes
  refine ⟨gap, ?_⟩
  simp only [skipOpen?, beq_iff_eq] at h
  split at h
  · cases h
  · next b bs hfirst =>
    rw [hfirst] at hbytes
    refine ⟨bs, hgap, ?_⟩
    split at h
    · next hcomma =>
      cases hcomma
      exact .inl ⟨hbytes, by cases o <;> exact h⟩
    · have hcase : b = closing o ∧ skipOpen? fuel .next opened bs = some rest := by
        cases o <;> exact Option.ite_none_right_eq_some.mp h
      exact .inr ⟨hcase.1 ▸ hbytes, hcase.2⟩

theorem skipOpen?_value_cases (h : skipOpen? (fuel + 1) .value opened bytes = some rest) :
    ∃ gap, Gap gap ∧
      ((∃ o gap' bs, Gap gap' ∧ bytes = gap ++ opening o :: (gap' ++ closing o :: bs) ∧
          skipOpen? fuel .next opened bs = some rest) ∨
        (∃ o bs, bytes = gap ++ opening o :: bs ∧ enter? fuel o opened bs = some rest) ∨
        ∃ v bs, Scalar v ∧ bytes = gap ++ (v ++ bs) ∧ skipOpen? fuel .next opened bs = some rest) := by
  obtain ⟨gap, hgap, hbytes, -⟩ := exists_gap bytes
  refine ⟨gap, hgap, ?_⟩
  rw [skipOpen?] at h
  split at h
  · next bs hfirst =>
    rw [hfirst] at hbytes
    obtain ⟨gap', hgap', hbs, -⟩ := exists_gap bs
    split at h
    · next more hclose =>
      rw [hclose] at hbs
      exact .inl ⟨false, gap', more, hgap', by rw [hbytes, hbs]; rfl, h⟩
    · rw [skipOpen?_skipBlanks] at h
      exact .inr (.inl ⟨false, bs, hbytes, h⟩)
  · next bs hfirst =>
    rw [hfirst] at hbytes
    obtain ⟨gap', hgap', hbs, -⟩ := exists_gap bs
    split at h
    · next more hclose =>
      rw [hclose] at hbs
      exact .inl ⟨true, gap', more, hgap', by rw [hbytes, hbs]; rfl, h⟩
    · rw [skipName?_skipBlanks] at h
      exact .inr (.inl ⟨true, bs, hbytes, h⟩)
  · obtain ⟨more, hscalar, hmore⟩ := Option.bind_eq_some_iff.mp h
    obtain ⟨v, hv, hfirst⟩ := scalar_of_skipScalar? hscalar
    rw [hfirst] at hbytes
    exact .inr (.inr ⟨v, more, hv, hbytes, hmore⟩)

end

/-- The induction is on the fuel, with all that is open; what closes it comes in the reverse order
of its opening. -/
theorem passed_of_skipOpen? {fuel : Nat} {e : Expected} {opened : List Bool} {bytes rest : Bytes}
    (h : skipOpen? fuel e opened bytes = some rest) :
    ∃ bs, bytes = bs ++ rest ∧ Passed e opened bs := by
  -- every step goes on with less fuel, so one induction does for values and what follows them
  induction fuel generalizing e opened bytes with
  | zero => cases h
  | succ fuel ih =>
    have henter : ∀ {o : Bool} {opened : List Bool} {bytes : Bytes},
        enter? fuel o opened bytes = some rest →
        ∃ item more after, bytes = item ++ (more ++ after) ++ rest ∧ Spelling (.item o) item ∧
          Spelling (.rest o) more ∧ Closes opened after := by
      intro o opened bytes hitem
      cases o with
      | false =>
        obtain ⟨bs, rfl, gap, v, _, rfl, hgap, hv, more, after, rfl, hmore, hafter⟩ := ih hitem
        exact ⟨_, more, after, by simp only [List.append_assoc], .item hgap hv, hmore, hafter⟩
      | true =>
        obtain ⟨left, hskip, hleft⟩ := Option.bind_eq_some_iff.mp hitem
        obtain ⟨name, hname, rfl⟩ := name_of_skipName? hskip
        obtain ⟨bs, rfl, gap, v, _, rfl, hgap, hv, more, after, rfl, hmore, hafter⟩ := ih hleft
        exact ⟨_, more, after, by simp only [List.append_assoc], .member hname hgap hv, hmore,
          hafter⟩
    cases e with
    | next =>
      cases opened with
      | nil =>
        cases h
        exact ⟨[], rfl, rfl⟩
      | cons o opened =>
        obtain ⟨gap, bs, hgap, ⟨rfl, hbs⟩ | ⟨rfl, hbs⟩⟩ := skipOpen?_next_cases h
        · obtain ⟨item, more, after, rfl, hitem, hmore, hafter⟩ := henter hbs
          exact ⟨gap ++ 44 :: (item ++ more) ++ after, by simp, _, after, rfl,
            .next hgap hitem hmore, hafter⟩
        · obtain ⟨after, rfl, hafter⟩ := ih hbs
          exact ⟨gap ++ [closing o] ++ after, by simp, _, after, rfl, .close hgap, hafter⟩
    | value =>
      obtain ⟨gap, hgap, ⟨o, gap', bs, hgap', rfl, hbs⟩ | ⟨o, bs, rfl, hbs⟩ |
        ⟨v, bs, hv, rfl, hbs⟩⟩ :=
        skipOpen?_value_cases h
      · obtain ⟨after, rfl, hafter⟩ := ih hbs
        exact ⟨gap ++ (opening o :: (gap' ++ [closing o]) ++ after), by simp, gap, _, after, rfl, hgap,
          .empty hgap', hafter⟩
      · obtain ⟨item, more, after, rfl, hitem, hmore, hafter⟩ := henter hbs
        exact ⟨gap ++ (opening o :: (item ++ more) ++ after), by simp, gap, _, after, rfl, hgap,
          .filled hitem hmore, hafter⟩
      · obtain ⟨after, rfl, hafter⟩ := ih hbs
        exact ⟨gap ++ (v ++ after), by simp, gap, v, after, rfl, hgap, .scalar hv, hafter⟩

/-- What is passed over is the text of a value. -/
theorem spelling_of_skipValue? {bytes rest : Bytes} (h : skipValue? bytes = some rest) :
    ∃ gap v, bytes = gap ++ (v ++ rest) ∧ Gap gap ∧ Spelling .value v := by
  obtain ⟨bs, rfl, gap, v, more, rfl, hgap, hv, rfl⟩ := passed_of_skipOpen? h
  exact ⟨gap, v, by simp, hgap, hv⟩

end Segments.Json
