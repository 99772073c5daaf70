import Segments.Http.Body
import Segments.Proofs.JsonGrammar
import Segments.Proofs.TextGrammar

namespace Segments.Http.Body

open Text Json

section

variable {α : Type} (Item : Bytes → α → Prop) (close : UInt8)

/-- Items that follow one, each after a comma and from its opening quote on, and the closing byte. -/
inductive Further : Bytes → List α → Prop
  | close {gap : Bytes} : Gap gap → Further (gap ++ [close]) []
  | item {gap gap' bs more : Bytes} {x : α} {xs : List α} : Gap gap → Gap gap' → Item bs x →
      Further more xs → Further (gap ++ 44 :: (gap' ++ 34 :: (bs ++ more))) (x :: xs)

/-- Items after the opening byte of their list or object, and the closing byte. -/
inductive Enclosed : Bytes → List α → Prop
  | empty {gap : Bytes} : Gap gap → Enclosed (gap ++ [close]) []
  | items {gap bs more : Bytes} {x : α} {xs : List α} : Gap gap → Item bs x →
      Further Item close more xs → Enclosed (gap ++ 34 :: (bs ++ more)) (x :: xs)

end

inductive Conditions : Bytes → Option (List String) → Prop
  | null {gap : Bytes} : Gap gap → Conditions (gap ++ [110, 117, 108, 108]) none
  | texts {gap bs : Bytes} {ss : List String} : Gap gap → Enclosed Writes 93 bs ss →
      Conditions (gap ++ 91 :: bs) (some ss)

/-- A member of the object, after the opening quote of its name. Of a member of another name any
value will do. -/
inductive Member : Bytes → Seen → Prop
  | conditions {name gap v : Bytes} {cs : Option (List String)} : Writes name "conditions" →
      Gap gap → Conditions v cs → Member (name ++ (gap ++ 58 :: v)) (some cs)
  | other {name gap gap' v : Bytes} {s : String} : Writes name s → s ≠ "conditions" → Gap gap →
      Gap gap' → Spelling .value v → Member (name ++ (gap ++ 58 :: (gap' ++ v))) none

/-- The members that count among those that have been seen and those to come. -/
def counting (seen : Seen) (ms : List Seen) : List (Option (List String)) :=
  seen.toList ++ ms.filterMap id

/-- What a request for an evaluation says: an object that has the conditions at most once, or a list
of them alone. -/
inductive Payload : Bytes → Option (List String) → Prop
  | object {gap bs : Bytes} {ms : List Seen} : Gap gap → Enclosed Member 125 bs ms →
      (counting none ms).length ≤ 1 → Payload (gap ++ 123 :: bs) ((counting none ms).head?.getD none)
  | row {gap v gap' : Bytes} {cs : Option (List String)} : Gap gap → Conditions v cs → Gap gap' →
      Payload (gap ++ 91 :: (v ++ (gap' ++ [93]))) cs
  | emptyRow {gap gap' : Bytes} : Gap gap → Gap gap' → Payload (gap ++ 91 :: (gap' ++ [93])) none

theorem text_ok {bs : Bytes} {s : String} (h : Writes bs s) (rest : Bytes) :
    text (34 :: (bs ++ rest)) = .ok (s, rest) := by
  simp only [text, skipBlanks_ink (b := 34) rfl, scanText_append h]

theorem writes_of_text {bytes rest : Bytes} {s : String} (h : text bytes = .ok (s, rest)) :
    ∃ gap bs, Gap gap ∧ Writes bs s ∧ bytes = gap ++ 34 :: (bs ++ rest) := by
  obtain ⟨gap, hgap, hbytes, -⟩ := exists_gap bytes
  unfold text at h
  split at h
  · next after hquote =>
    split at h
    · next r hscan =>
      cases h
      obtain ⟨bs, hbs, rfl⟩ := writes_of_scanText hscan
      exact ⟨gap, bs, hgap, hbs, hbytes.trans (congrArg (gap ++ ·) hquote)⟩
    · cases h
  · cases h

section

variable {fuel : Nat} {gap gap' bs : Bytes} {x : String}

theorem texts_close (hgap : Gap gap) (done : List String) (rest : Bytes) :
    texts (fuel + 1) done (gap ++ 93 :: rest) = .ok (done, rest) := by
  simp only [texts, skipBlanks_gap_ink hgap (b := 93) rfl]

theorem texts_first (hgap : Gap gap) (h : Writes bs x) (rest : Bytes) :
    texts (fuel + 1) [] (gap ++ 34 :: (bs ++ rest)) = texts fuel [x] rest := by
  simp [texts, skipBlanks_gap_ink hgap (b := 34) rfl, text_ok h, bind, Except.bind]

theorem texts_next (hgap : Gap gap) (hgap' : Gap gap') (h : Writes bs x) (s : String)
    (done : List String) (rest : Bytes) :
    texts (fuel + 1) (s :: done) (gap ++ 44 :: (gap' ++ 34 :: (bs ++ rest))) =
      texts fuel (x :: s :: done) rest := by
  simp [texts, skipBlanks_gap_ink hgap (b := 44) rfl, skipBlanks_gap_ink hgap' (b := 34) rfl,
    text_ok h, bind, Except.bind]

end

/-- Fuel is spent by the item, so that more of it than there are items is enough. -/
theorem texts_further {bs : Bytes} {ss : List String} (h : Further Writes 93 bs ss) {fuel : Nat}
    (hfuel : ss.length < fuel) (s : String) (done : List String) (rest : Bytes) :
    texts fuel (s :: done) (bs ++ rest) = .ok (ss.reverse ++ s :: done, rest) := by
  induction h generalizing fuel s done with
  | close hgap =>
    obtain ⟨fuel, rfl⟩ := Nat.exists_eq_add_one.mpr hfuel
    rw [List.append_assoc]
    exact texts_close hgap (s :: done) rest
  | item hgap hgap' hitem _ ih =>
    obtain ⟨fuel, rfl⟩ := Nat.exists_eq_add_one.mpr (Nat.zero_lt_of_lt hfuel)
    simp only [List.append_assoc, List.cons_append]
    rw [texts_next hgap hgap' hitem, ih (Nat.lt_of_succ_lt_succ hfuel), List.reverse_cons,
      List.append_assoc]
    rfl

theorem texts_enclosed {bs : Bytes} {ss : List String} (h : Enclosed Writes 93 bs ss) {fuel : Nat}
    (hfuel : ss.length < fuel) (rest : Bytes) :
    texts fuel [] (bs ++ rest) = .ok (ss.reverse, rest) := by
  obtain ⟨fuel, rfl⟩ := Nat.exists_eq_add_one.mpr (Nat.zero_lt_of_lt hfuel)
  cases h with
  | empty hgap =>
    rw [List.append_assoc]
    exact texts_close hgap [] rest
  | items hgap hitem hmore =>
    simp only [List.append_assoc, List.cons_append]
    rw [texts_first hgap hitem, texts_further hmore (Nat.lt_of_succ_lt_succ hfuel),
      List.reverse_cons]

/-- Each item takes a byte at least and the closing byte one more, so that the bytes are fuel
enough. -/
theorem Further.length_lt {α : Type} {Item : Bytes → α → Prop} {close : UInt8} {bs : Bytes}
    {xs : List α} (h : Further Item close bs xs) : xs.length < bs.length := by
  induction h with
  | close => simp
  | item _ _ _ _ ih =>
    simp only [List.length_cons, List.length_append]
    omega

theorem Enclosed.length_lt {α : Type} {Item : Bytes → α → Prop} {close : UInt8} {bs : Bytes}
    {xs : List α} (h : Enclosed Item close bs xs) : xs.length < bs.length := by
  cases h with
  | empty => simp
  | items _ _ hmore =>
    have hlength := hmore.length_lt
    simp only [List.length_cons, List.length_append]
    omega

/-- What is left of a list or object: all that it encloses, or what follows an item. -/
def Remaining {α : Type} (first : Bool) (Item : Bytes → α → Prop) (close : UInt8) (bs : Bytes)
    (xs : List α) : Prop :=
  if first then Enclosed Item close bs xs else Further Item close bs xs

theorem Remaining.close {α : Type} {first : Bool} {Item : Bytes → α → Prop} {close : UInt8}
    {gap : Bytes} (h : Gap gap) : Remaining first Item close (gap ++ [close]) [] := by
  cases first
  · exact Further.close h
  · exact Enclosed.empty h

/-- What the reader takes for a list is one by the grammar. -/
theorem texts_sound {fuel : Nat} {done out : List String} {bytes rest : Bytes}
    (h : texts fuel done bytes = .ok (out, rest)) :
    ∃ bs ss, Remaining done.isEmpty Writes 93 bs ss ∧ bytes = bs ++ rest ∧
      out = ss.reverse ++ done := by
  -- what is left has to start with a comma just if there is an item before it
  induction fuel generalizing done bytes with
  | zero => cases h
  | succ fuel ih =>
    obtain ⟨gap, hgap, hbytes, -⟩ := exists_gap bytes
    rw [texts] at h
    split at h
    · cases h
    · next after hfirst =>
      cases h
      exact ⟨gap ++ [93], [], .close hgap, by rw [hbytes, hfirst]; simp, rfl⟩
    · next b after _ hfirst =>
      rw [hfirst] at hbytes
      split at h
      · next hdone =>
        obtain rfl := List.isEmpty_iff.mp hdone
        obtain ⟨⟨s, more⟩, htext, hmore⟩ := bind_eq_ok.mp h
        obtain ⟨gap', bs, hgap', hs, heq⟩ := writes_of_text htext
        obtain ⟨last, ss, hlast, rfl, rfl⟩ := ih hmore
        refine ⟨_, s :: ss, .items (hgap.append hgap') hs hlast, ?_, by simp⟩
        rw [hbytes, heq]
        simp
      · next hdone =>
        split at h
        · next hcomma =>
          obtain ⟨gap', hgap', hafter, -⟩ := exists_gap after
          split at h
          · cases h
          · cases h
          · obtain ⟨⟨s, more⟩, htext, hmore⟩ := bind_eq_ok.mp h
            obtain ⟨gap'', bs, hgap'', hs, heq⟩ := writes_of_text htext
            obtain ⟨last, ss, hlast, rfl, rfl⟩ := ih hmore
            refine ⟨gap ++ 44 :: (gap' ++ gap'' ++ 34 :: (bs ++ last)), s :: ss, ?_, ?_, by simp⟩
            · rw [Remaining, if_neg hdone]
              exact .item hgap (hgap'.append hgap'') hs hlast
            · rw [hbytes, hafter, heq, beq_iff_eq.mp hcomma]
              simp
        · cases h

theorem conditions_ok {v : Bytes} {cs : Option (List String)} (h : Conditions v cs) (rest : Bytes) :
    conditions (v ++ rest) = .ok (cs, rest) := by
  cases h with
  | @null gap hgap =>
    have hword : finishWord [117, 108, 108] (117 :: 108 :: 108 :: rest) = .ok rest :=
      finishWord_append [117, 108, 108] rest
    simp [conditions, skipBlanks_gap_ink hgap (b := 110) rfl, hword]
  | @texts gap bs ss hgap hlist =>
    have hlength := hlist.length_lt
    have htexts : Body.texts (bs.length + rest.length + 1) [] (bs ++ rest) = .ok (ss.reverse, rest) :=
      texts_enclosed hlist (by omega) rest
    simp [conditions, skipBlanks_gap_ink hgap (b := 91) rfl, htexts, Except.map]

theorem conditions_sound {bytes rest : Bytes} {cs : Option (List String)}
    (h : conditions bytes = .ok (cs, rest)) : ∃ v, Conditions v cs ∧ bytes = v ++ rest := by
  obtain ⟨gap, hgap, hbytes, -⟩ := exists_gap bytes
  unfold conditions at h
  split at h
  · cases h
  · next after hfirst =>
    split at h
    · next more hword =>
      cases h
      refine ⟨_, .null hgap, ?_⟩
      rw [hbytes, hfirst, word_of_finishWord hword]
      simp
    · cases h
  · next after hfirst =>
    cases htexts : Body.texts (after.length + 1) [] after with
    | error f =>
      rw [htexts] at h
      cases h
    | ok r =>
      obtain ⟨out, more⟩ := r
      rw [htexts] at h
      cases h
      obtain ⟨bs, ss, hlist, rfl, rfl⟩ := texts_sound htexts
      refine ⟨gap ++ 91 :: bs, ?_, by rw [hbytes, hfirst]; simp⟩
      rw [List.append_nil, List.reverse_reverse]
      exact .texts hgap hlist
  · cases h

theorem colon_ok {gap : Bytes} (hgap : Gap gap) (bs : Bytes) :
    member.colon (gap ++ 58 :: bs) = .ok bs := by
  simp only [member.colon, skipBlanks_gap_ink hgap (b := 58) rfl]

theorem gap_of_colon {bytes rest : Bytes} (h : member.colon bytes = .ok rest) :
    ∃ gap, Gap gap ∧ bytes = gap ++ 58 :: rest := by
  obtain ⟨gap, hgap, hbytes, -⟩ := exists_gap bytes
  unfold member.colon at h
  split at h
  · next hfirst =>
    cases h
    exact ⟨gap, hgap, hbytes.trans (congrArg (gap ++ ·) hfirst)⟩
  · cases h

/-- A member is read, if the conditions are not given once more by it. -/
theorem member_ok {bs : Bytes} {m : Seen} (h : Member bs m) {seen : Seen}
    (honce : (counting seen [m]).length ≤ 1) {rest : Bytes} (hrest : Ends rest) :
    member seen (bs ++ rest) = .ok ((counting seen [m]).head?, rest) := by
  cases h with
  | @conditions name gap v cs hname hgap hv =>
    cases seen with
    | some c => simp [counting] at honce
    | none =>
      simp [member, scanText_append hname, colon_ok hgap, conditions_ok hv, bind, Except.bind, counting]
  | @other name gap gap' v s hname hne hgap hgap' hv =>
    have hskip : skipValue? (gap' ++ (v ++ rest)) = some rest := skipValue?_append hgap' hv hrest
    simp [member, scanText_append hname, hne, colon_ok hgap, hskip, bind, Except.bind, counting]

/-- A second member that counts is refused; of the others there may be any number. -/
theorem member_sound {seen seen' : Seen} {bytes rest : Bytes}
    (h : member seen bytes = .ok (seen', rest)) :
    ∃ bs m, Member bs m ∧ bytes = bs ++ rest ∧ (counting seen [m]).length ≤ 1 ∧
      seen' = (counting seen [m]).head? := by
  unfold member at h
  split at h
  · cases h
  · next name after hscan =>
    obtain ⟨bs, hname, rfl⟩ := writes_of_scanText hscan
    split at h
    · next heq =>
      split at h
      · cases h
      · next hfirst =>
        obtain ⟨more, hcolon, hafter⟩ := bind_eq_ok.mp h
        obtain ⟨⟨cs, last⟩, hconditions, hlast⟩ := bind_eq_ok.mp hafter
        obtain ⟨gap, hgap, rfl⟩ := gap_of_colon hcolon
        obtain ⟨v, hv, rfl⟩ := conditions_sound hconditions
        cases hlast
        obtain rfl : seen = none := by
          cases seen with
          | none => rfl
          | some c => exact absurd rfl hfirst
        rw [beq_iff_eq.mp heq] at hname
        exact ⟨_, _, .conditions hname hgap hv, by simp, by simp [counting], rfl⟩
    · next hne =>
      obtain ⟨more, hcolon, hafter⟩ := bind_eq_ok.mp h
      obtain ⟨gap, hgap, rfl⟩ := gap_of_colon hcolon
      split at hafter
      · next last hskip =>
        cases hafter
        obtain ⟨gap', v, rfl, hgap', hv⟩ := spelling_of_skipValue? hskip
        have hother : name ≠ "conditions" := fun heq => hne (beq_iff_eq.mpr heq)
        refine ⟨_, _, .other hname hother hgap hgap' hv, by simp, ?_, ?_⟩
        · cases seen <;> simp [counting]
        · cases seen <;> rfl
      · cases hafter

section

variable {fuel : Nat} {gap gap' bs : Bytes} {seen m : Seen}

theorem members_close (hgap : Gap gap) (first : Bool) (rest : Bytes) :
    members (fuel + 1) first seen (gap ++ 125 :: rest) = .ok seen := by
  simp only [members, skipBlanks_gap_ink hgap (b := 125) rfl]

theorem members_first (hgap : Gap gap) (h : Member bs m) (honce : (counting seen [m]).length ≤ 1)
    {rest : Bytes} (hrest : Ends rest) :
    members (fuel + 1) true seen (gap ++ 34 :: (bs ++ rest)) =
      members fuel false (counting seen [m]).head? rest := by
  simp [members, skipBlanks_gap_ink hgap (b := 34) rfl, member_ok h honce hrest, bind, Except.bind]

theorem members_next (hgap : Gap gap) (hgap' : Gap gap') (h : Member bs m)
    (honce : (counting seen [m]).length ≤ 1) {rest : Bytes} (hrest : Ends rest) :
    members (fuel + 1) false seen (gap ++ 44 :: (gap' ++ 34 :: (bs ++ rest))) =
      members fuel false (counting seen [m]).head? rest := by
  simp [members, skipBlanks_gap_ink hgap (b := 44) rfl, skipBlanks_gap_ink hgap' (b := 34) rfl,
    member_ok h honce hrest, bind, Except.bind]

end

theorem counting_one {seen m : Seen} {ms : List Seen} (h : (counting seen (m :: ms)).length ≤ 1) :
    (counting seen [m]).length ≤ 1 := by
  cases seen <;> cases m <;> simp_all [counting]

/-- Counting goes on from what has been seen. -/
theorem counting_head? {seen m : Seen} (h : (counting seen [m]).length ≤ 1) (ms : List Seen) :
    counting (counting seen [m]).head? ms = counting seen (m :: ms) := by
  cases seen <;> cases m <;> simp_all [counting]

/-- After an item comes a comma or the closing byte, and either ends a number. -/
theorem Further.ends {α : Type} {Item : Bytes → α → Prop} {bs : Bytes} {xs : List α}
    (h : Further Item 125 bs xs) (rest : Bytes) : Ends (bs ++ rest) := by
  cases h with
  | close hgap =>
    rw [List.append_assoc]
    exact ends_gap hgap (by decide) rest
  | item hgap =>
    rw [List.append_assoc]
    exact ends_gap hgap (by decide) _

theorem members_further {bs : Bytes} {ms : List Seen} (h : Further Member 125 bs ms) {fuel : Nat}
    (hfuel : ms.length < fuel) {seen : Seen} (honce : (counting seen ms).length ≤ 1) (rest : Bytes) :
    members fuel false seen (bs ++ rest) = .ok (counting seen ms).head? := by
  induction h generalizing fuel seen with
  | close hgap =>
    obtain ⟨fuel, rfl⟩ := Nat.exists_eq_add_one.mpr hfuel
    rw [List.append_assoc]
    cases seen <;> exact members_close hgap false rest
  | item hgap hgap' hitem hmore ih =>
    obtain ⟨fuel, rfl⟩ := Nat.exists_eq_add_one.mpr (Nat.zero_lt_of_lt hfuel)
    have hfirst := counting_one honce
    have hcount := counting_head? hfirst
    simp only [List.append_assoc, List.cons_append]
    rw [members_next hgap hgap' hitem hfirst (hmore.ends rest),
      ih (Nat.lt_of_succ_lt_succ hfuel) ((hcount _).symm ▸ honce), hcount]

theorem members_enclosed {bs : Bytes} {ms : List Seen} (h : Enclosed Member 125 bs ms) {fuel : Nat}
    (hfuel : ms.length < fuel) (honce : (counting none ms).length ≤ 1) (rest : Bytes) :
    members fuel true none (bs ++ rest) = .ok (counting none ms).head? := by
  obtain ⟨fuel, rfl⟩ := Nat.exists_eq_add_one.mpr (Nat.zero_lt_of_lt hfuel)
  cases h with
  | empty hgap =>
    rw [List.append_assoc]
    exact members_close hgap true rest
  | items hgap hitem hmore =>
    have hfirst := counting_one honce
    have hcount := counting_head? hfirst
    simp only [List.append_assoc, List.cons_append]
    rw [members_first hgap hitem hfirst (hmore.ends rest),
      members_further hmore (Nat.lt_of_succ_lt_succ hfuel) ((hcount _).symm ▸ honce), hcount]

/-- What the reader takes for an object is one, and at most one of its members counts. -/
theorem members_sound {fuel : Nat} {first : Bool} {seen seen' : Seen} {bytes : Bytes}
    (h : members fuel first seen bytes = .ok seen') :
    ∃ bs ms rest, Remaining first Member 125 bs ms ∧
      bytes = bs ++ rest ∧ (counting seen ms).length ≤ 1 ∧ seen' = (counting seen ms).head? := by
  induction fuel generalizing first seen bytes with
  | zero => cases h
  | succ fuel ih =>
    obtain ⟨gap, hgap, hbytes, -⟩ := exists_gap bytes
    rw [members] at h
    split at h
    · next rest hclose =>
      cases h
      have hcount : counting seen' [] = seen'.toList := List.append_nil _
      refine ⟨gap ++ [125], [], rest, .close hgap, by rw [hbytes, hclose]; simp, ?_, ?_⟩
      · rw [hcount]
        cases seen' <;> simp
      · rw [hcount]
        cases seen' <;> rfl
    · next after hquote =>
      split at h
      · next hstart =>
        obtain ⟨⟨seen₁, more⟩, hmember, hmore⟩ := bind_eq_ok.mp h
        obtain ⟨bs, m, hitem, rfl, hone, rfl⟩ := member_sound hmember
        obtain ⟨last, ms, rest, hlast, rfl, honce, rfl⟩ := ih hmore
        have hcount := counting_head? hone ms
        refine ⟨gap ++ 34 :: (bs ++ last), m :: ms, rest, ?_, ?_, hcount ▸ honce, by rw [hcount]⟩
        · rw [Remaining, if_pos hstart]
          exact .items hgap hitem hlast
        · rw [hbytes, hquote]
          simp
      · cases h
    · next after hcomma =>
      split at h
      · cases h
      · next hstart =>
        obtain ⟨gap', hgap', hafter, -⟩ := exists_gap after
        split at h
        · next last hquote =>
          obtain ⟨⟨seen₁, more⟩, hmember, hmore⟩ := bind_eq_ok.mp h
          obtain ⟨bs, m, hitem, rfl, hone, rfl⟩ := member_sound hmember
          obtain ⟨last, ms, rest, hlast, rfl, honce, rfl⟩ := ih hmore
          have hcount := counting_head? hone ms
          refine ⟨gap ++ 44 :: (gap' ++ 34 :: (bs ++ last)), m :: ms, rest, ?_, ?_, hcount ▸ honce,
            by rw [hcount]⟩
          · rw [Remaining, if_neg hstart]
            exact .item hgap hgap' hitem hlast
          · rw [hbytes, hcomma, hafter, hquote]
            simp
        · cases h
    · cases h

theorem conditions_skipBlanks (bytes : Bytes) : conditions (skipBlanks bytes) = conditions bytes := by
  rw [conditions, conditions, skipBlanks_skipBlanks]

theorem row_ok {v gap : Bytes} {cs : Option (List String)} (hv : Conditions v cs) (hgap : Gap gap)
    (rest : Bytes) : row (v ++ (gap ++ 93 :: rest)) = .ok cs := by
  have hconditions := conditions_ok hv (gap ++ 93 :: rest)
  have hclose := skipBlanks_gap_ink hgap (b := 93) rfl rest
  rw [← conditions_skipBlanks] at hconditions
  unfold row
  split
  -- no conditions start as the list closes
  · next heq =>
    rw [heq] at hconditions
    cases hconditions
  · simp only [hconditions, bind, Except.bind, hclose]

/-- A list in the place of an object has the conditions as its one item, or no item. -/
theorem row_sound {bytes : Bytes} {cs : Option (List String)} (h : row bytes = .ok cs) :
    (∃ gap rest, Gap gap ∧ bytes = gap ++ 93 :: rest ∧ cs = none) ∨
      ∃ v gap rest, Conditions v cs ∧ Gap gap ∧ bytes = v ++ (gap ++ 93 :: rest) := by
  obtain ⟨gap, hgap, hbytes, -⟩ := exists_gap bytes
  unfold row at h
  split at h
  · next rest hclose =>
    cases h
    exact .inl ⟨gap, rest, hgap, hbytes.trans (congrArg (gap ++ ·) hclose), rfl⟩
  · obtain ⟨⟨cs', after⟩, hconditions, hafter⟩ := bind_eq_ok.mp h
    rw [conditions_skipBlanks] at hconditions
    obtain ⟨v, hv, rfl⟩ := conditions_sound hconditions
    obtain ⟨gap', hgap', hgapped, -⟩ := exists_gap after
    dsimp only at hafter
    split at hafter
    · next rest hclose =>
      cases hafter
      exact .inr ⟨v, gap', rest, hv, hgap', by rw [hgapped, hclose]⟩
    · cases hafter

/-- Nothing that follows the payload is looked at. -/
theorem read_ok {bs : Bytes} {cs : Option (List String)} (h : Payload bs cs) (rest : Bytes) :
    read (bs ++ rest) = .ok cs := by
  cases h with
  | @object gap bs ms hgap hmembers honce =>
    have hlength := hmembers.length_lt
    have hread : members (bs.length + rest.length + 1) true none (bs ++ rest) =
        .ok (counting none ms).head? := members_enclosed hmembers (by omega) honce rest
    simp [read, skipBlanks_gap_ink hgap (b := 123) rfl, hread, Except.map]
  | row hgap hv hgap' =>
    simp [read, skipBlanks_gap_ink hgap (b := 91) rfl, row_ok hv hgap']
  | emptyRow hgap hgap' =>
    simp [read, skipBlanks_gap_ink hgap (b := 91) rfl, row, skipBlanks_gap_ink hgap' (b := 93) rfl]

theorem read_sound {bytes : Bytes} {cs : Option (List String)} (h : read bytes = .ok cs) :
    ∃ bs rest, Payload bs cs ∧ bytes = bs ++ rest := by
  obtain ⟨gap, hgap, hbytes, -⟩ := exists_gap bytes
  unfold read at h
  split at h
  · cases h
  · next after hfirst =>
    cases hmembers : members (after.length + 1) true none after with
    | error f =>
      rw [hmembers] at h
      cases h
    | ok seen =>
      rw [hmembers] at h
      cases h
      obtain ⟨bs, ms, rest, hbs, rfl, honce, rfl⟩ := members_sound hmembers
      exact ⟨_, rest, .object hgap hbs honce, by rw [hbytes, hfirst]; simp⟩
  · next after hfirst =>
    rcases row_sound h with ⟨gap', rest, hgap', rfl, rfl⟩ | ⟨v, gap', rest, hv, hgap', rfl⟩
    · exact ⟨_, rest, .emptyRow hgap hgap', by rw [hbytes, hfirst]; simp⟩
    · exact ⟨_, rest, .row hgap hv hgap', by rw [hbytes, hfirst]; simp⟩
  · cases h

/-- The conditions are read of just the bodies that begin with a request for an evaluation, whatever
follows it. -/
theorem read_eq_ok {bytes : Bytes} {cs : Option (List String)} :
    read bytes = .ok cs ↔ ∃ bs rest, Payload bs cs ∧ bytes = bs ++ rest := by
  constructor
  · exact read_sound
  · rintro ⟨bs, rest, h, rfl⟩
    exact read_ok h rest

end Segments.Http.Body
