import Segments.Proofs.Layering
import Segments.Proofs.Numerals

namespace Segments.Settings

open Double Text

def Scalar.display : Scalar → String
  | .unit => ""
  | .boolean b => toString b
  | .whole n => toString n
  | .real x => x.render
  | .text s => s

def displayed (s : String) : String :=
  (Variables.scalarOf s).display

/-- A text that writes neither a truth value nor a number, or writes one as it is displayed. -/
inductive Faithful (s : String) : Prop
  | word : (∀ b : Bool, lowerAscii s.toList ≠ (toString b).toList) → (∀ x, ¬ Written s.toList x) →
      Faithful s
  | boolean (b : Bool) : s = toString b → Faithful s
  | whole (n : Int) : Word.isInt64 n = true → s = toString n → Faithful s
  | real (x : Double) : readInt64? s.toList = none → s = x.render → Faithful s

/-- A whole number is written as an exponent is after its letter. -/
theorem readInt64?_eq (cs : List Char) :
    readInt64? cs = (readExponent? cs).filter Word.isInt64 := by
  have hnatural : ∀ {ds : List Char}, Option.map Int.ofNat
      (if ds.isEmpty || !ds.all isDigit then none else some (decimalValue ds)) =
        exponentOf? false ds := by
    intro ds
    unfold exponentOf?
    split <;> rfl
  rcases Sign.cases_text cs with ⟨sign, negative, ds, hsign, hne, rfl⟩ | hnone
  · rw [readExponent?_sign hsign fun hnil => absurd hnil hne]
    cases hsign with
    | absent => exact absurd rfl hne
    | plus => exact congrArg (Option.filter Word.isInt64) hnatural
    | minus => rfl
  · have hread := readExponent?_sign .absent fun _ => hnone
    rw [List.nil_append] at hread
    rw [hread, ← hnatural]
    unfold readInt64? readNatural?
    split
    · exact absurd rfl (hnone _ rfl).1
    · split
      · exact absurd rfl (hnone _ rfl).2
      · rfl

/-- A whole number is written in the way of an exponent, a sign and digits. -/
theorem readInt64?_eq_some {cs : List Char} {n : Int} :
    readInt64? cs = some n ↔ Exponent ('e' :: cs) n ∧ Word.isInt64 n = true := by
  rw [readInt64?_eq, Option.filter_eq_some_iff, ← exponentFrom?_eq_some]
  rfl

theorem readInt64?_toString {n : Int} (h : Word.isInt64 n = true) :
    readInt64? (toString n).toList = some n := by
  have hexponent : ∀ {sign : List Char} {negative : Bool}, Sign sign negative →
      Exponent ('e' :: (sign ++ Nat.toDigits 10 n.natAbs))
        (if negative then -(n.natAbs : Int) else n.natAbs) := by
    intro sign negative hsign
    have hwritten := Exponent.present (.inl rfl) hsign Nat.toDigits_ne_nil (digits_toDigits n.natAbs)
    rwa [decimalValue_toDigits] at hwritten
  rw [readInt64?_eq_some, toList_toString_int]
  refine ⟨?_, h⟩
  split
  · have hminus := hexponent .minus
    rwa [if_pos rfl, show -(n.natAbs : Int) = n by omega] at hminus
  · have habsent := hexponent .absent
    rwa [if_neg Bool.false_ne_true, show (n.natAbs : Int) = n by omega] at habsent

/-- A whole number as it is displayed is a number by the grammar. -/
theorem numeral_toString (n : Int) : ∃ negative digits scale,
    Numeral (toString n).toList negative digits scale := by
  rw [toList_toString_int]
  have hbody := Unsigned.whole (digits_toDigits n.natAbs) Nat.toDigits_ne_nil
  split
  · exact ⟨_, _, _, .mk .minus hbody⟩
  · exact ⟨_, _, _, .mk .absent hbody⟩

/-- What is read as a whole number writes a number. -/
theorem written_of_readInt64? {cs : List Char} {n : Int} (h : readInt64? cs = some n) :
    ∃ x, Written cs x := by
  obtain ⟨hexponent, -⟩ := readInt64?_eq_some.mp h
  cases hexponent with
  | present _ hsign hne hds =>
    obtain ⟨p, hp⟩ := exists_rounds_decimal _ 0
    exact ⟨_, .numeral (.mk hsign (.whole hds hne)) hp⟩

/-- What a text that is not the word of a truth value is read as. -/
theorem scalarOf_of_not_word {s : String} (h : ∀ b : Bool, lowerAscii s.toList ≠ (toString b).toList) :
    Variables.scalarOf s = ((readInt64? s.toList).map .whole).getD
      (((Double.read? s.toList).map .real).getD (.text s)) := by
  have htrue : ¬ (lowerAscii s.toList == "true".toList) = true := fun heq => h true (beq_iff_eq.mp heq)
  have hfalse : ¬ (lowerAscii s.toList == "false".toList) = true :=
    fun heq => h false (beq_iff_eq.mp heq)
  simp only [Variables.scalarOf, if_neg htrue, if_neg hfalse]
  cases readInt64? s.toList <;> cases Double.read? s.toList <;> rfl

/-- The word of a truth value is read as that, in any case. -/
theorem scalarOf_of_word {s : String} {b : Bool} (h : lowerAscii s.toList = (toString b).toList) :
    Variables.scalarOf s = .boolean b := by
  unfold Variables.scalarOf
  simp only [h]
  cases b <;> rfl

example : Variables.scalarOf "TRUE" = .boolean true ∧ Variables.scalarOf "+05" = .whole 5 ∧
    Variables.scalarOf "5.50" = .real (ofDecimal false 55 (-1)) ∧
    Variables.scalarOf "ck_5" = .text "ck_5" := by
  decide +kernel

/-- No number is written with the letters of a truth value. -/
theorem not_word_of_numeral {cs : List Char} {negative : Bool} {digits : Nat} {scale : Int}
    (h : Numeral cs negative digits scale) (b : Bool) : lowerAscii cs ≠ (toString b).toList := by
  cases b with
  | true =>
    change lowerAscii cs ≠ "true".toList
    exact h.lowerAscii_ne (.inr (.inl (by decide)))
  | false =>
    change lowerAscii cs ≠ "false".toList
    exact h.lowerAscii_ne (.inr (.inr (by decide)))

/-- A number is read back from its plain form, and that is not the word of a truth value. -/
theorem read?_render (x : Double) : Double.read? x.render.toList = some x ∧
    ∀ b : Bool, lowerAscii x.render.toList ≠ (toString b).toList := by
  cases x with
  | nan => decide
  | number negative p =>
    by_cases hp : p.val < infinity
    · obtain ⟨digits, scale, hnumeral, hrounds⟩ :
          ∃ digits scale, Numeral (render (.number negative p)).toList negative digits scale ∧
            Rounds (digits * 10 ^ scale) p.val := numeral_render hp
      have hwritten := Written.numeral hnumeral hrounds
      rw [ofPlace_val] at hwritten
      exact ⟨read?_eq_some.mpr hwritten, not_word_of_numeral hnumeral⟩
    · have hplace : p = Fin.last infinity := Fin.ext (by rw [Fin.val_last]; omega)
      subst hplace
      cases negative <;> decide

/-- A text comes back from what it is read as just if it is faithful. -/
theorem displayed_eq_self_iff {s : String} : displayed s = s ↔ Faithful s := by
  constructor
  · intro h
    by_cases hword : ∃ b : Bool, lowerAscii s.toList = (toString b).toList
    · obtain ⟨b, hb⟩ := hword
      rw [displayed, scalarOf_of_word hb] at h
      exact .boolean b h.symm
    · have hword : ∀ b : Bool, lowerAscii s.toList ≠ (toString b).toList := fun b hb => hword ⟨b, hb⟩
      rw [displayed, scalarOf_of_not_word hword] at h
      cases hint : readInt64? s.toList with
      | some n =>
        rw [hint] at h
        exact .whole n (readInt64?_eq_some.mp hint).2 h.symm
      | none =>
        rw [hint] at h
        cases hread : Double.read? s.toList with
        | some x =>
          rw [hread] at h
          exact .real x hint h.symm
        | none =>
          refine .word hword fun x hx => ?_
          rw [read?_eq_some.mpr hx] at hread
          cases hread
  · intro h
    cases h with
    | word hword hwritten =>
      have hint : readInt64? s.toList = none := by
        apply Option.eq_none_iff_forall_ne_some.mpr
        intro n hn
        obtain ⟨x, hx⟩ := written_of_readInt64? hn
        exact hwritten x hx
      have hread : Double.read? s.toList = none :=
        Option.eq_none_iff_forall_ne_some.mpr fun x hx => hwritten x (read?_eq_some.mp hx)
      rw [displayed, scalarOf_of_not_word hword, hint, hread]
      rfl
    | boolean b heq =>
      subst heq
      cases b <;> decide
    | whole n hn heq =>
      subst heq
      obtain ⟨negative, digits, scale, hnumeral⟩ := numeral_toString n
      rw [displayed, scalarOf_of_not_word (not_word_of_numeral hnumeral), readInt64?_toString hn]
      rfl
    | real x hint heq =>
      subst heq
      rw [displayed, scalarOf_of_not_word (read?_render x).2, hint, (read?_render x).1]
      rfl

inductive TextKey
  | host
  | databaseUrl
  | baseUrl
  | consumerKey
  | consumerSecret
  | logLevel
  | logFormat
  deriving DecidableEq

namespace TextKey

def key : TextKey → Key
  | host => .host
  | databaseUrl => .databaseUrl
  | baseUrl => .baseUrl
  | consumerKey => .consumerKey
  | consumerSecret => .consumerSecret
  | logLevel => .logLevel
  | logFormat => .logFormat

def content : (k : TextKey) → String → k.key.Content
  | host, s | consumerKey, s | consumerSecret, s | logLevel, s | logFormat, s => s
  | databaseUrl, s | baseUrl, s => some s

theorem content_inj {k : TextKey} {s t : String} (h : k.content s = k.content t) : s = t := by
  cases k <;> first | exact h | exact Option.some.inj h

/-- Whatever is given is displayed, unless it is nothing. -/
theorem cast_scalar (k : TextKey) (origin : Origin) {x : Scalar} (hx : x ≠ .unit) :
    k.key.cast (.scalar origin x) = .ok (k.content x.display) := by
  cases x with
  | unit => exact absurd rfl hx
  | _ => cases k <;> rfl

end TextKey

theorem scalarOf_ne_unit (s : String) : Variables.scalarOf s ≠ .unit := by
  by_cases hword : ∃ b : Bool, lowerAscii s.toList = (toString b).toList
  · obtain ⟨b, hb⟩ := hword
    rw [scalarOf_of_word hb]
    nofun
  · rw [scalarOf_of_not_word fun b hb => hword ⟨b, hb⟩]
    cases readInt64? s.toList <;> cases Double.read? s.toList <;> nofun

namespace Sources

/-- The highest source of a setting is a variable with a name of its own or the file, and has this
text for it. -/
inductive Writes (sources : Sources) (k : Key) (s : String) : Prop
  | named : sources.named? k = some (.text s) → Writes sources k s
  | filed {origin : Origin} : sources.above? k = none →
      sources.filed? k = some (.scalar origin (.text s)) → Writes sources k s

/-- The highest source of a setting is a variable of the program, and has this text for it. -/
structure Passes (sources : Sources) (k : Key) (s : String) : Prop where
  named : sources.named? k = none
  last : sources.vars.last? k = some s

theorem Writes.given {sources : Sources} {k : Key} {s : String} (h : sources.Writes k s) :
    ∃ origin, sources.given? k = some (.scalar origin (.text s)) := by
  cases h with
  | named hnamed => exact ⟨none, by rw [given?, above?, hnamed]; rfl⟩
  | filed habove hfiled => exact ⟨_, by rw [given?, habove, hfiled]; rfl⟩

theorem Passes.given {sources : Sources} {k : Key} {s : String} (h : sources.Passes k s) :
    sources.given? k = some (Variables.parsed s) := by
  rw [given?, above?, h.named, h.last]
  rfl

/-- **Texts as they arrive.** A text setting is the text that the file or the variable with a name
of its own has for it. A variable of the program gives it as it is displayed, which is that text just
if it is faithful. Neither keeps the settings from being had. -/
theorem settings_text (k : TextKey) {sources others : Sources} {t : Settings}
    (ht : sources.settings = .ok t) (h : AlikeBut k.key sources others) (s : String) :
    (others.Writes k.key s → others.settings = .ok (k.key.put (k.content s) t)) ∧
      (others.Passes k.key s →
        others.settings = .ok (k.key.put (k.content (displayed s)) t) ∧
          (others.settings = .ok (k.key.put (k.content s) t) ↔ Faithful s)) := by
  constructor
  · intro hwrites
    obtain ⟨origin, hgiven⟩ := hwrites.given
    exact h.settings_put ht hgiven rfl (k.cast_scalar origin nofun)
  · intro hpasses
    have hdisplayed : others.settings = .ok (k.key.put (k.content (displayed s)) t) :=
      h.settings_put ht hpasses.given rfl (k.cast_scalar _ (scalarOf_ne_unit s))
    refine ⟨hdisplayed, ?_⟩
    rw [← displayed_eq_self_iff, hdisplayed, Except.ok.injEq]
    constructor
    · intro heq
      have hget := congrArg k.key.get heq
      rw [Key.get_put, Key.get_put] at hget
      exact TextKey.content_inj hget
    · intro heq
      rw [heq]

/-- No file; these variables, and these with names of their own. -/
def bare (vars : Variables) (scalars : vars.Known) (find : String → Option String) :
    Sources where
  file := none
  members := []
  holds := rfl
  known := ⟨nofun, List.nodup_nil, nofun⟩
  vars := vars
  scalars := scalars
  find := find

theorem secretVariable_known (s : String) :
    Variables.Known [("SHOPSEG_UPSTREAM__CONSUMER_SECRET", s)] := by
  have hkey : Variables.key? "SHOPSEG_UPSTREAM__CONSUMER_SECRET" = some Key.consumerSecret.text := by
    decide +kernel
  exact Variables.known_singleton hkey s

/-- A secret of digits loses its zeros in the program's variable, and in no other. -/
theorem settings_text_zeros :
    (bare [] nofun fun _ => none).settings = .ok standard ∧
      (bare [] nofun fun name => if name = "CONSUMER_SECRET" then some "007" else none).settings =
        .ok (Key.consumerSecret.put "007" standard) ∧
      (bare _ (secretVariable_known "007") fun _ => none).settings =
        .ok (Key.consumerSecret.put "7" standard) := by
  have hstandard : (bare [] nofun fun _ => none).settings = .ok standard := by
    rw [settings_eq]
    decide +kernel
  refine ⟨hstandard, ?_, ?_⟩
  · have halike : AlikeBut Key.consumerSecret (bare [] nofun fun _ => none)
        (bare [] nofun fun name => if name = "CONSUMER_SECRET" then some "007" else none) :=
      ⟨fun _ _ => rfl, rfl, fun name hname => (if_neg fun heq => hname (congrArg some heq.symm)).symm⟩
    exact (settings_text .consumerSecret hstandard halike "007").1 (.named rfl)
  · have halike : AlikeBut Key.consumerSecret (bare [] nofun fun _ => none)
        (bare _ (secretVariable_known "007") fun _ => none) :=
      ⟨fun _ _ => rfl, by decide +kernel, fun _ _ => rfl⟩
    have hdisplayed : displayed "007" = "7" := by decide +kernel
    rw [← hdisplayed]
    exact ((settings_text .consumerSecret hstandard halike "007").2 ⟨rfl, by decide +kernel⟩).1

end Sources

/-- The same secret from the two variables that there are for it, and from a file. -/
theorem ofSources_zeros :
    ofSources none [("SHOPSEG_UPSTREAM__CONSUMER_SECRET", "007")] (fun _ => none) =
        .ok { standard with shop := ⟨none, "", "7"⟩ } ∧
      ofSources none [] (fun name => if name = "CONSUMER_SECRET" then some "007" else none) =
        .ok { standard with shop := ⟨none, "", "007"⟩ } ∧
      ofSources
        (some ⟨.json, none, "\x7b\"upstream\":\x7b\"consumer_secret\":\"007\"\x7d\x7d"⟩) []
        (fun _ => none) = .ok { standard with shop := ⟨none, "", "007"⟩ } := by
  decide +kernel

end Segments.Settings
