import Mathlib.Control.Monad.Basic
import Segments.Proofs.ValuePaths
import Segments.Settings.Load

namespace Segments.Settings

open Json

inductive Key
  | host
  | port
  | databaseUrl
  | baseUrl
  | consumerKey
  | consumerSecret
  | syncInterval
  | logLevel
  | logFormat
  deriving DecidableEq

namespace Key

def path : Key → List String
  | host => ["host"]
  | port => ["port"]
  | databaseUrl => ["database_url"]
  | baseUrl => ["upstream", "base_url"]
  | consumerKey => ["upstream", "consumer_key"]
  | consumerSecret => ["upstream", "consumer_secret"]
  | syncInterval => ["sync_interval_secs"]
  | logLevel => ["log_level"]
  | logFormat => ["log_format"]

def text (k : Key) : String :=
  ".".intercalate k.path

def ownName? : Key → Option String
  | port => some "PORT"
  | databaseUrl => some "DATABASE_URL"
  | baseUrl => some "WC_BASE_URL"
  | consumerKey => some "CONSUMER_KEY"
  | consumerSecret => some "CONSUMER_SECRET"
  | _ => none

abbrev Content : Key → Type
  | host | consumerKey | consumerSecret | logLevel | logFormat => String
  | databaseUrl | baseUrl => Option String
  | port | syncInterval => Nat

def get : (k : Key) → Settings → k.Content
  | host, s => s.host
  | port, s => s.port
  | databaseUrl, s => s.databaseUrl
  | baseUrl, s => s.shop.baseUrl
  | consumerKey, s => s.shop.key
  | consumerSecret, s => s.shop.secret
  | syncInterval, s => s.syncInterval
  | logLevel, s => s.logLevel
  | logFormat, s => s.logFormat

def put : (k : Key) → k.Content → Settings → Settings
  | host, c, s => { s with host := c }
  | port, c, s => { s with port := c }
  | databaseUrl, c, s => { s with databaseUrl := c }
  | baseUrl, c, s => { s with shop := { s.shop with baseUrl := c } }
  | consumerKey, c, s => { s with shop := { s.shop with key := c } }
  | consumerSecret, c, s => { s with shop := { s.shop with secret := c } }
  | syncInterval, c, s => { s with syncInterval := c }
  | logLevel, c, s => { s with logLevel := c }
  | logFormat, c, s => { s with logFormat := c }

def cast : (k : Key) → Value → Except Fault k.Content
  | host | consumerKey | consumerSecret | logLevel | logFormat => Value.asText
  | databaseUrl | baseUrl => Value.asOption Value.asText
  | port => Value.asPort
  | syncInterval => Value.asNatural

def sets (k : Key) (v : String × String) : Bool :=
  Variables.key? v.1 == some k.text

theorem pathOf_text (k : Key) : pathOf k.text = k.path.map .member := by
  cases k <;> decide +kernel

theorem get_put (k : Key) (c : k.Content) (s : Settings) : k.get (k.put c s) = c := by
  cases k <;> rfl

/-- No setting is kept in the place of another. -/
theorem get_put_of_ne {j k : Key} (h : j ≠ k) (c : k.Content) (s : Settings) :
    j.get (k.put c s) = j.get s := by
  cases j <;> cases k <;> first | rfl | exact absurd rfl h

/-- No setting is inside of another. -/
theorem eq_of_prefix {j k : Key} (h : j.path <+: k.path) : j = k := by
  revert h
  cases j <;> cases k <;> decide

theorem text_inj {j k : Key} : j.text = k.text ↔ j = k := by
  constructor
  · intro h
    have hsteps : j.path.map Step.member = k.path.map Step.member := by
      rw [← pathOf_text, ← pathOf_text, h]
    have hpath : j.path = k.path := (List.map_inj_right fun _ _ heq => Step.member.inj heq).mp hsteps
    exact eq_of_prefix (hpath ▸ List.prefix_rfl)
  · intro h
    rw [h]

/-- No variable is the own one of two settings. -/
theorem ownName_inj {j k : Key} (hsome : j.ownName? ≠ none) (h : j.ownName? = k.ownName?) :
    j = k := by
  revert hsome h
  cases j <;> cases k <;> decide

theorem path_cases (k : Key) : (∃ name, k.path = [name]) ∨ ∃ name, k.path = ["upstream", name] := by
  cases k <;> simp [path]

end Key

namespace Value

/-- What a value has under the name of the storefront, if it has that, is a table. -/
def Nested (v : Value) : Prop :=
  ∀ shop, v.get? "upstream" = some shop → shop.isTable = true

/-- Whatever setting is put, the storefront stays a table. -/
theorem Nested.put {v : Value} (h : v.Nested) (new : Value) (k : Key) :
    (new.put (k.path.map .member) (some v)).Nested := by
  intro shop hshop
  have hkept := h shop
  cases k <;> simp_all [Value.put, Key.path] <;> simp [← hshop]

end Value

/-- Every entry is a value, and no table, under the key of a setting. -/
def Layer.Flat (layer : Layer) : Prop :=
  ∀ e ∈ layer, e.2.isTable = false ∧ ∃ k : Key, e.1 = k.text

/-- The last entry of a key counts, and it goes over what is below. -/
theorem Layer.Flat.at?_onto {layer : Layer} (h : layer.Flat) (k : Key) (below : Value) :
    Value.at? k.path (layer.onto below) =
      (layer.reverse.lookup k.text).or (Value.at? k.path below) := by
  induction layer generalizing below with
  | nil => rfl
  | cons e layer ih =>
    obtain ⟨key, new⟩ := e
    obtain ⟨⟨hleaf, j, hkey⟩, hrest⟩ := List.forall_mem_cons.mp h
    change key = j.text at hkey
    subst hkey
    change Value.at? k.path (Layer.onto layer (new.put (pathOf j.text) (some below))) = _
    rw [ih hrest, j.pathOf_text, List.reverse_cons, List.lookup_append, Option.or_assoc]
    congr 1
    by_cases heq : j = k
    · subst heq
      rw [Value.at?_put_self hleaf, List.lookup_cons_self]
      rfl
    · have hapart : ¬ j.path <+: k.path := fun hp => heq (Key.eq_of_prefix hp)
      have hapart' : ¬ k.path <+: j.path := fun hp => heq (Key.eq_of_prefix hp).symm
      have hne : k.text ≠ j.text := fun htext => heq (Key.text_inj.mp htext.symm)
      rw [Value.at?_put_apart new hapart hapart', Value.lookup_cons_of_ne hne]
      rfl

theorem Layer.Flat.nested_onto {layer : Layer} (h : layer.Flat) {below : Value}
    (hbelow : below.Nested) : (layer.onto below).Nested := by
  induction layer generalizing below with
  | nil => exact hbelow
  | cons e layer ih =>
    obtain ⟨key, new⟩ := e
    obtain ⟨⟨-, j, hkey⟩, hrest⟩ := List.forall_mem_cons.mp h
    change key = j.text at hkey
    subst hkey
    change (Layer.onto layer (new.put (pathOf j.text) (some below))).Nested
    rw [j.pathOf_text]
    exact ih hrest (hbelow.put new j)

/-- A table of known names, each once, with a table of names, each once, for the storefront if it has
that. -/
structure Layer.Known (file : Layer) : Prop where
  names : ∀ m ∈ file, m.1 ∈ ["host", "port", "database_url", "upstream", "sync_interval_secs",
    "log_level", "log_format"]
  distinct : (file.map Prod.fst).Nodup
  shop : ∀ v, file.lookup "upstream" = some v → v.isDistinct = true

namespace Layer.Known

variable {file : Layer}

/-- A name of a file is a path of one step, since points and brackets are no part of it. -/
theorem pathOf_name (h : file.Known) {m : String × Value} (hm : m ∈ file) :
    pathOf m.1 = [.member m.1] := by
  have hnames : ∀ name ∈ ["host", "port", "database_url", "upstream", "sync_interval_secs",
      "log_level", "log_format"], pathOf name = [.member name] := by
    decide +kernel
  exact hnames m.1 (h.names m hm)

/-- Its names being no paths, a file is put onto what is below it member by member. -/
theorem onto_eq (h : file.Known) (below : Value) : file.onto below = below.ontoMembers file := by
  have hplain : ∀ m ∈ file, pathOf m.1 = [.member m.1] := fun m hm => h.pathOf_name hm
  clear h
  induction file generalizing below with
  | nil => simp [Layer.onto, Value.ontoMembers]
  | cons m file ih =>
    obtain ⟨name, new⟩ := m
    obtain ⟨hname, hrest⟩ := List.forall_mem_cons.mp hplain
    change Layer.onto file (new.put (pathOf name) (some below)) = _
    rw [hname, ih _ hrest]
    rfl

/-- What the file has for a setting goes over what is below; nothing else does. -/
theorem at?_onto (h : file.Known) (k : Key) (below : Value) :
    Value.at? k.path (file.onto below) =
      ((Value.at? k.path (.table none file)).map (Value.onto (Value.at? k.path below))).or
        (Value.at? k.path below) := by
  rw [h.onto_eq]
  rcases k.path_cases with ⟨name, hpath⟩ | ⟨name, hpath⟩
  · simp only [hpath, Value.at?_single]
    exact Value.get?_ontoMembers h.distinct below name
  · simp only [hpath, Value.at?_pair, Value.get?_ontoMembers h.distinct, Value.get?_table]
    cases hshop : file.lookup "upstream" with
    | none => rfl
    | some v =>
      obtain ⟨origin, members, rfl, hdistinct⟩ := Value.eq_of_isDistinct (h.shop v hshop)
      simp only [Option.map_some, Option.some_or, Option.bind_some, Value.onto,
        Value.get?_ontoMembers hdistinct, Value.get?_getD_empty, Value.get?_table]

theorem nested_onto (h : file.Known) {below : Value} (hbelow : below.Nested) :
    (file.onto below).Nested := by
  intro shop hshop
  rw [h.onto_eq, Value.get?_ontoMembers h.distinct] at hshop
  cases hfile : file.lookup "upstream" with
  | none =>
    rw [hfile] at hshop
    exact hbelow shop hshop
  | some v =>
    obtain ⟨origin, members, rfl, -⟩ := Value.eq_of_isDistinct (h.shop v hfile)
    rw [hfile] at hshop
    simp only [Option.map_some, Option.some_or, Value.onto, Option.some.injEq] at hshop
    rw [← hshop]
    apply Value.isTable_ontoMembers
    cases hold : below.get? "upstream" with
    | none => rfl
    | some old => exact hbelow old hold

end Layer.Known

def Key.read (k : Key) (v : Value) : Except Fault k.Content :=
  match Value.at? k.path v with
  | some found => k.cast found
  | none => .ok (k.get standard)

/-- A table is nothing that a setting can be. -/
theorem Key.cast_table {k : Key} {v : Value} (h : v.isTable = true) (c : k.Content) :
    k.cast v ≠ .ok c := by
  cases v with
  | table origin members => cases k <;> exact nofun
  | _ => cases h

theorem member_of_some {name : String} {cast : Value → Except Fault α} {absent : Option α} {v w : Value}
    (h : v.get? name = some w) {a : α} : member name cast absent v = .ok a ↔ cast w = .ok a := by
  unfold member
  simp only [h]
  cases cast w <;> simp [Except.mapError]

/-- Where a member is absent, the value that stands for it is taken. -/
theorem member_of_none {name : String} {cast : Value → Except Fault α} {v : Value}
    (h : v.get? name = none) {a b : α} : member name cast (some b) v = .ok a ↔ b = a := by
  simp [member, h]

/-- A member that is there, or may be left out, is what the value says of its setting. -/
theorem Key.member_iff (k : Key) {name : String} {absent : Option k.Content} {v w : Value}
    {c : k.Content} (hat : Value.at? k.path v = w.get? name)
    (habsent : absent = some (k.get standard) ∨ (Value.at? k.path v).isSome = true) :
    member name k.cast absent w = .ok c ↔ k.read v = .ok c := by
  unfold Key.read
  rw [hat]
  cases hfound : w.get? name with
  | some found => exact member_of_some hfound
  | none =>
    rw [hat, hfound] at habsent
    rcases habsent with rfl | hsome
    · rw [member_of_none hfound, Except.ok.injEq]
    · cases hsome

/-- A storefront is had from what a value has under its name, if that is a table. -/
theorem shop_iff {v : Value} {shop : Shop} (hv : v.Nested) :
    member "upstream" Shop.ofValue (some .none) v = .ok shop ↔
      Key.baseUrl.read v = .ok shop.baseUrl ∧ Key.consumerKey.read v = .ok shop.key ∧
        Key.consumerSecret.read v = .ok shop.secret := by
  have hat : ∀ name, Value.at? ["upstream", name] v = (v.get? "upstream").bind (Value.get? name) :=
    fun name => Value.at?_pair "upstream" name v
  cases hfound : v.get? "upstream" with
  | some found =>
    simp only [hfound, Option.bind_some] at hat
    rw [member_of_some hfound, ← Key.baseUrl.member_iff (hat _) (.inl rfl),
      ← Key.consumerKey.member_iff (hat _) (.inl rfl),
      ← Key.consumerSecret.member_iff (hat _) (.inl rfl)]
    cases found with
    | table origin members =>
      constructor
      · intro h
        obtain ⟨baseUrl, hbase, h⟩ := bind_eq_ok.mp h
        obtain ⟨key, hkey, h⟩ := bind_eq_ok.mp h
        obtain ⟨secret, hsecret, h⟩ := bind_eq_ok.mp h
        cases h
        exact ⟨hbase, hkey, hsecret⟩
      · rintro ⟨hbase, hkey, hsecret⟩
        exact bind_eq_ok.mpr ⟨_, hbase, bind_eq_ok.mpr ⟨_, hkey, bind_eq_ok.mpr ⟨_, hsecret, rfl⟩⟩⟩
    | _ => cases hv _ hfound
  | none =>
    simp only [hfound, Option.bind_none] at hat
    rw [member_of_none hfound]
    obtain ⟨baseUrl, key, secret⟩ := shop
    simp [Key.read, Key.path, hat, Key.get, standard, Shop.none]

def Value.Whole (v : Value) : Prop :=
  ∀ k ∈ [Key.host, .port, .syncInterval, .logLevel, .logFormat], (at? k.path v).isSome = true

/-- The settings that are had from a value are those that it says. -/
theorem ofValue_iff {v : Value} {s : Settings} (hv : v.Nested) (hwhole : v.Whole) :
    ofValue v = .ok s ↔ ∀ k : Key, k.read v = .ok (k.get s) := by
  have hhost : ∀ {c}, member "host" Value.asText none v = .ok c ↔ Key.host.read v = .ok c :=
    Key.host.member_iff (Value.at?_single _ v) (.inr (hwhole _ (by decide)))
  have hport : ∀ {c}, member "port" Value.asPort none v = .ok c ↔ Key.port.read v = .ok c :=
    Key.port.member_iff (Value.at?_single _ v) (.inr (hwhole _ (by decide)))
  have hdatabase : ∀ {c}, member "database_url" (Value.asOption Value.asText) (some none) v = .ok c ↔
      Key.databaseUrl.read v = .ok c :=
    Key.databaseUrl.member_iff (Value.at?_single _ v) (.inl rfl)
  have hinterval : ∀ {c}, member "sync_interval_secs" Value.asNatural none v = .ok c ↔
      Key.syncInterval.read v = .ok c :=
    Key.syncInterval.member_iff (Value.at?_single _ v) (.inr (hwhole _ (by decide)))
  have hlevel : ∀ {c}, member "log_level" Value.asText none v = .ok c ↔ Key.logLevel.read v = .ok c :=
    Key.logLevel.member_iff (Value.at?_single _ v) (.inr (hwhole _ (by decide)))
  have hformat : ∀ {c}, member "log_format" Value.asText none v = .ok c ↔
      Key.logFormat.read v = .ok c :=
    Key.logFormat.member_iff (Value.at?_single _ v) (.inr (hwhole _ (by decide)))
  constructor
  · intro h k
    obtain ⟨host, h₁, h⟩ := bind_eq_ok.mp h
    obtain ⟨port, h₂, h⟩ := bind_eq_ok.mp h
    obtain ⟨databaseUrl, h₃, h⟩ := bind_eq_ok.mp h
    obtain ⟨shop, h₄, h⟩ := bind_eq_ok.mp h
    obtain ⟨syncInterval, h₅, h⟩ := bind_eq_ok.mp h
    obtain ⟨logLevel, h₆, h⟩ := bind_eq_ok.mp h
    obtain ⟨logFormat, h₇, h⟩ := bind_eq_ok.mp h
    cases h
    obtain ⟨hbase, hkey, hsecret⟩ := (shop_iff hv).mp h₄
    cases k with
    | host => exact hhost.mp h₁
    | port => exact hport.mp h₂
    | databaseUrl => exact hdatabase.mp h₃
    | baseUrl => exact hbase
    | consumerKey => exact hkey
    | consumerSecret => exact hsecret
    | syncInterval => exact hinterval.mp h₅
    | logLevel => exact hlevel.mp h₆
    | logFormat => exact hformat.mp h₇
  · intro h
    have hshop := (shop_iff hv).mpr ⟨h .baseUrl, h .consumerKey, h .consumerSecret⟩
    exact bind_eq_ok.mpr ⟨_, hhost.mpr (h .host),
      bind_eq_ok.mpr ⟨_, hport.mpr (h .port),
      bind_eq_ok.mpr ⟨_, hdatabase.mpr (h .databaseUrl),
      bind_eq_ok.mpr ⟨_, hshop,
      bind_eq_ok.mpr ⟨_, hinterval.mpr (h .syncInterval),
      bind_eq_ok.mpr ⟨_, hlevel.mpr (h .logLevel),
      bind_eq_ok.mpr ⟨_, hformat.mpr (h .logFormat), rfl⟩⟩⟩⟩⟩⟩⟩

theorem standardLayer_eq : standardLayer =
    [(Key.host.text, .text standard.host),
     (Key.port.text, .scalar none (.whole standard.port)),
     (Key.syncInterval.text, .scalar none (.whole standard.syncInterval)),
     (Key.logLevel.text, .text standard.logLevel),
     (Key.logFormat.text, .text standard.logFormat)] :=
  rfl

theorem standardLayer_flat : standardLayer.Flat := by
  intro e he
  simp only [standardLayer_eq, List.mem_cons, List.not_mem_nil, or_false] at he
  rcases he with rfl | rfl | rfl | rfl | rfl
  · exact ⟨rfl, .host, rfl⟩
  · exact ⟨rfl, .port, rfl⟩
  · exact ⟨rfl, .syncInterval, rfl⟩
  · exact ⟨rfl, .logLevel, rfl⟩
  · exact ⟨rfl, .logFormat, rfl⟩

def base : Value :=
  standardLayer.onto .empty

theorem at?_base (k : Key) : Value.at? k.path base = standardLayer.reverse.lookup k.text := by
  have hempty : Value.at? k.path .empty = none := by
    rcases k.path_cases with ⟨name, hpath⟩ | ⟨name, hpath⟩ <;> simp [hpath]
  rw [base, standardLayer_flat.at?_onto, hempty, Option.or_none]

/-- With nothing else given, each setting is the standard one. -/
theorem Key.read_base (k : Key) : k.read base = .ok (k.get standard) := by
  rw [Key.read, at?_base, standardLayer_eq]
  cases k <;> simp [List.lookup_cons] <;> rfl

theorem base_whole : base.Whole := by
  intro k hk
  rw [at?_base, standardLayer_eq]
  revert k
  decide

def Variables.Known (vars : Variables) : Prop :=
  ∀ v ∈ vars, Variables.key? v.1 = none ∨ ∃ k : Key, Variables.key? v.1 = some k.text

theorem Variables.known_singleton {name : String} {k : Key} (h : Variables.key? name = some k.text)
    (s : String) : Variables.Known [(name, s)] := by
  intro v hv
  rw [List.mem_singleton.mp hv]
  exact .inr ⟨k, h⟩

theorem Variables.Known.flat {vars : Variables} (h : vars.Known) : (Variables.layer vars).Flat := by
  intro e he
  obtain ⟨v, hv, hentry⟩ := List.mem_filterMap.mp he
  obtain ⟨key, hkey, rfl⟩ := Option.map_eq_some_iff.mp hentry
  refine ⟨rfl, ?_⟩
  rcases h v hv with hnone | ⟨k, hk⟩
  · rw [hnone] at hkey
    cases hkey
  · rw [hk] at hkey
    exact ⟨k, (Option.some.inj hkey).symm⟩

def Variables.last? (vars : Variables) (k : Key) : Option String :=
  (vars.reverse.find? k.sets).map Prod.snd

def Variables.parsed (s : String) : Value :=
  .scalar (some "the environment") (scalarOf s)

/-- Of several variables for one setting the last counts. -/
theorem Variables.lookup_layer (vars : Variables) (k : Key) :
    (Variables.layer vars).reverse.lookup k.text = (vars.last? k).map parsed := by
  unfold Variables.layer Variables.last?
  rw [← List.filterMap_reverse]
  induction vars.reverse with
  | nil => rfl
  | cons v rest ih =>
    obtain ⟨name, s⟩ := v
    cases hkey : key? name with
    | none => simpa [List.filterMap_cons, Key.sets, hkey] using ih
    | some key =>
      by_cases h : key = k.text
      · subst h
        simp [Key.sets, hkey, parsed]
      · simpa [List.filterMap_cons, Key.sets, hkey, h, Value.lookup_cons_of_ne, Ne.symm h] using ih

theorem Variables.overrideLayer_eq (find : String → Option String) : overrideLayer find =
    [("PORT", Key.port), ("DATABASE_URL", .databaseUrl), ("WC_BASE_URL", .baseUrl),
      ("CONSUMER_KEY", .consumerKey), ("CONSUMER_SECRET", .consumerSecret)].filterMap fun v =>
        (find v.1).map fun s => (v.2.text, .text s) := by
  have hkeys : overrides =
      [("PORT", Key.port.text), ("DATABASE_URL", Key.databaseUrl.text),
       ("WC_BASE_URL", Key.baseUrl.text), ("CONSUMER_KEY", Key.consumerKey.text),
       ("CONSUMER_SECRET", Key.consumerSecret.text)] := by
    decide +kernel
  unfold overrideLayer
  rw [hkeys]
  rfl

theorem Variables.overrideLayer_flat (find : String → Option String) :
    (overrideLayer find).Flat := by
  intro e he
  rw [overrideLayer_eq] at he
  obtain ⟨⟨name, k⟩, -, hentry⟩ := List.mem_filterMap.mp he
  obtain ⟨s, -, rfl⟩ := Option.map_eq_some_iff.mp hentry
  exact ⟨rfl, k, rfl⟩

theorem Variables.lookup_found (find : String → Option String) (k : Key)
    (names : List (String × Key)) :
    (names.filterMap fun v => (find v.1).map fun s => (v.2.text, Value.text s)).lookup k.text =
      names.findSome? fun v => if v.2 = k then (find v.1).map .text else none := by
  induction names with
  | nil => rfl
  | cons v names ih =>
    obtain ⟨name, j⟩ := v
    by_cases h : j = k
    · subst h
      cases hfound : find name <;> simp [hfound, ih]
    · have hne : k.text ≠ j.text := fun htext => h (Key.text_inj.mp htext.symm)
      cases hfound : find name <;> simp [hfound, ih, h, Value.lookup_cons_of_ne hne]

theorem Variables.lookup_overrideLayer (find : String → Option String) (k : Key) :
    (overrideLayer find).reverse.lookup k.text = (k.ownName?.bind find).map .text := by
  rw [overrideLayer_eq, ← List.filterMap_reverse, lookup_found]
  cases k <;> simp [Key.ownName?, List.findSome?_cons] <;> cases find _ <;> rfl

/-- What sources have to say. The file, if there is one, holds a table of known names, and the
program's variables are for settings. -/
structure Sources where
  file : Option Source
  members : Layer
  holds : (match file with
    | some source => source.layer
    | none => .ok []) = .ok members
  known : members.Known
  vars : Variables
  scalars : vars.Known
  find : String → Option String

namespace Sources

def settings (sources : Sources) : Except String Settings :=
  ofSources sources.file sources.vars sources.find

def filed? (sources : Sources) (k : Key) : Option Value :=
  (Value.at? k.path (.table none sources.members)).filter fun v => !v.isBare

def named? (sources : Sources) (k : Key) : Option Value :=
  (k.ownName?.bind sources.find).map .text

/-- What the variables give for a setting: the one with a name of its own before the others. -/
def above? (sources : Sources) (k : Key) : Option Value :=
  (sources.named? k).or ((sources.vars.last? k).map Variables.parsed)

def given? (sources : Sources) (k : Key) : Option Value :=
  (sources.above? k).or (sources.filed? k)

/-- The setting as the highest source that has it gives it, else the standard one. -/
def taken (sources : Sources) (k : Key) : Except Fault k.Content :=
  match sources.given? k with
  | some v => k.cast v
  | none => .ok (k.get standard)

def value (sources : Sources) : Value :=
  merge (layers sources.members sources.vars sources.find)

theorem settings_eq (sources : Sources) : sources.settings =
    match ofValue sources.value with
    | .ok s => .ok s
    | .error fault => .error ("Failed to deserialize config: " ++ fault.message) := by
  have hholds := sources.holds
  unfold settings ofSources value
  cases hfile : sources.file with
  | none =>
    rw [hfile] at hholds
    rw [← Except.ok.inj hholds]
    rfl
  | some source =>
    rw [hfile] at hholds
    simp only [hholds]
    rfl

/-- What stands for a setting: what variables give, or what the file puts onto the standard one. -/
theorem at?_value (sources : Sources) (k : Key) : Value.at? k.path sources.value =
    (sources.above? k).or
      (((Value.at? k.path (.table none sources.members)).map (Value.onto (Value.at? k.path base))).or
        (Value.at? k.path base)) := by
  change Value.at? k.path ((Variables.overrideLayer sources.find).onto
    ((Variables.layer sources.vars).onto (sources.members.onto base))) = _
  rw [(Variables.overrideLayer_flat _).at?_onto, sources.scalars.flat.at?_onto,
    sources.known.at?_onto, Variables.lookup_overrideLayer, Variables.lookup_layer,
    ← Option.or_assoc]
  rfl

/-- Whatever lower sources say at the path of a setting is covered by the highest. -/
theorem at?_value_of_given {sources : Sources} {k : Key} {v : Value}
    (hgiven : sources.given? k = some v) (hleaf : v.isTable = false) :
    Value.at? k.path sources.value = some v := by
  rw [at?_value]
  rcases Option.or_eq_some_iff.mp hgiven with habove | ⟨hnone, hfile⟩
  · rw [habove]
    rfl
  · obtain ⟨hfound, -⟩ := Option.filter_eq_some_iff.mp hfile
    rw [hnone, hfound, Option.none_or]
    exact congrArg some (Value.onto_leaf hleaf _)

/-- The settings are had from sources just as they are said by the value of these. -/
theorem settings_iff {sources : Sources} {s : Settings} :
    sources.settings = .ok s ↔ ∀ k : Key, k.read sources.value = .ok (k.get s) := by
  have hempty : Value.empty.Nested := nofun
  have hnested : sources.value.Nested :=
    (Variables.overrideLayer_flat _).nested_onto <| sources.scalars.flat.nested_onto <|
      sources.known.nested_onto <| standardLayer_flat.nested_onto hempty
  have hwhole : sources.value.Whole := by
    intro k hk
    have hbase := base_whole k hk
    simp [at?_value, hbase]
  rw [← ofValue_iff hnested hwhole, settings_eq]
  cases ofValue sources.value <;> simp

/-- Each setting that is had is the one that the highest source that has it gives. -/
theorem taken_eq {sources : Sources} {s : Settings} (h : sources.settings = .ok s) (k : Key) :
    sources.taken k = .ok (k.get s) := by
  have hread := settings_iff.mp h k
  have hbase := k.read_base
  unfold Key.read at hread hbase
  unfold taken given?
  rw [at?_value] at hread
  cases habove : sources.above? k with
  | some v =>
    rw [habove] at hread
    exact hread
  | none =>
    rw [habove, Option.none_or] at hread
    rw [Option.none_or, filed?]
    cases hfile : Value.at? k.path (.table none sources.members) with
    | none =>
      rw [hfile] at hread
      exact hbase.symm.trans hread
    | some v =>
      rw [hfile] at hread
      change k.cast (v.onto _) = _ at hread
      by_cases hbare : v.isBare = true
      · -- a table without members leaves what is below, and below are the standard settings
        rw [Option.filter_some_neg (by simp [hbare])]
        rw [Value.onto_bare hbare] at hread
        cases hbelow : Value.at? k.path base with
        | none =>
          rw [hbelow] at hread
          exact absurd hread (Key.cast_table rfl _)
        | some old =>
          rw [hbelow] at hread hbase
          exact hbase.symm.trans hread
      · rw [Option.filter_some_pos (by simp [hbare])]
        cases htable : v.isTable with
        | true => exact absurd hread (Key.cast_table (Value.isTable_onto htable hbare _) _)
        | false =>
          rw [Value.onto_leaf htable] at hread
          exact hread

/-- Sources that say the same but for one setting, which each of them may change, add or leave
out. -/
structure AlikeBut (changed : Key) (sources others : Sources) : Prop where
  members : ∀ k ≠ changed,
    Value.at? k.path (.table none sources.members) = Value.at? k.path (.table none others.members)
  vars : sources.vars.filter (fun v => !changed.sets v) =
    others.vars.filter (fun v => !changed.sets v)
  find : ∀ name, changed.ownName? ≠ some name → sources.find name = others.find name

theorem last?_eq {vars others : Variables} {changed k : Key} (hk : k ≠ changed)
    (h : vars.filter (fun v => !changed.sets v) = others.filter (fun v => !changed.sets v)) :
    vars.last? k = others.last? k := by
  have hother : ∀ l : Variables, l.reverse.find? k.sets =
      (l.filter fun v => !changed.sets v).reverse.find? k.sets := by
    intro l
    rw [← List.filter_reverse, List.find?_filter]
    congr 1
    funext v
    cases hsets : k.sets v with
    | false => simp
    | true =>
      have hnot : changed.sets v = false := by
        unfold Key.sets at hsets ⊢
        rw [beq_iff_eq] at hsets
        rw [hsets]
        exact beq_false_of_ne fun htext => hk (Key.text_inj.mp (Option.some.inj htext))
      simp [hnot]
  unfold Variables.last?
  rw [hother vars, hother others, h]

namespace AlikeBut

variable {changed k : Key} {sources others : Sources}

/-- A variable of one setting is none of another. -/
theorem above?_eq (h : AlikeBut changed sources others) (hk : k ≠ changed) :
    sources.above? k = others.above? k := by
  have hnamed : sources.named? k = others.named? k := by
    unfold named?
    cases hname : k.ownName? with
    | none => rfl
    | some name =>
      have hfree : changed.ownName? ≠ some name := by
        intro heq
        exact hk (Key.ownName_inj (by simp [hname]) (hname.trans heq.symm))
      simp only [Option.bind_some, h.find name hfree]
  rw [above?, above?, hnamed, last?_eq hk h.vars]

theorem read_eq (h : AlikeBut changed sources others) (hk : k ≠ changed) :
    k.read sources.value = k.read others.value := by
  rw [Key.read, Key.read, at?_value, at?_value, h.above?_eq hk, h.members k hk]

/-- What the sources say of one setting does not bear on the others. -/
theorem get_eq (h : AlikeBut changed sources others) {s t : Settings} (hs : sources.settings = .ok s)
    (ht : others.settings = .ok t) (hk : k ≠ changed) : k.get t = k.get s := by
  have hread := settings_iff.mp hs k
  rw [h.read_eq hk] at hread
  exact Except.ok.inj ((settings_iff.mp ht k).symm.trans hread)

/-- What the sources give for one setting, if it can be that setting, comes to the settings that are
had from them otherwise. -/
theorem settings_put (h : AlikeBut changed sources others) {s : Settings}
    (hs : sources.settings = .ok s) {v : Value} {c : changed.Content}
    (hgiven : others.given? changed = some v) (hleaf : v.isTable = false)
    (hcast : changed.cast v = .ok c) : others.settings = .ok (changed.put c s) := by
  rw [settings_iff]
  intro k
  by_cases hk : k = changed
  · subst hk
    rw [Key.get_put, Key.read, at?_value_of_given hgiven hleaf]
    exact hcast
  · rw [Key.get_put_of_ne hk, ← h.read_eq hk]
    exact settings_iff.mp hs k

end AlikeBut

/-- **Each setting on its own.** A setting is the one that the highest source that has it gives,
else the standard one; a change of one setting in the sources changes no other. -/
theorem settings_layered (sources : Sources) {s : Settings} (h : sources.settings = .ok s) :
    (∀ k : Key, sources.taken k = .ok (k.get s)) ∧
      ∀ (changed : Key) (others : Sources) (t : Settings), AlikeBut changed sources others →
        others.settings = .ok t → ∀ k ≠ changed, k.get t = k.get s := by
  refine ⟨taken_eq h, ?_⟩
  intro changed others t halike ht k hk
  exact halike.get_eq h ht hk

/-- A file that has a port and both of a storefront's credentials. -/
def shelfFile : Source :=
  ⟨.json, none, "\x7b\"port\":8080,\"upstream\":" ++
    "\x7b\"consumer_key\":\"ck\",\"consumer_secret\":\"cs\"\x7d\x7d"⟩

def shelfMembers : Layer :=
  shelfFile.layer.toOption.getD []

theorem ok_of_isOk {ε α : Type} {x : Except ε α} (h : x.isOk = true) (a : α) :
    x = .ok (x.toOption.getD a) := by
  cases x with
  | ok b => rfl
  | error e => cases h

theorem shelfFile_layer : shelfFile.layer = .ok shelfMembers := by
  have hread : shelfFile.layer.isOk = true := by decide +kernel
  exact ok_of_isOk hread []

theorem shelfMembers_known : shelfMembers.Known where
  names := by decide +kernel
  distinct := by decide +kernel
  shop := by
    have hall : (shelfMembers.lookup "upstream").all Value.isDistinct = true := by decide +kernel
    exact (Option.all_eq_true _ _).mp hall

/-- The file with these variables, and a port from the variable with a name of its own. -/
def shelf (vars : Variables) (scalars : vars.Known) : Sources where
  file := some shelfFile
  members := shelfMembers
  holds := shelfFile_layer
  known := shelfMembers_known
  vars := vars
  scalars := scalars
  find := fun name => if name = "PORT" then some "5005" else none

theorem keyVariable_known :
    Variables.Known [("SHOPSEG_UPSTREAM__CONSUMER_KEY", "ck_new")] := by
  have hkey : Variables.key? "SHOPSEG_UPSTREAM__CONSUMER_KEY" = some Key.consumerKey.text := by
    decide +kernel
  exact Variables.known_singleton hkey "ck_new"

/-- A key from a variable goes over that of the file, and the secret beside it stays. -/
theorem settings_layered_key :
    ∃ s t : Settings, (shelf _ keyVariable_known).settings = .ok s ∧
      (shelf [] nofun).settings = .ok t ∧
      (∀ k, (shelf _ keyVariable_known).taken k = .ok (k.get s)) ∧
      (∀ k ≠ Key.consumerKey, k.get t = k.get s) ∧
      s.port = 5005 ∧ s.shop = ⟨none, "ck_new", "cs"⟩ ∧ t.shop = ⟨none, "ck", "cs"⟩ := by
  have hkeyed : (shelf _ keyVariable_known).settings = .ok
      { host := "127.0.0.1", port := 5005, databaseUrl := none, shop := ⟨none, "ck_new", "cs"⟩
        syncInterval := 3600, logLevel := "info", logFormat := "text" } := by
    rw [settings_eq]
    decide +kernel
  have hbare : (shelf [] nofun).settings = .ok
      { host := "127.0.0.1", port := 5005, databaseUrl := none, shop := ⟨none, "ck", "cs"⟩
        syncInterval := 3600, logLevel := "info", logFormat := "text" } := by
    rw [settings_eq]
    decide +kernel
  have halike : AlikeBut .consumerKey (shelf _ keyVariable_known) (shelf [] nofun) :=
    ⟨fun _ _ => rfl, by decide +kernel, fun _ _ => rfl⟩
  have hlayered := settings_layered (shelf _ keyVariable_known) hkeyed
  exact ⟨_, _, hkeyed, hbare, hlayered.1, hlayered.2 _ _ _ halike hbare, rfl, rfl, rfl⟩

end Sources

end Segments.Settings
