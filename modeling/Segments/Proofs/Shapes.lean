import Segments.Proofs.Products

namespace Segments.Json

/-- What a value has as a member, if that is neither absent nor null. -/
def given? (name : String) (v : Json) : Option Json :=
  match v.get? name with
  | some .null => none
  | found => found

theorem given?_of_absent {name : String} {members : List (String × Json)}
    (h : lookup name members = none) : given? name (.object members) = none := by
  simp only [given?, get?, h]

theorem given?_of_null {name : String} {members : List (String × Json)}
    (h : lookup name members = some .null) : given? name (.object members) = none := by
  simp only [given?, get?, h]

theorem given?_of_lookup {name : String} {members : List (String × Json)} {v : Json}
    (h : lookup name members = some v) (hnull : v ≠ .null) :
    given? name (.object members) = some v := by
  cases v with
  | null => exact absurd rfl hnull
  | _ => simp only [given?, get?, h]

/-- What is given is a member of an object, and not null. -/
theorem given?_eq_some {name : String} {raw v : Json} (h : given? name raw = some v) :
    ∃ members, raw = .object members ∧ lookup name members = some v ∧ v ≠ .null := by
  cases raw with
  | object members =>
    cases hfound : lookup name members with
    | none =>
      rw [given?_of_absent hfound] at h
      cases h
    | some w =>
      by_cases hnull : w = .null
      · subst hnull
        rw [given?_of_null hfound] at h
        cases h
      · rw [given?_of_lookup hfound hnull] at h
        cases h
        exact ⟨members, rfl, hfound, hnull⟩
  | _ => cases h

theorem mem_of_lookup {name : String} {v : Json} {members : List (String × Json)}
    (h : lookup name members = some v) : (name, v) ∈ members := by
  induction members with
  | nil => cases h
  | cons m members ih =>
    obtain ⟨other, w⟩ := m
    unfold lookup at h
    split at h
    · next hname =>
      have hname : other = name := by simpa using hname
      cases h
      rw [hname]
      exact List.mem_cons_self
    · exact List.mem_cons_of_mem _ (ih h)

/-- Only with distinct names is every member found under its own. -/
theorem lookup_of_mem {name : String} {v : Json} {members : List (String × Json)}
    (hdistinct : (members.map Prod.fst).Nodup) (h : (name, v) ∈ members) :
    lookup name members = some v := by
  induction members with
  | nil => cases h
  | cons m members ih =>
    obtain ⟨other, w⟩ := m
    obtain ⟨hother, hrest⟩ := List.nodup_cons.mp hdistinct
    unfold lookup
    rcases List.mem_cons.mp h with hhead | htail
    · cases hhead
      rw [if_pos (beq_self_eq_true _)]
    · have hne : ¬ (other == name) = true := by
        intro hname
        have hname : other = name := by simpa using hname
        exact hother (List.mem_map.mpr ⟨(name, v), htail, hname.symm⟩)
      rw [if_neg hne]
      exact ih hrest htail

/-- What an object has under the name of a member is read as `a`, or it has nothing there and `a` is
what stands for that. -/
def Member.Reads {α : Type} (m : Member α) (members : List (String × Json)) (a : α) : Prop :=
  match lookup m.name members with
  | some v => m.decode v = .ok a
  | none => m.absent = some a

/-- Nothing that an object has under the name of a member is of another type. -/
def Member.Fits {α : Type} (m : Member α) (members : List (String × Json)) : Prop :=
  ∀ v, (m.name, v) ∈ members → ∃ a, m.decode v = .ok a

theorem Member.Reads.fits {α : Type} {m : Member α} {members : List (String × Json)} {a : α}
    (hdistinct : (members.map Prod.fst).Nodup) (h : m.Reads members a) : m.Fits members := by
  intro v hv
  unfold Reads at h
  rw [lookup_of_mem hdistinct hv] at h
  exact ⟨a, h⟩

namespace Shape

variable {αs : List Type}

def names : {αs : List Type} → Shape αs → List String
  | _, .nil => []
  | _, .cons m rest => m.name :: rest.names

def Fits (members : List (String × Json)) : {αs : List Type} → Shape αs → Prop
  | _, .nil => True
  | _, .cons m rest => m.Fits members ∧ rest.Fits members

def Reads (members : List (String × Json)) : {αs : List Type} → Shape αs → Row αs → Prop
  | _, .nil, _ => True
  | _, .cons m rest, row => m.Reads members row.1 ∧ rest.Reads members row.2

theorem fault?_eq_none_of_not_mem {s : Shape αs} {name : String} {v : Json} (h : name ∉ s.names) :
    s.fault? name v = none := by
  induction s with
  | nil => rfl
  | cons m rest ih =>
    obtain ⟨hne, hrest⟩ := not_or.mp (mt List.mem_cons.mpr h)
    have hname : ¬ (m.name == name) = true := by
      intro heq
      exact hne (by simpa using (beq_iff_eq.mp heq).symm)
    rw [fault?, if_neg hname]
    exact ih hrest

theorem fault?_cons {α : Type} {m : Member α} {rest : Shape αs} {name : String} {v : Json}
    (hm : m.name ∉ rest.names) : (Shape.cons m rest).fault? name v = none ↔
      (m.name = name → ∃ a, m.decode v = .ok a) ∧ rest.fault? name v = none := by
  rw [fault?]
  by_cases hname : m.name = name
  · have hrest : rest.fault? name v = none := fault?_eq_none_of_not_mem (hname ▸ hm)
    rw [if_pos (beq_iff_eq.mpr hname)]
    cases m.decode v with
    | ok a => simp [hrest]
    | error e => simp [hname]
  · rw [if_neg (mt beq_iff_eq.mp hname)]
    simp [hname]

/-- An object is looked through by its own members, a structure by its names; with distinct names
the two agree. -/
theorem faults_eq_none {s : Shape αs} (hs : s.names.Nodup) {members : List (String × Json)} :
    (members.findSome? fun m => s.fault? m.1 m.2) = none ↔ s.Fits members := by
  rw [List.findSome?_eq_none_iff]
  induction s with
  | nil => simp [fault?, Fits]
  | cons m rest ih =>
    obtain ⟨hm, hrest⟩ := List.nodup_cons.mp hs
    simp only [fault?_cons hm]
    constructor
    · intro h
      refine ⟨fun v hv => (h _ hv).1 rfl, (ih hrest).mp fun member hmember => (h member hmember).2⟩
    · rintro ⟨hfits, hothers⟩ member hmember
      refine ⟨fun hname => hfits member.2 (hname ▸ hmember), (ih hrest).mpr hothers member hmember⟩

theorem pick_eq_ok {s : Shape αs} {members : List (String × Json)} {row : Row αs} :
    s.pick (fun name => lookup name members) = .ok row ↔ s.Reads members row := by
  induction s with
  | nil => exact ⟨fun _ => trivial, fun _ => rfl⟩
  | cons m rest ih =>
    unfold pick Reads Member.Reads
    obtain ⟨a, row⟩ := row
    rw [← ih]
    cases lookup m.name members with
    | some v =>
      simp only
      cases m.decode v with
      | ok b =>
        cases rest.pick fun name => lookup name members <;> simp [bind, Except.bind]
      | error e => simp [bind, Except.bind]
    | none =>
      cases m.absent with
      | some b =>
        cases rest.pick fun name => lookup name members <;> simp [bind, Except.bind]
      | none => simp [bind, Except.bind]

/-- A structure is read from an object just if its members fit, and then member by member. -/
theorem decode_object {s : Shape αs} (hs : s.names.Nodup) {name : String}
    {members : List (String × Json)} {row : Row αs} :
    s.decode name (.object members) = .ok row ↔ s.Fits members ∧ s.Reads members row := by
  rw [← faults_eq_none hs, ← pick_eq_ok]
  cases hfault : members.findSome? fun m => s.fault? m.1 m.2 with
  | some e => simp [decode, hfault]
  | none => simp [decode, hfault]

/-- Of an object with distinct names nothing is left to fit once its members have been read. -/
theorem Reads.fits {s : Shape αs} {members : List (String × Json)} {row : Row αs}
    (hdistinct : (members.map Prod.fst).Nodup) (h : s.Reads members row) : s.Fits members := by
  induction s with
  | nil => trivial
  | cons m rest ih => exact ⟨h.1.fits hdistinct, ih h.2⟩

def Lists : {αs : List Type} → Shape αs → List Json → Row αs → Prop
  | _, .nil, [], _ => True
  | _, .cons m rest, v :: items, row => m.decode v = .ok row.1 ∧ rest.Lists items row.2
  | _, _, _, _ => False

theorem Lists.take {s : Shape αs} {items : List Json} {row : Row αs} (h : s.Lists items row)
    (before : Nat) (expected : String) : s.take before expected items = .ok row := by
  induction s generalizing items before with
  | nil =>
    cases items with
    | nil => rfl
    | cons v items => exact h.elim
  | cons m rest ih =>
    cases items with
    | nil => exact h.elim
    | cons v items =>
      obtain ⟨hfirst, hrest⟩ := h
      simp only [Shape.take, hfirst, ih hrest]
      rfl

theorem Lists.decode {s : Shape αs} {items : List Json} {row : Row αs} (h : s.Lists items row)
    (name : String) : s.decode name (.array items) = .ok row :=
  h.take 0 _

def items (members : List (String × Json)) (s : Shape αs) : List Json :=
  s.names.filterMap fun name => lookup name members

theorem mem_items {s : Shape αs} {members : List (String × Json)} {v : Json}
    (h : v ∈ s.items members) : ∃ name, (name, v) ∈ members := by
  obtain ⟨name, -, hfound⟩ := List.mem_filterMap.mp h
  exact ⟨name, mem_of_lookup hfound⟩

/-- Where no member is missing, the values of the members are read in a list as in the object. -/
theorem Reads.lists {s : Shape αs} {members : List (String × Json)} {row : Row αs}
    (h : s.Reads members row) (hall : ∀ name ∈ s.names, lookup name members ≠ none) :
    s.Lists (s.items members) row := by
  induction s with
  | nil => trivial
  | cons m rest ih =>
    obtain ⟨hfirst, hrest⟩ := h
    obtain ⟨v, hv⟩ := Option.ne_none_iff_exists'.mp (hall m.name List.mem_cons_self)
    have hitems : (cons m rest).items members = v :: rest.items members := by
      simp only [items, names, List.filterMap_cons, hv]
    unfold Member.Reads at hfirst
    rw [hv] at hfirst
    rw [hitems]
    exact ⟨hfirst, ih hrest fun name hname => hall name (List.mem_cons_of_mem _ hname)⟩

end Shape

end Segments.Json
