import Segments.Settings.Value

namespace Segments.Settings.Value

def isTable : Value → Bool
  | .table _ _ => true
  | _ => false

/-- A table without members, which says nothing about any setting. -/
def isBare : Value → Bool
  | .table _ [] => true
  | _ => false

def isDistinct : Value → Bool
  | .table _ members => decide (members.map Prod.fst).Nodup
  | _ => false

theorem eq_of_isDistinct {v : Value} (h : v.isDistinct = true) :
    ∃ origin members, v = .table origin members ∧ (members.map Prod.fst).Nodup := by
  cases v with
  | table origin members => exact ⟨origin, members, rfl, of_decide_eq_true h⟩
  | _ => cases h

def at? : List String → Value → Option Value
  | [], v => some v
  | name :: path, v => (v.get? name).bind (at? path)

theorem lookup_cons_of_ne {name other : String} (h : name ≠ other) (v : Value)
    (members : List (String × Value)) :
    ((other, v) :: members).lookup name = members.lookup name := by
  rw [List.lookup_cons, beq_false_of_ne h]

theorem lookup_changeMember (name other : String) (f : Option Value → Value)
    (members : List (String × Value)) :
    (changeMember name f members).lookup other =
      if other = name then some (f (members.lookup name)) else members.lookup other := by
  induction members with
  | nil => by_cases h : other = name <;> simp [changeMember, lookup_cons_of_ne, h]
  | cons m members ih =>
    obtain ⟨n, v⟩ := m
    unfold changeMember
    by_cases hn : n = name
    · subst hn
      by_cases h : other = n <;> simp [lookup_cons_of_ne, h]
    · by_cases h : other = name
      · subst h
        simp [lookup_cons_of_ne, hn, Ne.symm hn, ih]
      · by_cases hother : other = n <;> simp [lookup_cons_of_ne, hn, h, hother, ih]

/-- Changing one member of a table leaves the others. -/
@[simp] theorem get?_change (name other : String) (f : Option Value → Value) (v : Value) :
    (v.change name f).get? other =
      if other = name then some (f (v.get? name)) else v.get? other := by
  cases v with
  | table origin members => exact lookup_changeMember name other f members
  | scalar origin value => by_cases h : other = name <;> simp [change, get?, lookup_cons_of_ne, h]
  | list origin items => by_cases h : other = name <;> simp [change, get?, lookup_cons_of_ne, h]

@[simp] theorem isTable_change (name : String) (f : Option Value → Value) (v : Value) :
    (v.change name f).isTable = true := by
  cases v <;> rfl

@[simp] theorem get?_table (name : String) (origin : Origin) (members : List (String × Value)) :
    (table origin members).get? name = members.lookup name :=
  rfl

@[simp] theorem get?_empty (name : String) : empty.get? name = none :=
  rfl

@[simp] theorem get?_getD_empty (name : String) (old : Option Value) :
    (old.getD empty).get? name = old.bind (get? name) := by
  cases old <;> rfl

/-- Anything but a table takes the place of what it meets. -/
theorem onto_leaf {new : Value} (h : new.isTable = false) (old : Option Value) :
    new.onto old = new := by
  cases new with
  | table origin members => cases h
  | scalar origin value => simp only [onto]
  | list origin items => simp only [onto]

theorem isTable_ontoMembers {old : Value} (h : old.isTable = true)
    (members : List (String × Value)) : (ontoMembers old members).isTable = true := by
  induction members generalizing old with
  | nil => simpa only [ontoMembers] using h
  | cons m members ih =>
    simp only [ontoMembers]
    exact ih (isTable_change _ _ _)

/-- A table goes over what it meets member by member. -/
theorem get?_ontoMembers {members : List (String × Value)}
    (hdistinct : (members.map Prod.fst).Nodup) (old : Value) (name : String) :
    (ontoMembers old members).get? name =
      ((members.lookup name).map (onto (old.get? name))).or (old.get? name) := by
  induction members generalizing old with
  | nil => simp [ontoMembers]
  | cons m members ih =>
    obtain ⟨other, new⟩ := m
    obtain ⟨hnew, hdistinct⟩ := List.nodup_cons.mp hdistinct
    simp only [ontoMembers]
    rw [ih hdistinct]
    by_cases h : name = other
    · subst h
      have habsent : members.lookup name = none := by
        rw [List.lookup_eq_none_iff]
        intro m hm
        apply bne_iff_ne.mpr
        intro heq
        exact hnew (List.mem_map.mpr ⟨m, hm, heq.symm⟩)
      simp [habsent]
    · simp [lookup_cons_of_ne, h]

/-- A table without members covers nothing. -/
theorem onto_bare {new : Value} (h : new.isBare = true) (old : Option Value) :
    new.onto old = old.getD empty := by
  cases new with
  | table origin members =>
    cases members with
    | nil => simp only [onto, ontoMembers]
    | cons m members => cases h
  | _ => cases h

theorem isTable_onto {new : Value} (h : new.isTable = true) (hbare : ¬ new.isBare = true)
    (old : Option Value) : (new.onto old).isTable = true := by
  cases new with
  | table origin members =>
    cases members with
    | nil => exact absurd rfl hbare
    | cons m members =>
      simp only [onto, ontoMembers]
      exact isTable_ontoMembers (isTable_change _ _ _) members
  | _ => cases h

/-- What was put at a path is found there, whatever stood on the way. -/
theorem at?_put_self {new : Value} (h : new.isTable = false) (path : List String)
    (old : Option Value) : at? path (new.put (path.map .member) old) = some new := by
  induction path generalizing old with
  | nil => simp only [List.map_nil, put, onto_leaf h, at?]
  | cons name path ih => simp [put, at?, ih]

/-- What stands at one path stays as it is when a value is put at another one beside it. -/
theorem at?_put_apart (new : Value) {path other : List String} (h : ¬ path <+: other)
    (h' : ¬ other <+: path) (old : Option Value) :
    at? other (new.put (path.map .member) old) = old.bind (at? other) := by
  induction path generalizing other old with
  | nil => exact absurd List.nil_prefix h
  | cons name path ih =>
    cases other with
    | nil => exact absurd List.nil_prefix h'
    | cons n other =>
      by_cases heq : n = name
      · subst heq
        rw [List.cons_prefix_cons] at h h'
        simp only [List.map_cons, put, at?, get?_change, get?_getD_empty, if_true, Option.bind_some]
        rw [ih (fun hp => h ⟨rfl, hp⟩) (fun hp => h' ⟨rfl, hp⟩)]
        cases old <;> rfl
      · simp only [List.map_cons, put, at?, get?_change, get?_getD_empty, if_neg heq]
        cases old <;> rfl

@[simp] theorem at?_single (name : String) (v : Value) : at? [name] v = v.get? name := by
  unfold at?
  cases v.get? name <;> rfl

@[simp] theorem at?_pair (outer name : String) (v : Value) :
    at? [outer, name] v = (v.get? outer).bind (get? name) := by
  unfold at?
  exact congrArg _ (funext (at?_single name))

end Segments.Settings.Value
