import Mathlib.Data.List.Pairwise

/-!
# Tables with uniqueness constraints

Rows in insertion order. A table carries the proof that its rows differ in every
unique column in which they have a value, so a table that breaks a constraint cannot
be built; an insert or an update that would break one gives no table.
-/

namespace Nyc.Data

variable {Row Key : Type}

/-- Two rows have the same value in a unique column. -/
def Clash (unique : List (Row → Option Key)) (a b : Row) : Prop :=
  ∃ col ∈ unique, col a ≠ none ∧ col a = col b

instance [DecidableEq Key] (unique : List (Row → Option Key)) (a b : Row) :
    Decidable (Clash unique a b) :=
  inferInstanceAs (Decidable (∃ col ∈ unique, col a ≠ none ∧ col a = col b))

theorem Clash.symm {unique : List (Row → Option Key)} {a b : Row} (h : Clash unique a b) :
    Clash unique b a := by
  obtain ⟨col, there, value, same⟩ := h
  exact ⟨col, there, same ▸ value, same.symm⟩

structure Table (unique : List (Row → Option Key)) where
  rows : List Row
  distinct : rows.Pairwise fun a b => ¬ Clash unique a b

namespace Table

variable {unique : List (Row → Option Key)}

/-- `a ∈ t`: `a` is a row of the table `t`. -/
instance : Membership Row (Table unique) := ⟨fun t a => a ∈ t.rows⟩

theorem mem_rows {t : Table unique} {a : Row} : a ∈ t.rows ↔ a ∈ t := Iff.rfl

def empty : Table unique := ⟨[], .nil⟩

@[simp] theorem not_mem_empty (a : Row) : ¬ a ∈ (empty : Table unique) := List.not_mem_nil

/-- Rows that agree in a unique column are the same row. -/
theorem eq_of_clash (t : Table unique) {a b : Row} (ha : a ∈ t) (hb : b ∈ t)
    (clash : Clash unique a b) : a = b := by
  by_contra differ
  have : Std.Symm fun a b : Row => ¬ Clash unique a b := { symm := fun _ _ h c => h c.symm }
  exact t.distinct.forall ha hb differ clash

theorem eq_of_key (t : Table unique) (key : Row → Key) (column : (fun r => some (key r)) ∈ unique)
    {a b : Row} (ha : a ∈ t) (hb : b ∈ t) (same : key a = key b) : a = b :=
  t.eq_of_clash ha hb ⟨_, column, nofun, congrArg some same⟩

/-- The first row that meets the condition. -/
def get (t : Table unique) (p : Row → Bool) : Option Row := t.rows.find? p

def getAll (t : Table unique) (p : Row → Bool) : List Row := t.rows.filter p

theorem get_some {t : Table unique} {p : Row → Bool} {a : Row} (h : t.get p = some a) :
    a ∈ t ∧ p a = true :=
  ⟨List.mem_of_find?_eq_some h, List.find?_some h⟩

theorem get_none {t : Table unique} {p : Row → Bool} : t.get p = none ↔ ∀ a ∈ t, p a = false := by
  simp only [get, List.find?_eq_none, mem_rows, Bool.not_eq_true]

/-- A lookup by key finds the row that has the key. -/
theorem get_of_key (t : Table unique) (key : Row → Key) (column : (fun r => some (key r)) ∈ unique)
    {p : Row → Bool} {a : Row} (there : a ∈ t) (meets : p a = true)
    (keyed : ∀ b ∈ t, p b = true → key b = key a) : t.get p = some a := by
  cases found : t.get p with
  | none => rw [get_none.mp found a there] at meets; cases meets
  | some b =>
    obtain ⟨there', meets'⟩ := get_some found
    rw [t.eq_of_key key column there' there (keyed b there' meets')]

@[simp] theorem mem_getAll {t : Table unique} {p : Row → Bool} {a : Row} :
    a ∈ t.getAll p ↔ a ∈ t ∧ p a = true := List.mem_filter

/-- All the rows that have the key of one of them are that row. -/
theorem getAll_of_key (t : Table unique) (key : Row → Key)
    (column : (fun r => some (key r)) ∈ unique) {p : Row → Bool} {a : Row} (there : a ∈ t)
    (meets : p a = true) (keyed : ∀ b ∈ t, p b = true → key b = key a) : t.getAll p = [a] := by
  have same : ∀ b ∈ t.getAll p, b = a := by
    intro b found
    obtain ⟨there', meets'⟩ := mem_getAll.mp found
    exact t.eq_of_key key column there' there (keyed b there' meets')
  have apart : (t.getAll p).Pairwise fun b c => ¬ Clash unique b c := t.distinct.filter _
  have found : a ∈ t.getAll p := mem_getAll.mpr ⟨there, meets⟩
  cases rows : t.getAll p with
  | nil =>
    rw [rows] at found
    exact absurd found List.not_mem_nil
  | cons b rest =>
    rw [rows] at same apart
    obtain rfl : b = a := same b List.mem_cons_self
    cases rest with
    | nil => rfl
    | cons c rest =>
      -- a second row would clash with the first
      obtain rfl : c = b := same c (List.mem_cons_of_mem _ List.mem_cons_self)
      have clash : Clash unique c c := ⟨_, column, by rintro ⟨⟩, rfl⟩
      exact absurd clash ((List.pairwise_cons.mp apart).1 c List.mem_cons_self)

section

variable [DecidableEq Key]

def insert (t : Table unique) (r : Row) : Option (Table unique) :=
  if h : ∀ a ∈ t.rows, ¬ Clash unique a r then
    some ⟨t.rows ++ [r], List.pairwise_append.mpr
      ⟨t.distinct, List.pairwise_singleton _ _, fun a ha _ hb => List.mem_singleton.mp hb ▸ h a ha⟩⟩
  else none

theorem insert_some {t t' : Table unique} {r : Row} (h : t.insert r = some t') :
    t'.rows = t.rows ++ [r] := by
  unfold insert at h
  split at h
  · cases h
    rfl
  · cases h

theorem mem_insert {t t' : Table unique} {r a : Row} (h : t.insert r = some t') :
    a ∈ t' ↔ a ∈ t ∨ a = r := by
  rw [← mem_rows, insert_some h, List.mem_append, List.mem_singleton, mem_rows]

theorem insert_none {t : Table unique} {r : Row} :
    t.insert r = none ↔ ∃ a ∈ t, Clash unique a r := by
  unfold insert
  split
  next fresh => exact ⟨nofun, fun ⟨a, there, clash⟩ => absurd clash (fresh a there)⟩
  next taken =>
    refine ⟨fun _ => ?_, fun _ => rfl⟩
    by_contra free
    exact taken fun a there clash => free ⟨a, there, clash⟩

/-- Rewrite the rows that meet the condition. -/
def update (t : Table unique) (p : Row → Bool) (f : Row → Row) : Option (Table unique) :=
  if h : (t.rows.map fun r => if p r then f r else r).Pairwise fun a b => ¬ Clash unique a b then
    some ⟨t.rows.map fun r => if p r then f r else r, h⟩
  else none

theorem update_some {t t' : Table unique} {p : Row → Bool} {f : Row → Row}
    (h : t.update p f = some t') : t'.rows = t.rows.map fun r => if p r then f r else r := by
  unfold update at h
  split at h
  · cases h
    rfl
  · cases h

theorem mem_update {t t' : Table unique} {p : Row → Bool} {f : Row → Row} {a : Row}
    (h : t.update p f = some t') : a ∈ t' ↔ ∃ r ∈ t, (if p r then f r else r) = a := by
  rw [← mem_rows, update_some h, List.mem_map]
  rfl

/-- An update that writes no unique column always succeeds. -/
theorem update_isSome (t : Table unique) (p : Row → Bool) (f : Row → Row)
    (keeps : ∀ col ∈ unique, ∀ r, col (f r) = col r) : ∃ t', t.update p f = some t' := by
  have same : ∀ col ∈ unique, ∀ r, col (if p r then f r else r) = col r := by
    intro col there r
    split
    · exact keeps col there r
    · rfl
  have distinct : (t.rows.map fun r => if p r then f r else r).Pairwise
      fun a b => ¬ Clash unique a b := by
    refine List.Pairwise.map _ ?_ t.distinct
    rintro a b apart ⟨col, there, value, equal⟩
    rw [same col there a, same col there b] at equal
    rw [same col there a] at value
    exact apart ⟨col, there, value, equal⟩
  exact ⟨⟨_, distinct⟩, dif_pos distinct⟩

end

def delete (t : Table unique) (p : Row → Bool) : Table unique :=
  ⟨t.rows.filter fun r => !p r, t.distinct.filter _⟩

@[simp] theorem mem_delete {t : Table unique} {p : Row → Bool} {a : Row} :
    a ∈ t.delete p ↔ a ∈ t ∧ p a = false := by
  rw [← mem_rows, delete, List.mem_filter, Bool.not_eq_true', mem_rows]

end Table

end Nyc.Data
