import Mathlib.Data.List.Basic

/-!
# An array of inline tables in TOML

The reader of such an array, as far as its tables hold basic strings under bare keys, and what it
makes of a text that was written between quotes.
-/

namespace Nyc.Data.Toml

/-- A character that stands for itself between the quotes of a basic string. -/
def plain (c : Char) : Bool :=
  c != '\x22' && c != '\x5c' && (decide (32 ≤ c.toNat) || c == '\t') && c.toNat != 127

/-- How far the reader is into an escape: not in one, after the backslash, or with so many digits of
a code point to come. -/
inductive Escape where
  | none
  | begun
  | code (digits value : Nat)

def short : Char → Option Char
  | 'b' => some '\x08'
  | 't' => some '\t'
  | 'n' => some '\n'
  | 'f' => some '\x0c'
  | 'r' => some '\r'
  | '\x22' => some '\x22'
  | '\x5c' => some '\x5c'
  | _ => none

def hexDigit (c : Char) : Option Nat :=
  if '0' ≤ c ∧ c ≤ '9' then some (c.toNat - 48)
  else if 'a' ≤ c ∧ c ≤ 'f' then some (c.toNat - 87)
  else if 'A' ≤ c ∧ c ≤ 'F' then some (c.toNat - 55)
  else none

def scalar (n : Nat) : Option Char := if n.isValidChar then some (Char.ofNat n) else none

def push (c : Char) (r : Option (List Char × List Char)) : Option (List Char × List Char) :=
  r.map fun p => (c :: p.1, p.2)

/-- The value of a basic string, after its first quote, and what follows it. -/
def inner : Escape → List Char → Option (List Char × List Char)
  | _, [] => none
  | .none, c :: s =>
    if c = '\x22' then some ([], s)
    else if c = '\x5c' then inner .begun s
    else if plain c then push c (inner .none s)
    else none
  | .begun, c :: s =>
    if c = 'u' then inner (.code 4 0) s
    else if c = 'U' then inner (.code 8 0) s
    else (short c).bind fun x => push x (inner .none s)
  | .code n v, c :: s =>
    (hexDigit c).bind fun d =>
      if n ≤ 1 then (scalar (16 * v + d)).bind fun x => push x (inner .none s)
      else inner (.code (n - 1) (16 * v + d)) s

/-! ## Values -/

def blank (s : List Char) : List Char := s.dropWhile fun c => c == ' ' || c == '\t'

/-- The character comes next. -/
def expect (c : Char) (s : List Char) : Option (List Char) :=
  match blank s with
  | x :: rest => if x = c then some rest else none
  | [] => none

def bare (c : Char) : Bool := c.isAlphanum || c == '_' || c == '-'

def key (s : List Char) : Option (List Char × List Char) :=
  if (blank s).takeWhile bare = [] then none else some ((blank s).takeWhile bare,
    (blank s).dropWhile bare)

/-- A basic string and what follows it. -/
def string (s : List Char) : Option (List Char × List Char) := (expect '\x22' s).bind (inner .none)

abbrev Table : Type := List (List Char × List Char)

def field (s : List Char) : Option ((List Char × List Char) × List Char) := do
  let (k, s) ← key s
  let s ← expect '=' s
  let (v, s) ← string s
  pure ((k, v), s)

/-- The fields of a table, after its brace. -/
def fields : Nat → List Char → Option (Table × List Char)
  | 0, _ => none
  | n + 1, s => do
    let (f, s) ← field s
    match blank s with
    | ',' :: s => (fields n s).map fun p => (f :: p.1, p.2)
    | '\x7d' :: s => some ([f], s)
    | _ => none

def table (s : List Char) : Option (Table × List Char) := do
  let s ← expect '\x7b' s
  let (t, s) ← fields s.length s
  if (t.map Prod.fst).Nodup then some (t, s) else none

/-- The tables of an array, after its bracket. -/
def elements : Nat → List Char → Option (List Table × List Char)
  | 0, _ => none
  | n + 1, s => do
    let (t, s) ← table s
    match blank s with
    | ',' :: s => (elements n s).map fun p => (t :: p.1, p.2)
    | ']' :: s => some ([t], s)
    | _ => none

/-- The whole text is an array. -/
def tables (text : List Char) : Option (List Table) := do
  let s ← expect '[' text
  let (ts, s) ← elements s.length s
  if blank s = [] then some ts else none

/-! ## Basic strings -/

/-- A text of characters that stand for themselves is read as it is. -/
theorem inner_plain {v : List Char} (all : ∀ c ∈ v, plain c = true) (rest : List Char) :
    inner .none (v ++ '\x22' :: rest) = some (v, rest) := by
  induction v with
  | nil => rfl
  | cons c v ih =>
    have itself := all c List.mem_cons_self
    have unquoted : c ≠ '\x22' := by
      rintro rfl
      cases itself
    have unescaped : c ≠ '\x5c' := by
      rintro rfl
      cases itself
    rw [List.cons_append, inner, if_neg unquoted, if_neg unescaped, if_pos itself,
      ih fun d there => all d (List.mem_cons_of_mem c there)]
    rfl

/-- A value that was read from a text: not longer than it, with a quote if it had one, and equal to
it only where nothing was escaped. -/
structure Reads (text value : List Char) : Prop where
  length : value.length ≤ text.length
  quote : '\x22' ∈ text → '\x22' ∈ value

theorem Reads.push {text value : List Char} (reads : Reads text value) {c d : Char}
    (same : c = '\x22' → d = '\x22') : Reads (c :: text) (d :: value) := by
  constructor
  · simp only [List.length_cons]
    have := reads.length
    omega
  · intro there
    rcases List.mem_cons.mp there with first | later
    · rw [same first.symm]
      exact List.mem_cons_self
    · exact List.mem_cons_of_mem d (reads.quote later)

/-- A character of an escape that is not its last one. -/
theorem Reads.skip {text value : List Char} (reads : Reads text value) {c : Char}
    (other : c ≠ '\x22') :
    Reads (c :: text) value := by
  constructor
  · have := reads.length
    simp only [List.length_cons]
    omega
  · intro there
    exact reads.quote ((List.mem_cons.mp there).resolve_left fun same => other same.symm)

theorem push_some {c : Char} {r : Option (List Char × List Char)} {v rest : List Char}
    (pushed : push c r = some (v, rest)) : ∃ w, r = some (w, rest) ∧ v = c :: w := by
  cases r with
  | none => cases pushed
  | some p =>
    cases pushed
    exact ⟨p.1, rfl, rfl⟩

theorem hexDigit_quote : hexDigit '\x22' = none := by decide

/-- The text up to the quote that ends a basic string. -/
theorem reads_of_inner {e : Escape} {s v rest : List Char} (read : inner e s = some (v, rest)) :
    ∃ text, s = text ++ '\x22' :: rest ∧ Reads text v := by
  induction s generalizing e v with
  | nil => cases e <;> cases read
  | cons c s ih =>
    -- a character that is read as itself or ends its escape
    have pushes {d : Char} (same : c = '\x22' →
        d = '\x22') (read : push d (inner .none s) = some (v, rest)) :
        ∃ text, c :: s = text ++ '\x22' :: rest ∧ Reads text v := by
      obtain ⟨w, later, rfl⟩ := push_some read
      obtain ⟨text, rfl, reads⟩ := ih later
      exact ⟨c :: text, rfl, reads.push same⟩
    -- one after which the escape goes on
    have skips {e : Escape} (other : c ≠ '\x22') (read : inner e s = some (v, rest)) :
        ∃ text, c :: s = text ++ '\x22' :: rest ∧ Reads text v := by
      obtain ⟨text, rfl, reads⟩ := ih read
      exact ⟨c :: text, rfl, reads.skip other⟩
    cases e with
    | none =>
      rw [inner] at read
      split_ifs at read with quote backslash itself
      · cases read
        exact ⟨[], by rw [quote]; rfl, Nat.le_refl 0, fun there => there⟩
      · exact skips quote read
      · exact pushes (fun same => same) read
    | begun =>
      rw [inner] at read
      split_ifs at read with four eight
      · exact skips (by rw [four]; decide) read
      · exact skips (by rw [eight]; decide) read
      · obtain ⟨d, is_short, later⟩ := Option.bind_eq_some_iff.mp read
        refine pushes (fun same => ?_) later
        rw [same] at is_short
        cases is_short
        rfl
    | code n v =>
      rw [inner] at read
      obtain ⟨d, digit, later⟩ := Option.bind_eq_some_iff.mp read
      have other : c ≠ '\x22' := by
        rintro rfl
        rw [hexDigit_quote] at digit
        cases digit
      split_ifs at later with last
      · obtain ⟨x, -, later⟩ := Option.bind_eq_some_iff.mp later
        exact pushes (fun same => absurd same other) later
      · exact skips other later

/-- Where the value is as long as the text, nothing in it was escaped. -/
theorem plain_of_inner {text v rest : List Char}
    (read : inner .none (text ++ '\x22' :: rest) = some (v, rest))
    (length : v.length = text.length) : v = text ∧ ∀ c ∈ text, plain c = true := by
  induction text generalizing v with
  | nil => exact ⟨List.eq_nil_of_length_eq_zero length, fun c there => by cases there⟩
  | cons c text ih =>
    rw [List.cons_append, inner] at read
    split_ifs at read with quote backslash itself
    · -- the text would end where it does not
      have ended : [] = v := (Prod.mk.inj (Option.some.inj read)).1
      rw [← ended] at length
      cases length
    · obtain ⟨text', same, reads⟩ := reads_of_inner read
      have := List.append_cancel_right same
      have := reads.length
      simp only [List.length_cons] at length
      subst_vars
      omega
    · obtain ⟨w, later, rfl⟩ := push_some read
      obtain ⟨rfl, all⟩ := ih later (Nat.succ.inj length)
      refine ⟨rfl, fun d there => ?_⟩
      rcases List.mem_cons.mp there with rfl | there
      · exact itself
      · exact all d there

/-! ## Fields and tables -/

theorem blank_bare {k s : List Char} (all : ∀ c ∈ k, bare c = true) (some_ : k ≠ []) : blank
    (k ++ s) = k ++ s := by
  cases k with
  | nil => exact absurd rfl some_
  | cons c k =>
    have first := all c List.mem_cons_self
    have other : (c == ' ' || c == '\t') = false := by
      rw [Bool.or_eq_false_iff, beq_eq_false_iff_ne, beq_eq_false_iff_ne]
      constructor <;>
      · rintro rfl
        cases first
    rw [List.cons_append, blank, List.dropWhile_cons, other]
    rfl

/-- A field whose name is bare, up to the quote that opens its value. -/
theorem field_text {k : List Char} (all : ∀ c ∈ k, bare c = true) (some_ : k ≠ []) (s : List Char) :
    field (k ++ ' ' :: '=' :: ' ' :: '\x22' :: s) = (inner .none s).map fun p =>
      ((k, p.1), p.2) := by
  have name : key (k ++ ' ' :: '=' :: ' ' :: '\x22' :: s) =
      some (k, ' ' :: '=' :: ' ' :: '\x22' :: s) := by
    rw [key, blank_bare all some_, List.takeWhile_append_of_pos all,
      List.dropWhile_append_of_pos all]
    simp [bare, some_]
  rw [field, name]
  cases read : inner .none s with
  | none =>
    change ((inner .none s).bind fun p => some ((k, p.1), p.2)) = _
    rw [read]
    rfl
  | some p =>
    change ((inner .none s).bind fun p => some ((k, p.1), p.2)) = _
    rw [read]
    rfl

theorem fields_comma {n : Nat} {s r : List Char} {f : List Char × List Char}
    (first : field s = some (f, ',' :: r)) :
    fields (n + 1) s = (fields n r).map fun p => (f :: p.1, p.2) := by
  rw [fields, first]
  rfl

theorem fields_brace {n : Nat} {s rest : List Char} {f : List Char × List Char}
    (first : field s = some (f, '\x7d' :: rest)) : fields (n + 1) s = some ([f], rest) := by
  rw [fields, first]
  rfl

theorem elements_comma {n : Nat} {s rest : List Char} {t : Table}
    (first : table s = some (t, ',' :: rest)) :
    elements (n + 1) s = (elements n rest).map fun p => (t :: p.1, p.2) := by
  rw [elements, first]
  rfl

theorem elements_bracket {n : Nat} {s rest : List Char} {t : Table}
    (first : table s = some (t, ']' :: rest)) :
    elements (n + 1) s = some ([t], rest) := by
  rw [elements, first]
  rfl

theorem elements_blank (n : Nat) (s : List Char) : elements n (' ' :: s) = elements n s := by
  cases n <;> rfl

/-- What is read of fields begins with the first of them. -/
theorem field_of_fields {n : Nat} {s rest : List Char} {t : Table}
    (read : fields n s = some (t, rest)) :
    ∃ f s' t', field s = some (f, s') ∧ t = f :: t' := by
  cases n with
  | zero => cases read
  | succ n =>
    rw [fields] at read
    obtain ⟨⟨f, s'⟩, first, later⟩ := Option.bind_eq_some_iff.mp read
    dsimp only at later
    split at later
    · obtain ⟨p, -, same⟩ := Option.map_eq_some_iff.mp later
      cases same
      exact ⟨f, s', p.1, first, rfl⟩
    · cases later
      exact ⟨f, s', [], first, rfl⟩
    · cases later

/-- What is read of elements begins with the first of them. -/
theorem table_of_elements {n : Nat} {s rest : List Char} {ts : List Table}
    (read : elements n s = some (ts, rest)) :
    ∃ t s' ts', table s = some (t, s') ∧ ts = t :: ts' := by
  cases n with
  | zero => cases read
  | succ n =>
    rw [elements] at read
    obtain ⟨⟨t, s'⟩, first, later⟩ := Option.bind_eq_some_iff.mp read
    dsimp only at later
    split at later
    · obtain ⟨p, -, same⟩ := Option.map_eq_some_iff.mp later
      cases same
      exact ⟨t, s', p.1, first, rfl⟩
    · cases later
      exact ⟨t, s', [], first, rfl⟩
    · cases later

end Nyc.Data.Toml
