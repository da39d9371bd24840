import Mathlib.Data.List.Infix

/-!
# Lines, blank lines and here-documents

Texts as lists of characters: their lines (core's `splitOn`), what a blank line separates, and a
shell that reads a script line by line, with quoted here-documents.
-/

namespace Nyc.Data

variable {α : Type}

section Split

variable [BEq α] [LawfulBEq α] {a : α}

/-- Text without a separator, appended, goes to the last part. -/
theorem splitOn_append (x : List α) {y : List α} (plain : a ∉ y) :
    ∃ init last, x.splitOn a = init ++ [last] ∧ (x ++ y).splitOn a = init ++ [last ++ y] := by
  induction x with
  | nil => exact ⟨[], [], rfl, List.splitOn_eq_singleton plain⟩
  | cons c x ih =>
    obtain ⟨init, last, split, appended⟩ := ih
    rw [List.cons_append, List.splitOn_cons_eq_if_modifyHead, List.splitOn_cons_eq_if_modifyHead,
      appended, split]
    by_cases same : (c == a) = true
    · rw [if_pos same, if_pos same]
      exact ⟨[] :: init, last, rfl, rfl⟩
    · rw [if_neg same, if_neg same]
      cases init with
      | nil => exact ⟨[], c :: last, rfl, rfl⟩
      | cons h t => exact ⟨(c :: h) :: t, last, rfl, rfl⟩

end Split

/-- What is joined by a separator is the separator or in a part. -/
theorem mem_intercalate {a c : α} {parts : List (List α)} (there : c ∈ List.intercalate [a] parts) :
    c = a ∨ ∃ part ∈ parts, c ∈ part := by
  induction parts with
  | nil => exact absurd there List.not_mem_nil
  | cons x rest ih =>
    cases rest with
    | nil =>
      rw [List.intercalate_singleton] at there
      exact .inr ⟨x, List.mem_cons_self, there⟩
    | cons y rest =>
      rw [List.intercalate_cons_cons, List.mem_append, List.mem_append, List.mem_singleton] at there
      rcases there with (front | sep) | later
      · exact .inr ⟨x, List.mem_cons_self, front⟩
      · exact .inl sep
      · refine (ih later).imp id ?_
        rintro ⟨part, here, inside⟩
        exact ⟨part, List.mem_cons_of_mem _ here, inside⟩

/-- Python's `s.split(c + c)`. -/
def splitPairs [DecidableEq α] (c : α) : List α → List (List α)
  | [] => [[]]
  | [a] => [[a]]
  | a :: b :: s =>
    if a = c ∧ b = c then [] :: splitPairs c s else (splitPairs c (b :: s)).modifyHead (a :: ·)

section Pairs

variable [DecidableEq α] {c : α}

theorem splitPairs_pair (s : List α) : splitPairs c (c :: c :: s) = [] :: splitPairs c s := by
  rw [splitPairs, if_pos ⟨rfl, rfl⟩]

theorem splitPairs_apart {a b : α} (s : List α) (apart : ¬ (a = c ∧ b = c)) :
    splitPairs c (a :: b :: s) = (splitPairs c (b :: s)).modifyHead (a :: ·) := by
  rw [splitPairs, if_neg apart]

theorem splitPairs_ne_nil (s : List α) : splitPairs c s ≠ [] := by
  induction s using splitPairs.induct c with
  | case1 => exact List.cons_ne_nil _ _
  | case2 a => exact List.cons_ne_nil _ _
  | case3 a b s pair ih =>
    rw [splitPairs, if_pos pair]
    exact List.cons_ne_nil _ _
  | case4 a b s apart ih =>
    rw [splitPairs_apart s apart]
    simpa using ih

/-- A pair after another character separates. -/
theorem splitPairs_append {d : α} (other : d ≠ c) (x y : List α) :
    splitPairs c (x ++ d :: c :: c :: y) = splitPairs c (x ++ [d]) ++ splitPairs c y := by
  have first : splitPairs c (d :: c :: c :: y) = [d] :: splitPairs c y := by
    rw [splitPairs_apart _ (fun both => other both.1), splitPairs_pair]
    rfl
  induction x using splitPairs.induct c with
  | case1 => exact first
  | case2 a =>
    have apart : ¬ (a = c ∧ d = c) := fun both => other both.2
    rw [List.singleton_append, List.singleton_append, splitPairs_apart _ apart,
      splitPairs_apart _ apart, first]
    rfl
  | case3 a b s pair ih =>
    simp only [List.cons_append, splitPairs, if_pos pair, ih]
  | case4 a b s apart ih =>
    simp only [List.cons_append] at ih ⊢
    rw [splitPairs_apart _ apart, splitPairs_apart _ apart, ih]
    cases parts : splitPairs c (b :: (s ++ [d])) with
    | nil => exact absurd parts (splitPairs_ne_nil _)
    | cons h t => rfl

/-- Only a pair separates. -/
theorem splitPairs_of_not_infix {s : List α} (none : ¬ [c, c] <:+: s) : splitPairs c s = [s] := by
  induction s using splitPairs.induct c with
  | case1 => rfl
  | case2 a => rfl
  | case3 a b s pair ih =>
    rw [pair.1, pair.2] at none
    exact absurd (List.prefix_append [c, c] s).isInfix none
  | case4 a b s apart ih =>
    rw [splitPairs_apart s apart, ih fun found => none (List.infix_cons found)]
    rfl

theorem length_splitPairs_of_infix {s : List α} (found : [c, c] <:+: s) :
    2 ≤ (splitPairs c s).length := by
  induction s using splitPairs.induct c with
  | case1 => cases List.infix_nil.mp found
  | case2 a =>
    have := found.length_le
    simp at this
  | case3 a b s pair ih =>
    rw [splitPairs, if_pos pair]
    have := List.length_pos_of_ne_nil (splitPairs_ne_nil (c := c) s)
    simp only [List.length_cons]
    omega
  | case4 a b s apart ih =>
    rw [splitPairs_apart s apart, List.length_modifyHead]
    rcases List.infix_cons_iff.mp found with front | later
    · simp only [List.cons_prefix_cons] at front
      exact absurd ⟨front.1.symm, front.2.1.symm⟩ apart
    · exact ih later

omit [DecidableEq α] in
/-- A pair does not run over another character. -/
theorem pair_infix_append {d : α} (other : d ≠ c) (x y : List α) :
    [c, c] <:+: x ++ d :: y ↔ [c, c] <:+: x ∨ [c, c] <:+: y := by
  constructor
  · intro found
    induction x with
    | nil =>
      rcases List.infix_cons_iff.mp found with front | later
      · exact absurd (List.cons_prefix_cons.mp front).1.symm other
      · exact .inr later
    | cons a x ih =>
      rcases List.infix_cons_iff.mp found with front | later
      · obtain ⟨same, front⟩ := List.cons_prefix_cons.mp front
        cases x with
        | nil => exact absurd (List.cons_prefix_cons.mp front).1.symm other
        | cons b x =>
          rw [← same, ← (List.cons_prefix_cons.mp front).1]
          exact .inl (List.prefix_append [c, c] x).isInfix
      · exact (ih later).imp_left List.infix_cons
  · rintro (found | found)
    · exact found.trans (List.infix_append' [] x (d :: y))
    · exact found.trans (List.suffix_append (x ++ [d]) y |>.isInfix.trans (by simp))

theorem not_pair_infix_of_count {s : List α} (few : s.count c < 2) : ¬ [c, c] <:+: s := by
  intro found
  have := found.sublist.count_le c
  simp only [List.count_cons_self, List.count_nil] at this
  omega

end Pairs

/-- The text around the last `c`. -/
def cutLast [DecidableEq α] (c : α) : List α → Option (List α × List α)
  | [] => none
  | a :: s =>
    match cutLast c s with
    | some (x, y) => some (a :: x, y)
    | none => if a = c then some ([], s) else none

theorem cutLast_of_not_mem [DecidableEq α] {c : α} {y : List α} (plain : c ∉ y) :
    cutLast c y = none := by
  induction y with
  | nil => rfl
  | cons a y ih =>
    simp only [List.mem_cons, not_or] at plain
    rw [cutLast, ih plain.2]
    exact if_neg fun same => plain.1 same.symm

theorem cutLast_append [DecidableEq α] {c : α} (x : List α) {y : List α} (plain : c ∉ y) :
    cutLast c (x ++ c :: y) = some (x, y) := by
  induction x with
  | nil =>
    rw [List.nil_append, cutLast, cutLast_of_not_mem plain]
    exact if_pos rfl
  | cons a x ih => rw [List.cons_append, cutLast, ih]

/-- Every line ended. -/
def unlines (ls : List (List Char)) : List Char := ls.flatMap (· ++ ['\n'])

theorem unlines_splitOn (s : List Char) : unlines (s.splitOn '\n') = s ++ ['\n'] := by
  induction s with
  | nil => rfl
  | cons c s ih =>
    rw [List.splitOn_cons_eq_if_modifyHead]
    split
    next same =>
      rw [eq_of_beq same]
      exact congrArg (List.cons _) ih
    next other =>
      cases parts : s.splitOn '\n' with
      | nil => exact absurd parts (List.splitOn_ne_nil _ _)
      | cons h t =>
        rw [parts] at ih
        exact congrArg (List.cons c) ih

namespace Shell

/-- A line of a script, with the here-document that it reads. -/
structure Command where
  line : List Char
  input : Option (List Char)
  deriving DecidableEq, Repr

/-- A here-document not ended yet. -/
structure Open where
  line : List Char
  delimiter : List Char
  text : List Char

/-- The delimiter of the here-document that a line opens by ending in ` << 'DELIMITER'`. -/
def opens (line : List Char) : Option (List Char) :=
  (line.dropInfix? " << '".toList).bind fun parts => parts.2.dropSuffix? "'".toList

/-- A quoted here-document is every line, as it stands, up to the first that is the delimiter. -/
def read : Option Open → List (List Char) → List Command
  | none, [] => []
  | some h, [] => [⟨h.line, some h.text⟩]
  | some h, l :: ls =>
    if l = h.delimiter then ⟨h.line, some h.text⟩ :: read none ls
    else read (some { h with text := h.text ++ l ++ ['\n'] }) ls
  | none, l :: ls =>
    if l = [] then read none ls
    else match opens l with
      | some delimiter => read (some ⟨l, delimiter, []⟩) ls
      | none => ⟨l, none⟩ :: read none ls

def commands (script : List Char) : List Command := read none (script.splitOn '\n')

theorem read_body (h : Open) {body : List (List Char)} (inside : h.delimiter ∉ body)
    (rest : List (List Char)) :
    read (some h) (body ++ h.delimiter :: rest) = ⟨h.line,
      some (h.text ++ unlines body)⟩ :: read none rest := by
  induction body generalizing h with
  | nil =>
    rw [List.nil_append, read, if_pos rfl, unlines, List.flatMap_nil, List.append_nil]
  | cons l body ih =>
    simp only [List.mem_cons, not_or] at inside
    rw [List.cons_append, read, if_neg (fun same => inside.1 same.symm)]
    rw [ih { h with text := h.text ++ l ++ ['\n'] } inside.2]
    simp only [unlines, List.flatMap_cons, List.append_assoc]

/-- Where the body has the delimiter as a line, the rest of the body is not in the here-document. -/
theorem read_cut (h : Open) {body : List (List Char)} (inside : h.delimiter ∈ body)
    (rest : List (List Char)) :
    ∃ front back, body = front ++ h.delimiter :: back ∧
      read (some h) (body ++ rest) = ⟨h.line, some (h.text ++ unlines front)⟩ :: read none
        (back ++ rest) := by
  obtain ⟨front, back, rfl, outside⟩ := List.eq_append_cons_of_mem inside
  refine ⟨front, back, rfl, ?_⟩
  rw [List.append_assoc, List.cons_append]
  exact read_body h outside _

end Shell

end Nyc.Data
