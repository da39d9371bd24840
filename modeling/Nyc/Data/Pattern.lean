import Mathlib.Data.List.Basic

/-!
# Anchored expressions

Regular expressions of one shape, anchored at both ends: pieces in a row, each of them a fixed text
or so many characters of a class.
-/

namespace Nyc.Data

inductive Piece where
  | text (s : List Char)
  | of (chars : List Char) (count : Nat)

def Piece.chars : Piece → List Char
  | text s => s
  | of chars _ => chars

/-- The whole text is made of the pieces. -/
def matches_ : List Piece → List Char → Bool
  | [], s => s.isEmpty
  | .text t :: rest, s => t.isPrefixOf s && matches_ rest (s.drop t.length)
  | .of chars n :: rest, s =>
    (s.take n).length == n && (s.take n).all (fun c => chars.contains c) && matches_ rest (s.drop n)

/-- So many characters, all of the class. -/
structure Stretch (chars : List Char) (n : Nat) (s : List Char) : Prop where
  length : s.length = n
  class_ : ∀ c ∈ s, c ∈ chars

theorem Stretch.take {chars : List Char} {n : Nat} {s : List Char} (stretch : Stretch chars n s)
    {k : Nat} (le : k ≤ n) :
    Stretch chars k (s.take k) := by
  constructor
  · rw [List.length_take, stretch.length]
    omega
  · intro c there
    exact stretch.class_ c (List.mem_of_mem_take there)

theorem matches_text (t : List Char) (rest : List Piece) (s : List Char) :
    matches_ (.text t :: rest) (t ++ s) = matches_ rest s := by
  rw [matches_, List.drop_left, List.isPrefixOf_iff_prefix.mpr (List.prefix_append t s),
    Bool.true_and]

theorem matches_of {chars : List Char} {n : Nat} {x : List Char} (stretch : Stretch chars n x)
    (rest : List Piece)
    (s : List Char) : matches_ (.of chars n :: rest) (x ++ s) = matches_ rest s := by
  have length := stretch.length
  subst length
  have all : (x.all fun c => chars.contains c) = true := by
    rw [List.all_eq_true]
    intro c there
    exact List.contains_iff_mem.mpr (stretch.class_ c there)
  rw [matches_, List.take_left, List.drop_left, all, beq_self_eq_true, Bool.true_and, Bool.true_and]

/-- The characters that a class takes up. -/
theorem stretch_of_matches {chars : List Char} {n : Nat} {rest : List Piece} {s : List Char}
    (fits : matches_ (.of chars n :: rest) s = true) : Stretch chars n (s.take n) ∧ matches_ rest
      (s.drop n) = true := by
  simp only [matches_, Bool.and_eq_true, beq_iff_eq, List.all_eq_true,
    List.contains_iff_mem] at fits
  exact ⟨⟨fits.1.1, fits.1.2⟩, fits.2⟩

/-- A text that starts with a fixed text. -/
theorem exists_of_matches_text {t : List Char} {rest : List Piece} {s : List Char}
    (fits : matches_ (.text t :: rest) s = true) :
    ∃ later, s = t ++ later ∧ matches_ rest later = true := by
  obtain ⟨first, later⟩ := Bool.and_eq_true_iff.mp fits
  obtain ⟨end_, rfl⟩ := List.isPrefixOf_iff_prefix.mp first
  rw [List.drop_left] at later
  exact ⟨end_, rfl, later⟩

/-- A text that starts with a stretch. -/
theorem exists_of_matches_of {chars : List Char} {n : Nat} {rest : List Piece} {s : List Char}
    (fits : matches_ (.of chars n :: rest) s = true) :
    ∃ x later, s = x ++ later ∧ Stretch chars n x ∧ matches_ rest later = true := by
  obtain ⟨stretch, later⟩ := stretch_of_matches fits
  exact ⟨s.take n, s.drop n, (List.take_append_drop n s).symm, stretch, later⟩

/-- A text that ends in a stretch. -/
theorem matches_last {chars x : List Char} {n : Nat} :
    matches_ [.of chars n] x = true ↔ Stretch chars n x := by
  constructor
  · intro fits
    obtain ⟨y, later, rfl, stretch, none_⟩ := exists_of_matches_of fits
    rwa [List.isEmpty_iff.mp none_, List.append_nil]
  · intro stretch
    have fits := matches_of stretch [] []
    rw [List.append_nil] at fits
    rw [fits]
    rfl

/-- A text that fits is made of the characters of its expression. -/
theorem chars_of_matches {pieces : List Piece} {s : List Char} (fits : matches_ pieces s = true) :
    ∀ c ∈ s, ∃ p ∈ pieces, c ∈ p.chars := by
  induction pieces generalizing s with
  | nil =>
    intro c there
    rw [List.isEmpty_iff.mp fits] at there
    cases there
  | cons p rest ih =>
    -- what the first piece takes up, and the rest
    have parts : ∃ k, matches_ rest (s.drop k) = true ∧ ∀ c ∈ s.take k, c ∈ p.chars := by
      cases p with
      | text t =>
        obtain ⟨first, later⟩ := Bool.and_eq_true_iff.mp fits
        refine ⟨t.length, later, fun c there => ?_⟩
        rwa [← List.prefix_iff_eq_take.mp (List.isPrefixOf_iff_prefix.mp first)] at there
      | of chars n =>
        obtain ⟨first, later⟩ := stretch_of_matches fits
        exact ⟨n, later, first.class_⟩
    obtain ⟨k, later, first⟩ := parts
    intro c there
    rw [← List.take_append_drop k s] at there
    rcases List.mem_append.mp there with now | after
    · exact ⟨p, List.mem_cons_self, first c now⟩
    · obtain ⟨q, known, within⟩ := ih later c after
      exact ⟨q, List.mem_cons_of_mem p known, within⟩

end Nyc.Data
