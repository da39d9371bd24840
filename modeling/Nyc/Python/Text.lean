import Nyc.Python
import Mathlib.Data.List.Infix

/-!
# Methods of `str`

Lines, separators and words, as CPython cuts a text, and what becomes of a text that was put
together from its pieces.
-/

namespace Nyc.Text

/-- The line boundaries of `splitlines`. -/
def isBreak (c : Char) : Bool := [10, 11, 12, 13, 28, 29, 30, 133, 8232, 8233].contains c.toNat

/-- The white space of `split` without arguments. -/
def isSpace (c : Char) : Bool :=
  [9, 10, 11, 12, 13, 28, 29, 30, 31, 32, 133, 160, 5760, 8232, 8233, 8239, 8287,
    12288].contains c.toNat ||
    (8192 ≤ c.toNat && c.toNat ≤ 8202)

/-- `s.splitlines()`. -/
def splitlines : Str → List Str
  | [] => []
  | '\r' :: '\n' :: s => [] :: splitlines s
  | c :: s =>
    if isBreak c then [] :: splitlines s
    else match splitlines s with
      | [] => [[c]]
      | l :: ls => (c :: l) :: ls

/-- `s.split(sep)`, where the next `skip` characters belong to a separator. -/
def splitFrom (sep : Str) : Nat → Str → List Str
  | _, [] => [[]]
  | skip + 1, _ :: s => splitFrom sep skip s
  | 0, c :: s =>
    if sep.isPrefixOf (c :: s) then [] :: splitFrom sep (sep.length - 1) s
    else (splitFrom sep 0 s).modifyHead (c :: ·)

def split (sep s : Str) : List Str := splitFrom sep 0 s

/-- `s.split()[0]`, where there is a word. -/
def firstWord (s : Str) : Option Str :=
  match (s.dropWhile isSpace).takeWhile fun c => !isSpace c with
  | [] => none
  | w => some w

/-- `s.strip()`. -/
def strip (s : Str) : Str := ((s.dropWhile isSpace).reverse.dropWhile isSpace).reverse

/-- The character in the `repr` of a text; past the control characters all are taken for
printable. -/
def reprChar (quote c : Char) : Str :=
  if c = quote ∨ c = '\\' then ['\\', c]
  else if c = '\n' then "\\n"
  else if c = '\r' then "\\r"
  else if c = '\t' then "\\t"
  else if c.toNat < 32 ∨ 127 ≤ c.toNat ∧ c.toNat ≤ 160 ∨ c.toNat = 173 then
    "\\x" ++ [Nat.digitChar (c.toNat / 16), Nat.digitChar (c.toNat % 16)]
  else [c]

/-- `repr(s)`: in double quotes only where there are single ones and no double ones. -/
def repr (s : Str) : Str :=
  let quote := if s.contains '\'' && !s.contains '"' then '"' else '\''
  quote :: s.flatMap (reprChar quote) ++ [quote]

example : repr "it's" = "\"it's\"" := by decide

/-- `sub in s`. -/
def has (sub s : Str) : Bool := decide (sub <:+: s)

/-! ## Lines -/

theorem splitlines_line {l : Str} (plain : ∀ c ∈ l, isBreak c = false) (s : Str) :
    splitlines (l ++ '\n' :: s) = l :: splitlines s := by
  induction l with
  | nil =>
    rw [List.nil_append, splitlines, if_pos (by decide)]
    rintro _ ⟨⟩
  | cons c l ih =>
    have rest := ih fun c there => plain c (List.mem_cons_of_mem _ there)
    have other : isBreak c = false := plain c List.mem_cons_self
    rw [List.cons_append, splitlines, other, rest]
    · rfl
    · rintro _ rfl
      cases other

/-- Lines that are ended one by one. -/
theorem splitlines_flatMap {α : Type} (f : α → Str) (xs : List α)
    (plain : ∀ x ∈ xs, ∀ c ∈ f x, isBreak c = false) :
    splitlines (xs.flatMap fun x => f x ++ ['\n']) = xs.map f := by
  induction xs with
  | nil => rfl
  | cons x xs ih =>
    rw [List.flatMap_cons, List.append_assoc, List.singleton_append,
      splitlines_line (plain x List.mem_cons_self),
      ih fun y there => plain y (List.mem_cons_of_mem _ there), List.map_cons]

/-! ## Separators -/

theorem splitFrom_skip (sep x y : Str) : splitFrom sep x.length (x ++ y) = splitFrom sep 0 y := by
  induction x with
  | nil => rfl
  | cons c x ih => exact ih

theorem splitFrom_cons {sep : Str} {c : Char} {s : Str} (front : ¬ sep <+: c :: s) :
    splitFrom sep 0 (c :: s) = (splitFrom sep 0 s).modifyHead (c :: ·) := by
  rw [splitFrom, if_neg]
  rwa [List.isPrefixOf_iff_prefix]

/-- A text without the separator is one piece. -/
theorem split_of_not_infix {sep s : Str} (none : ¬ sep <:+: s) : split sep s = [s] := by
  induction s with
  | nil => rfl
  | cons c s ih =>
    rw [split, splitFrom_cons fun front => none front.isInfix, ← split,
      ih fun found => none (List.infix_cons found)]
    rfl

/-- The first separator, where none begins before it. -/
theorem split_append {sep x : Str} (some_ : sep ≠ []) (none : ¬ sep <:+: x ++ sep.dropLast)
    (y : Str) :
    split sep (x ++ sep ++ y) = x :: split sep y := by
  induction x with
  | nil =>
    cases sep with
    | nil => exact absurd rfl some_
    | cons c sep =>
      rw [List.nil_append, List.cons_append, split, splitFrom, if_pos]
      · rw [List.length_cons, Nat.add_sub_cancel, splitFrom_skip, split]
      · exact List.isPrefixOf_iff_prefix.mpr (List.prefix_append (c :: sep) y)
  | cons c x ih =>
    have later : ¬ sep <:+: x ++ sep.dropLast := fun found => none (List.infix_cons found)
    have front : ¬ sep <+: c :: (x ++ sep ++ y) := by
      intro front
      -- a separator that begins here ends before the one that follows does
      apply none
      have long : sep.length ≤ (c :: x ++ sep.dropLast).length := by
        have := List.length_pos_of_ne_nil some_
        simp only [List.cons_append, List.length_cons, List.length_append, List.length_dropLast]
        omega
      have whole : c :: x ++ sep.dropLast <+: c :: (x ++ sep ++ y) := by
        rw [List.cons_append, List.append_assoc]
        refine (List.cons_prefix_cons.mpr ⟨rfl, (List.prefix_append_right_inj x).mpr ?_⟩)
        exact (List.dropLast_prefix sep).trans (List.prefix_append sep y)
      exact (List.prefix_of_prefix_length_le front whole long).isInfix
    rw [List.cons_append, List.cons_append, split, splitFrom_cons front, ← split, ih later]
    rfl

/-! ## Words -/

theorem firstWord_append {w s : Str} {c : Char} (some_ : w ≠ [])
    (plain : ∀ c ∈ w, isSpace c = false)
    (space : isSpace c = true) : firstWord (' ' :: (w ++ c :: s)) = some w := by
  cases w with
  | nil => exact absurd rfl some_
  | cons d w =>
    have first : isSpace d = false := plain d List.mem_cons_self
    have dropped : (' ' :: (d :: w ++ c :: s)).dropWhile isSpace = d :: w ++ c :: s := by
      rw [List.dropWhile_cons_of_pos (by decide), List.cons_append,
        List.dropWhile_cons_of_neg (by simp [first])]
    have taken : (d :: w ++ c :: s).takeWhile (fun c => !isSpace c) = d :: w := by
      rw [List.takeWhile_append_of_pos fun c there => by rw [plain c there]; rfl,
        List.takeWhile_cons_of_neg (by simp [space]), List.append_nil]
    rw [firstWord, dropped, taken]

theorem has_iff {sub s : Str} : has sub s = true ↔ sub <:+: s := decide_eq_true_iff

end Nyc.Text
