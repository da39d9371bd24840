import Nyc.Data.Digits
import Nyc.Data.Script
import Nyc.Python.IpAddress

/-!
# What addresses print as

Different addresses print differently, in both families, and only IPv6 prints a colon.
-/

namespace Nyc.IpAddress

open Data

/-! ## IPv4 -/

def octets (n : Nat) : List Nat := [n / 2 ^ 24 % 256, n / 2 ^ 16 % 256, n / 2 ^ 8 % 256, n % 256]

theorem formatV4_eq (n : Nat) : formatV4 n = List.intercalate ['.']
    ((octets n).map fun o => Nat.toDigits 10 o) := rfl

theorem octets_inj {n m : Nat} (below : n < 2 ^ 32) (below' : m < 2 ^ 32)
    (same : octets n = octets m) : n = m := by
  simp only [octets, List.cons.injEq, and_true] at same
  omega

theorem formatV4_inj {n m : Nat} (below : n < 2 ^ 32) (below' : m < 2 ^ 32)
    (same : formatV4 n = formatV4 m) :
    n = m := by
  have parts (k : Nat) : (formatV4 k).splitOn '.' = (octets k).map fun o => Nat.toDigits 10 o := by
    apply List.splitOn_intercalate
    · intro part there
      obtain ⟨o, -, rfl⟩ := List.mem_map.mp there
      exact not_mem_toDigits (by decide) (by decide) o (by decide)
    · exact List.cons_ne_nil _ _
  have alike := parts n
  rw [same, parts] at alike
  have digits : Function.Injective fun o => Nat.toDigits 10 o :=
    fun _ _ => toDigits_inj (by decide) (by decide)
  exact octets_inj below below' (List.map_injective_iff.mpr digits alike.symm)

/-- The characters of an IPv4 address. -/
theorem mem_formatV4 {n : Nat} {c : Char} (there : c ∈ formatV4 n) :
    c = '.' ∨ c.isDigit = true := by
  rw [formatV4_eq] at there
  refine (mem_intercalate there).imp id ?_
  rintro ⟨part, here, inside⟩
  obtain ⟨o, -, rfl⟩ := List.mem_map.mp here
  exact Nat.isDigit_of_mem_toDigits (by decide) (by decide) inside

theorem formatV4_ne_nil (n : Nat) : formatV4 n ≠ [] := by
  rw [formatV4_eq, octets]
  simp [Nat.toDigits_ne_nil]

/-! ## IPv6 -/

def hextets (n : Nat) : List Nat := (List.range 8).map fun i => n / 65536 ^ (7 - i) % 65536

theorem length_hextets (n : Nat) :
    (hextets n).length = 8 := by rw [hextets, List.length_map, List.length_range]

theorem hextets_inj {n m : Nat} (below : n < 2 ^ 128) (below' : m < 2 ^ 128)
    (same : hextets n = hextets m) :
    n = m := by
  have power : 2 ^ 128 = 65536 ^ 8 := by decide
  rw [power] at below below'
  apply eq_of_digits below below'
  intro i small
  have place := List.map_inj_left.mp same (7 - i) (List.mem_range.mpr (by omega))
  have index : 7 - (7 - i) = i := by omega
  rwa [index] at place

/-- Hextets that are joined by colons. -/
def joinHex (xs : List Nat) : Str := List.intercalate [':'] (xs.map fun h => Nat.toDigits 16 h)

theorem formatV6_eq (n : Nat) : formatV6 n =
    if (zeroRun (hextets n)).2 ≤ 1 then joinHex (hextets n)
    else joinHex ((hextets n).take (zeroRun (hextets n)).1) ++ "::" ++
      joinHex ((hextets n).drop ((zeroRun (hextets n)).1 + (zeroRun (hextets n)).2)) := rfl

/-- A run of zeros in the list. -/
def ZeroRun (xs : List Nat) (run : Nat × Nat) : Prop :=
  (xs.drop run.1).take run.2 = List.replicate run.2 0

theorem zeroRun_zeros (xs : List Nat) : ZeroRun xs (zeroRun xs) := by
  rw [zeroRun]
  apply List.foldlRecOn
  · exact List.take_zero
  · intro best zeros i _
    dsimp only
    split
    next =>
      -- the zeros from `i` on
      rw [ZeroRun, ← List.prefix_iff_eq_take.mp (List.takeWhile_prefix _)]
      apply List.eq_replicate_iff.mpr
      refine ⟨rfl, fun d there => ?_⟩
      exact eq_of_beq (List.all_eq_true.mp List.all_takeWhile d there)
    next => exact zeros

/-- The list is given by what stands before and after the run. -/
theorem zeroRun_split (xs : List Nat) : xs = xs.take (zeroRun xs).1 ++
    (List.replicate (zeroRun xs).2 0 ++ xs.drop ((zeroRun xs).1 + (zeroRun xs).2)) := by
  rw [← zeroRun_zeros xs, ← List.drop_drop, List.take_append_drop, List.take_append_drop]

/-- What stands on one side of `::`, as the parts between colons. -/
def side (xs : List Nat) : List Str := if xs = [] then [[]] else xs.map fun h => Nat.toDigits 16 h

theorem side_ne_nil (xs : List Nat) : side xs ≠ [] := by
  cases xs <;> exact List.cons_ne_nil _ _

theorem joinHex_eq (xs : List Nat) : joinHex xs = List.intercalate [':'] (side xs) := by
  cases xs <;> rfl

theorem intercalate_append {sep : Str} {xs ys : List Str} (some_ : xs ≠ []) (some_' : ys ≠ []) :
    sep.intercalate (xs ++ ys) = sep.intercalate xs ++ sep ++ sep.intercalate ys := by
  induction xs with
  | nil => exact absurd rfl some_
  | cons x xs ih =>
    cases xs with
    | nil =>
      rw [List.singleton_append, List.intercalate_cons_of_ne_nil some_', List.intercalate_singleton]
    | cons x' xs =>
      have rest := ih (List.cons_ne_nil _ _)
      rw [List.cons_append, List.intercalate_cons_of_ne_nil (by simp), rest,
        List.intercalate_cons_of_ne_nil (List.cons_ne_nil _ _)]
      simp only [List.append_assoc]

/-- The parts between colons of an IPv6 address. -/
def parts (n : Nat) : List Str :=
  if (zeroRun (hextets n)).2 ≤ 1 then (hextets n).map fun h => Nat.toDigits 16 h
  else side ((hextets n).take (zeroRun (hextets n)).1) ++
    [] :: side ((hextets n).drop ((zeroRun (hextets n)).1 + (zeroRun (hextets n)).2))

theorem formatV6_parts (n : Nat) : formatV6 n = List.intercalate [':'] (parts n) := by
  rw [formatV6_eq, parts]
  split
  next => rfl
  next =>
    rw [intercalate_append (side_ne_nil _) (List.cons_ne_nil _ _),
      List.intercalate_cons_of_ne_nil (side_ne_nil _), joinHex_eq, joinHex_eq]
    simp only [List.append_assoc, List.nil_append]
    rfl

theorem colon_not_mem_digits (h : Nat) : ':' ∉ Nat.toDigits 16 h :=
  not_mem_toDigits (by decide) (by decide) h (by decide)

theorem colon_not_mem_side {xs : List Nat} {part : Str} (there : part ∈ side xs) : ':' ∉ part := by
  rw [side] at there
  split at there
  next =>
    rw [List.mem_singleton.mp there]
    exact List.not_mem_nil
  next =>
    obtain ⟨h, -, rfl⟩ := List.mem_map.mp there
    exact colon_not_mem_digits h

theorem colon_not_mem_parts {n : Nat} {part : Str} (there : part ∈ parts n) : ':' ∉ part := by
  rw [parts] at there
  split at there
  next =>
    obtain ⟨h, -, rfl⟩ := List.mem_map.mp there
    exact colon_not_mem_digits h
  next =>
    rcases List.mem_append.mp there with before | there
    · exact colon_not_mem_side before
    · rcases List.mem_cons.mp there with rfl | after
      · exact List.not_mem_nil
      · exact colon_not_mem_side after

theorem two_le_length_parts (n : Nat) : 2 ≤ (parts n).length := by
  rw [parts]
  split
  next =>
    rw [List.length_map, length_hextets]
    omega
  next =>
    have before := List.length_pos_of_ne_nil
      (side_ne_nil ((hextets n).take (zeroRun (hextets n)).1))
    rw [List.length_append, List.length_cons]
    omega

theorem splitOn_formatV6 (n : Nat) : (formatV6 n).splitOn ':' = parts n := by
  rw [formatV6_parts]
  apply List.splitOn_intercalate
  · exact fun part there => colon_not_mem_parts there
  · have := two_le_length_parts n
    exact List.ne_nil_of_length_pos (by omega)

theorem colon_mem_formatV6 (n : Nat) : ':' ∈ formatV6 n := by
  by_contra none
  have several := two_le_length_parts n
  rw [← splitOn_formatV6, List.splitOn_eq_singleton none, List.length_singleton] at several
  omega

theorem colon_not_mem_formatV4 (n : Nat) : ':' ∉ formatV4 n := by
  intro there
  rcases mem_formatV4 there with point | digit
  · exact absurd point (by decide)
  · exact absurd digit (by decide)

theorem hex_ne_nil (h : Nat) : Nat.toDigits 16 h ≠ [] := Nat.toDigits_ne_nil

theorem hex_inj : Function.Injective fun h => Nat.toDigits 16 h :=
  fun _ _ => toDigits_inj (by decide)
    (by decide)

/-- Up to the first empty part. -/
theorem digits_append_inj {xs ys : List Nat} {zs zs' : List Str}
    (same : (xs.map fun h => Nat.toDigits 16 h) ++ [] :: zs =
      (ys.map fun h => Nat.toDigits 16 h) ++ [] :: zs') :
    xs = ys ∧ zs = zs' := by
  induction xs generalizing ys with
  | nil =>
    cases ys with
    | nil => exact ⟨rfl, (List.cons.inj same).2⟩
    | cons y ys => exact absurd (List.cons.inj same).1.symm (hex_ne_nil y)
  | cons x xs ih =>
    cases ys with
    | nil => exact absurd (List.cons.inj same).1 (hex_ne_nil x)
    | cons y ys =>
      obtain ⟨first, rest⟩ := List.cons.inj same
      obtain ⟨rfl, rfl⟩ := ih rest
      exact ⟨congrArg (· :: xs) (hex_inj first), rfl⟩

theorem side_inj {xs ys : List Nat} (same : side xs = side ys) : xs = ys := by
  cases xs with
  | nil =>
    cases ys with
    | nil => rfl
    | cons y ys => exact absurd (List.cons.inj same).1.symm (hex_ne_nil y)
  | cons x xs =>
    cases ys with
    | nil => exact absurd (List.cons.inj same).1 (hex_ne_nil x)
    | cons y ys => exact List.map_injective_iff.mpr hex_inj same

theorem sides_inj {xs ys xs' ys' : List Nat}
    (same : side xs ++ [] :: side ys = side xs' ++ [] :: side ys') :
    xs = xs' ∧ ys = ys' := by
  cases xs with
  | nil =>
    cases xs' with
    | nil => exact ⟨rfl, side_inj (List.cons.inj (List.cons.inj same).2).2⟩
    | cons x xs' => exact absurd (List.cons.inj same).1.symm (hex_ne_nil x)
  | cons x xs =>
    cases xs' with
    | nil => exact absurd (List.cons.inj same).1 (hex_ne_nil x)
    | cons x' xs' =>
      obtain ⟨before, after⟩ := digits_append_inj same
      exact ⟨before, side_inj after⟩

theorem empty_not_mem_digits (xs : List Nat) : [] ∉ xs.map fun h => Nat.toDigits 16 h := by
  intro there
  obtain ⟨h, -, same⟩ := List.mem_map.mp there
  exact hex_ne_nil h same

/-- The run is as long as the hextets that are left out. -/
theorem parts_inj {n m : Nat} (same : parts n = parts m) : hextets n = hextets m := by
  have empty (xs ys : List Nat) : [] ∈ side xs ++ [] :: side ys :=
    List.mem_append_right _ List.mem_cons_self
  rw [parts, parts] at same
  split at same
  next =>
    split at same
    next => exact List.map_injective_iff.mpr hex_inj same
    next => exact absurd (same ▸ empty _ _) (empty_not_mem_digits _)
  next =>
    split at same
    next => exact absurd (same ▸ empty _ _) (empty_not_mem_digits _)
    next =>
      -- both texts have a gap, and the digits on its sides tell how long it is
      obtain ⟨before, after⟩ := sides_inj same
      have split_ := zeroRun_split (hextets n)
      have split' := zeroRun_split (hextets m)
      rw [before, after] at split_
      have length := congrArg List.length split_
      have length' := congrArg List.length split'
      simp only [List.length_append, List.length_replicate, length_hextets] at length length'
      have run : (zeroRun (hextets n)).2 = (zeroRun (hextets m)).2 := by omega
      rw [split_, run, ← split']

theorem formatV6_inj {n m : Nat} (below : n < 2 ^ 128) (below' : m < 2 ^ 128)
    (same : formatV6 n = formatV6 m) :
    n = m := by
  apply hextets_inj below below'
  apply parts_inj
  rw [← splitOn_formatV6, same, splitOn_formatV6]

theorem format_inj (v : Version) {n m : Nat} (below : n < 2 ^ v.bits) (below' : m < 2 ^ v.bits)
    (same : format v n = format v m) : n = m := by
  cases v with
  | v4 => exact formatV4_inj below below' same
  | v6 => exact formatV6_inj below below' same

end Nyc.IpAddress
