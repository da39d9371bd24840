import Mathlib.Data.List.Basic

/-!
# What `echo` writes

Its operand as it is, where that holds no backslash. What a backslash begins is left to the
implementation: it may be written as it is, stand for another character together with what follows,
or end the output.
-/

namespace Nyc.Data

inductive Echoed : List Char → List Char → Prop where
  | done : Echoed [] []
  | char {c : Char} {s out : List Char} (other : c ≠ '\x5c') (later :
    Echoed s out) : Echoed (c :: s)
    (c :: out)
  | kept {s out : List Char} (later : Echoed s out) : Echoed ('\x5c' :: s) ('\x5c' :: out)
  /-- No escape holds a quote. -/
  | escape {code s out : List Char} (some_ : code ≠ []) (unquoted : '\x22' ∉ code) (c : Char)
    (later : Echoed s out) :
    Echoed ('\x5c' :: (code ++ s)) (c :: out)
  | stop (s : List Char) : Echoed ('\x5c' :: s) []

/-- An implementation. -/
structure Echo where
  write : List Char → List Char
  sound : ∀ s, Echoed s (write s)

namespace Echoed

/-- No operand is changed by an implementation that knows no escapes. -/
theorem same (s : List Char) : Echoed s s := by
  induction s with
  | nil => exact done
  | cons c s ih =>
    by_cases backslash : c = '\x5c'
    · rw [backslash]
      exact ih.kept
    · exact ih.char backslash

theorem of_cons {c : Char} (other : c ≠ '\x5c') {s out : List Char} (echoed : Echoed (c :: s) out) :
    ∃ later, out = c :: later ∧ Echoed s later := by
  cases echoed with
  | char _ later => exact ⟨_, rfl, later⟩
  | kept => exact absurd rfl other
  | escape => exact absurd rfl other
  | stop => exact absurd rfl other

/-- What comes before the first backslash is written as it is. -/
theorem of_append {s s' out : List Char} (plain : '\x5c' ∉ s) (echoed : Echoed (s ++ s') out) :
    ∃ later, out = s ++ later ∧ Echoed s' later := by
  induction s generalizing out with
  | nil => exact ⟨out, rfl, echoed⟩
  | cons c s ih =>
    obtain ⟨rest, rfl, later⟩ :=
      echoed.of_cons fun same => plain (by rw [same]; exact List.mem_cons_self)
    obtain ⟨rest', rfl, last⟩ := ih (fun there => plain (List.mem_cons_of_mem c there)) later
    exact ⟨rest', rfl, last⟩

theorem of_plain {s out : List Char} (plain : '\x5c' ∉ s) (echoed : Echoed s out) : out = s := by
  rw [← List.append_nil s] at echoed
  obtain ⟨later, rfl, ended⟩ := echoed.of_append plain
  cases ended
  exact List.append_nil s

/-- What is written up to some place comes from at least as many characters of the operand, and from
all of their quotes. -/
structure Part (source text : List Char) : Prop where
  length : text.length ≤ source.length
  quote : '\x22' ∈ source → '\x22' ∈ text
  /-- Only an escape makes the text shorter. -/
  same : text.length = source.length → text = source

theorem part {s text rest : List Char} (echoed : Echoed s (text ++ rest)) :
    ∃ source s', s = source ++ s' ∧ Echoed s' rest ∧ Part source text := by
  -- each character of the text brings the piece of source that it was made from
  induction text generalizing s with
  | nil => exact ⟨[], s, rfl, echoed, Nat.le_refl 0, fun there => there, fun _ => rfl⟩
  | cons c text ih =>
    rw [List.cons_append] at echoed
    cases echoed with
    | char other later =>
      obtain ⟨source, s', rfl, rest, made⟩ := ih later
      refine ⟨c :: source, s', rfl, rest, ?_, fun there => ?_, fun length => ?_⟩
      · exact Nat.succ_le_succ made.length
      · exact List.mem_cons.mpr ((List.mem_cons.mp there).imp id made.quote)
      · rw [made.same (Nat.succ.inj length)]
    | kept later =>
      obtain ⟨source, s', rfl, rest, made⟩ := ih later
      refine ⟨'\x5c' :: source, s', rfl, rest, ?_, fun there => ?_, fun length => ?_⟩
      · exact Nat.succ_le_succ made.length
      · exact List.mem_cons.mpr ((List.mem_cons.mp there).imp id made.quote)
      · rw [made.same (Nat.succ.inj length)]
    | @escape code _ _ some_ unquoted _ later =>
      obtain ⟨source, s', rfl, rest, made⟩ := ih later
      have more := List.length_pos_of_ne_nil some_
      have length := made.length
      refine ⟨'\x5c' :: (code ++ source), s', ?_, rest, ?_, fun there => ?_, fun length => ?_⟩
      · rw [List.cons_append, List.append_assoc]
      · simp only [List.length_cons, List.length_append]
        omega
      · rcases List.mem_cons.mp there with quote | there
        · cases quote
        · exact List.mem_cons_of_mem c (made.quote
            ((List.mem_append.mp there).resolve_left unquoted))
      · simp only [List.length_cons, List.length_append] at length
        omega

end Echoed

end Nyc.Data
