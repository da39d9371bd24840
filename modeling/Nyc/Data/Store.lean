import Mathlib.Data.List.AList

/-!
# Stores

Finite maps by key, as Mathlib's association lists without repeated keys, with the two
operations on a whole store that the hosts need.
-/

namespace Nyc.Data

variable {κ ν : Type} [DecidableEq κ]

abbrev Store (κ ν : Type) [DecidableEq κ] : Type := AList fun _ : κ => ν

namespace Store

/-- The entries that meet the condition. -/
def keep (p : κ → ν → Bool) (s : Store κ ν) : Store κ ν :=
  ⟨s.entries.filter fun e => p e.1 e.2, s.nodupKeys.sublist List.filter_sublist⟩

theorem lookup_keep (p : κ → ν → Bool) (s : Store κ ν) (k : κ) :
    (s.keep p).lookup k = (s.lookup k).filter (p k) := by
  ext v
  change v ∈ (s.keep p).lookup k ↔ _
  rw [AList.mem_lookup_iff, keep, List.mem_filter, ← AList.mem_lookup_iff,
    Option.filter_eq_some_iff]
  rfl

/-- Rewrite the entry at `k`, if there is one. -/
def modify (k : κ) (f : ν → ν) (s : Store κ ν) : Store κ ν :=
  match s.lookup k with
  | some v => s.insert k (f v)
  | none => s

theorem lookup_modify (k k' : κ) (f : ν → ν) (s : Store κ ν) :
    (s.modify k f).lookup k' = if k' = k then (s.lookup k').map f else s.lookup k' := by
  unfold modify
  by_cases same : k' = k
  · subst same
    rw [if_pos rfl]
    cases there : s.lookup k' with
    | none => exact there
    | some v => exact AList.lookup_insert s
  · rw [if_neg same]
    split
    · exact AList.lookup_insert_ne same
    · rfl

theorem lookup_insert (k k' : κ) (v : ν) (s : Store κ ν) :
    AList.lookup k' (s.insert k v) = if k' = k then some v else s.lookup k' := by
  split
  next same => rw [same, AList.lookup_insert]
  next other => exact AList.lookup_insert_ne other

theorem lookup_erase (k k' : κ) (s : Store κ ν) :
    AList.lookup k' (s.erase k) = if k' = k then none else s.lookup k' := by
  split
  next same => rw [same, AList.lookup_erase]
  next other => exact AList.lookup_erase_ne other

theorem mem_keys_iff (s : Store κ ν) (k : κ) : k ∈ s.keys ↔ (s.lookup k).isSome := by
  rw [← AList.mem_keys, AList.lookup_isSome]

end Store

end Nyc.Data
