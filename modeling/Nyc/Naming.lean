import Nyc.Client.Volume
import Nyc.Config
import Nyc.Tables

/-!
# The names of volumes

A volume is named by its role and an id; the four prefixes differ in their first letters, so a
name tells both.
-/

namespace Nyc

open Client

/-- The LV of a row of the snapshots. -/
def lvOf : Role → Id → Str
  | .snapshot, id => Names.snap id
  | .golden, id => Names.gold id

/-- A volume of the node's group. -/
def lvKey (cfg : Id → NodeConfig) (n : Id) (name : Str) : Str × Str := ((cfg n).lvm.vgFor n, name)

/-- The name has one of the four prefixes. -/
def RoleName (name : Str) : Prop :=
  Names.DATA <+: name ∨ Names.ROOTFS <+: name ∨ Names.SNAP <+: name ∨ Names.GOLD <+: name

instance (name : Str) : Decidable (RoleName name) :=
  inferInstanceAs (Decidable (Names.DATA <+: name ∨ Names.ROOTFS <+: name ∨ Names.SNAP <+: name ∨
    Names.GOLD <+: name))

/-! ## First letters -/

theorem first_letter {p name : Str} (h : p <+: name) (c : Char) (first : p.head? = some c) :
    name.head? = some c := by
  obtain ⟨rest, rfl⟩ := h
  rw [List.head?_append, first]
  rfl

theorem first_of_data (id : Id) : (Names.data id).head? = some 'd' := rfl

theorem first_of_rootfs (id : Id) : (Names.rootfs id).head? = some 'r' := rfl

/-- A snapshot's name begins with `s`, an image's with `g`. -/
theorem first_of_lvOf (role : Role) (id : Id) :
    (lvOf role id).head? = some 's' ∨ (lvOf role id).head? = some 'g' := by
  cases role with
  | snapshot => exact .inl rfl
  | golden => exact .inr rfl

theorem data_ne_rootfs (id id' : Id) : Names.data id ≠ Names.rootfs id' := by
  intro same
  have first := first_of_data id
  rw [same, first_of_rootfs] at first
  exact absurd first (by decide)

theorem data_ne_lvOf (id : Id) (role : Role) (id' : Id) : Names.data id ≠ lvOf role id' := by
  intro same
  have first := first_of_lvOf role id'
  rw [← same, first_of_data] at first
  exact absurd first (by decide)

theorem rootfs_ne_lvOf (id : Id) (role : Role) (id' : Id) : Names.rootfs id ≠ lvOf role id' := by
  intro same
  have first := first_of_lvOf role id'
  rw [← same, first_of_rootfs] at first
  exact absurd first (by decide)

theorem lvOf_not_rootfs (role : Role) (id : Id) : ¬ Names.ROOTFS <+: lvOf role id := by
  rintro ⟨rest, same⟩
  exact rootfs_ne_lvOf rest role id same

/-! ## Ids -/

theorem data_inj {id id' : Id} (same : Names.data id = Names.data id') : id = id' :=
  List.append_cancel_left same

theorem rootfs_inj {id id' : Id} (same : Names.rootfs id = Names.rootfs id') : id = id' :=
  List.append_cancel_left same

theorem lvOf_inj {role role' : Role} {id id' : Id} (same : lvOf role id = lvOf role' id') :
    id = id' := by
  have parts : ∀ role, ∃ p : Str, p.length = 5 ∧ ∀ id, lvOf role id = p ++ id := by
    rintro (_ | _)
    · exact ⟨Names.SNAP, by decide, fun _ => rfl⟩
    · exact ⟨Names.GOLD, by decide, fun _ => rfl⟩
  obtain ⟨p, long, made⟩ := parts role
  obtain ⟨p', long', made'⟩ := parts role'
  rw [made, made'] at same
  exact (List.append_inj same (long.trans long'.symm)).2

theorem lvOf_ne_default {role : Role} {id : Id} (custom : id ≠ "default".toList) :
    lvOf role id ≠ GOLD_DEFAULT := by
  intro same
  have default_ : GOLD_DEFAULT = lvOf .golden "default" := by decide
  exact custom (lvOf_inj (same.trans default_))

theorem data_ne_default (id : Id) : Names.data id ≠ GOLD_DEFAULT := by
  intro same
  have first := first_of_data id
  rw [same] at first
  exact absurd first (by decide)

theorem rootfs_ne_default (id : Id) : Names.rootfs id ≠ GOLD_DEFAULT := by
  intro same
  have first := first_of_rootfs id
  rw [same] at first
  exact absurd first (by decide)

/-! ## Roles -/

theorem role_data (id : Id) : RoleName (Names.data id) := .inl (List.prefix_append ..)

theorem role_rootfs (id : Id) : RoleName (Names.rootfs id) := .inr (.inl (List.prefix_append ..))

theorem role_lvOf (role : Role) (id : Id) : RoleName (lvOf role id) := by
  cases role with
  | snapshot => exact .inr (.inr (.inl (List.prefix_append ..)))
  | golden => exact .inr (.inr (.inr (List.prefix_append ..)))

end Nyc
