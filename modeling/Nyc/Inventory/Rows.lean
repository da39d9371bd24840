import Nyc.Client.Steps
import Nyc.Cluster
import Nyc.Naming
import Mathlib.Data.Set.Function

/-!
# Rows that stand for volumes

A row of the volumes, of the snapshots and of the VMs each stands for one LV on its node. The
entries of a database are what its rows say of these volumes, whatever else is in them.
-/

namespace Nyc

open Data Effects Client

namespace Inventory

/-! ## Rows that stand for a volume -/

/-- A row that stands for a volume of its node. -/
inductive Owner where
  | volume (r : VolumeRow)
  | snapshot (r : SnapshotRow)
  | vm (r : VmRow)

namespace Owner

def node : Owner → Id
  | volume r => r.nodeId
  | snapshot r => r.nodeId
  | vm r => r.nodeId

/-- The name of the volume: built from the id, but for a snapshot's, which has a column. -/
def lv : Owner → Str
  | volume r => Names.data r.id
  | snapshot r => r.lvName
  | vm r => Names.rootfs r.id

def In (w : World) : Owner → Prop
  | volume r => r ∈ w.db .volumes
  | snapshot r => r ∈ w.db .snapshots
  | vm r => r ∈ w.db .vms

end Owner

/-- The rows of the node. -/
def owners (n : Id) (w : World) : Set Owner := {o | o.In w ∧ o.node = n}

/-- The volumes of the node's group that have a role, but for the default image. -/
def roleLvs (cfg : Id → NodeConfig) (n : Id) (w : World) : Set Str :=
  {name | RoleName name ∧ name ≠ GOLD_DEFAULT ∧ (w.hosts n).HasLv (lvKey cfg n name)}

/-! ## Entries -/

/-- What a row says of its volume, whatever else is in it. -/
structure Entry where
  table : Tbl
  node : Id
  id : Id
  lv : Str
  /-- The network that a rebuild of the VM looks up. -/
  vpc : Option Id

def entryOf : (t : Tbl) → t.Row → Option Entry
  | .volumes, r => some ⟨.volumes, r.nodeId, r.id, Names.data r.id, none⟩
  | .snapshots, r => some ⟨.snapshots, r.nodeId, r.id, r.lvName, none⟩
  | .vms, r => some ⟨.vms, r.nodeId, r.id, Names.rootfs r.id, some r.vpcId⟩
  | _, _ => none

def entries (db : Db) : Set Entry := {e | ∃ t, ∃ r ∈ db t, entryOf t r = some e}

/-- A row of the node names the volume. -/
def Named (db : Db) (n : Id) (name : Str) : Prop := ∃ e ∈ entries db, e.node = n ∧ e.lv = name

theorem entryOf_table {t : Tbl} {r : t.Row} {e : Entry} (made : entryOf t r = some e) :
    e.table = t := by
  cases t <;> cases made <;> rfl

def Owner.entry : Owner → Entry
  | volume r => ⟨.volumes, r.nodeId, r.id, Names.data r.id, none⟩
  | snapshot r => ⟨.snapshots, r.nodeId, r.id, r.lvName, none⟩
  | vm r => ⟨.vms, r.nodeId, r.id, Names.rootfs r.id, some r.vpcId⟩

theorem entry_node (o : Owner) : o.entry.node = o.node := by cases o <;> rfl

theorem entry_lv (o : Owner) : o.entry.lv = o.lv := by cases o <;> rfl

theorem mem_entries {w : World} {e : Entry} :
    e ∈ entries w.db ↔ ∃ o : Owner, o.In w ∧ o.entry = e := by
  constructor
  · rintro ⟨t, r, there, made⟩
    cases t with
    | volumes =>
      cases made
      exact ⟨.volume r, there, rfl⟩
    | snapshots =>
      cases made
      exact ⟨.snapshot r, there, rfl⟩
    | vms =>
      cases made
      exact ⟨.vm r, there, rfl⟩
    | vpcs | publicIps | domains | tasks | proxies | nodes => cases made
  · rintro ⟨o, there, rfl⟩
    cases o with
    | volume r => exact ⟨.volumes, r, there, rfl⟩
    | snapshot r => exact ⟨.snapshots, r, there, rfl⟩
    | vm r => exact ⟨.vms, r, there, rfl⟩

theorem mem_of_owner {w : World} {o : Owner} (there : o.In w) : o.entry ∈ entries w.db :=
  mem_entries.mpr ⟨o, there, rfl⟩

/-- The columns of the snapshots hold the names that the ids give. -/
def NamedById (db : Db) : Prop := ∀ r ∈ db .snapshots, r.lvName = lvOf r.role r.id

theorem owner_of_lv {w : World} (named : NamedById w.db) {o o' : Owner} (there : o.In w)
    (there' : o'.In w) (same : o.lv = o'.lv) : o = o' := by
  -- names of different kinds differ in their first letters
  cases o with
  | volume r =>
    cases o' with
    | volume r' =>
      have id : r.id = r'.id := data_inj same
      rw [(w.db .volumes).eq_of_key VolumeRow.id List.mem_cons_self there there' id]
    | snapshot r' =>
      rw [Owner.lv, Owner.lv, named r' there'] at same
      exact absurd same (data_ne_lvOf _ _ _)
    | vm r' => exact absurd same (data_ne_rootfs _ _)
  | snapshot r =>
    rw [Owner.lv, named r there] at same
    cases o' with
    | volume r' => exact absurd same.symm (data_ne_lvOf _ _ _)
    | snapshot r' =>
      rw [Owner.lv, named r' there'] at same
      rw [(w.db .snapshots).eq_of_key SnapshotRow.id List.mem_cons_self there there'
        (lvOf_inj same)]
    | vm r' => exact absurd same.symm (rootfs_ne_lvOf _ _ _)
  | vm r =>
    cases o' with
    | volume r' => exact absurd same.symm (data_ne_rootfs _ _)
    | snapshot r' =>
      rw [Owner.lv, Owner.lv, named r' there'] at same
      exact absurd same (rootfs_ne_lvOf _ _ _)
    | vm r' =>
      have id : r.id = r'.id := rootfs_inj same
      rw [(w.db .vms).eq_of_key VmRow.id List.mem_cons_self there there' id]

theorem entry_of_lv {w : World} (named : NamedById w.db) {e e' : Entry} (there : e ∈ entries w.db)
    (there' : e' ∈ entries w.db) (same : e.lv = e'.lv) : e = e' := by
  obtain ⟨o, inside, rfl⟩ := mem_entries.mp there
  obtain ⟨o', inside', rfl⟩ := mem_entries.mp there'
  rw [entry_lv, entry_lv] at same
  rw [owner_of_lv named inside inside' same]

/-! ### Names and ids -/

/-- A name that some table gives to the id. -/
def NameOf (id : Id) (name : Str) : Prop :=
  name = Names.data id ∨ name = Names.rootfs id ∨ ∃ role, name = lvOf role id

theorem NameOf.role {id : Id} {name : Str} (h : NameOf id name) : RoleName name := by
  rcases h with rfl | rfl | ⟨role, rfl⟩
  · exact role_data id
  · exact role_rootfs id
  · exact role_lvOf role id

theorem nameOf_entry {w : World} (named : NamedById w.db) {e : Entry} (there : e ∈ entries w.db) :
    NameOf e.id e.lv := by
  obtain ⟨o, inside, rfl⟩ := mem_entries.mp there
  cases o with
  | volume r => exact .inl rfl
  | snapshot r => exact .inr (.inr ⟨r.role, named r inside⟩)
  | vm r => exact .inr (.inl rfl)

/-! ### Tables that change -/

theorem mem_entries_split {db : Db} {e : Entry} (t : Tbl) :
    e ∈ entries db ↔ (∃ r ∈ db t, entryOf t r = some e) ∨ e ∈ entries db ∧ e.table ≠ t := by
  constructor
  · rintro ⟨t', r, there, made⟩
    by_cases here : t' = t
    · subst here
      exact .inl ⟨r, there, made⟩
    · exact .inr ⟨⟨t', r, there, made⟩, fun same => here ((entryOf_table made).symm.trans same)⟩
  · rintro (⟨r, there, made⟩ | ⟨there, -⟩)
    · exact ⟨t, r, there, made⟩
    · exact there

theorem mem_entries_update {db : Db} {e : Entry} (t : Tbl) (rows : Table t.unique) :
    e ∈ entries (Function.update db t rows) ↔
      (∃ r ∈ rows, entryOf t r = some e) ∨ e ∈ entries db ∧ e.table ≠ t := by
  rw [mem_entries_split t, Function.update_self]
  refine or_congr_right (and_congr_left fun other => ?_)
  -- the other tables are the same
  constructor
  · rintro ⟨t', r, there, made⟩
    rw [entryOf_table made] at other
    rw [Function.update_of_ne other] at there
    exact ⟨t', r, there, made⟩
  · rintro ⟨t', r, there, made⟩
    rw [entryOf_table made] at other
    refine ⟨t', r, ?_, made⟩
    rw [Function.update_of_ne other]
    exact there

/-- Rows that say the same of their volumes leave the entries as they are. -/
theorem entries_update_same {db : Db} {t : Tbl} {rows : Table t.unique}
    (same : ∀ e, (∃ r ∈ rows, entryOf t r = some e) ↔ ∃ r ∈ db t, entryOf t r = some e) :
    entries (Function.update db t rows) = entries db := by
  ext e
  rw [mem_entries_update, same, ← mem_entries_split]

theorem entries_insert {db : Db} {t : Tbl} {row : t.Row} {rows : Table t.unique}
    (inserted : (db t).insert row = some rows) (e : Entry) :
    e ∈ entries (Function.update db t rows) ↔ e ∈ entries db ∨ entryOf t row = some e := by
  have rows_ : (∃ r ∈ rows, entryOf t r = some e) ↔
      (∃ r ∈ db t, entryOf t r = some e) ∨ entryOf t row = some e := by
    constructor
    · rintro ⟨r, there, made⟩
      rcases (Table.mem_insert inserted).mp there with old | rfl
      · exact .inl ⟨r, old, made⟩
      · exact .inr made
    · rintro (⟨r, old, made⟩ | made)
      · exact ⟨r, (Table.mem_insert inserted).mpr (.inl old), made⟩
      · exact ⟨row, (Table.mem_insert inserted).mpr (.inr rfl), made⟩
  rw [mem_entries_update, rows_, or_right_comm, ← mem_entries_split]

/-- The rows of a table that name a volume go, and the table is the one that has it. -/
theorem entries_delete {db : Db} {t : Tbl} {p : t.Row → Bool} {name : Str}
    (own : ∀ e ∈ entries db, e.lv = name → e.table = t)
    (names : ∀ r ∈ db t, ∀ e, entryOf t r = some e → (p r = true ↔ e.lv = name)) (e : Entry) :
    e ∈ entries (Function.update db t ((db t).delete p)) ↔ e ∈ entries db ∧ e.lv ≠ name := by
  rw [mem_entries_update]
  constructor
  · rintro (⟨r, there, made⟩ | ⟨there, other⟩)
    · obtain ⟨old, stays⟩ := Table.mem_delete.mp there
      refine ⟨⟨t, r, old, made⟩, fun same => ?_⟩
      rw [(names r old e made).mpr same] at stays
      cases stays
    · exact ⟨there, fun same => other (own e there same)⟩
  · rintro ⟨there, other⟩
    rcases (mem_entries_split t).mp there with ⟨r, old, made⟩ | elsewhere
    · refine .inl ⟨r, Table.mem_delete.mpr ⟨old, ?_⟩, made⟩
      rw [Bool.eq_false_iff]
      exact fun gone => other ((names r old e made).mp gone)
    · exact .inr elsewhere

end Inventory

end Nyc
