import Nyc.Inventory.Rows

/-!
# Rows and volumes in step

What a part of a request may move, and the invariant that the rows of a node and its volumes
correspond, but for the volumes that the request is about.
-/

namespace Nyc

open Data Effects Effects.Program Client

namespace Inventory

/-! ## What moves -/

/-- The volumes that a part of a program may make or remove, by node. -/
abbrev Where : Type := Id → Str × Str → Prop

def nowhere : Where := fun _ _ => False

/-- One volume. -/
def at_ (n : Id) (k : Str × Str) : Where := fun n' k' => n' = n ∧ k' = k

/-- From `w` to `w'` no volume outside `out` came or went, and the rows stand for the same
volumes. -/
structure Moved (out : Where) (w w' : World) : Prop where
  clock : w.clock ≤ w'.clock
  entries : entries w'.db = entries w.db
  snapshots : w'.db .snapshots = w.db .snapshots
  nodes : w'.db .nodes = w.db .nodes
  vpcs : ∀ r ∈ w.db .vpcs, r ∈ w'.db .vpcs
  ips : ∀ r ∈ w'.db .publicIps, r ∈ w.db .publicIps
  has : ∀ n k, ¬ out n k → ((w'.hosts n).HasLv k ↔ (w.hosts n).HasLv k)

namespace Moved

variable {out out' : Where} {w w' w'' : World}

theorem refl (out : Where) (w : World) : Moved out w w :=
  ⟨le_refl _, rfl, rfl, rfl, fun _ there => there, fun _ there => there, fun _ _ _ => Iff.rfl⟩

theorem trans (h : Moved out w w') (h' : Moved out w' w'') : Moved out w w'' where
  clock := h.clock.trans h'.clock
  entries := h'.entries.trans h.entries
  snapshots := h'.snapshots.trans h.snapshots
  nodes := h'.nodes.trans h.nodes
  vpcs := fun r there => h'.vpcs r (h.vpcs r there)
  ips := fun r there => h.ips r (h'.ips r there)
  has := fun n k other => (h'.has n k other).trans (h.has n k other)

theorem mono (h : Moved out w w') (more : ∀ n k, out n k → out' n k) : Moved out' w w' :=
  { h with has := fun n k other => h.has n k fun moves => other (more n k moves) }

theorem of_nowhere (h : Moved nowhere w w') : Moved out w w' := h.mono fun _ _ none_ => none_.elim

theorem tick (out : Where) (w : World) : Moved out w w.tick :=
  { refl out w with clock := Nat.le_succ _ }

end Moved

/-- The command makes no volume and removes none. -/
def Steady (c : Cmd) : Prop := ∀ k, ¬ c.moves k

/-- An operation of a request that is not about its own volume and its own row. -/
structure Calm (o : Op) : Prop where
  touch : Touch [.vpcs, .proxies, .tasks] [.publicIps, .domains, .proxies, .tasks] o
  steady : o.OnHosts fun _ => Steady

section Steps

variable {env : Env} {w : World}

/-- A command moves the volumes that it names, on its host. -/
theorem moved_host (n : Id) (c : Cmd) :
    Moved (fun n' k => n' = n ∧ c.moves k) w (exec env (.host n c) w).2 where
  clock := by rw [exec_clock]; exact Nat.le_succ _
  entries := rfl
  snapshots := rfl
  nodes := rfl
  vpcs := fun _ there => there
  ips := fun _ there => there
  has := by
    intro n' k other
    rw [hosts_exec]
    split
    next here =>
      subst here
      exact exec_has _ c _ k fun moves => other ⟨rfl, moves⟩
    next => rfl

theorem moved_steady {n : Id} {c : Cmd} (steady : Steady c) :
    Moved nowhere w (exec env (.host n c) w).2 :=
  (moved_host n c).mono fun _ k moves => steady k moves.2

theorem entryOf_none {t : Tbl} (other : t ∉ [Tbl.volumes, .snapshots, .vms])
    (r : t.Row) : entryOf t r = none := by
  cases t with
  | volumes | snapshots | vms => exact absurd (by decide) other
  | vpcs | publicIps | domains | tasks | proxies | nodes => rfl

/-- Tables without volumes do not count. -/
theorem entries_other {db : Db} {t : Tbl} (other : t ∉ [Tbl.volumes, .snapshots, .vms])
    (rows : Table t.unique) :
    entries (Function.update db t rows) = entries db := by
  refine entries_update_same fun e => ?_
  constructor
  all_goals
    rintro ⟨r, there, made⟩
    rw [entryOf_none other] at made
    cases made

/-- An update that keeps what a row says of its volume. -/
theorem entries_rewrite {db : Db} {t : Tbl} {p : t.Row → Bool} {f : t.Row → t.Row}
    {rows : Table t.unique}
    (updated : (db t).update p f = some rows) (keeps : ∀ r, entryOf t (f r) = entryOf t r) :
    entries (Function.update db t rows) = entries db := by
  refine entries_update_same fun e => ?_
  constructor
  · rintro ⟨r, there, made⟩
    obtain ⟨r', old, rfl⟩ := (Table.mem_update updated).mp there
    refine ⟨r', old, ?_⟩
    rw [← made]
    split
    · exact (keeps r').symm
    · rfl
  · rintro ⟨r, old, made⟩
    refine ⟨_, (Table.mem_update updated).mpr ⟨r, old, rfl⟩, ?_⟩
    split
    · exact (keeps r).trans made
    · exact made

/-- A write of a table that keeps the entries, the networks and the addresses. -/
theorem moved_setTable {t : Tbl} {rows : Table t.unique}
    (same : entries (Function.update w.db t rows) = entries w.db)
    (other : t ∉ [Tbl.snapshots, .nodes])
    (vpcs : ∀ r ∈ w.db .vpcs, r ∈ (w.setTable t rows).db .vpcs)
    (ips : ∀ r ∈ (w.setTable t rows).db .publicIps, r ∈ w.db .publicIps) :
    Moved nowhere w (w.setTable t rows).tick where
  clock := Nat.le_succ _
  entries := same
  snapshots := setTable_ne w t _ rows (by rintro rfl; exact other (by decide))
  nodes := setTable_ne w t _ rows (by rintro rfl; exact other (by decide))
  vpcs := vpcs
  ips := ips
  has := fun _ _ _ => Iff.rfl

/-- A write of one of the other tables. -/
theorem moved_setOther {t : Tbl} {rows : Table t.unique}
    (same : entries (Function.update w.db t rows) = entries w.db)
    (other : t ∉ [Tbl.snapshots, .nodes, .vpcs, .publicIps]) :
    Moved nowhere w (w.setTable t rows).tick := by
  refine moved_setTable same (fun there =>
    other (List.mem_append_left [Tbl.vpcs, .publicIps] there)) ?_ ?_
  · rw [setTable_ne w t .vpcs rows (by rintro rfl; exact other (by decide))]
    exact fun _ there => there
  · rw [setTable_ne w t .publicIps rows (by rintro rfl; exact other (by decide))]
    exact fun _ there => there

/-- An update of what no entry tells. -/
theorem moved_update {t : Tbl} {p : t.Row → Bool} {f : t.Row → t.Row}
    (keeps : ∀ r, entryOf t (f r) = entryOf t r)
    (other : t ∉ [Tbl.snapshots, .nodes, .vpcs, .publicIps]) :
    Moved nowhere w (exec env (.update t p f) w).2 := by
  simp only [exec]
  split
  next rows updated => exact moved_setOther (entries_rewrite updated keeps) other
  next => exact .tick nowhere w

theorem moved_insert {t : Tbl} (row : t.Row) (known : t ∈ [Tbl.vpcs, .proxies, .tasks]) :
    Moved nowhere w (exec env (.insert t row) w).2 := by
  simp only [exec]
  split
  next rows inserted =>
    by_cases vpcs : t = .vpcs
    · subst vpcs
      refine moved_setTable (entries_other (by decide) rows) (by decide) (fun r there => ?_) ?_
      · rw [setTable_self]
        exact (Table.mem_insert inserted).mpr (.inl there)
      · rw [setTable_ne w .vpcs .publicIps rows (by decide)]
        exact fun _ there => there
    · have known : t ∈ [Tbl.proxies, .tasks] := (List.mem_cons.mp known).resolve_left vpcs
      exact moved_setOther (entries_other (by revert known; cases t <;> decide) rows)
        (by revert known; cases t <;> decide)
  next => exact .tick nowhere w

theorem moved_delete {t : Tbl} (p : t.Row → Bool)
    (known : t ∈ [Tbl.publicIps, .domains, .proxies, .tasks]) :
    Moved nowhere w (exec env (.delete t p) w).2 := by
  rw [exec_delete]
  by_cases ips : t = .publicIps
  · subst ips
    refine moved_setTable (entries_other (by decide) _) (by decide) ?_ fun r there => ?_
    · rw [setTable_ne w .publicIps .vpcs _ (by decide)]
      exact fun _ there => there
    · rw [setTable_self] at there
      exact (Table.mem_delete.mp there).1
  · have known : t ∈ [Tbl.domains, .proxies, .tasks] := (List.mem_cons.mp known).resolve_left ips
    exact moved_setOther (entries_other (by revert known; cases t <;> decide) _)
      (by revert known; cases t <;> decide)

theorem moved_calm {o : Op} (calm : Calm o) : Moved nowhere w (exec env o w).2 := by
  cases calm.touch with
  | get t p | getAll t p known | uuid4 | now | choice => exact .tick nowhere w
  | host n c => exact moved_steady calm.steady
  | status p st => exact moved_update (fun _ => rfl) (by decide)
  | ready p | task p f known => exact moved_update (fun _ => rfl) (by decide)
  | size p sizeMb => exact moved_update (fun _ => rfl) (by decide)
  | insert t row known => exact moved_insert row known
  | delete t p known => exact moved_delete p known

end Steps

/-! ## The invariant -/

/-- An id that has been drawn. -/
def Issued (env : Env) (w : World) (id : Id) : Prop := ∃ k < w.clock, id = env.uuid k

/-- A drawn id that no row has yet. -/
structure Fresh (env : Env) (w : World) (id : Id) : Prop where
  issued : Issued env w id
  unused : ∀ e ∈ entries w.db, e.id ≠ id

/-- The rows and the volumes correspond, but for the volumes in `out`. -/
structure Inv (cfg : Id → NodeConfig) (env : Env) (nodes : Id → Prop) (out : Where) (w : World) :
    Prop where
  placed : ∀ e ∈ entries w.db, nodes e.node ∧ Issued env w e.id ∧ e.lv ≠ GOLD_DEFAULT
  linked : ∀ e ∈ entries w.db, ∀ v, e.vpc = some v → ∃ r ∈ w.db .vpcs, r.id = v
  named : NamedById w.db
  ips : ∀ r ∈ w.db .publicIps, Issued env w r.id
  registered : ∀ r ∈ w.db .nodes, nodes r.nodeId
  golden : ∀ n, nodes n → (w.hosts n).HasLv (lvKey cfg n GOLD_DEFAULT)
  balanced : ∀ n name, nodes n → RoleName name → name ≠ GOLD_DEFAULT → ¬ out n (lvKey cfg n name) →
    ((w.hosts n).HasLv (lvKey cfg n name) ↔ Named w.db n name)

/-- Every volume has its row and every row its volume. -/
abbrev Balanced (cfg : Id → NodeConfig) (env : Env) (nodes : Id → Prop) : World → Prop :=
  Inv cfg env nodes nowhere

theorem Issued.later {env : Env} {w w' : World} {id : Id} (issued : Issued env w id)
    (clock : w.clock ≤ w'.clock) : Issued env w' id := by
  obtain ⟨k, before, rfl⟩ := issued
  exact ⟨k, lt_of_lt_of_le before clock, rfl⟩

theorem Fresh.moved {env : Env} {w w' : World} {id : Id} {out : Where} (fresh : Fresh env w id)
    (moved : Moved out w w') : Fresh env w' id :=
  ⟨fresh.issued.later moved.clock, by rw [moved.entries]; exact fresh.unused⟩

theorem key_inj {cfg : Id → NodeConfig} {n : Id} {name name' : Str}
    (same : lvKey cfg n name = lvKey cfg n name') : name = name' := (Prod.mk.inj same).2

namespace Inv

variable {cfg : Id → NodeConfig} {env : Env} {nodes : Id →
  Prop} {out : Where} {w w' : World} {n : Id}
  {name : Str}

theorem loosen (balanced : Balanced cfg env nodes w) (out : Where) : Inv cfg env nodes out w :=
  { balanced with
    balanced := fun n name known role custom _ =>
    balanced.balanced n name known role custom not_false }

/-- The last volume is settled: it is there if and only if a row names it. -/
theorem settle (inv : Inv cfg env nodes (at_ n (lvKey cfg n name)) w)
    (same : (w.hosts n).HasLv (lvKey cfg n name) ↔ Named w.db n name) :
    Balanced cfg env nodes w := by
  refine { inv with balanced := fun n' name' known role custom _ => ?_ }
  by_cases here : n' = n ∧ name' = name
  · obtain ⟨rfl, rfl⟩ := here
    exact same
  · refine inv.balanced n' name' known role custom ?_
    rintro ⟨rfl, equal⟩
    exact here ⟨rfl, key_inj equal⟩

theorem moved (inv : Inv cfg env nodes out w) (moved : Moved out w w')
    (spares : ∀ n, ¬ out n (lvKey cfg n GOLD_DEFAULT)) : Inv cfg env nodes out w' where
  placed := by
    rw [moved.entries]
    intro e there
    obtain ⟨known, issued, custom⟩ := inv.placed e there
    exact ⟨known, issued.later moved.clock, custom⟩
  linked := by
    rw [moved.entries]
    intro e there v vpc
    obtain ⟨r, row, same⟩ := inv.linked e there v vpc
    exact ⟨r, moved.vpcs r row, same⟩
  named := by
    rw [NamedById, moved.snapshots]
    exact inv.named
  ips := fun r there => (inv.ips r (moved.ips r there)).later moved.clock
  registered := by
    rw [moved.nodes]
    exact inv.registered
  golden := fun n known => (moved.has n _ (spares n)).mpr (inv.golden n known)
  balanced := by
    intro n name known role custom other
    rw [moved.has n _ other, Named, moved.entries]
    exact inv.balanced n name known role custom other

theorem calm (inv : Inv cfg env nodes out w) (moved : Moved nowhere w w') :
    Inv cfg env nodes out w' := by
  have golden := fun n known => (moved.has n _ not_false).mpr (inv.golden n known)
  have rest : ∀ n name, nodes n → RoleName name → name ≠ GOLD_DEFAULT → ¬ out n (lvKey cfg n name) →
      ((w'.hosts n).HasLv (lvKey cfg n name) ↔ Named w'.db n name) := by
    intro n name known role custom other
    rw [moved.has n _ not_false, Named, moved.entries]
    exact inv.balanced n name known role custom other
  -- the invariant that asks nothing of the volumes moves along
  have free : Inv cfg env nodes (fun n k => k ≠ lvKey cfg n GOLD_DEFAULT) w :=
    { inv with
      balanced := fun n name _ _ custom other => absurd (fun same => custom (key_inj same)) other }
  exact { free.moved moved.of_nowhere (fun n other => other rfl) with balanced := rest }

theorem nameOf (inv : Inv cfg env nodes out w) {e : Entry} (there : e ∈ entries w.db) :
    NameOf e.id e.lv :=
  nameOf_entry inv.named there

/-- The volume of a row is there. -/
theorem has (balanced : Balanced cfg env nodes w) {e : Entry} (there : e ∈ entries w.db) :
    (w.hosts e.node).HasLv (lvKey cfg e.node e.lv) := by
  obtain ⟨known, -, custom⟩ := balanced.placed e there
  exact (balanced.balanced e.node e.lv known (balanced.nameOf there).role custom not_false).mpr ⟨e,
    there, rfl, rfl⟩

theorem fresh_uuid (balanced : Balanced cfg env nodes w) (inj : Function.Injective env.uuid) :
    Fresh env w.tick (env.uuid w.clock) := by
  refine ⟨⟨w.clock, Nat.lt_succ_self _, rfl⟩, fun e there same => ?_⟩
  obtain ⟨k, before, id⟩ := (balanced.placed e there).2.1
  have now : k = w.clock := inj (id.symm.trans same)
  omega

end Inv

/-! ### Rows that come and go -/

/-- Later in a request that has removed no volume, no network and added no address. -/
structure Later (w w' : World) : Prop where
  clock : w.clock ≤ w'.clock
  vpcs : ∀ r ∈ w.db .vpcs, r ∈ w'.db .vpcs
  ips : ∀ r ∈ w'.db .publicIps, r ∈ w.db .publicIps
  has : ∀ n k, (w.hosts n).HasLv k → (w'.hosts n).HasLv k

theorem Later.trans {w w' w'' : World} (h : Later w w') (h' : Later w' w'') : Later w w'' where
  clock := h.clock.trans h'.clock
  vpcs := fun r there => h'.vpcs r (h.vpcs r there)
  ips := fun r there => h.ips r (h'.ips r there)
  has := fun n k there => h'.has n k (h.has n k there)

theorem Moved.later {w w' : World} (h : Moved nowhere w w') : Later w w' :=
  ⟨h.clock, h.vpcs, h.ips, fun n k => (h.has n k not_false).mpr⟩

/-- A volume that is made is one more. -/
theorem Moved.later_made {w w' : World} {n : Id} {k : Str × Str} (h : Moved (at_ n k) w w')
    (made : (w'.hosts n).HasLv k) : Later w w' := by
  refine ⟨h.clock, h.vpcs, h.ips, fun n' k' there => ?_⟩
  by_cases here : n' = n ∧ k' = k
  · obtain ⟨rfl, rfl⟩ := here
    exact made
  · exact (h.has n' k' here).mpr there

section Rows

variable {cfg : Id → NodeConfig} {env : Env} {nodes : Id → Prop} {w : World} {n : Id}

/-- A row with a fresh id breaks no constraint. -/
theorem insert_fresh {t : Tbl} {row : t.Row} {e : Entry} (made : entryOf t row = some e)
    (unused : ∀ e' ∈ entries w.db, e'.id ≠ e.id) : ∃ rows, (w.db t).insert row = some rows := by
  rw [← Option.ne_none_iff_exists']
  intro refused
  obtain ⟨r, there, col, column, -, same⟩ := Table.insert_none.mp refused
  have clash : ∀ e', entryOf t r = some e' → e'.id ≠ e.id :=
    fun e' made' => unused e' ⟨t, r, there, made'⟩
  cases t with
  | volumes | snapshots | vms =>
    cases made
    obtain rfl := List.mem_singleton.mp column
    exact clash _ rfl (Option.some.inj same)
  | vpcs | publicIps | domains | tasks | proxies | nodes => cases made

/-- What a new row says of its volume is fit to be recorded. -/
structure Fit (cfg : Id → NodeConfig) (env : Env) (nodes : Id → Prop) (e : Entry) (w : World) :
    Prop where
  known : nodes e.node
  fresh : Fresh env w e.id
  custom : e.lv ≠ GOLD_DEFAULT
  vpc : ∀ v, e.vpc = some v → ∃ r ∈ w.db .vpcs, r.id = v

theorem insert_exec {t : Tbl} {row : t.Row} {e : Entry} (made : entryOf t row = some e)
    (inv : Inv cfg env nodes (at_ e.node (lvKey cfg e.node e.lv)) w) (fit : Fit cfg env nodes e w)
    (named : ∀ rows, (w.db t).insert row = some rows → NamedById (w.setTable t rows).db) :
    (exec env (.insert t row) w).1 = .ok () ∧
      Inv cfg env nodes (at_ e.node (lvKey cfg e.node e.lv)) (exec env (.insert t row) w).2 ∧
      e ∈ entries (exec env (.insert t row) w).2.db ∧ Later w (exec env (.insert t row) w).2 ∧
      (exec env (.insert t row) w).2.hosts = w.hosts := by
  obtain ⟨rows, inserted⟩ := insert_fresh made fit.fresh.unused
  rw [exec_insert_some env w t row inserted]
  have other : t ≠ .vpcs ∧ t ≠ .publicIps ∧ t ≠ .nodes := by
    refine ⟨?_, ?_, ?_⟩ <;> rintro rfl <;> cases made
  have entry (e' : Entry) : e' ∈ entries (w.setTable t rows).db ↔ e' ∈ entries w.db ∨ e' = e := by
    rw [World.setTable, entries_insert inserted, made, Option.some_inj, eq_comm (a := e)]
  have vpcs : (w.setTable t rows).db .vpcs = w.db .vpcs := setTable_ne w t _ rows other.1.symm
  have ips : (w.setTable t rows).db .publicIps = w.db .publicIps :=
    setTable_ne w t _ rows other.2.1.symm
  have clock : w.clock ≤ (w.setTable t rows).tick.clock := Nat.le_succ _
  refine ⟨rfl, ?_, (entry e).mpr (.inr rfl), ⟨clock, ?_, ?_, fun _ _ there => there⟩, rfl⟩
  · refine ⟨fun e' there => ?_, fun e' there v vpc => ?_, named rows inserted,
      fun r there => ?_, ?_, inv.golden,
      fun n' name known role custom apart => ?_⟩
    · rcases (entry e').mp there with old | rfl
      · obtain ⟨known, issued, custom⟩ := inv.placed e' old
        exact ⟨known, issued.later clock, custom⟩
      · exact ⟨fit.known, fit.fresh.issued.later clock, fit.custom⟩
    · rw [tick_db, vpcs]
      rcases (entry e').mp there with old | rfl
      · exact inv.linked e' old v vpc
      · exact fit.vpc v vpc
    · rw [tick_db, ips] at there
      exact (inv.ips r there).later clock
    · rw [tick_db, setTable_ne w t _ rows other.2.2.symm]
      exact inv.registered
    · -- the new row names the volume that is apart
      have same : Named (w.setTable t rows).db n' name ↔ Named w.db n' name := by
        constructor
        · rintro ⟨e', there, rfl, rfl⟩
          rcases (entry e').mp there with old | rfl
          · exact ⟨e', old, rfl, rfl⟩
          · exact absurd ⟨rfl, rfl⟩ apart
        · rintro ⟨e', there, rfl, rfl⟩
          exact ⟨e', (entry e').mpr (.inl there), rfl, rfl⟩
      exact (inv.balanced n' name known role custom apart).trans same.symm
  · rw [tick_db, vpcs]
    exact fun _ there => there
  · rw [tick_db, ips]
    exact fun _ there => there

/-- The rows that named a removed volume go. -/
theorem delete_exec {t : Tbl} {p : t.Row → Bool} {name : Str}
    (inv : Inv cfg env nodes (at_ n (lvKey cfg n name)) w)
    (gone : ¬ (w.hosts n).HasLv (lvKey cfg n name))
    (own : ∀ e ∈ entries w.db, e.lv = name → e.table = t ∧ e.node = n)
    (names : ∀ r ∈ w.db t, ∀ e, entryOf t r = some e → (p r = true ↔ e.lv = name))
    (known : t ∈ [Tbl.volumes, .snapshots, .vms]) :
      Balanced cfg env nodes (exec env (.delete t p) w).2 := by
  rw [exec_delete]
  have entry (e : Entry) : e ∈ entries
    (w.setTable t ((w.db t).delete p)).db ↔ e ∈ entries w.db ∧ e.lv ≠ name :=
    entries_delete (fun e there same => (own e there same).1) names e
  have spared (t' : Tbl) (other : t' ∉ [Tbl.volumes, .snapshots, .vms]) :
      (w.setTable t ((w.db t).delete p)).db t' = w.db t' :=
    setTable_ne w t t' _ (by rintro rfl; exact other known)
  have clock : w.clock ≤ (w.setTable t ((w.db t).delete p)).tick.clock := Nat.le_succ _
  refine ⟨fun e there => ?_, fun e there v vpc => ?_, fun r there => ?_,
    fun r there => ?_, ?_, inv.golden,
    fun n' name' known role custom _ => ?_⟩
  · obtain ⟨known, issued, custom⟩ := inv.placed e ((entry e).mp there).1
    exact ⟨known, issued.later clock, custom⟩
  · rw [tick_db, spared .vpcs (by decide)]
    exact inv.linked e ((entry e).mp there).1 v vpc
  · rw [tick_db] at there
    by_cases here : t = .snapshots
    · subst here
      rw [setTable_self] at there
      exact inv.named r (Table.mem_delete.mp there).1
    · rw [setTable_ne w t _ _ (Ne.symm here)] at there
      exact inv.named r there
  · rw [tick_db, spared .publicIps (by decide)] at there
    exact (inv.ips r there).later clock
  · rw [tick_db, spared .nodes (by decide)]
    exact inv.registered
  · have same : Named (w.setTable t ((w.db t).delete p)).db n' name' ↔ Named w.db n' name' ∧ name' ≠
      name := by
      constructor
      · rintro ⟨e, there, rfl, rfl⟩
        obtain ⟨old, other⟩ := (entry e).mp there
        exact ⟨⟨e, old, rfl, rfl⟩, other⟩
      · rintro ⟨⟨e, there, rfl, rfl⟩, other⟩
        exact ⟨e, (entry e).mpr ⟨there, other⟩, rfl, rfl⟩
    change (w.hosts n').HasLv (lvKey cfg n' name') ↔
      Named (w.setTable t ((w.db t).delete p)).db n' name'
    rw [same]
    by_cases here : name' = name
    · subst here
      by_cases node : n' = n
      · subst node
        exact iff_of_false gone fun h => h.2 rfl
      · -- the name is one of the node's only
        have unnamed : ¬ Named w.db n' name' := by
          rintro ⟨e, there, rfl, named⟩
          exact node (own e there named).2
        rw [inv.balanced n' name' known role custom fun h => node h.1]
        exact iff_of_false unnamed fun h => unnamed h.1
    · rw [inv.balanced n' name' known role custom fun h => here (key_inj (h.1 ▸ h.2))]
      exact (and_iff_left here).symm

end Rows

end Inventory

end Nyc
