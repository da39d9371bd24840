import Nyc.Client.Proxy

/-!
# What a command does to a host

The lookups that the commands change, one lemma for each kind of command.
-/

namespace Nyc.Client

open Data Effects Effects.Program

@[simp] theorem reap_lvs (h : Host) (gone : Nat → Bool) : (h.reap gone).lvs = h.lvs := rfl

@[simp] theorem reap_dirs (h : Host) (gone : Nat → Bool) : (h.reap gone).dirs = h.dirs := rfl

@[simp] theorem reap_net (h : Host) (gone : Nat → Bool) : (h.reap gone).net = h.net := rfl

theorem lookup_putDir (dirs : Store Id VmDir) (vmId vmId' : Id) (d : Option VmDir) :
    (putDir dirs vmId d).lookup vmId' = if vmId' = vmId then d else dirs.lookup vmId' := by
  cases d with
  | none => exact Store.lookup_erase vmId vmId' dirs
  | some d => exact Store.lookup_insert vmId vmId' d dirs

/-- The directory that a command works in, if it is one of those. -/
def Cmd.inDir (vmId : Id) : Cmd → Prop
  | .dir vmId' _ => vmId' = vmId
  | _ => False

theorem step_dirs (out : Str) (c : Cmd) (h h' : Host) (a : c.Res) (vmId : Id)
    (outside : ¬ c.inDir vmId) (step : c.step out h = some (a, h')) :
    h'.dirs.lookup vmId = h.dirs.lookup vmId := by
  -- only a command on a directory writes one
  cases c with
  | dir vmId' c =>
    obtain ⟨⟨a', d⟩, -, same⟩ := Option.map_eq_some_iff.mp step
    cases same
    rw [lookup_putDir, if_neg fun same => outside same.symm]
  | lvm c =>
    obtain ⟨_, -, same⟩ := Option.map_eq_some_iff.mp step
    cases same
    rfl
  | net c =>
    obtain ⟨_, -, same⟩ := Option.map_eq_some_iff.mp step
    cases same
    rfl
  | debugfs vmId' session =>
    obtain ⟨h'', edited, same⟩ := Option.map_eq_some_iff.mp step
    cases same
    unfold Host.editRootfs at edited
    repeat' split at edited
    all_goals cases edited
    rfl
  | kill pid =>
    simp only [Cmd.step] at step
    split at step <;> cases step
    rfl
  | poll pid =>
    simp only [Cmd.step] at step
    split at step <;> cases step
    rfl
  | listDirs =>
    cases step
    rfl
  | popen vmId' ns =>
    cases step
    rfl
  | ssh ip key script =>
    cases step
    rfl

/-- A command outside the directory leaves it as it is, whether it succeeds or not. -/
theorem exec_dirs (x : Chance) (c : Cmd) (h : Host) (vmId : Id) (outside : ¬ c.inDir vmId) :
    (h.exec x c).2.dirs.lookup vmId = h.dirs.lookup vmId := by
  unfold Host.exec Host.attempt
  split
  · rfl
  · split
    next a h' step => exact step_dirs x.out c (h.reap x.gone) h' a vmId outside step
    next => rfl

/-- A command that `sudo` does not fail does its step. -/
theorem exec_of_step (x : Chance) (c : Cmd) (h h' : Host) (a : c.Res)
    (sound : x.fails = false ∨ c.privileged = false)
    (step : c.step x.out (h.reap x.gone) = some (a, h')) : h.exec x c = (.ok a, h') := by
  have runs : (x.fails && c.privileged) = false := by
    rcases sound with fine | plain
    · rw [fine, Bool.false_and]
    · rw [plain, Bool.and_false]
  simp only [Host.exec, Host.attempt, runs, Bool.false_eq_true, ite_false, step]

/-- A command that cannot take its step fails. -/
theorem exec_of_none (x : Chance) (c : Cmd) (h : Host)
    (step : c.step x.out (h.reap x.gone) = none) :
    ∃ e, (h.exec x c).1 = .error e := by
  simp only [Host.exec, Host.attempt]
  by_cases fails : (x.fails && c.privileged) = true
  · rw [if_pos fails]
    exact ⟨_, rfl⟩
  · rw [if_neg fails, step]
    exact ⟨_, rfl⟩

/-- A privileged command fails where `sudo` does. -/
theorem exec_of_fails (x : Chance) (c : Cmd) (h : Host) (privileged : c.privileged = true)
    (fails : x.fails = true) : h.exec x c = (.error .privops, h.reap x.gone) := by
  simp only [Host.exec, Host.attempt, privileged, fails, Bool.and_self, if_true]

theorem exec_dir (x : Chance) (vmId : Id) (c : DirCmd) (h : Host) {a : c.Res} {d : Option VmDir}
    (step : c.step (h.dirs.lookup vmId) = some (a, d)) :
    h.exec x (.dir vmId c) = (.ok a, { h.reap x.gone with dirs := putDir h.dirs vmId d }) :=
  exec_of_step x (.dir vmId c) h _ a (.inr rfl)
    (by simp only [Cmd.step, reap_dirs, step, Option.map_some])

theorem exec_lvm (x : Chance) (c : LvmCmd) (h : Host) {a : c.Res} {s : Lvs}
    (sound : x.fails = false) (step : c.step h.lvs = some (a, s)) :
    h.exec x (.lvm c) = (.ok a, { h.reap x.gone with lvs := s }) :=
  exec_of_step x (.lvm c) h _ a (.inl sound)
    (by simp only [Cmd.step, reap_lvs, step, Option.map_some])

theorem exec_poll (x : Chance) (pid : Nat) (h : Host) :
    (h.exec x (.poll pid)).1 = .ok () ∨ (h.exec x (.poll pid)).1 = .error .os := by
  simp only [Host.exec, Host.attempt, Cmd.privileged, Bool.and_false, Bool.false_eq_true, ite_false,
    Cmd.step]
  by_cases alive : (h.reap x.gone).alive pid = true
  · exact .inl (by rw [if_pos alive])
  · exact .inr (by rw [if_neg alive]; rfl)

/-! ## Volumes -/

theorem Lvs.mem_names (s : Lvs) (vg name : Str) :
    name ∈ s.names vg ↔ s.lookup (vg, name) ≠ none := by
  rw [← Option.isSome_iff_ne_none, ← Store.mem_keys_iff, Lvs.names]
  constructor
  · intro listed
    obtain ⟨⟨vg', name'⟩, there, rfl⟩ := List.mem_map.mp listed
    obtain ⟨key, same⟩ := List.mem_filter.mp there
    obtain rfl : vg' = vg := of_decide_eq_true same
    exact key
  · intro key
    exact List.mem_map.mpr ⟨(vg, name), List.mem_filter.mpr ⟨key, decide_eq_true rfl⟩, rfl⟩

/-- `lvs` succeeds where `sudo` does. -/
theorem exec_lvs (x : Chance) (lister : Lister) (vg : Str) (h : Host) (sound : x.fails = false) :
    h.exec x (.lvm (.lvs lister vg)) = (.ok (Lvs.names h.lvs vg), h.reap x.gone) :=
  exec_lvm x (.lvs lister vg) h sound rfl

theorem exec_remove (x : Chance) (vg name : Str) (h : Host) (sound : x.fails = false)
    (there : h.lvs.lookup (vg, name) ≠ none) :
    h.exec x (.lvm (.remove vg name)) =
      (.ok (), { h.reap x.gone with lvs := h.lvs.erase (vg, name) }) :=
  exec_lvm x (.remove vg name) h sound (if_pos there)

/-- The volume is there. -/
def Host.HasLv (h : Host) (key : Str × Str) : Prop := h.lvs.lookup key ≠ none

instance (h : Host) (key : Str × Str) : Decidable (h.HasLv key) :=
  inferInstanceAs (Decidable (h.lvs.lookup key ≠ none))

/-- The command makes or removes the volume. -/
def Cmd.moves (key : Str × Str) : Cmd → Prop
  | .lvm (.createThin vg _ name _) => (vg, name) = key
  | .lvm (.snapshot vg _ name _) => (vg, name) = key
  | .lvm (.remove vg name) => (vg, name) = key
  | _ => False

theorem Cmd.moves_cases {c : Cmd} {vg name : Str} (moves : c.moves (vg, name)) :
    (∃ pool sizeMb, c = .lvm (.createThin vg pool name sizeMb)) ∨
      (∃ origin readonly, c = .lvm (.snapshot vg origin name readonly)) ∨
        c = .lvm (.remove vg name) := by
  cases c with
  | lvm c =>
    cases c with
    | createThin vg' pool name' sizeMb =>
      obtain ⟨rfl, rfl⟩ := Prod.mk.inj moves
      exact .inl ⟨pool, sizeMb, rfl⟩
    | snapshot vg' origin name' readonly =>
      obtain ⟨rfl, rfl⟩ := Prod.mk.inj moves
      exact .inr (.inl ⟨origin, readonly, rfl⟩)
    | remove vg' name' =>
      obtain ⟨rfl, rfl⟩ := Prod.mk.inj moves
      exact .inr (.inr rfl)
    | lvs lister vg' | extend vg' name' sizeMb | resize2fs vg' name' | mkfs vg' name' => cases moves
  | _ => cases moves

theorem lvmStep_has (c : LvmCmd) (s s' : Lvs) (a : c.Res) (key : Str × Str)
    (spares : ¬ (Cmd.lvm c).moves key) (step : c.step s = some (a, s')) :
    s'.lookup key ≠ none ↔ s.lookup key ≠ none := by
  cases c with
  | lvs lister vg =>
    cases step
    rfl
  | createThin vg pool name sizeMb =>
    simp only [LvmCmd.step] at step
    split at step <;> cases step
    rw [Store.lookup_insert, if_neg fun same => spares same.symm]
  | snapshot vg origin name readonly =>
    simp only [LvmCmd.step] at step
    repeat' split at step
    all_goals cases step
    rw [Store.lookup_insert, if_neg fun same => spares same.symm]
  | remove vg name =>
    simp only [LvmCmd.step] at step
    split at step <;> cases step
    rw [Store.lookup_erase, if_neg fun same => spares same.symm]
  | extend vg name sizeMb =>
    simp only [LvmCmd.step] at step
    repeat' split at step
    all_goals cases step
    next lv there _ =>
      -- the volume is written again, under its own name
      rw [Store.lookup_insert]
      split
      next same =>
        subst same
        simp [there]
      next => rfl
  | resize2fs vg name =>
    simp only [LvmCmd.step] at step
    split at step <;> cases step
    rfl
  | mkfs vg name =>
    simp only [LvmCmd.step] at step
    split at step <;> cases step
    rw [Store.lookup_modify]
    split
    · simp
    · rfl

theorem step_has (out : Str) (c : Cmd) (h h' : Host) (a : c.Res) (key : Str × Str)
    (spares : ¬ c.moves key) (step : c.step out h = some (a, h')) : h'.HasLv key ↔ h.HasLv key := by
  cases c with
  | lvm c =>
    obtain ⟨⟨a', s⟩, done, same⟩ := Option.map_eq_some_iff.mp step
    cases same
    exact lvmStep_has c h.lvs s _ key spares done
  | dir vmId c | net c =>
    obtain ⟨_, -, same⟩ := Option.map_eq_some_iff.mp step
    cases same
    rfl
  | debugfs vmId session =>
    obtain ⟨h'', edited, same⟩ := Option.map_eq_some_iff.mp step
    cases same
    unfold Host.editRootfs at edited
    repeat' split at edited
    all_goals cases edited
    -- the disk that is edited is put back under its own name
    next vg name _ lv there _ =>
      rw [Host.HasLv, Store.lookup_insert]
      split
      next same =>
        subst same
        simp [Host.HasLv, there]
      next => rfl
  | kill pid | poll pid =>
    simp only [Cmd.step] at step
    split at step <;> cases step
    rfl
  | listDirs | popen vmId ns | ssh ip key script =>
    cases step
    rfl

/-- A command that neither makes nor removes the volume, whether it succeeds or not. -/
theorem exec_has (x : Chance) (c : Cmd) (h : Host) (key : Str × Str) (spares : ¬ c.moves key) :
    (h.exec x c).2.HasLv key ↔ h.HasLv key := by
  unfold Host.exec Host.attempt
  split
  · rfl
  · split
    next a h' step => exact step_has x.out c (h.reap x.gone) h' a key spares step
    next => rfl

/-- The command makes, removes or rewrites the volume. -/
def Cmd.alters (key : Str × Str) : Cmd → Prop
  | .lvm (.createThin vg _ name _) => (vg, name) = key
  | .lvm (.snapshot vg _ name _) => (vg, name) = key
  | .lvm (.remove vg name) => (vg, name) = key
  | .lvm (.extend vg name _) => (vg, name) = key
  | .lvm (.mkfs vg name) => (vg, name) = key
  | .debugfs _ _ => True
  | _ => False

theorem step_lookup (out : Str) (c : Cmd) (h h' : Host) (a : c.Res) (key : Str × Str)
    (spares : ¬ c.alters key) (step : c.step out h = some (a, h')) :
    h'.lvs.lookup key = h.lvs.lookup key := by
  cases c with
  -- an LVM command writes at most the one volume that it names
  | lvm c =>
    obtain ⟨⟨a', s⟩, done, same⟩ := Option.map_eq_some_iff.mp step
    cases same
    cases c with
    | lvs lister vg =>
      cases done
      rfl
    | createThin vg pool name sizeMb =>
      simp only [LvmCmd.step] at done
      split at done <;> cases done
      rw [Store.lookup_insert, if_neg fun same => spares same.symm]
    | snapshot vg origin name readonly =>
      simp only [LvmCmd.step] at done
      repeat' split at done
      all_goals cases done
      rw [Store.lookup_insert, if_neg fun same => spares same.symm]
    | remove vg name =>
      simp only [LvmCmd.step] at done
      split at done <;> cases done
      rw [Store.lookup_erase, if_neg fun same => spares same.symm]
    | extend vg name sizeMb =>
      simp only [LvmCmd.step] at done
      repeat' split at done
      all_goals cases done
      rw [Store.lookup_insert, if_neg fun same => spares same.symm]
    | resize2fs vg name =>
      simp only [LvmCmd.step] at done
      split at done <;> cases done
      rfl
    | mkfs vg name =>
      simp only [LvmCmd.step] at done
      split at done <;> cases done
      rw [Store.lookup_modify, if_neg fun same => spares same.symm]
  | dir vmId c | net c =>
    obtain ⟨_, -, same⟩ := Option.map_eq_some_iff.mp step
    cases same
    rfl
  | debugfs vmId session => exact absurd trivial spares
  | kill pid | poll pid =>
    simp only [Cmd.step] at step
    split at step <;> cases step
    rfl
  | listDirs | popen vmId ns | ssh ip key script =>
    cases step
    rfl

/-- A command that does not alter the volume, whether it succeeds or not. -/
theorem exec_lookup (x : Chance) (c : Cmd) (h : Host) (key : Str × Str) (spares : ¬ c.alters key) :
    (h.exec x c).2.lvs.lookup key = h.lvs.lookup key := by
  unfold Host.exec Host.attempt
  split
  · rfl
  · split
    next a h' step => exact step_lookup x.out c (h.reap x.gone) h' a key spares step
    next => rfl

/-- A command that fails leaves the volumes as they are. -/
theorem exec_error_lvs (x : Chance) (c : Cmd) (h : Host) (e : Exn)
    (raised : (h.exec x c).1 = .error e) :
    (h.exec x c).2.lvs = h.lvs := by
  simp only [Host.exec, Host.attempt] at raised ⊢
  by_cases fails : (x.fails && c.privileged) = true
  · rw [if_pos fails]
    rfl
  · rw [if_neg fails] at raised ⊢
    cases step : c.step x.out (h.reap x.gone) with
    | none => rfl
    | some r =>
      rw [step] at raised
      cases raised

/-- A command that succeeds has done its step. -/
theorem exec_ok (x : Chance) (c : Cmd) (h : Host) (a : c.Res) (done : (h.exec x c).1 = .ok a) :
    ∃ h', c.step x.out (h.reap x.gone) = some (a, h') ∧ (h.exec x c).2 = h' := by
  simp only [Host.exec, Host.attempt] at done ⊢
  by_cases fails : (x.fails && c.privileged) = true
  · rw [if_pos fails] at done
    cases done
  · rw [if_neg fails] at done ⊢
    cases step : c.step x.out (h.reap x.gone) with
    | none =>
      rw [step] at done
      cases done
    | some r =>
      rw [step] at done
      cases done
      exact ⟨r.2, rfl, rfl⟩

theorem snapshot_step {vg origin name : Str} {readonly : Bool} {s s' : Lvs}
    (step : LvmCmd.step (.snapshot vg origin name readonly) s = some ((), s')) :
    s.lookup (vg, origin) ≠ none ∧ s.lookup (vg, name) = none ∧ s'.lookup (vg, name) ≠ none := by
  simp only [LvmCmd.step] at step
  repeat' split at step
  all_goals cases step
  next lv there free =>
    exact ⟨by simp [there], free, by simp⟩

/-- A clone that succeeds has found its origin and made its volume. -/
theorem exec_snapshot (x : Chance) (vg origin name : Str) (readonly : Bool) (h : Host)
    (done : (h.exec x (.lvm (.snapshot vg origin name readonly))).1 = .ok ()) :
    h.HasLv (vg, origin) ∧ ¬ h.HasLv (vg, name) ∧
      (h.exec x (.lvm (.snapshot vg origin name readonly))).2.HasLv (vg, name) := by
  obtain ⟨h', step, same⟩ := exec_ok x (.lvm (.snapshot vg origin name readonly)) h () done
  obtain ⟨⟨a, s⟩, cloned, put⟩ := Option.map_eq_some_iff.mp step
  cases put
  obtain ⟨there, free, made⟩ := snapshot_step cloned
  rw [same]
  exact ⟨there, not_not.mpr free, made⟩

/-- A volume that is made is there. -/
theorem exec_createThin (x : Chance) (vg pool name : Str) (sizeMb : Int) (h : Host)
    (done : (h.exec x (.lvm (.createThin vg pool name sizeMb))).1 = .ok ()) :
    (h.exec x (.lvm (.createThin vg pool name sizeMb))).2.HasLv (vg, name) := by
  obtain ⟨h', step, same⟩ := exec_ok x (.lvm (.createThin vg pool name sizeMb)) h () done
  obtain ⟨⟨a, s⟩, made, put⟩ := Option.map_eq_some_iff.mp step
  cases put
  simp only [LvmCmd.step] at made
  split at made <;> cases made
  rw [same]
  simp [Host.HasLv]

/-- A volume that is made was not there. -/
theorem exec_createThin_free (x : Chance) (vg pool name : Str) (sizeMb : Int) (h : Host)
    (done : (h.exec x (.lvm (.createThin vg pool name sizeMb))).1 = .ok ()) :
    ¬ h.HasLv (vg, name) := by
  obtain ⟨h', step, same⟩ := exec_ok x (.lvm (.createThin vg pool name sizeMb)) h () done
  obtain ⟨⟨a, s⟩, made, put⟩ := Option.map_eq_some_iff.mp step
  simp only [LvmCmd.step] at made
  split at made
  next free => exact not_not.mpr free.1
  next => cases made

/-- A volume that is there stays, unless the command removes it. -/
theorem exec_keeps (x : Chance) (c : Cmd) (h : Host) {vg name : Str}
    (spares : c ≠ .lvm (.remove vg name))
    (there : h.HasLv (vg, name)) : (h.exec x c).2.HasLv (vg, name) := by
  by_cases moves : c.moves (vg, name)
  · cases done : (h.exec x c).1 with
    | error e =>
      rw [Host.HasLv, exec_error_lvs x c h e done]
      exact there
    | ok a =>
      rcases Cmd.moves_cases moves with ⟨pool, sizeMb, rfl⟩ | ⟨origin, readonly, rfl⟩ | rfl
      · exact exec_createThin x vg pool name sizeMb h done
      · exact (exec_snapshot x vg origin name readonly h done).2.2
      · exact absurd rfl spares
  · exact (exec_has x c h (vg, name) moves).mpr there

/-- A removal that succeeds leaves no such volume. -/
theorem exec_remove_gone (x : Chance) (vg name : Str) (h : Host)
    (done : (h.exec x (.lvm (.remove vg name))).1 = .ok ()) :
    ¬ (h.exec x (.lvm (.remove vg name))).2.HasLv (vg, name) := by
  obtain ⟨h', step, same⟩ := exec_ok x (.lvm (.remove vg name)) h () done
  obtain ⟨⟨a, s⟩, removed, put⟩ := Option.map_eq_some_iff.mp step
  cases put
  simp only [LvmCmd.step] at removed
  split at removed <;> cases removed
  rw [same]
  simp [Host.HasLv]

/-! ## Sizes -/

/-- The command may change the size of a volume of the name. -/
def Cmd.resizes (name : Str) : Cmd → Prop
  | .lvm (.remove _ name') => name' = name
  | .lvm (.extend _ name' _) => name' = name
  | _ => False

/-- The volume is there, and has the size. -/
def Host.Sized (h : Host) (key : Str × Str) (sizeMb : Int) : Prop :=
  ∃ lv, h.lvs.lookup key = some lv ∧ lv.sizeMb = sizeMb

instance (h : Host) (key : Str × Str) (sizeMb : Int) : Decidable (h.Sized key sizeMb) :=
  decidable_of_iff ((h.lvs.lookup key).map Lv.sizeMb = some sizeMb) Option.map_eq_some_iff

/-- No other command does: what is there cannot be made anew. -/
theorem exec_sized (x : Chance) (c : Cmd) (h : Host) {vg name : Str} {sizeMb : Int}
    (spares : ¬ c.resizes name) (sized : h.Sized (vg, name) sizeMb) :
    (h.exec x c).2.Sized (vg, name) sizeMb := by
  obtain ⟨lv, there, size⟩ := sized
  have has : h.HasLv (vg, name) := by
    rw [Host.HasLv, there]
    exact Option.some_ne_none lv
  by_cases alters : c.alters (vg, name)
  case neg => exact ⟨lv, (exec_lookup x c h _ alters).trans there, size⟩
  cases done : (h.exec x c).1 with
  | error e =>
    rw [Host.Sized, exec_error_lvs x c h e done]
    exact ⟨lv, there, size⟩
  | ok a =>
    obtain ⟨h', step, same⟩ := exec_ok x c h a done
    cases c with
    | lvm c =>
      cases c with
      | createThin vg' pool name' size' =>
        cases alters
        exact absurd has (exec_createThin_free x vg pool name size' h done)
      | snapshot vg' origin name' readonly =>
        cases alters
        exact absurd has (exec_snapshot x vg origin name readonly h done).2.1
      | remove vg' name' =>
        cases alters
        exact absurd rfl spares
      | extend vg' name' size' =>
        cases alters
        exact absurd rfl spares
      | mkfs vg' name' =>
        cases alters
        obtain ⟨⟨_, s⟩, made, put⟩ := Option.map_eq_some_iff.mp step
        cases put
        simp only [LvmCmd.step, ne_eq] at made
        split at made <;> cases made
        refine ⟨{ lv with content := .ext4 }, ?_, size⟩
        rw [same]
        change (Store.modify (vg, name) _ h.lvs).lookup (vg, name) = _
        rw [Store.lookup_modify, if_pos rfl, there]
        rfl
      | lvs | resize2fs => cases alters
    | debugfs vmId session =>
      obtain ⟨_, edited, put⟩ := Option.map_eq_some_iff.mp step
      cases put
      unfold Host.editRootfs at edited
      repeat' split at edited
      all_goals cases edited
      next vg' name' _ _ lv' there' _ =>
        rw [same, Host.Sized]
        by_cases own : (vg', name') = (vg, name)
        · -- the volume is written again, with other contents
          cases own
          obtain rfl : lv' = lv := Option.some.inj (there'.symm.trans there)
          exact ⟨_, Store.lookup_insert .. |>.trans (if_pos rfl), size⟩
        · exact ⟨lv, (Store.lookup_insert ..).trans ((if_neg fun h => own h.symm).trans there),
            size⟩
    | _ => cases alters

/-- A volume that is made has the size asked for. -/
theorem exec_createThin_sized (x : Chance) (vg pool name : Str) (sizeMb : Int) (h : Host)
    (done : (h.exec x (.lvm (.createThin vg pool name sizeMb))).1 = .ok ()) :
    (h.exec x (.lvm (.createThin vg pool name sizeMb))).2.Sized (vg, name) sizeMb := by
  obtain ⟨h', step, same⟩ := exec_ok x (.lvm (.createThin vg pool name sizeMb)) h () done
  obtain ⟨⟨a, s⟩, made, put⟩ := Option.map_eq_some_iff.mp step
  cases put
  simp only [LvmCmd.step] at made
  split at made <;> cases made
  rw [same]
  exact ⟨_, (Store.lookup_insert ..).trans (if_pos rfl), rfl⟩

/-- A clone has the size of its origin. -/
theorem exec_snapshot_sized (x : Chance) (vg origin name : Str) (readonly : Bool) (h : Host)
    {sizeMb : Int} (sized : h.Sized (vg, origin) sizeMb)
    (done : (h.exec x (.lvm (.snapshot vg origin name readonly))).1 = .ok ()) :
    (h.exec x (.lvm (.snapshot vg origin name readonly))).2.Sized (vg, name) sizeMb := by
  obtain ⟨lv, there, size⟩ := sized
  obtain ⟨h', step, same⟩ := exec_ok x (.lvm (.snapshot vg origin name readonly)) h () done
  obtain ⟨⟨a, s⟩, made, put⟩ := Option.map_eq_some_iff.mp step
  cases put
  have there' : (h.reap x.gone).lvs.lookup (vg, origin) = some lv := there
  simp only [LvmCmd.step, there'] at made
  split at made <;> cases made
  rw [same]
  exact ⟨_, (Store.lookup_insert ..).trans (if_pos rfl), size⟩

/-- `resize2fs` succeeds on a volume that is there, unless `sudo` fails. -/
theorem exec_resize2fs (x : Chance) (vg name : Str) (h : Host) (sound : x.fails = false)
    (has : h.HasLv (vg, name)) : (h.exec x (.lvm (.resize2fs vg name))).1 = .ok () := by
  have step : LvmCmd.step (.resize2fs vg name) h.lvs = some ((), h.lvs) := by
    rw [LvmCmd.step]
    exact if_pos has
  exact congrArg Prod.fst (exec_lvm x _ h sound step)

/-- A volume that is extended has the size asked for. -/
theorem exec_extend_sized (x : Chance) (vg name : Str) (sizeMb : Int) (h : Host)
    (done : (h.exec x (.lvm (.extend vg name sizeMb))).1 = .ok ()) :
    (h.exec x (.lvm (.extend vg name sizeMb))).2.Sized (vg, name) sizeMb := by
  obtain ⟨h', step, same⟩ := exec_ok x (.lvm (.extend vg name sizeMb)) h () done
  obtain ⟨⟨a, s⟩, made, put⟩ := Option.map_eq_some_iff.mp step
  cases put
  simp only [LvmCmd.step] at made
  repeat' split at made
  all_goals cases made
  rw [same]
  exact ⟨_, (Store.lookup_insert ..).trans (if_pos rfl), rfl⟩

end Nyc.Client
