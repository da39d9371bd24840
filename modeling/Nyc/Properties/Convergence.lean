import Nyc.Client.Ports
import Nyc.Properties.FloodList
import Nyc.Properties.TakeDown
import Nyc.Steps

/-!
# What a reconcile pass leaves

A pass is a sequence of removals. What one of them takes away is described by the names that are
gone afterwards; a loop takes away what its rounds do, and a pass leaves exactly what the rows of
the node name.
-/

namespace Nyc.Convergence

open Data Client
open Effects Effects.Program

/-! ## Removals on one host -/

/-- The directories and the volumes of one group that are gone afterwards. -/
structure Sweep where
  dirs : Id → Prop
  lvs : Str → Prop

def Sweep.none : Sweep := ⟨fun _ => False, fun _ => False⟩

def Sweep.and (a b : Sweep) : Sweep :=
  ⟨fun id => a.dirs id ∨ b.dirs id, fun name => a.lvs name ∨ b.lvs name⟩

/-- Those are gone, no other directory or volume has changed, and no link has come or changed. -/
structure Swept (vg : Str) (a : Sweep) (h h' : Host) : Prop where
  noDir : ∀ id, a.dirs id → h'.dirs.lookup id = .none
  dirs : ∀ id, ¬ a.dirs id → h'.dirs.lookup id = h.dirs.lookup id
  noLv : ∀ name, a.lvs name → h'.lvs.lookup (vg, name) = .none
  lvs : ∀ key, (∀ name, a.lvs name → key ≠ (vg, name)) → h'.lvs.lookup key = h.lvs.lookup key
  links : ∀ key l, h'.net.links.lookup key = some l → h.net.links.lookup key = some l

namespace Swept

variable {vg : Str} {a b : Sweep} {h h' h'' : Host}

theorem refl (h : Host) : Swept vg .none h h where
  noDir _ gone := gone.elim
  dirs _ _ := rfl
  noLv _ gone := gone.elim
  lvs _ _ := rfl
  links _ _ there := there

theorem trans (first : Swept vg a h h') (second : Swept vg b h' h'') :
    Swept vg (a.and b) h h'' := by
  constructor
  · intro id gone
    by_cases later : b.dirs id
    · exact second.noDir id later
    · rw [second.dirs id later]
      exact first.noDir id (gone.resolve_right later)
  · intro id kept
    rw [second.dirs id fun gone => kept (.inr gone), first.dirs id fun gone => kept (.inl gone)]
  · intro name gone
    by_cases later : b.lvs name
    · exact second.noLv name later
    · rw [second.lvs (vg, name)]
      · exact first.noLv name (gone.resolve_right later)
      · intro name' gone' same
        cases same
        exact later gone'
  · intro key kept
    rw [second.lvs key fun name gone => kept name (.inr gone),
      first.lvs key fun name gone => kept name
      (.inl gone)]
  · exact fun key l there => first.links key l (second.links key l there)

/-- The same removals, described otherwise: what is said to be gone may have been missing before. -/
theorem mono (swept : Swept vg a h h') (dirs : ∀ id, a.dirs id → b.dirs id)
    (lvs : ∀ name, a.lvs name → b.lvs name)
    (noDirs : ∀ id, b.dirs id → a.dirs id ∨ h.dirs.lookup id = .none)
    (noLvs : ∀ name, b.lvs name → a.lvs name ∨ h.lvs.lookup (vg, name) = .none) :
    Swept vg b h h' := by
  constructor
  · intro id gone
    by_cases swept_ : a.dirs id
    · exact swept.noDir id swept_
    · rw [swept.dirs id swept_]
      exact (noDirs id gone).resolve_left swept_
  · exact fun id kept => swept.dirs id fun gone => kept (dirs id gone)
  · intro name gone
    by_cases swept_ : a.lvs name
    · exact swept.noLv name swept_
    · rw [swept.lvs (vg, name)]
      · exact (noLvs name gone).resolve_left swept_
      · intro name' gone' same
        cases same
        exact swept_ gone'
  · exact fun key kept => swept.lvs key fun name gone => kept name (lvs name gone)
  · exact swept.links

end Swept

section Host

variable {x : Nat → Chance} (sound : ∀ n, (x n).fails = false) (vg : Str)

include sound

/-- A removal takes the volume away, if it is there, and nothing else. -/
theorem remove_sweeps (name : Str) (s : Nat × Host) :
    wp (killing x) (Lv.remove vg name)
      (fun r s' => r = .ok () ∧ Swept vg ⟨fun _ => False, (· = name)⟩ s.2 s'.2) s := by
  -- whether or not the volume is there, nothing else moves
  have spared : wp (killing x) (Lv.remove vg name) (fun _ s' =>
      (∀ id, s'.2.dirs.lookup id = s.2.dirs.lookup id) ∧
        (∀ key, key ≠ (vg, name) → s'.2.lvs.lookup key = s.2.lvs.lookup key) ∧
          s'.2.net = s.2.net) s := by
    apply gated_keeps (execAt x) (killsAlive x) _ _
      (Lv.remove_only vg name) s ⟨fun _ => rfl, fun _ _ => rfl, rfl⟩
    rintro c s' issues ⟨dirs, lvs, net⟩
    refine ⟨?_, ?_, ?_⟩
    · intro id
      rw [← dirs id]
      apply exec_dirs
      cases issues <;> exact fun none => none
    · intro key other
      rw [← lvs key other]
      apply exec_lookup
      cases issues with
      | lvs lister => exact fun none => none
      | remove => exact fun same => other same.symm
    · rw [← net]
      apply exec_net_other
      cases issues <;> rintro _ ⟨⟩
  apply gated_mono _ _ _ _ _ _ s (gated_and _ _ (remove_leaves sound vg name [] s)
    (gated_and _ _ (remove_gone sound vg name s) spared))
  rintro r s' ⟨⟨⟨_, rfl⟩, -⟩, gone, dirs, lvs, net⟩
  refine ⟨rfl, ⟨fun _ none => none.elim, fun id _ => dirs id, ?_, fun key other => lvs key
    (other name rfl), ?_⟩⟩
  · rintro _ rfl
    exact gone
  · intro key l there
    rwa [net] at there

/-- After a take-down that returns there is neither a directory nor a root disk. -/
theorem down_leaves (v : Id) (s : Nat × Host) :
    wp (killing x) (VmDown.run v vg) (fun r s' => r = .ok () →
      s'.2.dirs.lookup v = .none ∧ s'.2.lvs.lookup (vg, Names.rootfs v) = .none) s := by
  have any {α : Type} {allowed : Cmd → Prop} {p : Sh α} (h : Only allowed p) (t : Nat × Host) :
      wp (killing x) p (fun _ _ => True) t :=
    gated_keeps (execAt x) (killsAlive x) (fun _ => True) (fun _ _ _ _ => trivial) h t trivial
  rw [VmDown.run]
  apply gated_then _ _ (fun _ => True)
    (any (show Only (fun _ => True) (dir v .exists_) from .dir trivial) s)
    (fun _ _ _ => by rintro ⟨⟩)
  intro there t _
  apply gated_then _ _ (fun _ => True) (any (.whenTrue fun _ => Kill.run_kills v) t)
    (fun _ _ _ => by rintro ⟨⟩)
  intro _ t _
  apply gated_then _ _ (fun _ => True) (any (VmDown.networkDown_only v vg) t)
    (fun _ _ _ => by rintro ⟨⟩)
  intro _ t _
  apply gated_mono _ _ _ _ _ _ t (envTeardown_removes v sound vg t)
  exact fun _ _ gone _ => gone

omit sound in
/-- The commands of a take-down delete links, if they do anything to them. -/
theorem down_links {v : Id} {c : Cmd} (issues : VmDown.Issues v vg c) (s : Nat × Host)
    {key : LinkKey} {l : Link} (there : (execAt x c s).2.2.net.links.lookup key = some l) :
    s.2.net.links.lookup key = some l := by
  have kept : (execAt x c s).2.2.net.links.lookup key = some l →
      s.2.net.links.lookup key = some l := by
    apply exec_net_keeps (J := fun n => n.links.lookup key = some l →
      s.2.net.links.lookup key = some l)
      (x s.1) c s.2
      ?_ id
    rintro c' rfl a n' step there
    have deleted (gone : Prop) (inside : gone → n'.links.lookup key = none)
        (outside : ¬ gone → n'.links.lookup key = s.2.net.links.lookup key) :
        s.2.net.links.lookup key = some l := by
      by_cases hit : gone
      · rw [inside hit] at there
        cases there
      · rwa [← outside hit]
    cases issues with
    | netnsDel =>
      obtain ⟨-, -, links⟩ := netnsDel_step step
      exact deleted _ (links key).1 (links key).2
    | delVeth =>
      obtain ⟨-, -, links⟩ := del_step step
      exact deleted _ (links key).1 (links key).2
    | delPublic =>
      obtain ⟨-, -, links⟩ := del_step step
      exact deleted _ (links key).1 (links key).2
  exact kept there

/-- A take-down takes away the directory and the root disk of its VM, and no other. -/
theorem down_sweeps (v : Id) (s : Nat × Host) :
    wp (killing x) (VmDown.run v vg)
      (fun r s' => r = .ok () ∧ Swept vg ⟨(· = v), (· = Names.rootfs v)⟩ s.2 s'.2) s := by
  have spared : wp (killing x) (VmDown.run v vg) (fun _ s' =>
      (∀ id, id ≠ v → s'.2.dirs.lookup id = s.2.dirs.lookup id) ∧
        (∀ key, key ≠ (vg, Names.rootfs v) → s'.2.lvs.lookup key = s.2.lvs.lookup key) ∧
          ∀ key l, s'.2.net.links.lookup key = some l → s.2.net.links.lookup key = some l) s := by
    apply gated_keeps (execAt x) (killsAlive x) _ _ (VmDown.run_only v vg) s
      ⟨fun _ _ => rfl, fun _ _ => rfl, fun _ _ there => there⟩
    rintro c s' issues ⟨dirs, lvs, links⟩
    refine ⟨?_, ?_, fun key l there => links key l (down_links vg issues s' there)⟩
    · intro id other
      rw [← dirs id other]
      apply exec_dirs
      intro inside
      cases issues <;> first | exact other inside.symm | exact inside
    · intro key other
      rw [← lvs key other]
      exact exec_lookup _ _ _ _ (down_alters v issues other)
  apply gated_mono _ _ _ _ _ _ s (gated_and _ _ (vmDown_clean sound v vg s)
    (gated_and _ _ (down_leaves sound vg v s) spared))
  rintro r s' ⟨⟨rfl, -⟩, gone, dirs, lvs, links⟩
  obtain ⟨noDir, noLv⟩ := gone rfl
  refine ⟨rfl, ?_, dirs, ?_, fun key other => lvs key (other _ rfl), links⟩
  · rintro _ rfl
    exact noDir
  · rintro _ rfl
    exact noLv

end Host

/-! ## Removals on the cluster -/

/-- Every process that is killed has lived until then. -/
def KillsAlive (env : Env) : Op → World → Prop
  | .host nodeId c, w => killsAlive env.chance c (w.clock, w.hosts nodeId)
  | _, _ => True

abbrev calm (env : Env) : OpSpec Op Op.Res Exn (World → Prop) := gated (exec env) (KillsAlive env)

instance (env : Env) (o : Op) (w : World) : Decidable (KillsAlive env o w) :=
  match o with
  | .host nodeId c => inferInstanceAs
    (Decidable (killsAlive env.chance c (w.clock, w.hosts nodeId)))
  | .getAll _ _ | .get _ _ | .insert _ _ | .update _ _ _ | .delete _ _ | .uuid4 | .now
  | .choice => .isTrue
    trivial

/-- The tables that a pass only reads. -/
def Read : Tbl → Prop
  | .vms | .publicIps | .domains | .proxies => False
  | _ => True

/-- What is gone from a node, and the rows of its VMs. -/
structure Cleared (node : Node) (rows : Id → Prop) (a : Sweep) (w w' : World) : Prop where
  vms : ∀ r, r ∈ w'.db .vms ↔ r ∈ w.db .vms ∧ ¬ rows r.id
  tables : ∀ t, Read t → w'.db t = w.db t
  host : Swept (node.volumeVg node.id) a (w.hosts node.id) (w'.hosts node.id)
  others : ∀ n, n ≠ node.id → w'.hosts n = w.hosts n

namespace Cleared

variable {node : Node} {rows rows' : Id → Prop} {a b : Sweep} {w w' w'' : World}

theorem refl (w : World) : Cleared node (fun _ => False) .none w w where
  vms _ := ⟨fun there => ⟨there, fun none => none⟩, fun there => there.1⟩
  tables _ _ := rfl
  host := .refl _
  others _ _ := rfl

theorem trans (first : Cleared node rows a w w') (second : Cleared node rows' b w' w'') :
    Cleared node (fun id => rows id ∨ rows' id) (a.and b) w w'' where
  vms r := by
    rw [second.vms, first.vms, not_or, and_assoc]
  tables t reads := (second.tables t reads).trans (first.tables t reads)
  host := first.host.trans second.host
  others n other := (second.others n other).trans (first.others n other)

/-- Reading is no removal. -/
theorem tick (cleared : Cleared node rows a w w') : Cleared node rows a w w'.tick where
  vms := cleared.vms
  tables := cleared.tables
  host := cleared.host
  others := cleared.others

/-- A client program on the node's own host. -/
theorem put {s : Nat × Host} (swept : Swept (node.volumeVg node.id) a (w.hosts node.id) s.2) :
    Cleared node (fun _ => False) a w (w.put node.id s) where
  vms _ := ⟨fun there => ⟨there, fun none => none⟩, fun there => there.1⟩
  tables _ _ := rfl
  host := by
    have here : (w.put node.id s).hosts node.id = s.2 := Function.update_self ..
    rw [here]
    exact swept
  others n other := Function.update_of_ne other _ _

/-- The same removals in other words. -/
theorem congr (cleared : Cleared node rows a w w') (rows_ : ∀ id, rows id ↔ rows' id)
    (dirs : ∀ id, a.dirs id ↔ b.dirs id)
      (lvs : ∀ name, a.lvs name ↔ b.lvs name) : Cleared node rows' b w w' := by
  obtain rfl : rows = rows' := funext fun id => propext (rows_ id)
  have same : a = b := by
    cases a
    cases b
    congr 1
    · exact funext fun id => propext (dirs id)
    · exact funext fun name => propext (lvs name)
  rwa [← same]

theorem rows_congr (cleared : Cleared node rows a w w') (same : ∀ id, rows id ↔ rows' id) :
    Cleared node rows' a w w' :=
  cleared.congr same (fun _ => Iff.rfl) fun _ => Iff.rfl

/-- As for a host: what is said to be gone may have been missing before. -/
theorem mono (cleared : Cleared node rows a w w') (dirs : ∀ id, a.dirs id → b.dirs id)
    (lvs : ∀ name, a.lvs name → b.lvs name)
    (noDirs : ∀ id, b.dirs id → a.dirs id ∨ (w.hosts node.id).dirs.lookup id = .none)
    (noLvs : ∀ name, b.lvs name → a.lvs name ∨ (w.hosts node.id).lvs.lookup
      (node.volumeVg node.id, name) = .none) :
    Cleared node rows b w w' where
  vms := cleared.vms
  tables := cleared.tables
  host := cleared.host.mono dirs lvs noDirs noLvs
  others := cleared.others

theorem deleteVm (v : Id) : Cleared node (· = v) .none w
    (w.setTable .vms ((w.db .vms).delete fun r => r.id = v)).tick where
  vms r := by
    have here : (w.setTable .vms ((w.db .vms).delete fun r => r.id = v)).tick.db .vms =
        (w.db .vms).delete fun r => r.id = v := by
      rw [tick_db, setTable_self]
    rw [here, Table.mem_delete, decide_eq_false_iff_not]
  tables t reads := by
    apply setTable_ne
    rintro rfl
    exact reads
  host := .refl _
  others _ _ := rfl

/-- What is deleted of a table that is neither read nor holds the VMs. -/
theorem deleteAside {t : Tbl} (aside : ¬ Read t) (other : t ≠ .vms) (p : t.Row → Bool) :
    Cleared node (fun _ => False) .none w (w.setTable t ((w.db t).delete p)).tick where
  vms r := by
    change r ∈ (w.setTable t _).db .vms ↔ _
    rw [setTable_ne _ _ _ _ other.symm]
    exact ⟨fun there => ⟨there, fun none => none⟩, fun there => there.1⟩
  tables t' reads := by
    apply setTable_ne
    rintro rfl
    exact aside reads
  host := .refl _
  others _ _ := rfl

end Cleared

/-! ## Programs -/

section Programs

variable {env : Env} {w : World}

theorem calm_getAll (t : Tbl) (p : t.Row → Bool) {Q : Except Exn (List t.Row) → World → Prop}
    (post : Q (.ok ((w.db t).getAll p)) w.tick) : wp (calm env) (getAll t p) Q w := by
  rw [getAll, wp_perform]
  exact fun _ => post

theorem calm_get (t : Tbl) (p : t.Row → Bool) {Q : Except Exn (Option t.Row) → World → Prop}
    (post : Q (.ok ((w.db t).get p)) w.tick) : wp (calm env) (get t p) Q w := by
  rw [get, wp_perform]
  exact fun _ => post

theorem calm_now {Q : Except Exn Timestamp → World → Prop}
    (post : Q (.ok (env.now w.clock)) w.tick) :
    wp (calm env) now Q w := by
  rw [now, wp_perform]
  exact fun _ => post

theorem calm_delete (t : Tbl) (p : t.Row → Bool) {Q : Except Exn Nat → World → Prop}
    (post : Q (.ok ((w.db t).getAll p).length) (w.setTable t ((w.db t).delete p)).tick) :
    wp (calm env) (delete t p) Q w := by
  rw [delete, wp_perform]
  exact fun _ => post

/-- A client program on the node's own host. -/
theorem calm_sh (node : Node) {α : Type} {p : Sh α} {Q : Except Exn α → World → Prop}
    (post : wp (killing env.chance) p (fun r s => Q r (w.put node.id s)) (w.clock,
      w.hosts node.id)) :
    wp (calm env) (node.sh p) Q w :=
  gated_onHost env (fun _ _ alive => alive) post

/-- A loop of removals on the host. -/
theorem removes_clear (sound : ∀ n, (env.chance n).fails = false) (node : Node) (names : List Str) :
    wp (calm env) (node.forEach (Lv.remove (node.volumeVg node.id)) names)
      (fun r w' => r = .ok () ∧ Cleared node (fun _ => False) ⟨fun _ => False,
        (· ∈ names)⟩ w w') w := by
  have start : Cleared node (fun _ => False) ⟨fun _ => False, (· ∈ ([] : List Str))⟩ w w :=
    (Cleared.refl w).congr (fun _ => Iff.rfl) (fun _ => Iff.rfl) fun _ =>
      ⟨False.elim, List.not_mem_nil⟩
  apply gated_mono _ _ _ _ _ _ w (gated_forEach (exec env) (KillsAlive env)
    (fun done w' => Cleared node (fun _ => False) ⟨fun _ => False, (· ∈ done)⟩ w w') names ?_ start)
  · rintro r w' ⟨rfl, cleared⟩
    refine ⟨rfl, cleared.congr (fun _ => Iff.rfl) (fun _ => Iff.rfl) fun name => ?_⟩
    change name ∈ names.reverse ++ [] ↔ name ∈ names
    rw [List.append_nil, List.mem_reverse]
  · intro done name w' _ cleared
    apply calm_sh node
    apply gated_mono _ _ _ _ _ _ _ (remove_sweeps sound (node.volumeVg node.id) name _)
    rintro r s ⟨rfl, swept⟩
    refine ⟨rfl, (cleared.trans (.put swept)).congr (fun _ => or_self_iff) (fun _ => or_self_iff)
      fun name' => ?_⟩
    exact or_comm.trans List.mem_cons.symm

/-- What hangs on a VM goes; its own row does not. -/
theorem dependents_clear (node : Node) (v : Id) :
    wp (calm env) (VmDeps.teardown v)
      (fun r w' => r = .ok () ∧ Cleared node (fun _ => False) .none w w') w := by
  -- deletes in tables that no pass reads back sweep nothing
  have same {a b : World} (first : Cleared node (fun _ => False) .none w a)
      (second : Cleared node (fun _ => False) .none a b) : Cleared node
        (fun _ => False) .none w b :=
    (first.trans second).congr (fun _ => or_self_iff) (fun _ => or_self_iff) fun _ => or_self_iff
  have address : wp (calm env) (VmDeps.teardownPublicIp v)
      (fun r w' => r = .ok () ∧ Cleared node (fun _ => False) .none w w') w := by
    rw [VmDeps.teardownPublicIp, wp_bind]
    apply calm_get
    rw [onValue_ok, wp_whenSome]
    cases (w.db .publicIps).get (VmDeps.attachedTo v) with
    | none => exact ⟨rfl, (Cleared.refl w).tick⟩
    | some row =>
      simp only [wp_bind]
      apply calm_delete
      exact ⟨rfl, same (Cleared.refl w).tick (.deleteAside id (by rintro ⟨⟩) _)⟩
  rw [VmDeps.teardown, wp_bind]
  apply gated_mono _ _ _ _ _ _ w address
  rintro r w₁ ⟨rfl, first⟩
  rw [onValue_ok, wp_bind]
  apply calm_delete
  have second := same first (.deleteAside (t := .domains) id (by rintro ⟨⟩) fun r => r.vmId = v)
  rw [onValue_ok, wp_bind]
  apply calm_get
  rw [onValue_ok, wp_whenSome]
  generalize Table.get _ _ = proxy
  cases proxy with
  | none => exact ⟨rfl, second.tick⟩
  | some row =>
    simp only [wp_bind]
    apply calm_delete
    exact ⟨rfl, same second.tick (.deleteAside id (by rintro ⟨⟩) _)⟩

/-- The volumes of a group, as they are listed. -/
theorem listLvs_then (sound : ∀ n, (env.chance n).fails = false) (node : Node) (lister : Lister)
    (vg : Str) {Q : Except Exn (List Str) → World → Prop}
    (post : Q (.ok (Lvs.names (w.hosts node.id).lvs vg))
      (w.put node.id (w.clock + 1, (w.hosts node.id).reap (env.chance w.clock).gone))) :
    wp (sequential (exec env)) (node.sh (Lv.listLvs lister vg)) Q w := by
  apply sequential_onHost
  rw [Lv.listLvs, exceptPrivops, wp_tryCatch, lvm, wp_perform]
  simp only [sequential, execAt, exec_lvs _ _ _ _ (sound _), onError_ok]
  exact post

/-- The directories, as they are listed. -/
theorem listDirs_then (node : Node) {Q : Except Exn (List Id) → World → Prop}
    (post : Q (.ok (w.hosts node.id).dirs.keys)
      (w.put node.id (w.clock + 1, (w.hosts node.id).reap (env.chance w.clock).gone))) :
    wp (sequential (exec env)) (node.sh listVmDirs) Q w := by
  apply sequential_onHost
  rw [listVmDirs, wp_perform]
  have answer := exec_of_step (env.chance w.clock) .listDirs (w.hosts node.id)
    ((w.hosts node.id).reap (env.chance w.clock).gone) _ (.inr rfl) rfl
  simp only [sequential, execAt, answer]
  exact post

/-- Processes that end by themselves take nothing away. -/
theorem reaped_clear (node : Node) (n : Nat) (gone : Nat → Bool) :
    Cleared node (fun _ => False) .none w (w.put node.id (n, (w.hosts node.id).reap gone)) :=
  .put ⟨fun _ none => none.elim, fun _ _ => rfl, fun _ none => none.elim, fun _ _ => rfl,
    fun _ _ there => there⟩

/-- Of the volumes that are there, those that are doomed are removed. -/
theorem doomed_clear (sound : ∀ n, (env.chance n).fails = false) (node : Node) {d : Str → Prop}
    {names : List Str} (picked : ∀ name, name ∈ names ↔
      (w.hosts node.id).lvs.lookup (node.volumeVg node.id, name) ≠ none ∧ d name) :
    wp (calm env) (node.forEach (Lv.remove (node.volumeVg node.id)) names)
      (fun r w' => r = .ok () ∧ Cleared node (fun _ => False) ⟨fun _ => False, d⟩ w w') w := by
  apply gated_mono _ _ _ _ _ _ w (removes_clear sound node names)
  rintro r w' ⟨rfl, cleared⟩
  refine ⟨rfl, cleared.mono (fun _ none => none) (fun name there => ((picked name).mp there).2)
    (fun _ none => none.elim) fun name fated => ?_⟩
  by_cases missing : (w.hosts node.id).lvs.lookup (node.volumeVg node.id, name) = none
  · exact .inr missing
  · exact .inl ((picked name).mpr ⟨missing, fated⟩)

/-- The volumes that are listed, after a pass has read them. -/
theorem mem_listed (node : Node) {name vg : Str} {n : Nat} {gone : Nat → Bool} :
    name ∈ Lvs.names (w.hosts node.id).lvs vg ↔
      ((w.put node.id (n, (w.hosts node.id).reap gone)).hosts node.id).lvs.lookup
        (vg, name) ≠ none := by
  have there : (w.put node.id (n, (w.hosts node.id).reap gone)).hosts node.id =
      (w.hosts node.id).reap gone :=
    Function.update_self ..
  rw [there, Lvs.mem_names, reap_lvs]

/-- A loop over VMs, each of which goes with its directory, its root disk and perhaps its row. -/
theorem vms_clear (node : Node) (rows : Id → Id → Prop) {f : Id → Py Unit}
    (each : ∀ v w, wp (calm env) (f v)
      (fun r w' => r = .ok () ∧ Cleared node (rows v) ⟨(· = v), (· = Names.rootfs v)⟩ w w') w)
        (ids : List Id) :
    wp (calm env) (forEach f ids) (fun r w' => r = .ok () ∧
      Cleared node (fun id => ∃ v ∈ ids, rows v id) ⟨(· ∈ ids), fun name => ∃ v ∈ ids,
        name = Names.rootfs v⟩
        w w') w := by
  -- the sweep grows with the list: after `done` it has what is swept of these VMs
  have start : Cleared node (fun id => ∃ v ∈ ([] : List Id), rows v id)
      ⟨(· ∈ ([] : List Id)), fun name => ∃ v ∈ ([] : List Id), name = Names.rootfs v⟩ w w := by
    apply (Cleared.refl w).congr
    · exact fun id => ⟨False.elim, fun ⟨_, there, _⟩ => absurd there List.not_mem_nil⟩
    · exact fun id => ⟨False.elim, List.not_mem_nil⟩
    · exact fun name => ⟨False.elim, fun ⟨_, there, _⟩ => absurd there List.not_mem_nil⟩
  apply gated_mono _ _ _ _ _ _ w (gated_forEach (exec env) (KillsAlive env) (fun done w' =>
    Cleared node (fun id => ∃ v ∈ done, rows v id) ⟨(· ∈ done), fun name => ∃ v ∈ done,
      name = Names.rootfs v⟩
      w w')
    ids ?_ start)
  · have same (v : Id) : v ∈ ids.reverse ++ [] ↔ v ∈ ids := by
      rw [List.append_nil, List.mem_reverse]
    rintro r w' ⟨rfl, cleared⟩
    refine ⟨rfl, cleared.congr (fun id => ?_) same fun name => ?_⟩
    · simp only [same]
    · simp only [same]
  · intro done v w' _ cleared
    apply gated_mono _ _ _ _ _ _ w' (each v w')
    rintro r w'' ⟨rfl, next⟩
    refine ⟨rfl, (cleared.trans next).congr (fun id => ?_)
      (fun id => or_comm.trans List.mem_cons.symm)
      fun name => ?_⟩
    · exact or_comm.trans (List.exists_mem_cons_iff (fun v => rows v id) v done).symm
    · exact or_comm.trans (List.exists_mem_cons_iff (fun v => name = Names.rootfs v) v done).symm

end Programs

/-! ## The passes -/

/-- The ids of the VMs of the node. -/
def vmIds (node : Node) (w : World) : List Id :=
  ((w.db .vms).getAll fun r => r.nodeId = node.id).map VmRow.id

theorem mem_vmIds {node : Node} {w : World} {id : Id} :
    id ∈ vmIds node w ↔ ∃ r ∈ w.db .vms, r.nodeId = node.id ∧ r.id = id := by
  simp only [vmIds, List.mem_map, Table.mem_getAll, decide_eq_true_eq, and_assoc]

/-- The VM has outlived its time when the pass looks. -/
def Expired (node : Node) (now : Timestamp) (w : World) (id : Id) : Prop :=
  0 < node.cfg.ttl ∧ ∃ r ∈ w.db .vms, r.nodeId = node.id ∧
    r.createdAt < now - node.cfg.ttl ∧ r.id = id

/-- Root disks whose VM is not expected. -/
def StrayRoot (expected : Id → Prop) (name : Str) : Prop :=
  ∃ id, ¬ expected id ∧ name = Names.rootfs id

theorem strayRoot_iff {expected : List Id} {name : Str} : StrayRoot (· ∈ expected) name ↔
    (Names.ROOTFS.isPrefixOf name && !expected.contains
      (name.drop Names.ROOTFS.length)) = true := by
  rw [Bool.and_eq_true, List.isPrefixOf_iff_prefix, Bool.not_eq_true', List.contains_eq_mem,
    decide_eq_false_iff_not]
  constructor
  · rintro ⟨id, stray, rfl⟩
    refine ⟨List.prefix_append .., ?_⟩
    rwa [Names.rootfs, List.drop_left]
  · rintro ⟨named, stray⟩
    exact ⟨_, stray, List.prefix_iff_eq_append.mp named |>.symm⟩

def StrayData (node : Node) (w : World) (name : Str) : Prop :=
  Names.DATA <+: name ∧ ∀ r ∈ w.db .volumes, r.nodeId = node.id → name ≠ Names.data r.id

def StraySnap (node : Node) (w : World) (name : Str) : Prop :=
  (Names.SNAP <+: name ∨ Names.GOLD <+: name) ∧ name ≠ GOLD_DEFAULT ∧
    ∀ r ∈ w.db .snapshots, r.nodeId = node.id → name ≠ r.lvName

section Passes

variable {env : Env} {w : World} (sound : ∀ n, (env.chance n).fails = false) (node : Node)

include sound

theorem reap_clears (v : Id) :
    wp (calm env) (TtlPass.reap node v)
      (fun r w' => r = .ok () ∧ Cleared node (· = v) ⟨(· = v), (· = Names.rootfs v)⟩ w w') w := by
  rw [TtlPass.reap, wp_bind]
  apply calm_sh node
  apply gated_mono _ _ _ _ _ _ _ (down_sweeps sound (node.volumeVg node.id) v _)
  rintro r s ⟨rfl, swept⟩
  rw [onValue_ok, wp_bind]
  apply calm_delete
  refine ⟨rfl, ((Cleared.put swept).trans (.deleteVm v)).congr ?_ ?_ ?_⟩
  · exact fun _ => iff_of_eq (false_or _)
  · exact fun _ => iff_of_eq (or_false _)
  · exact fun _ => iff_of_eq (or_false _)

/-- The TTL pass takes away the expired VMs of the node. -/
theorem ttl_clears :
    wp (calm env) (TtlPass.reconcile node) (fun r w' => (∃ ids, r = .ok ids) ∧
      Cleared node (Expired node (env.now w.clock) w)
        ⟨Expired node (env.now w.clock) w, fun name => ∃ id, Expired node
          (env.now w.clock) w id ∧ name = Names.rootfs id⟩
        w w') w := by
  rw [TtlPass.reconcile, wp_ite]
  split
  -- without a lifetime nothing expires
  next off =>
    have never (id : Id) : False ↔ Expired node (env.now w.clock) w id :=
      ⟨False.elim, fun expired => absurd expired.1 (Int.not_lt.mpr off)⟩
    refine ⟨⟨[], rfl⟩, (Cleared.refl w).congr never never fun name => ?_⟩
    constructor
    · exact False.elim
    · rintro ⟨id, expired, -⟩
      exact (never id).mpr expired
  next on =>
    rw [wp_bind]
    apply calm_now
    rw [onValue_ok, wp_bind]
    apply calm_getAll
    rw [onValue_ok, wp_bind]
    apply gated_mono _ _ _ _ _ _ _ (vms_clear node (fun v id => id = v)
      (fun v w => reap_clears sound node v) _)
    rintro r w' ⟨rfl, cleared⟩
    -- the rows that are reaped are the expired ones, as the source filters them
    have expired (id : Id) : id ∈ (((w.tick.db .vms).getAll fun r => r.nodeId = node.id).filter
        (TtlPass.expired (env.now w.clock - node.cfg.ttl))).map VmRow.id ↔ Expired node
          (env.now w.clock) w id := by
      simp only [tick_db, Expired, TtlPass.expired, List.mem_map, List.mem_filter, Table.mem_getAll,
        decide_eq_true_eq,
        and_assoc, Int.not_le.mp on, true_and]
    refine ⟨⟨_, rfl⟩, ((Cleared.refl w).tick.tick.trans cleared).congr (fun id => ?_) (fun id => ?_)
      fun name => ?_⟩
    · rw [false_or, ← expired id]
      constructor
      · rintro ⟨_, there, rfl⟩
        exact there
      · exact fun there => ⟨id, there, rfl⟩
    · exact (iff_of_eq (false_or _)).trans (expired id)
    · simp only [Sweep.and, Sweep.none, false_or, expired]

theorem reapOrphan_clears (v : Id) :
    wp (calm env) (VmsPass.reapOrphan node (node.volumeVg node.id) v)
      (fun r w' => r = .ok () ∧ Cleared node (fun _ => False) ⟨(· = v),
        (· = Names.rootfs v)⟩ w w') w := by
  rw [VmsPass.reapOrphan, wp_bind]
  apply gated_mono _ _ _ _ _ _ w (dependents_clear node v)
  rintro r w' ⟨rfl, first⟩
  rw [onValue_ok]
  apply calm_sh node
  apply gated_mono _ _ _ _ _ _ _ (down_sweeps sound (node.volumeVg node.id) v _)
  rintro r s ⟨rfl, swept⟩
  refine ⟨rfl, (first.trans (.put swept)).congr (fun _ => or_self_iff) ?_ ?_⟩
  · exact fun _ => iff_of_eq (false_or _)
  · exact fun _ => iff_of_eq (false_or _)

/-- The root disks that no expected VM has are removed. -/
theorem roots_clear (expected : List Id) :
    wp (calm env) (VmsPass.pruneRootfsLvs node (node.volumeVg node.id) expected)
      (fun r w' => r = .ok () ∧ Cleared node (fun _ => False) ⟨fun _ => False,
        StrayRoot (· ∈ expected)⟩ w w')
        w := by
  rw [VmsPass.pruneRootfsLvs, wp_bind]
  apply gated_of_sequential
  apply listLvs_then sound node
  rw [onValue_ok]
  have first := reaped_clear (w := w) node (w.clock + 1) (env.chance w.clock).gone
  apply gated_mono _ _ _ _ _ _ _ (doomed_clear sound node
    (d := StrayRoot (· ∈ expected)) fun name => ?_)
  · rintro r w' ⟨rfl, cleared⟩
    refine ⟨rfl, (first.trans cleared).congr (fun _ => or_self_iff)
      (fun _ => or_self_iff) fun name => ?_⟩
    exact iff_of_eq (false_or _)
  · rw [List.mem_filter, mem_listed node, strayRoot_iff]

/-- The VMs pass takes away every directory and every root disk that no VM of the node has. -/
theorem vms_pass_clears :
    wp (calm env) (VmsPass.reconcile node) (fun r w' => (∃ report, r = .ok report) ∧
      Cleared node (fun _ => False) ⟨(· ∉ vmIds node w), StrayRoot (· ∈ vmIds node w)⟩ w w') w := by
  rw [VmsPass.reconcile, wp_bind]
  apply calm_getAll
  rw [onValue_ok, wp_bind]
  apply gated_of_sequential
  apply listDirs_then node
  rw [onValue_ok, wp_bind]
  have read := (Cleared.refl w).tick.trans
    (reaped_clear (w := w.tick) node (w.tick.clock + 1) (env.chance w.tick.clock).gone)
  apply gated_mono _ _ _ _ _ _ _ (vms_clear node (fun _ _ => False)
    (fun v w => reapOrphan_clears sound node v) _)
  rintro r w₁ ⟨rfl, killed⟩
  rw [onValue_ok, wp_bind]
  apply gated_mono _ _ _ _ _ _ w₁ (roots_clear sound node _)
  rintro r w₂ ⟨rfl, pruned⟩
  have all := ((read.trans killed).trans pruned).rows_congr fun _ => show _ ↔ False by simp
  -- each directory and volume that went was a stray, and each stray went
  refine ⟨⟨_, rfl⟩, all.mono ?_ ?_ ?_ ?_⟩
  · rintro id ((read | orphan) | none)
    · exact (or_self_iff.mp read).elim
    · exact ((node.cfg.sets.mem_diff ..).mp orphan).2
    · exact none.elim
  · rintro name ((read | ⟨v, orphan, same⟩) | stray)
    · exact (or_self_iff.mp read).elim
    · exact ⟨v, ((node.cfg.sets.mem_diff ..).mp orphan).2, same⟩
    · exact stray
  · intro id stray
    -- a stray directory was in the listing, or was never there
    by_cases missing : (w.hosts node.id).dirs.lookup id = none
    · exact .inr missing
    · refine .inl (.inl (.inr ((node.cfg.sets.mem_diff ..).mpr ⟨?_, stray⟩)))
      exact (Store.mem_keys_iff _ _).mpr (Option.isSome_iff_ne_none.mpr missing)
  · exact fun name stray => .inl (.inr stray)

/-- What is listed, is of a role and is not expected, is removed; then comes the rest of the
pass. -/
theorem role_then (lister : Lister) (role : Str → Bool) (expected : List Str) {β : Type}
    {f : List Str → Py β} {Q : Except Exn β → World → Prop}
    (rest : ∀ names w', Cleared node
      (fun _ => False) ⟨fun _ => False, fun name => role name = true ∧ name ∉ expected⟩
      w w' → wp (calm env) (f names) Q w') :
    wp (calm env) (do
      let names ← node.sh (Lv.listLvs lister (node.volumeVg node.id))
      node.forEach (Lv.remove (node.volumeVg node.id))
        (node.cfg.sets.diff (names.filter role) expected)
      f names) Q w := by
  rw [wp_bind]
  apply gated_of_sequential
  apply listLvs_then sound node
  rw [onValue_ok, wp_bind]
  have first := reaped_clear (w := w) node (w.clock + 1) (env.chance w.clock).gone
  apply gated_mono _ _ _ _ _ _ _ (doomed_clear sound node
    (d := fun name => role name = true ∧ name ∉ expected) fun name => ?_)
  · rintro r w' ⟨rfl, cleared⟩
    apply rest
    refine (first.trans cleared).congr (fun _ => or_self_iff) (fun _ => or_self_iff) fun name => ?_
    exact iff_of_eq (false_or _)
  · rw [node.cfg.sets.mem_diff, List.mem_filter, mem_listed node, and_assoc]

theorem volumes_pass_clears :
    wp (calm env) (VolumesPass.reconcile node) (fun r w' => (∃ report, r = .ok report) ∧
      Cleared node (fun _ => False) ⟨fun _ => False, StrayData node w⟩ w w') w := by
  rw [VolumesPass.reconcile, wp_bind]
  apply calm_getAll
  rw [onValue_ok]
  apply role_then sound node .volumesPass (fun name => Names.DATA.isPrefixOf name)
  intro names w' cleared
  have whole := (Cleared.refl w).tick.trans cleared
  refine ⟨⟨_, rfl⟩, whole.congr (fun _ => or_self_iff) (fun _ => or_self_iff) fun name => ?_⟩
  refine (iff_of_eq (false_or _)).trans (and_congr List.isPrefixOf_iff_prefix ?_)
  simp only [List.mem_map, Table.mem_getAll, decide_eq_true_eq, not_exists, not_and, and_imp]
  exact forall₂_congr fun r _ => forall_congr' fun _ => ne_comm

theorem snapshots_pass_clears :
    wp (calm env) (SnapshotsPass.reconcile node) (fun r w' => (∃ report, r = .ok report) ∧
      Cleared node (fun _ => False) ⟨fun _ => False, StraySnap node w⟩ w w') w := by
  rw [SnapshotsPass.reconcile, wp_bind]
  apply calm_getAll
  rw [onValue_ok]
  apply role_then sound node .snapshotsPass
    (fun name => Names.SNAP.isPrefixOf name || Names.GOLD.isPrefixOf name)
  intro names w' cleared
  have whole := (Cleared.refl w).tick.trans cleared
  refine ⟨⟨_, rfl⟩, whole.congr (fun _ => or_self_iff) (fun _ => or_self_iff) fun name => ?_⟩
  refine (iff_of_eq (false_or _)).trans (and_congr ?_ ?_)
  · rw [Bool.or_eq_true, List.isPrefixOf_iff_prefix, List.isPrefixOf_iff_prefix]
  · rw [List.mem_cons, not_or]
    apply and_congr_right
    intro _
    simp only [List.mem_map, Table.mem_getAll, decide_eq_true_eq, not_exists, not_and, and_imp]
    exact forall₂_congr fun r _ => forall_congr' fun _ => ne_comm

end Passes

/-! ## The overlay -/

/-- Whom the node floods to. -/
def peersOf (node : Node) (db : Db) : List Str :=
  (((db .nodes).getAll fun _ => true).filter fun n =>
    n.nodeId ≠ node.id && !LOOPBACK.contains n.host).map
    NodeRow.host

/-- The node's own address. -/
def hostOf (node : Node) (db : Db) : Str :=
    (((db .nodes).get fun r => r.nodeId = node.id).map NodeRow.host).getD "127.0.0.1"

/-- The VPCs that have a VM on the node. -/
def vpcIds (node : Node) (db : Db) : List Id :=
  ((db .vms).getAll fun r => r.nodeId = node.id).map VmRow.vpcId

/-- The VXLAN devices of the node hold forwarding tables as the kernel prints them, and their names
can be
  read. -/
structure Readable (node : Node) (db : Db) (n : Net) : Prop where
  node_ : FloodList.HexId node.id
  vpcs : ∀ v ∈ vpcIds node db, FloodList.HexId v
  peers : ∀ dst ∈ peersOf node db, FloodList.V4 dst
  tables : ∀ v ∈ vpcIds node db, ∀ l, n.links.lookup
    (none, Vxlan.nameFor node.id v) = some l → FloodList.Table l.fdb

/-- The device of the VPC, if there is one, floods to the peers. -/
def Floods (node : Node) (peers : List Str) (n : Net) (v : Id) : Prop :=
  ∀ l, n.links.lookup (none, Vxlan.nameFor node.id v) = some l → ∀ dst,
    dst ∈ FloodList.floods l.fdb ↔ dst ∈
    peers

section Overlay

variable {x : Nat → Chance} (sound : ∀ n, (x n).fails = false) (node : Node)

include sound

theorem linkExists_then (name : Str) (s : Nat × Host) {Q : Except Exn Bool → Nat × Host → Prop}
    (rest : ∀ s' : Nat × Host, s'.2.net = s.2.net →
      Q (.ok (s.2.net.links.lookup (none, name)).isSome) s') :
    wp (sequential (execAt x)) (linkExists name) Q s := by
  rw [linkExists, exceptPrivops, wp_tryCatch, wp_bind]
  apply net_then (sound s.1)
  · intro _ n' s' step same
    simp only [NetCmd.step] at step
    split at step <;> cases step
    next there =>
      have here := rest s' same
      rw [Option.isSome_iff_ne_none.mpr there] at here
      exact here
  · intro s' step same
    simp only [NetCmd.step] at step
    split at step
    · cases step
    next missing =>
      have here := rest s' same
      rw [not_not.mp missing] at here
      exact here

/-- The device of one VPC is brought up to date, and no other link changes. -/
theorem sync_then (peers : List Str) (v : Id) (s : Nat × Host) (hexNode : FloodList.HexId node.id)
    (hexVpc : FloodList.HexId v)
    (table : ∀ l, s.2.net.links.lookup (none, Vxlan.nameFor node.id v) = some l →
      FloodList.Table l.fdb)
    {Q : Except Exn Bool → Nat × Host → Prop}
    (missing : ∀ s' : Nat × Host, s.2.net.links.lookup (none, Vxlan.nameFor node.id v) = none →
      s'.2.net = s.2.net → Q (.ok false) s')
    (synced : ∀ (s' : Nat × Host) l, s.2.net.links.lookup (none, Vxlan.nameFor node.id v) = some l →
      FloodList.Forwards (Vxlan.nameFor node.id v) l s.2.net
        (FloodList.reconciled node.cfg.sets peers l.fdb) s'.2.net →
      Q (.ok true) s') : wp (sequential (execAt x)) (OverlayPass.sync node peers v) Q s := by
  simp only [OverlayPass.sync, wp_bind]
  apply linkExists_then sound
  intro s₁ same
  cases there : s.2.net.links.lookup (none, Vxlan.nameFor node.id v) with
  | none => exact missing s₁ there same
  | some l =>
    rw [← same] at there
    rw [onValue_ok, Option.isSome_some, if_pos rfl, wp_bind]
    apply FloodList.setFdb_then sound hexNode hexVpc there (table l (same ▸ there))
    intro s₂ after
    rw [same] at after there
    exact synced s₂ l there after

/-- Only the links of the host have changed, if anything has. -/
structure SameNet (n n' : Net) : Prop where
  links : ∀ key, n'.links.lookup key = n.links.lookup key
  rest : { n' with links := n.links } = n

omit sound in
theorem readable_of_links {db : Db} {n n' : Net} (readable : Readable node db n)
    (tables : ∀ v ∈ vpcIds node db, ∀ l, n'.links.lookup (none, Vxlan.nameFor node.id v) = some l →
      FloodList.Table l.fdb) : Readable node db n' :=
  ⟨readable.node_, readable.vpcs, readable.peers, tables⟩

/-- One VPC is synced; those that were stay so. -/
theorem sync_floods {db : Db} {v : Id} (s : Nat × Host) (readable : Readable node db s.2.net)
    (there : v ∈ vpcIds node db) :
    wp (sequential (execAt x)) (OverlayPass.sync node (peersOf node db) v)
      (fun r s' => (∃ b, r = .ok b) ∧
      Readable node db s'.2.net ∧ Floods node (peersOf node db) s'.2.net v ∧
        ∀ v', Floods node (peersOf node db) s.2.net v' →
          Floods node (peersOf node db) s'.2.net v') s := by
  apply sync_then sound node _ v s readable.node_ (readable.vpcs v there) (readable.tables v there)
  · intro s' missing same
    rw [same]
    refine ⟨⟨false, rfl⟩, readable, ?_, fun _ floods => floods⟩
    intro l found
    rw [missing] at found
    cases found
  · intro s' l found after
    have once := (readable.tables v there l found).once
    -- another VPC whose device has the same name has the same device
    have here (v' : Id) (same : Vxlan.nameFor node.id v' = Vxlan.nameFor node.id v) :
        Floods node (peersOf node db) s'.2.net v' := by
      intro l' found' dst
      rw [same, after.here] at found'
      cases found'
      rw [FloodList.mem_floods]
      exact FloodList.mem_reconciled once dst
    have elsewhere {v' : Id} (other : Vxlan.nameFor node.id v' ≠ Vxlan.nameFor node.id v) :
        s'.2.net.links.lookup (none, Vxlan.nameFor node.id v') = s.2.net.links.lookup
          (none, Vxlan.nameFor node.id v') :=
      after.others _ fun same => other (Prod.mk.inj same).2
    refine ⟨⟨true, rfl⟩, readable_of_links node readable ?_, here v rfl, ?_⟩
    · intro v' there' l' found'
      by_cases same : Vxlan.nameFor node.id v' = Vxlan.nameFor node.id v
      · rw [same, after.here] at found'
        cases found'
        exact FloodList.table_reconciled (readable.tables v there l found) readable.peers
      · rw [elsewhere same] at found'
        exact readable.tables v' there' l' found'
    · intro v' floods
      by_cases same : Vxlan.nameFor node.id v' = Vxlan.nameFor node.id v
      · exact here v' same
      · intro l' found'
        rw [elsewhere same] at found'
        exact floods l' found'

omit sound in
theorem reconciled_same (sets : SetOrder) {peers : List Str} {fdb : List (Str × Str)}
    (same : ∀ dst, dst ∈ FloodList.floods fdb ↔ dst ∈ peers) :
    FloodList.reconciled sets peers fdb = fdb := by
  have none (xs ys : List Str) (within : ∀ dst ∈ xs, dst ∈ ys) : sets.diff xs ys = [] := by
    apply List.eq_nil_iff_forall_not_mem.mpr
    intro dst found
    obtain ⟨left, right⟩ := (sets.mem_diff ..).mp found
    exact right (within dst left)
  rw [FloodList.reconciled, none _ _ fun dst => (same dst).mpr, none _ _ fun dst =>
    (same dst).mp, List.map_nil,
    List.append_nil, List.diff_nil]

/-- A VPC that is synced already stays as it is. -/
theorem sync_still {db : Db} {v : Id} (s : Nat × Host) (readable : Readable node db s.2.net)
    (there : v ∈ vpcIds node db) (floods : Floods node (peersOf node db) s.2.net v) :
    wp (sequential (execAt x)) (OverlayPass.sync node (peersOf node db) v)
      (fun r s' => (∃ b, r = .ok b) ∧ SameNet s.2.net s'.2.net) s := by
  apply sync_then sound node _ v s readable.node_ (readable.vpcs v there) (readable.tables v there)
  · intro s' _ same
    rw [same]
    exact ⟨⟨false, rfl⟩, fun _ => rfl, rfl⟩
  · intro s' l found after
    rw [reconciled_same node.cfg.sets (floods l found)] at after
    refine ⟨⟨true, rfl⟩, fun key => ?_, after.rest⟩
    by_cases same : key = (none, Vxlan.nameFor node.id v)
    · rw [same, after.here, found]
    · exact after.others key same

end Overlay

theorem SameNet.trans {n n' n'' : Net} (first : SameNet n n') (second : SameNet n' n'') :
    SameNet n n'' where
  links key := (second.links key).trans (first.links key)
  rest := (congrArg (fun m : Net => { m with links := n.links }) second.rest).trans first.rest

/-- The devices of the node's VPCs flood to its peers, if the node takes part in the overlay. -/
def Synced (node : Node) (db : Db) (n : Net) : Prop :=
  ¬ LOOPBACK.contains (hostOf node db) → Readable node db n ∧ ∀ v ∈ vpcIds node db, Floods node
    (peersOf node db) n v

/-- Nothing is changed but what is in the network of the node. -/
structure Still (node : Node) (w w' : World) : Prop where
  db : w'.db = w.db
  dirs : ∀ id, (w'.hosts node.id).dirs.lookup id = (w.hosts node.id).dirs.lookup id
  lvs : ∀ key, (w'.hosts node.id).lvs.lookup key = (w.hosts node.id).lvs.lookup key
  others : ∀ n, n ≠ node.id → w'.hosts n = w.hosts n

namespace Still

variable {node : Node} {w w' w'' : World}

theorem refl (w : World) : Still node w w := ⟨rfl, fun _ => rfl, fun _ => rfl, fun _ _ => rfl⟩

theorem trans (first : Still node w w') (second : Still node w' w'') : Still node w w'' where
  db := second.db.trans first.db
  dirs id := (second.dirs id).trans (first.dirs id)
  lvs key := (second.lvs key).trans (first.lvs key)
  others n other := (second.others n other).trans (first.others n other)

theorem tick (still : Still node w w') : Still node w w'.tick :=
    ⟨still.db, still.dirs, still.lvs, still.others⟩

end Still

/-- What the overlay pass does to the cluster. -/
inductive Overlays (node : Node) : Op → Prop where
  | get (t : Tbl) (p : t.Row → Bool) : Overlays node (.get t p)
  | getAll (t : Tbl) (p : t.Row → Bool) : Overlays node (.getAll t p)
  | net (c : NetCmd) (plain : c.Plain) : Overlays node (.host node.id (.net c))

theorem overlays_still {env : Env} {node : Node} {o : Op} (overlays : Overlays node o)
    {w w' : World} (still : Still node w w') : Still node w (exec env o w').2 := by
  cases overlays with
  | get t p => exact still.tick
  | getAll t p => exact still.tick
  | net c plain =>
    have here := hosts_exec env w' node.id (.net c) node.id
    rw [if_pos rfl] at here
    constructor
    · exact still.db
    · intro id
      rw [here, exec_dirs _ (.net c) _ _ not_false, still.dirs]
    · intro key
      rw [here, exec_lookup _ (.net c) _ _ not_false, still.lvs]
    · intro n other
      rw [hosts_exec, if_neg other, still.others n other]

theorem sync_only (node : Node) (peers : List Str) (v : Id) :
    Only (fun c => ∃ c', c = .net c' ∧ c'.Plain) (OverlayPass.sync node peers v) := by
  have net (c : NetCmd) (plain : c.Plain) : Only (fun c => ∃ c', c = .net c' ∧
      c'.Plain) (Client.net c) :=
    .net ⟨c, rfl, plain⟩
  apply Only.bind (.exceptPrivops _ (.bind (net (.show _) trivial) fun _ => .pure _))
  intro there
  apply Only.ite
  · intro _
    apply Only.bind ((Vxlan.setFdb_lists node.cfg.sets _ peers).mono _) fun _ => .pure _
    rintro _ ⟨c, lists⟩
    refine ⟨c, rfl, ?_⟩
    cases lists <;> exact trivial
  · exact fun _ => .pure _

theorem overlay_only (node : Node) : Only (Overlays node) (OverlayPass.reconcile node) := by
  have host : Only (Overlays node) (Peers.nodeHost node.id) :=
    .bind (.get (.get ..)) fun row => by cases row <;> exact .pure _
  apply Only.bind host
  intro name
  apply Only.ite (fun _ => .pure _)
  intro _
  apply Only.bind (.bind (.getAll (.getAll ..)) fun _ => .pure _)
  intro peers
  apply Only.bind (.bind (.getAll (.getAll ..)) fun _ => .pure _)
  intro vpcs
  apply Only.bind (.filterEach _ fun v _ => ?_) fun _ => .pure _
  apply Only.sh node
  apply (sync_only node peers v).mono
  rintro _ ⟨c, rfl, plain⟩
  exact .net c plain

section

variable {env : Env} {w : World} (sound : ∀ n, (env.chance n).fails = false) (node : Node)

/-- However the overlay pass ends. -/
theorem overlay_still : wp (sequential (exec env)) (OverlayPass.reconcile node)
    (fun _ w' => Still node w w') w :=
  sequential_keeps (exec env) (Still node w) (fun _ _ overlays => overlays_still overlays)
    (overlay_only node) w (Still.refl w)

theorem host_then {Q : Except Exn Str → World → Prop} (post : Q (.ok (hostOf node w.db)) w.tick) :
    wp (sequential (exec env)) (Peers.nodeHost node.id) Q w := by
  rw [Peers.nodeHost, wp_bind, wp_get, onValue_ok]
  rw [hostOf] at post
  cases found : (w.db .nodes).get fun r => r.nodeId = node.id with
  | none =>
    rw [found] at post
    exact post
  | some row =>
    rw [found] at post
    exact post

/-- The pass goes through the VPCs of the node, unless it takes no part in the overlay. -/
theorem overlay_then {Q : Except Exn (List Id) → World → Prop}
    (alone : LOOPBACK.contains (hostOf node w.db) → Q (.ok []) w.tick)
    (rest : ¬ LOOPBACK.contains (hostOf node w.db) → ∀ w', w'.db = w.db → w'.hosts = w.hosts →
      wp (sequential (exec env)) (filterEach
        (fun v => node.sh (OverlayPass.sync node (peersOf node w.db) v))
        (node.cfg.sets.order (vpcIds node w.db).dedup))
          (onValue (fun synced => Q (.ok (sorted synced))) Q) w') :
    wp (sequential (exec env)) (OverlayPass.reconcile node) Q w := by
  rw [OverlayPass.reconcile, wp_bind]
  apply host_then node
  rw [onValue_ok, wp_ite]
  split
  · exact alone ‹_›
  · rw [wp_bind, Peers.peerHosts, wp_bind, wp_getAll, onValue_ok, wp_pure, onValue_ok, wp_bind,
      OverlayPass.localVpcs,
      wp_bind, wp_getAll, onValue_ok, wp_pure, onValue_ok, wp_bind]
    exact rest ‹_› w.tick.tick.tick rfl rfl

omit sound in
theorem mem_order (sets : SetOrder) {xs : List Str} {x : Str} : x ∈ sets.order xs.dedup ↔ x ∈ xs :=
  (sets.perm _).mem_iff.trans List.mem_dedup

include sound

/-- After the overlay pass the devices flood to the peers. -/
theorem overlay_syncs (readable : ¬ LOOPBACK.contains (hostOf node w.db) → Readable node w.db
    (w.hosts node.id).net) :
    wp (sequential (exec env)) (OverlayPass.reconcile node)
      (fun r w' => (∃ vpcs, r = .ok vpcs) ∧ Synced node w.db (w'.hosts node.id).net) w := by
  -- a node on its loopback address takes no part
  apply overlay_then node
  · exact fun alone => ⟨⟨[], rfl⟩, fun joined => absurd alone joined⟩
  · intro joined w₁ _ hosts
    have start : Readable node w.db (w₁.hosts node.id).net ∧
        ∀ v ∈ ([] : List Id), Floods node (peersOf node w.db) (w₁.hosts node.id).net v := by
      rw [hosts]
      exact ⟨readable joined, fun _ none => absurd none List.not_mem_nil⟩
    apply sequential_mono (exec env) _ _ _ _ w₁ (sequential_filterEach (exec env) (fun done w' =>
      Readable node w.db (w'.hosts node.id).net ∧
        ∀ v ∈ done, Floods node (peersOf node w.db) (w'.hosts node.id).net v) _ ?_ start)
    · rintro _ w' ⟨⟨vpcs, rfl⟩, still, floods⟩
      refine ⟨⟨_, rfl⟩, fun _ => ⟨still, fun v there => floods v ?_⟩⟩
      rw [List.append_nil, List.mem_reverse, mem_order]
      exact there
    · intro done v w' there ⟨readable, floods⟩
      apply sequential_onHost
      apply sequential_mono _ _ _ _ _ _ (sync_floods sound node
        (w'.clock, w'.hosts node.id) readable
        ((mem_order _).mp there))
      rintro r s ⟨returned, readable', here, others⟩
      have host : (w'.put node.id s).hosts node.id = s.2 := Function.update_self ..
      rw [host]
      refine ⟨returned, readable', fun v' one => ?_⟩
      rcases List.mem_cons.mp one with rfl | before
      · exact here
      · exact others v' (floods v' before)

/-- Where they do already, nothing is done to them. -/
theorem overlay_keeps (synced : Synced node w.db (w.hosts node.id).net) :
    wp (sequential (exec env)) (OverlayPass.reconcile node)
      (fun r w' => (∃ vpcs, r = .ok vpcs) ∧
        SameNet (w.hosts node.id).net (w'.hosts node.id).net) w := by
  apply overlay_then node
  · exact fun _ => ⟨⟨[], rfl⟩, fun _ => rfl, rfl⟩
  · intro joined w₁ _ hosts
    obtain ⟨readable, floods⟩ := synced joined
    have start : SameNet (w.hosts node.id).net (w₁.hosts node.id).net := by
      rw [hosts]
      exact ⟨fun _ => rfl, rfl⟩
    apply sequential_mono (exec env) _ _ _ _ w₁ (sequential_filterEach (exec env) (fun _ w' =>
      SameNet (w.hosts node.id).net (w'.hosts node.id).net) _ ?_ (d := []) start)
    · rintro _ w' ⟨⟨vpcs, rfl⟩, same⟩
      exact ⟨⟨_, rfl⟩, same⟩
    · intro _ v w' there same
      have local_ := (mem_order _).mp there
      have readable' : Readable node w.db (w'.hosts node.id).net :=
        readable_of_links node readable fun v there l found => readable.tables v there l
          (same.links _ ▸ found)
      have floods' : Floods node (peersOf node w.db) (w'.hosts node.id).net v :=
        fun l found => floods v local_ l (same.links _ ▸ found)
      apply sequential_onHost
      apply sequential_mono _ _ _ _ _ _
        (sync_still sound node (w'.clock, w'.hosts node.id) readable' local_ floods')
      rintro r s ⟨returned, still⟩
      have host : (w'.put node.id s).hosts node.id = s.2 := Function.update_self ..
      rw [host]
      exact ⟨returned, same.trans still⟩

end

/-! ## A whole pass -/

/-- What the rows of the node say of a volume of its group. -/
structure Expected (node : Node) (db : Db) (name : Str) : Prop where
  root : Names.ROOTFS <+: name → ∃ r ∈ db .vms, r.nodeId = node.id ∧ name = Names.rootfs r.id
  data : Names.DATA <+: name → ∃ r ∈ db .volumes, r.nodeId = node.id ∧ name = Names.data r.id
  snap : Names.SNAP <+: name ∨ Names.GOLD <+: name →
    name = GOLD_DEFAULT ∨ ∃ r ∈ db .snapshots, r.nodeId = node.id ∧ name = r.lvName

/-- After a pass the rows have lost the expired VMs, and the node has what it had of what they
name. -/
structure Exact (node : Node) (now : Timestamp) (w w' : World) : Prop where
  vms : ∀ r, r ∈ w'.db .vms ↔
    r ∈ w.db .vms ∧ ¬ (0 < node.cfg.ttl ∧ r.nodeId = node.id ∧ r.createdAt < now - node.cfg.ttl)
  tables : ∀ t, Read t → w'.db t = w.db t
  dirs : ∀ id d, (w'.hosts node.id).dirs.lookup id = some d ↔
    (w.hosts node.id).dirs.lookup id = some d ∧ ∃ r ∈ w'.db .vms, r.nodeId = node.id ∧ r.id = id
  lvs : ∀ vg name lv, (w'.hosts node.id).lvs.lookup (vg, name) = some lv ↔
    (w.hosts node.id).lvs.lookup (vg, name) = some lv ∧
      (vg = node.volumeVg node.id → Expected node w'.db name)
  others : ∀ n, n ≠ node.id → w'.hosts n = w.hosts n

/-- The names of the volumes that go with a pass, where `w'` has the rows that are left. -/
def Stray (node : Node) (w w' : World) (name : Str) : Prop :=
  StrayRoot (· ∈ vmIds node w') name ∨ StrayData node w name ∨ StraySnap node w name

theorem stray_iff (node : Node) (name : Str) {w w' : World}
    (volumes : w'.db .volumes = w.db .volumes) (snapshots : w'.db .snapshots = w.db .snapshots) :
    Stray node w w' name ↔ ¬ Expected node w'.db name := by
  constructor
  · rintro (⟨id, stray, rfl⟩ | ⟨named, stray⟩ | ⟨named, plain, stray⟩) expected
    · obtain ⟨r, there, own, same⟩ := expected.root (List.prefix_append ..)
      exact stray (mem_vmIds.mpr ⟨r, there, own, (List.append_cancel_left same).symm⟩)
    · obtain ⟨r, there, own, same⟩ := expected.data named
      rw [volumes] at there
      exact stray r there own same
    · rcases expected.snap named with same | ⟨r, there, own, same⟩
      · exact plain same
      · rw [snapshots] at there
        exact stray r there own same
  · intro unexpected
    by_contra kept
    rw [Stray, not_or, not_or] at kept
    obtain ⟨root, data, snap⟩ := kept
    apply unexpected
    constructor
    · intro named
      have eq := List.prefix_iff_eq_append.mp named
      -- what follows the prefix is the id of the VM, if there is one
      by_cases there : name.drop Names.ROOTFS.length ∈ vmIds node w'
      · obtain ⟨r, found, own, same⟩ := mem_vmIds.mp there
        refine ⟨r, found, own, ?_⟩
        rw [same]
        exact eq.symm
      · exact absurd ⟨_, there, eq.symm⟩ root
    · intro named
      rw [volumes]
      by_contra missing
      exact data ⟨named, fun r there own same => missing ⟨r, there, own, same⟩⟩
    · intro named
      rw [snapshots]
      by_contra missing
      rw [not_or] at missing
      exact snap ⟨named, missing.1, fun r there own same => missing.2 ⟨r, there, own, same⟩⟩

/-- The removals of the four passes, as one. -/
theorem exact_of_cleared {node : Node} {now : Timestamp} {w w' w'' : World}
    (cleared : Cleared node (Expired node now w) ⟨(· ∉ vmIds node w'), Stray node w w'⟩ w w')
    (still : Still node w' w'') : Exact node now w w'' where
  vms r := by
    rw [still.db, cleared.vms r]
    apply and_congr_right
    intro there
    apply not_congr
    constructor
    · rintro ⟨on, r', found, own, old, same⟩
      -- the id of a VM is unique
      obtain rfl : r' = r := Table.eq_of_key _ VmRow.id List.mem_cons_self found there same
      exact ⟨on, own, old⟩
    · exact fun ⟨on, own, old⟩ => ⟨on, r, there, own, old, rfl⟩
  tables t reads := by rw [still.db, cleared.tables t reads]
  dirs id d := by
    rw [still.dirs, still.db, ← mem_vmIds]
    by_cases kept : id ∈ vmIds node w'
    · rw [cleared.host.dirs id fun stray => stray kept]
      exact (and_iff_left kept).symm
    · rw [cleared.host.noDir id kept]
      constructor
      · rintro ⟨⟩
      · exact fun there => absurd there.2 kept
  lvs vg name lv := by
    have stray := stray_iff node name (cleared.tables .volumes trivial)
      (cleared.tables .snapshots trivial)
    rw [still.lvs, still.db]
    by_cases gone : vg = node.volumeVg node.id ∧ Stray node w w' name
    · obtain ⟨rfl, gone⟩ := gone
      rw [cleared.host.noLv name gone]
      constructor
      · rintro ⟨⟩
      · exact fun there => absurd (there.2 rfl) (stray.mp gone)
    · rw [cleared.host.lvs (vg, name)]
      · refine (and_iff_left fun own => ?_).symm
        by_contra unexpected
        exact gone ⟨own, stray.mpr unexpected⟩
      · intro name' gone' same
        cases same
        exact gone ⟨rfl, gone'⟩
  others n other := by rw [still.others n other, cleared.others n other]

theorem stray_congr {node : Node} {w w₁ w₂ w₃ w₄ : World} (name : Str)
    (ids : ∀ id, id ∈ vmIds node w₄ ↔ id ∈ vmIds node w₁) (volumes : w₂.db .volumes = w.db .volumes)
    (snapshots : w₃.db .snapshots = w.db .snapshots) :
    (StrayRoot (· ∈ vmIds node w₁) name ∨ StrayData node w₂ name ∨
      StraySnap node w₃ name) ↔ Stray node w w₄
      name := by
  simp only [Stray, StrayRoot, StrayData, StraySnap, ids, volumes, snapshots]

/-- The tables that the overlay pass reads have no more VPCs than before, and the links are old
ones. -/
theorem readable_of_cleared {node : Node} {rows : Id → Prop} {a : Sweep} {w w' : World}
    (cleared : Cleared node rows a w w')
    (readable : ¬ LOOPBACK.contains (hostOf node w.db) → Readable node w.db (w.hosts node.id).net) :
    ¬ LOOPBACK.contains (hostOf node w'.db) → Readable node w'.db (w'.hosts node.id).net := by
  have nodes : w'.db .nodes = w.db .nodes := cleared.tables .nodes trivial
  have peers : peersOf node w'.db = peersOf node w.db := by rw [peersOf, nodes, peersOf]
  have host : hostOf node w'.db = hostOf node w.db := by rw [hostOf, nodes, hostOf]
  have fewer (v : Id) (there : v ∈ vpcIds node w'.db) : v ∈ vpcIds node w.db := by
    simp only [vpcIds, List.mem_map, Table.mem_getAll, cleared.vms] at there ⊢
    obtain ⟨r, ⟨⟨old, -⟩, own⟩, same⟩ := there
    exact ⟨r, ⟨old, own⟩, same⟩
  intro joined
  rw [host] at joined
  obtain ⟨node_, vpcs, v4, tables⟩ := readable joined
  constructor
  · exact node_
  · exact fun v there => vpcs v (fewer v there)
  · rwa [peers]
  · exact fun v there l found => tables v (fewer v there) l (cleared.host.links _ l found)

section Runs

variable {env : Env} {w : World} (sound : ∀ n, (env.chance n).fails = false) (node : Node)

include sound

/-- One pass. -/
theorem pass_leaves :
    wp (calm env) (PassOnce.run node) (fun r w' => Exact node (env.now w.clock) w w' ∧
    ((¬ LOOPBACK.contains (hostOf node w.db) → Readable node w.db (w.hosts node.id).net) →
      (∃ reports, r = .ok reports) ∧ Synced node w'.db (w'.hosts node.id).net)) w := by
  rw [PassOnce.run, wp_bind]
  apply gated_mono _ _ _ _ _ _ w (ttl_clears sound node)
  rintro r w₁ ⟨⟨ttl, rfl⟩, first⟩
  rw [onValue_ok, wp_bind]
  apply gated_mono _ _ _ _ _ _ w₁ (vms_pass_clears sound node)
  rintro r w₂ ⟨⟨vms, rfl⟩, second⟩
  rw [onValue_ok, wp_bind]
  apply gated_mono _ _ _ _ _ _ w₂ (volumes_pass_clears sound node)
  rintro r w₃ ⟨⟨volumes, rfl⟩, third⟩
  rw [onValue_ok, wp_bind]
  apply gated_mono _ _ _ _ _ _ w₃ (snapshots_pass_clears sound node)
  rintro r w₄ ⟨⟨snapshots, rfl⟩, fourth⟩
  rw [onValue_ok, wp_bind]
  -- the first four passes as one sweep
  have all := ((first.trans second).trans third).trans fourth
  have ids (id : Id) : id ∈ vmIds node w₄ ↔ id ∈ vmIds node w₁ := by
    simp only [mem_vmIds, fourth.vms, third.vms, second.vms, not_false_eq_true, and_true]
  -- a VM that expired has lost its row, so its directory and volume are strays already
  have reaped (id : Id) (expired : Expired node (env.now w.clock) w id) : id ∉ vmIds node w₁ := by
    intro there
    obtain ⟨r, left, -, rfl⟩ := mem_vmIds.mp there
    exact ((first.vms r).mp left).2 expired
  have cleared : Cleared node (Expired node (env.now w.clock) w) ⟨(· ∉ vmIds node w₄),
      Stray node w w₄⟩ w
    w₄ := by
    apply all.congr
    · intro id
      simp only [or_false]
    · intro id
      simp only [Sweep.and, or_false, ids]
      exact or_iff_right_of_imp (reaped id)
    · intro name
      have named := stray_congr name ids
        (second.tables .volumes trivial |>.trans (first.tables .volumes trivial))
        (third.tables .snapshots trivial |>.trans
          ((second.tables .snapshots trivial).trans (first.tables .snapshots trivial)))
      refine Iff.trans ?_ named
      simp only [Sweep.and, or_assoc]
      apply or_iff_right_of_imp
      rintro ⟨id, expired, rfl⟩
      exact .inl ⟨id, reaped id expired, rfl⟩
  apply gated_of_sequential
  -- the overlay pass moves nothing but links, and syncs if it can read them
  have overlay : wp (sequential (exec env)) (OverlayPass.reconcile node)
      (fun r w₅ => Still node w₄ w₅ ∧
      ((¬ LOOPBACK.contains (hostOf node w.db) → Readable node w.db (w.hosts node.id).net) →
        (∃ vpcs, r = .ok vpcs) ∧ Synced node w₄.db (w₅.hosts node.id).net)) w₄ := by
    by_cases readable : ¬ LOOPBACK.contains (hostOf node w.db) →
      Readable node w.db (w.hosts node.id).net
    · apply sequential_mono _ _ _ _ _ _ (sequential_and _ (overlay_still node)
        (overlay_syncs sound node (readable_of_cleared cleared readable)))
      exact fun _ _ ⟨still, synced⟩ => ⟨still, fun _ => synced⟩
    · apply sequential_mono _ _ _ _ _ _ (overlay_still node)
      exact fun _ _ still => ⟨still, fun readable_ => absurd readable_ readable⟩
  apply sequential_mono _ _ _ _ _ _ overlay
  rintro (e | vpcs) w₅ ⟨still, synced⟩
  · refine ⟨exact_of_cleared cleared still, fun readable => ?_⟩
    obtain ⟨⟨_, raised⟩, -⟩ := synced readable
    cases raised
  · refine ⟨exact_of_cleared cleared still, fun readable => ⟨⟨_, rfl⟩, ?_⟩⟩
    rw [still.db]
    exact (synced readable).2

end Runs

/-! ## The next pass -/

/-- There is nothing to remove. -/
structure Settled (node : Node) (now : Timestamp) (w : World) : Prop where
  young : ∀ id, ¬ Expired node now w id
  dirs : ∀ id, (w.hosts node.id).dirs.lookup id ≠ none → id ∈ vmIds node w
  lvs : ∀ name, (w.hosts node.id).lvs.lookup (node.volumeVg node.id, name) ≠ none →
    Expected node w.db name

theorem settled_of_exact {node : Node} {now : Timestamp} {w w' : World}
    (exact_ : Exact node now w w') :
    Settled node now w' where
  young id := by
    rintro ⟨on, r, left, own, old, -⟩
    exact ((exact_.vms r).mp left).2 ⟨on, own, old⟩
  dirs id there := by
    obtain ⟨d, found⟩ := Option.ne_none_iff_exists'.mp there
    exact mem_vmIds.mpr ((exact_.dirs id d).mp found).2
  lvs name there := by
    obtain ⟨lv, found⟩ := Option.ne_none_iff_exists'.mp there
    exact ((exact_.lvs _ name lv).mp found).2 rfl

/-- Nothing has changed, except that processes may have ended. -/
def Same (node : Node) (w w' : World) : Prop :=
  Still node w w' ∧ (w'.hosts node.id).net = (w.hosts node.id).net

/-- Nothing was reaped, killed or deleted. -/
structure Quiet (reports : Reports) : Prop where
  ttl : reports.ttl = []
  vms : reports.vms.removed = []
  volumes : reports.volumes.removed = []
  snapshots : reports.snapshots.removed = []

namespace Same

variable {node : Node} {w w' w'' : World}

theorem trans (first : Same node w w') (second : Same node w' w'') : Same node w w'' :=
  ⟨first.1.trans second.1, second.2.trans first.2⟩

theorem tick (w : World) : Same node w w.tick := ⟨(Still.refl w).tick, rfl⟩

theorem reaped (w : World) (n : Nat) (gone : Nat → Bool) :
    Same node w (w.put node.id (n, (w.hosts node.id).reap gone)) := by
  have here : (w.put node.id (n, (w.hosts node.id).reap gone)).hosts node.id =
      (w.hosts node.id).reap gone :=
    Function.update_self ..
  refine ⟨⟨rfl, fun id => ?_, fun key => ?_, fun _ other => Function.update_of_ne other _ _⟩, ?_⟩
  · rw [here, reap_dirs]
  · rw [here, reap_lvs]
  · rw [here, reap_net]

theorem settled {now : Timestamp} (same : Same node w w')
    (settled : Settled node now w) : Settled node now w' where
  young id := by
    simp only [Expired, same.1.db]
    exact settled.young id
  dirs id there := by
    rw [same.1.dirs] at there
    rw [vmIds, same.1.db]
    exact settled.dirs id there
  lvs name there := by
    rw [same.1.lvs] at there
    rw [same.1.db]
    exact settled.lvs name there

end Same

section Again

variable {env : Env} {w : World} {node : Node} {now : Timestamp}

theorem ttl_again (settled : Settled node (env.now w.clock) w) :
    wp (sequential (exec env)) (TtlPass.reconcile node) (fun r w' => r = .ok [] ∧
      Same node w w') w := by
  rw [TtlPass.reconcile, wp_ite]
  split
  next off => exact ⟨rfl, .refl w, rfl⟩
  next on =>
    rw [wp_bind, wp_now, onValue_ok, wp_bind, wp_getAll, onValue_ok, wp_bind]
    have none : ((w.tick.db .vms).getAll fun r => r.nodeId = node.id).filter
        (TtlPass.expired (env.now w.clock - node.cfg.ttl)) = [] := by
      apply List.filter_eq_nil_iff.mpr
      intro r there old
      rw [Table.mem_getAll, decide_eq_true_eq] at there
      exact settled.young r.id ⟨Int.not_le.mp on, r, there.1, there.2, of_decide_eq_true old, rfl⟩
    rw [none, List.map_nil, forEach, wp_ret, onValue_ok, wp_pure]
    exact ⟨congrArg Except.ok List.mergeSort_nil, (Same.tick w).trans (.tick _)⟩

variable (sound : ∀ n, (env.chance n).fails = false)

/-- What is listed is expected, so that nothing is left of it but what is. -/
theorem unlisted {xs expected : List Str} {sets : SetOrder}
    (all : ∀ x ∈ xs, x ∈ expected) : sets.diff xs expected = [] := by
  apply List.eq_nil_iff_forall_not_mem.mpr
  intro x there
  obtain ⟨listed, stray⟩ := (sets.mem_diff ..).mp there
  exact stray (all x listed)

include sound

theorem vms_again (settled : Settled node now w) :
    wp (sequential (exec env)) (VmsPass.reconcile node)
    (fun r w' => (∃ report, r = .ok report ∧ report.removed = []) ∧ Same node w w') w := by
  rw [VmsPass.reconcile, wp_bind, wp_getAll, onValue_ok, wp_bind]
  apply listDirs_then node
  rw [onValue_ok, wp_bind]
  have orphans : node.cfg.sets.diff (w.tick.hosts node.id).dirs.keys (vmIds node w) = [] := by
    apply unlisted
    intro id there
    exact settled.dirs id (Option.isSome_iff_ne_none.mp ((Store.mem_keys_iff _ _).mp there))
  rw [← vmIds, orphans, forEach, wp_ret, onValue_ok, wp_bind, VmsPass.pruneRootfsLvs, wp_bind]
  have read := (Same.tick w).trans
    (show Same node _ _ from .reaped w.tick (w.tick.clock + 1) (env.chance w.tick.clock).gone)
  generalize w.tick.put node.id _ = w₁ at read
  apply listLvs_then sound node
  have strays : (Lvs.names (w₁.hosts node.id).lvs (node.volumeVg node.id)).filter (fun name =>
      Names.ROOTFS.isPrefixOf name && !(vmIds node w).contains
        (name.drop Names.ROOTFS.length)) = [] := by
    apply List.filter_eq_nil_iff.mpr
    intro name there stray
    rw [Lvs.mem_names, read.1.lvs] at there
    obtain ⟨id, missing, rfl⟩ := strayRoot_iff.mpr stray
    obtain ⟨r, found, own, same⟩ := (settled.lvs _ there).root (List.prefix_append ..)
    exact missing (mem_vmIds.mpr ⟨r, found, own, (List.append_cancel_left same).symm⟩)
  rw [onValue_ok, strays, Node.forEach, forEach, wp_ret, onValue_ok, wp_pure]
  exact ⟨⟨_, rfl, List.mergeSort_nil⟩, read.trans (.reaped _ _ _)⟩

/-- What is listed of a role is expected. -/
theorem role_again (lister : Lister) (role : Str → Bool) (expected : List Str)
    (all : ∀ name, (w.hosts node.id).lvs.lookup
      (node.volumeVg node.id, name) ≠ none → role name = true → name ∈ expected)
    {β : Type} {f : List Str → Py β} {Q : Except Exn β → World → Prop}
    (rest : ∀ names w', node.cfg.sets.diff (names.filter role) expected = [] → Same node w w' →
      wp (sequential (exec env)) (f names) Q w') :
    wp (sequential (exec env)) (do
      let names ← node.sh (Lv.listLvs lister (node.volumeVg node.id))
      node.forEach (Lv.remove (node.volumeVg node.id))
        (node.cfg.sets.diff (names.filter role) expected)
      f names) Q w := by
  have none : node.cfg.sets.diff
      ((Lvs.names (w.hosts node.id).lvs (node.volumeVg node.id)).filter role)
    expected = [] := by
    apply unlisted
    intro name there
    obtain ⟨listed, named⟩ := List.mem_filter.mp there
    exact all name ((Lvs.mem_names ..).mp listed) named
  rw [wp_bind]
  apply listLvs_then sound node
  rw [onValue_ok, none, Node.forEach, forEach, wp_bind, wp_ret, onValue_ok]
  exact rest _ _ none (.reaped _ _ _)

theorem volumes_again (settled : Settled node now w) :
    wp (sequential (exec env)) (VolumesPass.reconcile node)
    (fun r w' => (∃ report, r = .ok report ∧ report.removed = []) ∧ Same node w w') w := by
  rw [VolumesPass.reconcile, wp_bind, wp_getAll, onValue_ok]
  apply role_again sound .volumesPass (fun name => Names.DATA.isPrefixOf name)
  · intro name there named
    obtain ⟨r, found, own, same⟩ :=
      (settled.lvs name there).data (List.isPrefixOf_iff_prefix.mp named)
    rw [List.mem_map]
    exact ⟨r, Table.mem_getAll.mpr ⟨found, decide_eq_true own⟩, same.symm⟩
  · intro names w' none same
    rw [wp_pure]
    refine ⟨⟨_, rfl, ?_⟩, (Same.tick w).trans same⟩
    change sorted (node.cfg.sets.diff _ _) = []
    rw [none]
    exact List.mergeSort_nil

theorem snapshots_again (settled : Settled node now w) : wp (sequential (exec env))
    (SnapshotsPass.reconcile node)
    (fun r w' => (∃ report, r = .ok report ∧ report.removed = []) ∧ Same node w w') w := by
  rw [SnapshotsPass.reconcile, wp_bind, wp_getAll, onValue_ok]
  apply role_again sound .snapshotsPass
    (fun name => Names.SNAP.isPrefixOf name || Names.GOLD.isPrefixOf name)
  · intro name there named
    rw [Bool.or_eq_true, List.isPrefixOf_iff_prefix, List.isPrefixOf_iff_prefix] at named
    rw [List.mem_cons, List.mem_map]
    rcases (settled.lvs name there).snap named with default | ⟨r, found, own, same⟩
    · exact .inl default
    · exact .inr ⟨r, Table.mem_getAll.mpr ⟨found, decide_eq_true own⟩, same.symm⟩
  · intro names w' none same
    rw [wp_pure]
    refine ⟨⟨_, rfl, ?_⟩, (Same.tick w).trans same⟩
    change sorted (node.cfg.sets.diff _ _) = []
    rw [none]
    exact List.mergeSort_nil

/-- A pass over a node that has nothing to remove. -/
theorem pass_again (settled : Settled node (env.now w.clock) w) : wp (sequential (exec env))
    (PassOnce.run node)
    (fun r w' => Still node w w' ∧ (∀ reports, r = .ok reports → Quiet reports) ∧
      (Synced node w.db (w.hosts node.id).net →
        (∃ reports, r = .ok reports) ∧ SameNet (w.hosts node.id).net
          (w'.hosts node.id).net)) w := by
  rw [PassOnce.run, wp_bind]
  apply sequential_mono _ _ _ _ _ w (ttl_again settled)
  rintro r w₁ ⟨rfl, first⟩
  have settled₁ := first.settled settled
  rw [onValue_ok, wp_bind]
  apply sequential_mono _ _ _ _ _ w₁ (vms_again sound settled₁)
  rintro r w₂ ⟨⟨vms, rfl, noVms⟩, second⟩
  have settled₂ := second.settled settled₁
  rw [onValue_ok, wp_bind]
  apply sequential_mono _ _ _ _ _ w₂ (volumes_again sound settled₂)
  rintro r w₃ ⟨⟨volumes, rfl, noVolumes⟩, third⟩
  rw [onValue_ok, wp_bind]
  apply sequential_mono _ _ _ _ _ w₃ (snapshots_again sound (third.settled settled₂))
  rintro r w₄ ⟨⟨snapshots, rfl, noSnapshots⟩, fourth⟩
  rw [onValue_ok, wp_bind]
  -- a settled node loses nothing in the first four passes
  have same := ((first.trans second).trans third).trans fourth
  have overlay : wp (sequential (exec env)) (OverlayPass.reconcile node)
      (fun r w₅ => Still node w₄ w₅ ∧
      (Synced node w.db (w.hosts node.id).net →
        (∃ vpcs, r = .ok vpcs) ∧ SameNet (w.hosts node.id).net (w₅.hosts node.id).net)) w₄ := by
    rw [← same.2, ← same.1.db]
    by_cases synced : Synced node w₄.db (w₄.hosts node.id).net
    · apply sequential_mono _ _ _ _ _ _
        (sequential_and _ (overlay_still node) (overlay_keeps sound node synced))
      exact fun _ _ ⟨still, kept⟩ => ⟨still, fun _ => kept⟩
    · apply sequential_mono _ _ _ _ _ _ (overlay_still node)
      exact fun _ _ still => ⟨still, fun synced_ => absurd synced_ synced⟩
  apply sequential_mono _ _ _ _ _ _ overlay
  rintro (e | vpcs) w₅ ⟨still, kept⟩
  · refine ⟨same.1.trans still, ?_, fun synced => ?_⟩
    · rintro _ ⟨⟩
    · obtain ⟨⟨_, raised⟩, -⟩ := kept synced
      cases raised
  · refine ⟨same.1.trans still, ?_, fun synced => ⟨⟨_, rfl⟩, (kept synced).2⟩⟩
    rintro _ ⟨⟩
    exact ⟨rfl, noVms, noVolumes, noSnapshots⟩

end Again

/-! ## Two passes -/

/-- The cluster after a pass. -/
def after (env : Env) (node : Node) (w : World) : World := (run (exec env) (PassOnce.run node) w).2

/-- A pass that returns. -/
def Returns (env : Env) (node : Node) (w : World) : Prop :=
  ∃ reports, (run (exec env) (PassOnce.run node) w).1 = .ok reports

def joined : Node := ⟨"0a1b2c3d", { Sample.config with ttl := 5 }⟩

def still : Env := { Sample.env with now := fun _ => 0 }

/-- A VM that has outlived its time, one that has not, a directory and two volumes that nothing
names. -/
def crowded : World where
  db := Function.update (Function.update Db.empty .nodes
      ⟨[⟨"0a1b2c3d", "10.0.0.1", 8000⟩, ⟨"4e5f6a7b", "10.0.0.2", 8000⟩], by decide⟩)
    .vms ⟨[⟨"v1", "0a1b2c3d", "old", "9c8d7e6f", none, "172.16.0.2", none, 1, 512, .running, -10⟩,
      ⟨"v2", "0a1b2c3d", "new", "9c8d7e6f", none, "172.16.0.3", none, 1, 512,
        .running, 0⟩], by decide⟩
  hosts := fun _ => { FloodList.joinedHost with
    lvs := AList.insert ("nyc-0a1b2c3d", "rootfs-v1") ⟨1024, some GOLD_DEFAULT, false, .image⟩
      (AList.insert ("nyc-0a1b2c3d", "rootfs-v2") ⟨1024, some GOLD_DEFAULT, false, .image⟩
        (AList.insert ("nyc-0a1b2c3d", "data-d1") ⟨64, none, false, .zeros⟩
          (AList.insert ("nyc-0a1b2c3d", "snap-s1") ⟨64, none, true, .zeros⟩ Sample.host.lvs)))
    dirs := AList.insert "v1" { VmDir.empty with pid := some 7 } (AList.insert "v2" VmDir.empty
      (AList.insert "v3" VmDir.empty ∅))
    procs := [⟨7, "v1"⟩]
    nextPid := 8 }
  clock := 0

theorem crowded_readable : Readable joined crowded.db (crowded.hosts joined.id).net := by
  have vpcs : ∀ v ∈ vpcIds joined crowded.db, v = "9c8d7e6f".toList := by decide
  have peers : ∀ dst ∈ peersOf joined crowded.db, dst = "10.0.0.2".toList := by decide
  constructor
  · decide
  · intro v there
    rw [vpcs v there]
    decide
  · intro dst there
    rw [peers dst there]
    exact ⟨167772162, by decide, by decide +kernel⟩
  · intro v there l found
    rw [vpcs v there] at found
    obtain rfl : FloodList.device = l := Option.some_inj.mp found
    exact FloodList.device_table

theorem crowded_alive :
    ∀ a ∈ trail (exec still) (PassOnce.run joined) crowded, KillsAlive still a.1 a.2 := by
  decide +kernel

end Nyc.Convergence
