import Nyc.Client.Footprint
import Nyc.Inventory.Invariant

/-!
# The commands that move volumes

What the programs of the client layer do to the volumes of their host: to remove one, to clone
one, to make one, to bring a VM up and to take it down.
-/

namespace Nyc

open Effects Effects.Program Client

namespace Inventory

/-- A snapshot, a clone or a promotion finds its origin. -/
def OriginThere : Op → World → Prop
  | .host n (.lvm (.snapshot vg origin _ _)), w => (w.hosts n).HasLv (vg, origin)
  | _, _ => True

/-! ## Commands -/

/-- One operation after the other, where every clone finds its origin. -/
abbrev watching (env : Env) : OpSpec Op Op.Res Exn (World → Prop) := checked (exec env) OriginThere

/-- As `watching`, for the commands of one host. -/
abbrev watchingOn (env : Env) (n : Id) : OpSpec Cmd Cmd.Res Exn (World → Prop) :=
  checked (execOn env n) fun c => OriginThere (.host n c)

theorem onHost_watching (env : Env) (n : Id) : onHostSpec (watching env) n = watchingOn env n := rfl

theorem origin_steady {n : Id} {c : Cmd} (steady : Steady c) (w : World) :
    OriginThere (.host n c) w := by
  cases c with
  | lvm c =>
    cases c with
    | snapshot vg origin name readonly => exact absurd rfl (steady (vg, name))
    | _ => trivial
  | _ => trivial

theorem origin_calm {o : Op} (calm : Calm o) (w : World) : OriginThere o w := by
  cases o with
  | host n c => exact origin_steady calm.steady w
  | _ => trivial

/-! ### Commands that move no volume -/

theorem steady_dir (vmId : Id) (c : DirCmd) : Steady (.dir vmId c) := fun _ moves => moves

theorem steady_net (c : NetCmd) : Steady (.net c) := fun _ moves => moves

theorem symlink_steady (vmId : Id) (l : LinkName) (source : Path) :
    Only Steady (symlink vmId l source) := by
  apply Only.bind (.dir (steady_dir _ _))
  intro _
  exact .bind (.whenTrue fun _ => .dir (steady_dir _ _)) fun _ => .dir (steady_dir _ _)

/-- What `vm_up` does after the clone moves no volume. -/
theorem wired_steady (spec : VmSpec) (c : Cmd) (h : VmUp.Wired spec c) : Steady c := by
  cases h with
  | net c known => exact steady_net c

theorem kill_steady (vmId : Id) : Only Steady (Kill.run vmId) :=
  (Kill.run_kills vmId).mono fun c h => by cases h <;> exact fun _ moves => moves

theorem create_steady (vmId ns : Str) : Only Steady (CreateVm.run vmId ns) := by
  apply Only.bind (.dir (steady_dir _ _))
  intro _
  exact .bind (.perform fun _ moves => moves) fun _ => .dir (steady_dir _ _)

theorem spawn_steady (spec : VmSpec) : Only Steady (VmUp.spawn spec) := by
  have build : Only Steady (VmConfig.build spec.vmId (VmPaths.forVm spec.vmsDir spec.vmId)
    (VmUp.vmConfig spec)) :=
    .bind (.fromExcept _) fun _ => .dir (steady_dir _ _)
  exact .bind build fun _ => create_steady _ _

theorem finish_steady (spec : VmSpec) : Only Steady (do
    Inject.run spec.vmId spec.sshPubkey spec.dns spec.dataVolumePath.isSome spec.publicIp
    whenSome spec.dataVolumePath fun path => Attach.run spec.vmId path
    VmUp.network spec
    VmUp.spawn spec) := by
  apply Only.bind (.perform fun _ moves => moves)
  intro _
  apply Only.bind (.whenSome fun _ _ => symlink_steady ..)
  intro _
  exact .bind ((VmUp.network_only spec).mono (wired_steady spec)) fun _ => spawn_steady spec

section Commands

variable {env : Env} {n : Id} {w : World}

/-- A program that moves no volume. -/
theorem steady_keeps {α : Type} {p : Sh α} (steady : Only Steady p) (w : World) :
    wp (watchingOn env n) p (fun _ w' => Moved nowhere w w') w :=
  checked_keeps (execOn env n) _ (Moved nowhere w) (fun _ w' steady _ => origin_steady steady w')
    (fun _ _ steady sofar => sofar.trans (moved_steady steady)) steady (.refl nowhere w)

/-- A part that moves no volume comes first. -/
theorem steady_then {α β : Type} {p : Sh α} {f : α → Sh β} {Q : Except Exn β → World → Prop}
    (steady : Only Steady p) (fails : ∀ e w', Moved nowhere w w' → Q (.error e) w')
    (rest : ∀ a w', Moved nowhere w w' → wp (watchingOn env n) (f a) Q w') :
    wp (watchingOn env n) (p >>= f) Q w := by
  refine checked_bind _ _ (fun _ => Moved nowhere w) ?_ rest
  refine checked_mono _ _ _ _ _ ?_ w (steady_keeps steady w)
  rintro (e | a) w' moved
  · exact fails e w' moved
  · exact moved

/-- A command that fails moves nothing. -/
theorem moved_error {c : Cmd} {e : Exn} (raised : (execOn env n c w).1 = .error e) :
    Moved nowhere w (execOn env n c w).2 := by
  refine { moved_host n c with has := fun n' k _ => ?_ }
  change ((exec env (.host n c) w).2.hosts n').HasLv k ↔ _
  rw [hosts_exec]
  split
  next here =>
    subst here
    rw [Host.HasLv, exec_error_lvs _ c _ e raised, Host.HasLv]
  next => rfl

/-- A volume is made, or the attempt leaves nothing. -/
def Makes {α : Type} (n : Id) (k : Str × Str) (w : World) : Except Exn α → World → Prop
  | .ok _, w' => Moved (at_ n k) w w' ∧ (w'.hosts n).HasLv k
  | .error _, w' => Moved nowhere w w'

/-- A command that moves one volume only. -/
theorem moved_one {c : Cmd} {k : Str × Str} (one : ∀ k', c.moves k' → k' = k) :
    Moved (at_ n k) w (execOn env n c w).2 :=
  (moved_host n c).mono fun _ k' moves => ⟨moves.1, one k' moves.2⟩

theorem clone_spec {vg origin : Str} (name : Str) (readonly : Bool)
    (there : (w.hosts n).HasLv (vg, origin)) :
    wp (watchingOn env n) (lvm (.snapshot vg origin name readonly)) (Makes n (vg, name) w) w := by
  rw [lvm, wp_perform]
  refine ⟨there, ?_⟩
  have moved : Moved (at_ n (vg, name)) w
      (execOn env n (.lvm (.snapshot vg origin name readonly)) w).2 :=
    moved_one fun k' moves => moves.symm
  cases done : (execOn env n (.lvm (.snapshot vg origin name readonly)) w).1 with
  | error e => exact moved_error done
  | ok a =>
    refine ⟨moved, ?_⟩
    change ((exec env (.host n _) w).2.hosts n).HasLv _
    rw [hosts_exec, if_pos rfl]
    exact (exec_snapshot _ _ _ _ _ _ done).2.2

variable (sound : ∀ k, (env.chance k).fails = false)

include sound

/-- A clone succeeds where its origin is there and its own name is free. -/
theorem clone_succeeds {vg origin name : Str} (readonly : Bool)
    (there : (w.hosts n).HasLv (vg, origin)) (free : ¬ (w.hosts n).HasLv (vg, name)) :
    (execOn env n (.lvm (.snapshot vg origin name readonly)) w).1 = .ok () := by
  obtain ⟨lv, found⟩ := Option.ne_none_iff_exists'.mp there
  have step : LvmCmd.step (.snapshot vg origin name readonly) (w.hosts n).lvs =
      some ((), (w.hosts n).lvs.insert (vg, name) ⟨lv.sizeMb, some origin, readonly,
        lv.content⟩) := by
    simp only [LvmCmd.step, found, if_pos (not_not.mp free)]
  change ((w.hosts n).exec (env.chance w.clock) (.lvm (.snapshot vg origin name readonly))).1 =
    .ok ()
  rw [exec_lvm _ _ _ (sound _) step]

theorem create_spec (vg pool name : Str) (sizeMb : Int) :
    wp (watchingOn env n) (Create.run vg pool name sizeMb) (Makes n (vg, name) w) w := by
  rw [Create.run, Lv.createThin, LawfulMonad.bind_assoc]
  simp only [pure_bind]
  rw [wp_bind, lvm, wp_perform]
  refine ⟨trivial, ?_⟩
  have moved : Moved (at_ n (vg, name)) w
      (execOn env n (.lvm (.createThin vg pool name sizeMb)) w).2 :=
    moved_one fun k' moves => moves.symm
  have made : (execOn env n (.lvm (.createThin vg pool name sizeMb)) w).1 = .ok () →
      ((execOn env n (.lvm (.createThin vg pool name sizeMb)) w).2.hosts n).HasLv (vg, name) := by
    intro done
    change ((exec env (.host n _) w).2.hosts n).HasLv _
    rw [hosts_exec, if_pos rfl]
    exact exec_createThin _ _ _ _ _ _ done
  cases done : (execOn env n (.lvm (.createThin vg pool name sizeMb)) w).1 with
  | error e => exact moved_error done
  | ok a =>
    -- the new volume is there to be formatted
    rw [onValue_ok, wp_bind, Lv.formatExt4, lvm, wp_perform]
    refine ⟨trivial, ?_⟩
    set w' := (execOn env n (.lvm (.createThin vg pool name sizeMb)) w).2
    have there : (w'.hosts n).HasLv (vg, name) := made done
    have formats : (execOn env n (.lvm (.mkfs vg name)) w').1 = .ok () := by
      change ((w'.hosts n).exec (env.chance w'.clock) (.lvm (.mkfs vg name))).1 = .ok ()
      rw [exec_lvm _ (.mkfs vg name) _ (sound _) (if_pos there)]
    have formatted : Moved nowhere w' (execOn env n (.lvm (.mkfs vg name)) w').2 :=
      moved_steady fun _ moves => moves
    rw [formats]
    exact ⟨moved.trans formatted.of_nowhere, (formatted.has _ _ not_false).mpr there⟩

theorem remove_spec (vg name : Str) :
    wp (watchingOn env n) (Lv.remove vg name) (fun r w' => r = .ok () ∧
      Moved (at_ n (vg, name)) w w' ∧
      ¬ (w'.hosts n).HasLv (vg, name)) w := by
  simp only [Lv.remove, Lv.exists_, Lv.listLvs, exceptPrivops, lvm, wp_bind, wp_tryCatch]
  rw [wp_perform]
  refine ⟨trivial, ?_⟩
  have listed : execOn env n (.lvm (.lvs .exists_ vg)) w =
      (.ok (Lvs.names (w.hosts n).lvs vg), (execOn env n (.lvm (.lvs .exists_ vg)) w).2) := by
    refine Prod.ext ?_ rfl
    change ((w.hosts n).exec (env.chance w.clock) (.lvm (.lvs .exists_ vg))).1 = _
    rw [exec_lvs _ _ _ _ (sound _)]
  have looked : Moved nowhere w (execOn env n (.lvm (.lvs .exists_ vg)) w).2 :=
    moved_steady fun _ moves => moves
  rw [listed]
  set w' := (execOn env n (.lvm (.lvs .exists_ vg)) w).2
  rw [onError_ok, onValue_ok, wp_pure, onValue_ok, wp_ite]
  -- `exists` comes first, and `lvremove` runs only on a volume that is there
  have there : (w.hosts n).HasLv (vg, name) ↔
      (Lvs.names (w.hosts n).lvs vg).contains name = true := by
    rw [List.contains_iff_mem, Lvs.mem_names, Host.HasLv]
  split
  next found =>
    rw [wp_perform]
    refine ⟨trivial, ?_⟩
    have has : (w'.hosts n).HasLv (vg, name) := (looked.has _ _ not_false).mpr (there.mpr found)
    have done : (execOn env n (.lvm (.remove vg name)) w').1 = .ok () := by
      change ((w'.hosts n).exec (env.chance w'.clock) (.lvm (.remove vg name))).1 = .ok ()
      rw [exec_remove _ _ _ _ (sound _) has]
    have moved : Moved (at_ n (vg, name)) w' (execOn env n (.lvm (.remove vg name)) w').2 :=
      moved_one fun k' moves => moves.symm
    refine ⟨done, looked.of_nowhere.trans moved, ?_⟩
    change ¬ ((exec env (.host n _) w').2.hosts n).HasLv _
    rw [hosts_exec, if_pos rfl]
    exact exec_remove_gone _ _ _ _ done
  next missing =>
    refine ⟨rfl, looked.of_nowhere, fun has => missing (there.mp ?_)⟩
    exact (looked.has _ _ not_false).mp has

/-! ### A VM brought up and taken down -/

/-- The root disk is there, whatever becomes of the rest. -/
theorem up_spec (spec : VmSpec) (there : (w.hosts n).HasLv (spec.vg, spec.rootfsOrigin))
    (other : spec.rootfsOrigin ≠ Names.rootfs spec.vmId) :
    wp (watchingOn env n) (VmUp.run spec) (fun _ w' =>
      Moved (at_ n (spec.vg, Names.rootfs spec.vmId)) w w' ∧
        (w'.hosts n).HasLv (spec.vg, Names.rootfs spec.vmId)) w := by
  simp only [VmUp.run, EnvSetup.run, Lv.clone, LawfulMonad.bind_assoc, pure_bind]
  -- the directory is made first, and that does not fail
  rw [wp_bind, dir, wp_perform]
  refine ⟨trivial, ?_⟩
  have made : (execOn env n (.dir spec.vmId .mkdir) w).1 = .ok () := by
    change ((w.hosts n).exec (env.chance w.clock) (.dir spec.vmId .mkdir)).1 = .ok ()
    rw [exec_dir _ spec.vmId .mkdir _ rfl]
  have stays : Moved nowhere w (execOn env n (.dir spec.vmId .mkdir) w).2 :=
    moved_steady (steady_dir _ _)
  rw [made, onValue_ok]
  -- an old root disk is removed, and a new one is cloned
  refine checked_bind _ _ (fun _ w' => Moved (at_ n (spec.vg, Names.rootfs spec.vmId)) w w' ∧
    ¬ (w'.hosts n).HasLv (spec.vg, Names.rootfs spec.vmId)) ?_ fun _ w' h => ?_
  · refine checked_mono _ _ _ _ _ ?_ _ (remove_spec sound spec.vg (Names.rootfs spec.vmId))
    rintro r w' ⟨rfl, moved, gone⟩
    exact ⟨stays.of_nowhere.trans moved, gone⟩
  · obtain ⟨moved, gone⟩ := h
    have origin : (w'.hosts n).HasLv (spec.vg, spec.rootfsOrigin) :=
      (moved.has n _ fun same => other (Prod.mk.inj same.2).2).mpr there
    have cloned : wp (watchingOn env n) _ (Makes n (spec.vg, Names.rootfs spec.vmId) w') w' :=
      clone_spec (Names.rootfs spec.vmId) false origin
    rw [wp_bind]
    rw [lvm, wp_perform] at cloned ⊢
    refine ⟨cloned.1, ?_⟩
    have done := clone_succeeds sound false origin gone
    have made := cloned.2
    rw [done] at made ⊢
    rw [onValue_ok]
    have rest : Only Steady (do
        symlink spec.vmId .rootfs (.device spec.vg (Names.rootfs spec.vmId))
        symlink spec.vmId .kernel (.file spec.kernel)
        symlink spec.vmId .sshKey (.file spec.sshKey)
        Inject.run spec.vmId spec.sshPubkey spec.dns spec.dataVolumePath.isSome spec.publicIp
        whenSome spec.dataVolumePath fun path => Attach.run spec.vmId path
        VmUp.network spec
        VmUp.spawn spec) :=
      .bind (symlink_steady ..) fun _ => .bind (symlink_steady ..) fun _ =>
        .bind (symlink_steady ..) fun _ =>
        finish_steady spec
    refine checked_mono _ _ _ _ _ ?_ _ (steady_keeps rest _)
    intro r w'' last
    exact ⟨(moved.trans made.1).trans last.of_nowhere, (last.has _ _ not_false).mpr made.2⟩

/-- Where `vm_down` fails it has not come to the root disk yet. -/
theorem down_spec (vmId : Id) (vg : Str) :
    wp (watchingOn env n) (VmDown.run vmId vg)
      (fun r w' => (∀ e, r = .error e → Moved nowhere w w') ∧
      (r = .ok () → Moved (at_ n (vg, Names.rootfs vmId)) w w' ∧
        ¬ (w'.hosts n).HasLv (vg, Names.rootfs vmId))) w := by
  have before : Only Steady (do
      whenTrue (← dir vmId .exists_) (Kill.run vmId)
      VmDown.networkDown vmId
      whenTrue (← dir vmId .exists_) (dir vmId .rmtree)) := by
    have safe {p : Sh Unit} (h : Only Steady p) : Only Steady (VmDown.safe p) :=
      .tryCatch h fun _ => .pure _
    have ends : Only Steady (VmDown.networkDown vmId) :=
      .bind (safe (.net (steady_net _))) fun _ => .bind (safe (.net (steady_net _))) fun _ =>
        safe (.net (steady_net _))
    have clears : Only Steady (do whenTrue (← dir vmId .exists_) (dir vmId .rmtree)) :=
      .bind (.dir (steady_dir _ _)) fun _ => .whenTrue fun _ => .dir (steady_dir _ _)
    apply Only.bind (.dir (steady_dir _ _))
    intro _
    apply Only.bind (.whenTrue fun _ => kill_steady vmId)
    intro _
    exact .bind ends fun _ => clears
  -- only the last part of a take-down is about a volume
  have parts : VmDown.run vmId vg = (do
      whenTrue (← dir vmId .exists_) (Kill.run vmId)
      VmDown.networkDown vmId
      whenTrue (← dir vmId .exists_) (dir vmId .rmtree)) >>=
        fun _ => Lv.remove vg (Names.rootfs vmId) := by
    simp only [VmDown.run, EnvTeardown.run, LawfulMonad.bind_assoc]
  rw [parts]
  refine steady_then before (fun e w' moved => ⟨fun _ _ => moved, nofun⟩) fun _ w' moved => ?_
  refine checked_mono _ _ _ _ _ ?_ w' (remove_spec sound vg (Names.rootfs vmId))
  rintro r w'' ⟨rfl, removed, gone⟩
  exact ⟨nofun, fun _ => ⟨moved.of_nowhere.trans removed, gone⟩⟩

end Commands

end Inventory

end Nyc
