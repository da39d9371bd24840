import Nyc.Client.Steps

/-!
# Stopping and taking down a VM whose process may have died

The kill of a dead process raises `PrivopsError`, which the killer does not swallow: the pid
file stays, and every later stop fails the same way. Where the process is still alive when it
is killed, stops and take-downs always return, and leave no pid file.
-/

namespace Nyc.Client

open Data Effects Effects.Program

/-- What the endpoints and the passes do to the VMs of a host. A reboot is a stop and a start;
a delete, a TTL reap and an orphan reap are a take-down each. -/
inductive Call where
  | bringUp (spec : VmSpec)
  | stop (vmId : Id)
  | start (vmId : Id)
  | takeDown (vmId : Id) (vg : Str)

namespace Call

def program : Call → Sh Unit
  | bringUp spec => VmUp.run spec
  | stop vmId => VmStop.run vmId
  | start vmId => VmStart.run vmId (VmUp.nsName vmId)
  | takeDown vmId vg => VmDown.run vmId vg

/-- The VM that the call stops or takes down. -/
def ends : Call → Option Id
  | stop vmId | takeDown vmId _ => some vmId
  | bringUp _ | start _ => none

end Call

def NoPidFile (vmId : Id) (h : Host) : Prop := (h.dirs.lookup vmId).bind VmDir.pid = none

instance (vmId : Id) (h : Host) : Decidable (NoPidFile vmId h) :=
  inferInstanceAs (Decidable ((h.dirs.lookup vmId).bind VmDir.pid = none))

/-- A call of a run: how it ended, and the host it left. -/
structure Done where
  call : Call
  result : Except Exn Unit
  host : Host

/-- A stop or a take-down returns normally and leaves no pid file. -/
def Done.Clean (d : Done) : Prop :=
  ∀ vmId, d.call.ends = some vmId → d.result = .ok () ∧ NoPidFile vmId d.host

instance (d : Done) : Decidable d.Clean :=
  match ends : d.call.ends with
  | none => .isTrue fun _ same => by rw [ends] at same; cases same
  | some vmId => decidable_of_iff (d.result = .ok () ∧ NoPidFile vmId d.host)
    ⟨fun clean _ same => by rw [ends] at same; cases same; exact clean,
      fun clean => clean vmId ends⟩

section Runs

variable (x : Nat → Chance)

/-- One call after the other, each whatever became of the ones before. -/
def history : List Call → Nat × Host → List Done
  | [], _ => []
  | c :: rest, s =>
    let (r, s') := run (execAt x) c.program s
    ⟨c, r, s'.2⟩ :: history rest s'

/-- The commands that the calls issue, each with the host that it finds. -/
def issued : List Call → Nat × Host → List (Cmd × (Nat × Host))
  | [], _ => []
  | c :: rest, s => trail (execAt x) c.program s ++ issued rest (run (execAt x) c.program s).2

/-- A process that is killed has not exited by itself before. -/
def killsAlive (c : Cmd) (s : Nat × Host) : Prop :=
  match c with
  | .kill pid => (s.2.reap (x s.1).gone).alive pid = true
  | _ => True

instance (c : Cmd) (s : Nat × Host) : Decidable (killsAlive x c s) :=
  match c with
  | .kill pid => inferInstanceAs (Decidable ((s.2.reap (x s.1).gone).alive pid = true))
  | .lvm _ | .dir _ _ | .net _ | .debugfs _ _ | .listDirs | .popen _ _ | .poll _ | .ssh _ _ _ =>
    .isTrue trivial

abbrev killing : OpSpec Cmd Cmd.Res Exn (Nat × Host → Prop) := gated (execAt x) (killsAlive x)

variable {x}

/-! ## Single commands -/

/-- A command in the VM's directory, which only that directory answers. -/
theorem dir_killing {vmId : Id} {c : DirCmd} {a : c.Res} {d : Option VmDir} {s : Nat × Host}
    {Q : Except Exn c.Res → Nat × Host → Prop} (step : c.step (s.2.dirs.lookup vmId) = some (a, d))
    (rest : ∀ s' : Nat × Host, s'.2.dirs.lookup vmId = d → Q (.ok a) s') :
    wp (killing x) (dir vmId c) Q s := by
  rw [dir, wp_perform]
  intro _
  have answer := exec_dir (x s.1) vmId c s.2 step
  simp only [execAt, answer]
  exact rest _ (by rw [lookup_putDir, if_pos rfl])

/-- Any other command leaves the directory as it is. -/
theorem other_killing (vmId : Id) {c : Cmd} (outside : ¬ c.inDir vmId) {s : Nat × Host}
    {Q : Except Exn c.Res → Nat × Host → Prop}
    (rest : ∀ s', s'.2.dirs.lookup vmId = s.2.dirs.lookup vmId → killsAlive x c s →
      Q (s.2.exec (x s.1) c).1 s') :
    wp (killing x) (perform c) Q s := by
  rw [wp_perform]
  exact fun alive => rest _ (exec_dirs (x s.1) c s.2 vmId outside) alive

/-- `kill` exits with zero for a process that is alive. -/
theorem exec_kill (y : Chance) (pid : Nat) (h : Host) (sound : y.fails = false)
    (alive : (h.reap y.gone).alive pid = true) : (h.exec y (.kill pid)).1 = .ok () := by
  simp only [Host.exec, Host.attempt, sound, Bool.false_and, Bool.false_eq_true, ite_false,
    Cmd.step, if_pos alive]

/-! ## The killer -/

/-- Returns normally, with the VM's directory as it was. -/
def Leaves (vmId : Id) (s : Nat × Host) {α : Type} (r : Except Exn α) (s' : Nat × Host) : Prop :=
  (∃ a, r = .ok a) ∧ s'.2.dirs.lookup vmId = s.2.dirs.lookup vmId

theorem stillThere_leaves (vmId : Id) (pid : Nat) (s : Nat × Host) :
    wp (killing x) (Kill.stillThere pid) (Leaves vmId s) s := by
  rw [Kill.stillThere, wp_tryCatch, wp_bind]
  refine other_killing vmId id fun s' same _ => ?_
  rcases exec_poll (x s.1) pid s.2 with there | gone
  · rw [there]
    exact ⟨⟨true, rfl⟩, same⟩
  · rw [gone]
    exact ⟨⟨false, rfl⟩, same⟩

theorem waitGone_leaves (vmId : Id) (pid polls : Nat) (s : Nat × Host) :
    wp (killing x) (Kill.waitGone pid polls) (Leaves vmId s) s := by
  induction polls generalizing s with
  | zero => exact ⟨⟨(), rfl⟩, rfl⟩
  | succ polls ih =>
    rw [Kill.waitGone, wp_bind]
    refine gated_mono _ _ _ _ _ ?_ s (stillThere_leaves vmId pid s)
    rintro _ s' ⟨⟨there, rfl⟩, same⟩
    rw [onValue_ok, wp_ite]
    split
    · refine gated_mono _ _ _ _ _ ?_ s' (ih s')
      exact fun r s'' h => ⟨h.1, h.2.trans same⟩
    · exact ⟨⟨(), rfl⟩, same⟩

/-- Here the condition is used: without it `kill` raises `PrivopsError`. -/
theorem terminate_leaves (sound : ∀ n, (x n).fails = false) (vmId : Id) (pid : Nat)
    (s : Nat × Host) : wp (killing x) (Kill.terminate pid) (Leaves vmId s) s := by
  rw [Kill.terminate, wp_tryCatch, wp_bind]
  refine other_killing vmId id fun s' same alive => ?_
  rw [exec_kill (x s.1) pid s.2 (sound s.1) alive, onValue_ok]
  refine gated_mono _ _ _ _ _ ?_ s' (waitGone_leaves vmId pid 30 s')
  rintro _ s'' ⟨⟨_, rfl⟩, same'⟩
  exact ⟨⟨(), rfl⟩, same'.trans same⟩

/-- The killer returns normally, and there is no pid file afterwards. -/
theorem kill_clean (sound : ∀ n, (x n).fails = false) (vmId : Id) (s : Nat × Host) :
    wp (killing x) (Kill.run vmId) (fun r s' => r = .ok () ∧ NoPidFile vmId s'.2) s := by
  rw [Kill.run, wp_bind]
  refine dir_killing rfl fun s' same => ?_
  rw [onValue_ok, wp_ite]
  cases file : (s.2.dirs.lookup vmId).bind VmDir.pid with
  -- no pid file, so nothing to unlink
  | none =>
    rw [if_neg (by simp)]
    exact ⟨rfl, (congrArg (Option.bind · VmDir.pid) same).trans file⟩
  | some pid =>
    rw [if_pos (by simp), wp_bind]
    refine dir_killing (a := pid) (d := s'.2.dirs.lookup vmId) ?_ fun s'' same' => ?_
    · rw [same]
      simp only [DirCmd.step, file, Option.map_some]
    · rw [onValue_ok, wp_bind]
      -- whatever the signals do, the host keeps its directories until the unlink
      have terminated : wp (killing x) (whenTrue (0 < pid) (Kill.terminate pid.toNat))
          (Leaves vmId s'') s'' := by
        rw [wp_whenTrue]
        split
        · exact terminate_leaves sound vmId pid.toNat s''
        · exact ⟨⟨(), rfl⟩, rfl⟩
      refine gated_mono _ _ _ _ _ ?_ s'' terminated
      rintro _ t ⟨⟨_, rfl⟩, -⟩
      refine dir_killing (a := ()) (d := (t.2.dirs.lookup vmId).map fun d => { d with pid := none })
        rfl fun t' after => ⟨rfl, ?_⟩
      rw [NoPidFile, after, Option.bind_map]
      cases t.2.dirs.lookup vmId <;> rfl

/-! ## The take-down -/

theorem safe_returns (p : Sh Unit) (s : Nat × Host) :
    wp (killing x) (VmDown.safe p) (fun r _ => r = .ok ()) s := by
  rw [VmDown.safe, wp_tryCatch]
  have any : wp (killing x) p (fun _ _ => True) s := by
    induction p generalizing s with
    | ret a => trivial
    | raise e => trivial
    | op c k ih => exact fun _ => ih _ _
  refine gated_mono _ _ p _ _ ?_ s any
  rintro (e | _) s' _ <;> rfl

theorem networkDown_returns (vmId : Id) (s : Nat × Host) :
    wp (killing x) (VmDown.networkDown vmId) (fun r _ => r = .ok ()) s := by
  rw [VmDown.networkDown, wp_bind]
  refine gated_mono _ _ _ _ _ ?_ s (safe_returns _ s)
  rintro _ s' rfl
  rw [onValue_ok, wp_bind]
  refine gated_mono _ _ _ _ _ ?_ s' (safe_returns _ s')
  rintro _ s'' rfl
  exact safe_returns _ s''

/-- A volume that was listed is there to be removed. -/
theorem remove_leaves (sound : ∀ n, (x n).fails = false) (vg name : Str) (vmId : Id)
    (s : Nat × Host) : wp (killing x) (Lv.remove vg name) (Leaves vmId s) s := by
  rw [Lv.remove, wp_bind, Lv.exists_, wp_bind, Lv.listLvs, exceptPrivops, wp_tryCatch, lvm,
    wp_perform]
  intro _
  simp only [execAt, exec_lvs _ _ _ _ (sound s.1), onError_ok, onValue_ok, wp_pure, wp_ite]
  split
  next listed =>
    have there := (Lvs.mem_names s.2.lvs vg name).mp (List.contains_iff_mem.mp listed)
    rw [lvm, wp_perform]
    intro _
    have removed := exec_remove (x (s.1 + 1)) vg name (s.2.reap (x s.1).gone) (sound _) there
    simp only [execAt, removed]
    exact ⟨⟨(), rfl⟩, rfl⟩
  next => exact ⟨⟨(), rfl⟩, rfl⟩

theorem envTeardown_clean (sound : ∀ n, (x n).fails = false) (vmId : Id) (vg : Str)
    (s : Nat × Host) :
    wp (killing x) (EnvTeardown.run vmId vg) (fun r s' => r = .ok () ∧ NoPidFile vmId s'.2) s := by
  rw [EnvTeardown.run, wp_bind]
  refine dir_killing rfl fun s' same => ?_
  rw [onValue_ok, wp_bind]
  have gone : wp (killing x) (whenTrue (s.2.dirs.lookup vmId).isSome (dir vmId .rmtree))
      (fun r s'' => r = .ok () ∧ s''.2.dirs.lookup vmId = none) s' := by
    rw [wp_whenTrue]
    split
    · exact dir_killing (a := ()) (d := none) rfl fun s'' same => ⟨rfl, same⟩
    next missing => exact ⟨rfl, same.trans (Option.not_isSome_iff_eq_none.mp missing)⟩
  refine gated_mono _ _ _ _ _ ?_ s' gone
  rintro _ s'' ⟨rfl, none⟩
  refine gated_mono _ _ _ _ _ ?_ s'' (remove_leaves sound vg _ vmId s'')
  rintro _ t ⟨⟨_, rfl⟩, same⟩
  exact ⟨rfl, by rw [NoPidFile, same, none]; rfl⟩

theorem vmDown_clean (sound : ∀ n, (x n).fails = false) (vmId : Id) (vg : Str) (s : Nat × Host) :
    wp (killing x) (VmDown.run vmId vg) (fun r s' => r = .ok () ∧ NoPidFile vmId s'.2) s := by
  rw [VmDown.run, wp_bind]
  refine dir_killing rfl fun s' _ => ?_
  rw [onValue_ok, wp_bind]
  have killed : wp (killing x) (whenTrue (s.2.dirs.lookup vmId).isSome (Kill.run vmId))
      (fun r _ => r = .ok ()) s' := by
    rw [wp_whenTrue]
    split
    · exact gated_mono _ _ _ _ _ (fun _ _ clean => clean.1) s' (kill_clean sound vmId s')
    · rfl
  refine gated_mono _ _ _ _ _ ?_ s' killed
  rintro _ s'' rfl
  rw [onValue_ok, wp_bind]
  refine gated_mono _ _ _ _ _ ?_ s'' (networkDown_returns vmId s'')
  rintro _ t rfl
  exact envTeardown_clean sound vmId vg t

/-! ## Runs -/

theorem call_clean (sound : ∀ n, (x n).fails = false) (c : Call) (s : Nat × Host)
    (alive : ∀ a ∈ trail (execAt x) c.program s, killsAlive x a.1 a.2) :
    (Done.mk c (run (execAt x) c.program s).1 (run (execAt x) c.program s).2.2).Clean := by
  intro vmId ends
  cases c with
  | bringUp spec => cases ends
  | start vmId' => cases ends
  | stop vmId' =>
    cases ends
    exact wp_gated _ _ _ _ s (kill_clean sound vmId s) alive
  | takeDown vmId' vg =>
    cases ends
    exact wp_gated _ _ _ _ s (vmDown_clean sound vmId vg s) alive

/-- Where a process is alive whenever it is killed, and no other privileged command fails, every
stop and every take-down of every run returns normally and leaves no pid file. -/
theorem stops_and_downs_return (x : Nat → Chance) (sound : ∀ n, (x n).fails = false)
    (calls : List Call) (s : Nat × Host) (alive : ∀ a ∈ issued x calls s, killsAlive x a.1 a.2) :
    ∀ d ∈ history x calls s, d.Clean := by
  induction calls generalizing s with
  | nil => exact fun _ there => absurd there List.not_mem_nil
  | cons c rest ih =>
    intro d there
    rcases List.mem_cons.mp there with rfl | later
    · exact call_clean sound c s fun a first => alive a (List.mem_append_left _ first)
    · exact ih _ (fun a later => alive a (List.mem_append_right _ later)) d later

end Runs

/-! ## A process that exits by itself -/

/-- A VM without data volume, peers or public address. -/
def sampleSpec : VmSpec where
  vmId := "v1"
  nodeId := "n1"
  vpcId := "vpc1"
  ip := "172.16.0.2"
  cidr := "172.16.0.0/16"
  dataVolumePath := none
  kernel := "/repo/assets/vmlinux"
  sshKey := "/repo/assets/id_ed25519"
  vmsDir := "/node/vms"
  vg := "nyc"
  nodeHost := "10.0.0.1"
  peerHosts := []
  dns := "1.1.1.1"
  sshPubkey := none
  vcpuCount := 1
  memMib := 512
  rootfsOrigin := GOLD_DEFAULT
  publicIp := none
  publicBridge := "pub0"
  sets := ⟨id, fun xs => .refl xs⟩

/-- A host with the golden root image. -/
def sampleHost : Host :=
  { Host.empty with lvs := AList.insert ("nyc", GOLD_DEFAULT) ⟨1024, none, true, .image⟩ ∅ }

/-- Every process exits after the first `n` commands. -/
def exitsAt (n m : Nat) : Chance := ⟨false, "", fun _ => n ≤ m⟩

theorem exit_unclean :
    ¬ ∀ d ∈ history (exitsAt 46) [.bringUp sampleSpec, .stop "v1"] (0, sampleHost), d.Clean := by
  decide +kernel

/-- The VM is brought up, its process exits, and the stop raises. -/
theorem stop_after_exit_raises :
    ¬ ∀ (x : Nat → Chance), (∀ n, (x n).fails = false) → ∀ calls s, ∀ d ∈ history x calls s,
      d.Clean :=
  fun clean => exit_unclean (clean (exitsAt 46) (fun _ => rfl) _ _)

/-- Brought up, stopped, started and taken down while the processes live. -/
def calmCalls : List Call :=
  [.bringUp sampleSpec, .stop "v1", .start "v1", .takeDown "v1" "nyc"]

theorem calm_kills : ∀ a ∈ issued (exitsAt 200) calmCalls (0, sampleHost),
    killsAlive (exitsAt 200) a.1 a.2 := by decide +kernel

theorem calm_calls_return :
    (history (exitsAt 200) calmCalls (0, sampleHost)).length = 4 ∧
      ∀ d ∈ history (exitsAt 200) calmCalls (0, sampleHost), d.Clean :=
  ⟨rfl, stops_and_downs_return (exitsAt 200) (fun _ => rfl) calmCalls (0, sampleHost) calm_kills⟩

end Nyc.Client
