import Nyc.Client.Footprint
import Nyc.Client.Steps

/-!
# Processes and pid files of a host

Only `popen` starts a process, and only three commands on a VM's directory touch its pid file.
-/

namespace Nyc.Client

open Data

def Host.pidFile (h : Host) (vmId : Id) : Option Int := (h.dirs.lookup vmId).bind VmDir.pid

theorem reap_still (h : Host) (gone : Nat → Bool) (still : ∀ pid, gone pid = false) :
    h.reap gone = h := by
  have all : (h.procs.filter fun p => !gone p.pid) = h.procs :=
    List.filter_eq_self.mpr fun p _ => by rw [still]; rfl
  rw [Host.reap, all]

/-- Where no process exits by itself, a command does its step or nothing. -/
theorem exec_still (x : Chance) (still : ∀ pid, x.gone pid = false) (c : Cmd) (h : Host) :
    (∃ e, (e = .privops ∨ e = c.exn) ∧ h.exec x c = (.error e, h)) ∨
      ∃ a h', c.step x.out h = some (a, h') ∧ h.exec x c = (.ok a, h') := by
  rw [Host.exec, reap_still h x.gone still, Host.attempt]
  split
  · exact .inl ⟨_, .inl rfl, rfl⟩
  · cases step : c.step x.out h with
    | none => exact .inl ⟨_, .inr rfl, rfl⟩
    | some r => exact .inr ⟨r.1, r.2, rfl, rfl⟩

theorem step_pid (vmId : Id) (c : DirCmd) (quiet : (Cmd.dir vmId c).Quiet) {d d' : Option VmDir}
    {a : c.Res} (step : c.step d = some (a, d')) : d'.bind VmDir.pid = d.bind VmDir.pid := by
  cases c with
  | writePid pid | unlinkPid | rmtree => cases quiet
  | exists_ | hasLink l | hasPid =>
    cases step
    rfl
  | mkdir =>
    cases step
    cases d <;> rfl
  | readPid =>
    obtain ⟨_, -, same⟩ := Option.map_eq_some_iff.mp step
    cases same
    rfl
  | symlink l target =>
    cases d with
    | none => cases step
    | some d =>
      simp only [DirCmd.step] at step
      split at step <;> cases step
      rfl
  | unlink l | writeConfig c | openLog =>
    cases d with
    | none => cases step
    | some d =>
      cases step
      rfl

/-- No process is new. -/
structure Fewer (h h' : Host) : Prop where
  procs : h'.procs.Sublist h.procs
  nextPid : h'.nextPid = h.nextPid

/-- What a quiet command may do to the processes, and what it leaves. -/
structure Calm (h h' : Host) : Prop extends Fewer h h' where
  pidFile : ∀ vmId, h'.pidFile vmId = h.pidFile vmId

theorem Fewer.refl (h : Host) : Fewer h h := ⟨.refl _, rfl⟩

theorem Calm.refl (h : Host) : Calm h h := ⟨.refl h, fun _ => rfl⟩

theorem calm_step (out : Str) (c : Cmd) (quiet : c.Quiet) {h h' : Host} {a : c.Res}
    (step : c.step out h = some (a, h')) : Calm h h' := by
  cases c with
  | popen vmId ns => cases quiet
  | dir vmId c =>
    obtain ⟨⟨a', d⟩, done, same⟩ := Option.map_eq_some_iff.mp step
    cases same
    refine ⟨⟨.refl _, rfl⟩, fun vmId' => ?_⟩
    rw [Host.pidFile, Host.pidFile, lookup_putDir]
    split
    next same => rw [same, step_pid vmId c quiet done]
    next => rfl
  | lvm c | net c =>
    obtain ⟨_, -, same⟩ := Option.map_eq_some_iff.mp step
    cases same
    exact ⟨⟨.refl _, rfl⟩, fun _ => rfl⟩
  -- a session edits the root disk only
  | debugfs vmId session =>
    obtain ⟨h'', edited, same⟩ := Option.map_eq_some_iff.mp step
    cases same
    unfold Host.editRootfs at edited
    repeat' split at edited
    all_goals cases edited
    exact ⟨⟨.refl _, rfl⟩, fun _ => rfl⟩
  | kill pid =>
    simp only [Cmd.step] at step
    split at step <;> cases step
    exact ⟨⟨List.filter_sublist, rfl⟩, fun _ => rfl⟩
  | poll pid =>
    simp only [Cmd.step] at step
    split at step <;> cases step
    exact ⟨⟨.refl _, rfl⟩, fun _ => rfl⟩
  | listDirs | ssh ip key script =>
    cases step
    exact ⟨⟨.refl _, rfl⟩, fun _ => rfl⟩

/-- A quiet command, whatever exits by itself. -/
theorem calm_exec (x : Chance) (c : Cmd) (quiet : c.Quiet) (h : Host) : Calm h (h.exec x c).2 := by
  have reaped : (h.reap x.gone).procs.Sublist h.procs := List.filter_sublist
  unfold Host.exec Host.attempt
  split
  · exact ⟨⟨reaped, rfl⟩, fun _ => rfl⟩
  · split
    next a h' step =>
      have calm := calm_step x.out c quiet step
      exact ⟨⟨calm.procs.trans reaped, calm.nextPid⟩, calm.pidFile⟩
    next => exact ⟨⟨reaped, rfl⟩, fun _ => rfl⟩

/-- Only `popen` starts a process. -/
theorem procs_exec (x : Chance) (c : Cmd) (h : Host) (starts : ∀ vmId ns, c ≠ .popen vmId ns) :
    (h.exec x c).2.procs.Sublist h.procs := by
  have reaped : (h.reap x.gone).procs.Sublist h.procs := List.filter_sublist
  cases c with
  | popen vmId ns => exact absurd rfl (starts vmId ns)
  | dir vmId c =>
    unfold Host.exec Host.attempt
    split
    · exact reaped
    · split
      next a h' step =>
        obtain ⟨_, -, same⟩ := Option.map_eq_some_iff.mp step
        cases same
        exact reaped
      next => exact reaped
  | lvm c => exact (calm_exec x (.lvm c) trivial h).procs
  | net c => exact (calm_exec x (.net c) trivial h).procs
  | debugfs vmId session => exact (calm_exec x (.debugfs vmId session) trivial h).procs
  | kill pid => exact (calm_exec x (.kill pid) trivial h).procs
  | poll pid => exact (calm_exec x (.poll pid) trivial h).procs
  | listDirs => exact (calm_exec x .listDirs trivial h).procs
  | ssh ip key script => exact (calm_exec x (.ssh ip key script) trivial h).procs

end Nyc.Client
