import Nyc.Client.Steps
import Nyc.Cluster
import Nyc.Properties.Forwarding

/-!
# A volume's size

`PATCH /volumes/{id}` grows the LV, then the file system on it, then the row. The three steps
have no compensation: the row keeps up with the LV as long as `resize2fs` does not fail.
-/

namespace Nyc

open Data Effects Effects.Program Client

namespace Resize

open Api Forwarding

/-- The LV of a volume, on the node of its row. -/
def lvOf (cfg : Id → NodeConfig) (w : World) (row : VolumeRow) : Option Lv :=
  (w.hosts row.nodeId).lvs.lookup ((cfg row.nodeId).lvm.vgFor row.nodeId, Names.data row.id)

/-- The volume's row gives the virtual size of its LV. -/
def Agrees (cfg : Id → NodeConfig) (volumeId : Id) (w : World) : Prop :=
  ∃ row lv, volumeOf w.db volumeId = some row ∧ lvOf cfg w row = some lv ∧ lv.sizeMb = row.sizeMb

/-- The operation is a command that fails. -/
def Fails (env : Env) : Op → World → Prop
  | .host n c, w => ∃ e, (exec env (.host n c) w).1 = .error e
  | _, _ => False

/-- If the operation is a `resize2fs`, it does not exit non-zero. -/
def Grows (env : Env) : Op → World → Prop
  | .host _ (.lvm (.resize2fs _ _)), w => (env.chance w.clock).fails = false
  | _, _ => True

theorem Grows.quiet (env : Env) : Quiet (Grows env) :=
  ⟨fun _ _ _ => trivial, fun _ _ _ => trivial, fun _ => trivial⟩

theorem sound_quiet (env : Env) : Quiet fun o w => ¬ Fails env o w :=
  ⟨fun _ _ _ => not_false, fun _ _ _ => not_false, fun _ => not_false⟩

/-- The resize as the node of arrival serves it. -/
def resize (cfg : Id → NodeConfig) (hops : Nat) (nodeId volumeId : Id) (sizeMb : Int) :
    Py Response :=
  serve cfg hops nodeId (.resizeVolume volumeId ⟨sizeMb⟩)

/-- The resize succeeds, and row and LV have the size asked for. -/
structure Completes (env : Env) (cfg : Id → NodeConfig) (hops : Nat) (nodeId volumeId : Id)
    (sizeMb : Int) (w : World) : Prop where
  succeeds : succeeded (run (exec env) (resize cfg hops nodeId volumeId sizeMb) w).1
  agrees : Agrees cfg volumeId (run (exec env) (resize cfg hops nodeId volumeId sizeMb) w).2
  size : (volumeOf (run (exec env) (resize cfg hops nodeId volumeId sizeMb) w).2.db volumeId).map
    VolumeRow.sizeMb = some sizeMb

/-! ## The local handler -/

section

variable (env : Env) (self : Node) (row : VolumeRow) (sizeMb : Int) {w : World} {lv : Lv}
  (ok : Op → World → Prop) (Q : Except Exn Response → World → Prop)

/-- The volume's name on its node. -/
def keyOf (self : Node) (row : VolumeRow) : Str × Str :=
  (self.volumeVg row.nodeId, Names.data row.id)

abbrev extendOp (self : Node) (row : VolumeRow) (sizeMb : Int) : Op :=
  .host self.id (.lvm (.extend (keyOf self row).1 (keyOf self row).2 sizeMb))

abbrev growOp (self : Node) (row : VolumeRow) : Op :=
  .host self.id (.lvm (.resize2fs (keyOf self row).1 (keyOf self row).2))

abbrev updateOp (row : VolumeRow) (sizeMb : Int) : Op :=
  .update .volumes (fun r => r.id = row.id) fun r => { r with sizeMb := sizeMb }

/-- The three steps, one after the other. -/
theorem wp_resizeLocal :
    wp (checked (exec env) ok) (Volumes.resizeLocal self row sizeMb) Q w ↔
      ok (extendOp self row sizeMb) w ∧
      onValue (fun _ w₁ => ok (growOp self row) w₁ ∧
        onValue (fun _ w₂ => ok (updateOp row sizeMb) w₂ ∧
          onValue (fun _ => Q (.ok (.volume { row with sizeMb := sizeMb }))) Q
            (exec env (updateOp row sizeMb) w₂).1 (exec env (updateOp row sizeMb) w₂).2) Q
          (exec env (growOp self row) w₁).1 (exec env (growOp self row) w₁).2) Q
        (exec env (extendOp self row sizeMb) w).1 (exec env (extendOp self row sizeMb) w).2 := by
  simp only [Volumes.resizeLocal, Lv.extend, lvm, update, wp_bind, wp_sh, wp_perform, wp_pure]
  rfl

/-- A command that fails leaves the database and every LV as they are. -/
theorem failed_frame {n : Id} {c : Cmd} {e : Exn} (failed : (exec env (.host n c) w).1 = .error e) :
    (exec env (.host n c) w).2.db = w.db ∧
      ∀ n', ((exec env (.host n c) w).2.hosts n').lvs = (w.hosts n').lvs := by
  refine ⟨rfl, fun n' => ?_⟩
  rw [hosts_exec]
  split
  next same =>
    subst same
    exact exec_error_lvs _ _ _ e failed
  · rfl

variable {row sizeMb}

/-- `lvextend` fails where `sudo` does, and where the volume is as large already. -/
theorem extend_refused (there : (w.hosts self.id).lvs.lookup (keyOf self row) = some lv)
    (refused : (env.chance w.clock).fails = true ∨ sizeMb ≤ lv.sizeMb) :
    ∃ e, (exec env (extendOp self row sizeMb) w).1 = .error e := by
  rw [extendOp, exec_host]
  rcases refused with fails | large
  · rw [exec_of_fails _ _ _ rfl fails]
    exact ⟨_, rfl⟩
  · refine exec_of_none _ _ _ ?_
    have small : ¬ lv.sizeMb < sizeMb := by omega
    simp only [Cmd.step, LvmCmd.step, reap_lvs, there, small, if_false, Option.map_none]

/-- Otherwise the volume has the new size. -/
theorem extend_done (there : (w.hosts self.id).lvs.lookup (keyOf self row) = some lv)
    (sound : (env.chance w.clock).fails = false) (larger : lv.sizeMb < sizeMb) :
    (exec env (extendOp self row sizeMb) w).1 = .ok () ∧
      ((exec env (extendOp self row sizeMb) w).2.hosts self.id).lvs.lookup (keyOf self row) =
        some { lv with sizeMb := sizeMb } := by
  have step : LvmCmd.step (.extend (keyOf self row).1 (keyOf self row).2 sizeMb)
      (w.hosts self.id).lvs =
      some ((), (w.hosts self.id).lvs.insert (keyOf self row) { lv with sizeMb := sizeMb }) := by
    simp only [LvmCmd.step, there, larger, if_true]
  have ran := Client.exec_lvm (env.chance w.clock) _ (w.hosts self.id) sound step
  constructor
  · exact congrArg Prod.fst ran
  · rw [extendOp, hosts_exec, if_pos rfl, ran]
    exact AList.lookup_insert _

/-- `resize2fs` leaves the size of the volume alone. -/
theorem grow_keeps (n : Id) (key : Str × Str) :
    ((exec env (growOp self row) w).2.hosts n).lvs.lookup key = (w.hosts n).lvs.lookup key := by
  rw [growOp, hosts_exec]
  split
  next same =>
    subst same
    exact exec_lookup _ _ _ _ not_false
  · rfl

/-- `resize2fs` on a volume fails exactly where `sudo` does. -/
theorem grow_answer (there : (w.hosts self.id).lvs.lookup (keyOf self row) = some lv) :
    (exec env (growOp self row) w).1 =
      if (env.chance w.clock).fails then .error .privops else .ok () := by
  cases fails : (env.chance w.clock).fails with
  | true =>
    exact congrArg Prod.fst (exec_of_fails (env.chance w.clock) _ (w.hosts self.id) rfl fails)
  | false =>
    have has : (w.hosts self.id).HasLv (keyOf self row) := by
      rw [Host.HasLv, there]
      exact Option.some_ne_none lv
    exact exec_resize2fs (env.chance w.clock) _ _ (w.hosts self.id) fails has

/-- The row gets the new size. -/
theorem update_row {row : VolumeRow} (found : volumeOf w.db row.id = some row) :
    (∃ n, (exec env (updateOp row sizeMb) w).1 = .ok n) ∧
      (exec env (updateOp row sizeMb) w).2.hosts = w.hosts ∧
      volumeOf (exec env (updateOp row sizeMb) w).2.db row.id = some { row with
        sizeMb := sizeMb } := by
  obtain ⟨rows, written, ran⟩ := exec_update env w .volumes (fun r => r.id = row.id)
    (fun r => { r with sizeMb := sizeMb }) (by
      intro col there r
      obtain rfl := List.mem_singleton.mp there
      rfl)
  rw [updateOp, ran]
  refine ⟨⟨_, rfl⟩, rfl, ?_⟩
  rw [volumeOf, tick_db, setTable_self]
  refine Table.get_of_key rows VolumeRow.id (List.mem_singleton_self _) ?_ (decide_eq_true rfl)
    fun b _ same => of_decide_eq_true same
  exact (Table.mem_update written).mpr
    ⟨row, (Table.get_some found).1, if_pos (decide_eq_true rfl)⟩

end

section

variable {env : Env} {cfg : Id → NodeConfig} {hops : Nat} {nodeId volumeId : Id} {sizeMb :
  Int} {w : World}
  {row : VolumeRow} {lv : Lv}

/-- The process on the node of the volume. -/
def ownerOf (cfg : Id → NodeConfig) (row : VolumeRow) : Node := ⟨row.nodeId, cfg row.nodeId⟩

/-- A resize that gets to its node is the local handler's, some lookups later. -/
theorem served (found : volumeOf w.db volumeId = some row)
    (arrives : Arrives w.db hops nodeId row.nodeId) :
    ∃ k, ∀ ok, Quiet ok → ∀ Q : Except Exn Response → World → Prop,
      (∀ e, Q (.error (.http (errorBody e).1 (errorBody e).2)) = Q (.error e)) →
      ((∀ a ∈ trail (exec env) (resize cfg hops nodeId volumeId sizeMb) w, ok a.1 a.2) ∧
        Q (run (exec env) (resize cfg hops nodeId volumeId sizeMb) w).1
          (run (exec env) (resize cfg hops nodeId volumeId sizeMb) w).2 ↔
      wp (checked (exec env) ok) (Volumes.resizeLocal (ownerOf cfg row) row sizeMb) Q
        (w.ticks k)) := by
  have bound : boundTo w.db (.resizeVolume volumeId ⟨sizeMb⟩) = some row.nodeId := by
    rw [boundTo, found, Option.map_some]
  obtain ⟨k, runs⟩ := serve_arrives env cfg bound arrives
  refine ⟨k, fun ok quiet Q relays => ?_⟩
  have local_ : handler (ownerOf cfg row) w.db (.resizeVolume volumeId ⟨sizeMb⟩) =
      Volumes.resizeLocal (ownerOf cfg row) row sizeMb := by
    simp only [handler, handler.onRow, found, Option.elim_some]
  rw [← wp_checked, resize, runs ok quiet, wp_answered _ _ _ _ relays]
  rw [← local_, ownerOf]

/-- Only the database and the LVs count. -/
theorem agrees_of_eq {w' : World} (agrees : Agrees cfg volumeId w) (db : w'.db = w.db)
    (lvs : ∀ n, (w'.hosts n).lvs = (w.hosts n).lvs) : Agrees cfg volumeId w' := by
  obtain ⟨row, lv, found, there, same⟩ := agrees
  refine ⟨row, lv, ?_, ?_, same⟩
  · rw [db, found]
  · rw [lvOf, lvs]
    exact there

/-- Where `lvextend` and `resize2fs` succeed, so does the resize. -/
theorem resized (found : volumeOf w.db volumeId = some row) (there : lvOf cfg w row = some lv)
    (larger : lv.sizeMb < sizeMb) (sound : (env.chance w.clock).fails = false)
    (sound' : (env.chance (w.clock + 1)).fails = false) :
    ∃ w₁ w₂ w₃ response, w₁.clock = w.clock + 1 ∧ Agrees cfg volumeId w₃ ∧
      (volumeOf w₃.db volumeId).map VolumeRow.sizeMb = some sizeMb ∧
      (exec env (extendOp (ownerOf cfg row) row sizeMb) w).1 = .ok () ∧
      (exec env (growOp (ownerOf cfg row) row) w₁).1 = .ok () ∧
      ∀ ok Q, wp (checked (exec env) ok) (Volumes.resizeLocal (ownerOf cfg row) row sizeMb) Q w ↔
        ok (extendOp (ownerOf cfg row) row sizeMb) w ∧ ok (growOp (ownerOf cfg row) row) w₁ ∧
        ok (updateOp row sizeMb) w₂ ∧ Q (.ok response) w₃ := by
  obtain rfl : row.id = volumeId := of_decide_eq_true (Table.get_some found).2
  obtain ⟨extends_, size⟩ := extend_done env (ownerOf cfg row) there sound larger
  -- The world after each of the three steps.
  let w₁ := (exec env (extendOp (ownerOf cfg row) row sizeMb) w).2
  let w₂ := (exec env (growOp (ownerOf cfg row) row) w₁).2
  have clock : w₁.clock = w.clock + 1 := exec_clock env w _
  have grows : (exec env (growOp (ownerOf cfg row) row) w₁).1 = .ok () := by
    rw [grow_answer env (ownerOf cfg row) size, clock, sound']
    rfl
  have found' : volumeOf w₂.db row.id = some row := found
  obtain ⟨⟨n, updates⟩, hosts, written⟩ := update_row env found'
  refine ⟨w₁, w₂, (exec env (updateOp row sizeMb) w₂).2, .volume { row with
    sizeMb := sizeMb }, clock,
    ?_, ?_, extends_, grows, fun ok Q => ?_⟩
  · refine ⟨_, { lv with sizeMb := sizeMb }, written, ?_, rfl⟩
    rw [lvOf, hosts]
    exact (grow_keeps env (ownerOf cfg row) row.nodeId _).trans size
  · rw [written]
    rfl
  · rw [wp_resizeLocal, extends_, onValue_ok, grows, onValue_ok, updates, onValue_ok]

/-- Asked for a larger size, with commands that succeed, a resize that gets to its node
completes. -/
theorem completes (found : volumeOf w.db volumeId = some row) (there : lvOf cfg w row = some lv)
    (larger : lv.sizeMb < sizeMb) (arrives : Arrives w.db hops nodeId row.nodeId)
    (sound : ∀ n, (env.chance n).fails = false) :
    Completes env cfg hops nodeId volumeId sizeMb w := by
  obtain ⟨k, runs⟩ := served found arrives
  obtain ⟨w₁, w₂, w₃, response, _, agrees, size, _, _, ends⟩ :=
    resized (w := w.ticks k) found there larger (sound _) (sound _)
  have all := (runs (fun _ _ => True) .any
    (fun r w' => succeeded r ∧ Agrees cfg volumeId w' ∧
      (volumeOf w'.db volumeId).map VolumeRow.sizeMb = some sizeMb) fun _ => rfl).mpr
    ((ends _ _).mpr ⟨trivial, trivial, trivial, trivial, agrees, size⟩)
  exact ⟨all.2.1, all.2.2.1, all.2.2.2⟩

/-- Row and LV agree when the request ends; and where a larger size was asked for and a command
failed, the same request completes once commands succeed. -/
structure Robust (env : Env) (cfg : Id → NodeConfig) (hops : Nat) (nodeId volumeId : Id)
    (sizeMb : Int) (w : World) : Prop where
  agrees : Agrees cfg volumeId (run (exec env) (resize cfg hops nodeId volumeId sizeMb) w).2
  repeats : (∃ row, volumeOf w.db volumeId = some row ∧ row.sizeMb < sizeMb) →
    (∃ a ∈ trail (exec env) (resize cfg hops nodeId volumeId sizeMb) w, Fails env a.1 a.2) →
    ∀ env', (∀ n, (env'.chance n).fails = false) → Completes env' cfg hops nodeId volumeId sizeMb
      (run (exec env) (resize cfg hops nodeId volumeId sizeMb) w).2

/-- A request that does not get to its node does nothing. -/
theorem lost (agrees : Agrees cfg volumeId w) {k : Nat} {e : Exn}
    (runs : RunsAs env (resize cfg hops nodeId volumeId sizeMb) w (throw e) (w.ticks k)) :
    Robust env cfg hops nodeId volumeId sizeMb w ∧
      ∀ a ∈ trail (exec env) (resize cfg hops nodeId volumeId sizeMb) w, Grows env a.1 a.2 := by
  have along : ∀ ok, Quiet ok → wp (checked (exec env) ok) (resize cfg hops nodeId volumeId sizeMb)
      (fun _ _ => True) w := by
    intro ok quiet
    rw [runs ok quiet]
    exact trivial
  refine ⟨⟨?_, fun _ failed => ?_⟩, ((wp_checked _ _ _ _ _).mp (along _ (Grows.quiet env))).1⟩
  · rw [runs.run_eq]
    exact agrees
  · obtain ⟨a, there, fails⟩ := failed
    exact absurd fails (((wp_checked _ _ _ _ _).mp (along _ (sound_quiet env))).1 a there)

/-- A volume's row keeps up with its LV through a resize, and a failed resize can be repeated, if
and only if no `resize2fs` of the request exits non-zero. -/
theorem robust_iff (env : Env) (cfg : Id → NodeConfig) (hops : Nat) (nodeId volumeId : Id)
    (sizeMb : Int) (w : World) (agrees : Agrees cfg volumeId w) :
    Robust env cfg hops nodeId volumeId sizeMb w ↔
      ∀ a ∈ trail (exec env) (resize cfg hops nodeId volumeId sizeMb) w, Grows env a.1 a.2 := by
  obtain ⟨row, lv, found, there, same⟩ := id agrees
  by_cases arrives : Arrives w.db hops nodeId row.nodeId
  case neg =>
    have bound : boundTo w.db (.resizeVolume volumeId ⟨sizeMb⟩) = some row.nodeId := by
      rw [boundTo, found, Option.map_some]
    obtain ⟨k, e, runs⟩ := serve_lost env cfg bound arrives
    exact iff_of_true (lost agrees runs).1 (lost agrees runs).2
  obtain ⟨k, runs⟩ := served found arrives
  by_cases refused : (env.chance (w.ticks k).clock).fails = true ∨ sizeMb ≤ lv.sizeMb
  · -- `lvextend` fails: nothing has changed.
    obtain ⟨e, fails⟩ := extend_refused env (ownerOf cfg row) (w := w.ticks k) there refused
    have frame := failed_frame env (w := w.ticks k) fails
    have ends : ∀ ok Q, wp (checked (exec env) ok)
        (Volumes.resizeLocal (ownerOf cfg row) row sizeMb) Q
        (w.ticks k) ↔ ok (extendOp (ownerOf cfg row) row sizeMb) (w.ticks k) ∧
          Q (.error e) (exec env (extendOp (ownerOf cfg row) row sizeMb) (w.ticks k)).2 := by
      intro ok Q
      rw [wp_resizeLocal, fails, onValue_error]
    have after := (runs (Grows env) (Grows.quiet env) (fun _ w' => w'.db = w.db ∧
      ∀ n, (w'.hosts n).lvs = (w.hosts n).lvs) fun _ => rfl).mpr ((ends _ _).mpr ⟨trivial, frame⟩)
    obtain ⟨grows, db, lvs⟩ := after
    refine iff_of_true ⟨agrees_of_eq agrees db lvs, fun larger _ env' sound => ?_⟩ grows
    obtain ⟨row', found', larger⟩ := larger
    obtain rfl : row = row' := Option.some.inj (found.symm.trans found')
    have found₁ := (congrArg (volumeOf · volumeId) db).trans found
    have there₁ := (congrArg (AList.lookup (keyOf (ownerOf cfg row) row))
      (lvs row.nodeId)).trans there
    exact completes found₁ there₁ (same.symm ▸ larger) (db.symm ▸ arrives) sound
  have sound : (env.chance (w.ticks k).clock).fails = false := by
    rw [not_or] at refused
    simpa using refused.1
  have larger : lv.sizeMb < sizeMb := by
    rw [not_or] at refused
    omega
  by_cases stuck : (env.chance ((w.ticks k).clock + 1)).fails = true
  · -- `lvextend` succeeds and `resize2fs` fails: the row keeps the old size.
    obtain ⟨extends_, size⟩ := extend_done env (ownerOf cfg row) (w := w.ticks k) there sound larger
    let w₁ := (exec env (extendOp (ownerOf cfg row) row sizeMb) (w.ticks k)).2
    let w₂ := (exec env (growOp (ownerOf cfg row) row) w₁).2
    have clock : w₁.clock = (w.ticks k).clock + 1 := exec_clock env (w.ticks k) _
    have fails : (exec env (growOp (ownerOf cfg row) row) w₁).1 = .error .privops := by
      rw [grow_answer env (ownerOf cfg row) size, clock, stuck]
      rfl
    have ends : ∀ ok Q, wp (checked (exec env) ok)
        (Volumes.resizeLocal (ownerOf cfg row) row sizeMb) Q
        (w.ticks k) ↔ ok (extendOp (ownerOf cfg row) row sizeMb) (w.ticks k) ∧
          ok (growOp (ownerOf cfg row) row) w₁ ∧ Q (.error .privops) w₂ := by
      intro ok Q
      rw [wp_resizeLocal, extends_, onValue_ok, fails, onValue_error]
    have apart : ¬ Agrees cfg volumeId w₂ := by
      rintro ⟨row', lv', found', there', same'⟩
      obtain rfl : row = row' := Option.some.inj (found.symm.trans found')
      have kept : lvOf cfg w₂ row = some { lv with sizeMb := sizeMb } :=
        (grow_keeps env (ownerOf cfg row) row.nodeId _).trans size
      have sizes : sizeMb = lv'.sizeMb :=
        congrArg Lv.sizeMb (Option.some.inj (kept.symm.trans there'))
      omega
    refine iff_of_false (fun robust => ?_) (fun grows => ?_)
    · have after := (runs (fun _ _ => True) .any
        (fun _ w' => ¬ Agrees cfg volumeId w') fun _ => rfl).mpr ((ends _ _).mpr ⟨trivial,
          trivial, apart⟩)
      exact after.2 robust.agrees
    · have all := (runs (Grows env) (Grows.quiet env) (fun _ _ => True) fun _ =>
        rfl).mp ⟨grows, trivial⟩
      have fine : (env.chance w₁.clock).fails = false := ((ends _ _).mp all).2.1
      rw [clock, stuck] at fine
      cases fine
  · -- Both succeed, and the row follows.
    obtain ⟨w₁, w₂, w₃, response, clock, agrees', _, extends_, grows, ends⟩ :=
      resized (w := w.ticks k) found there larger sound
        (Bool.eq_false_iff.mpr stuck)
    have sound' : (env.chance w₁.clock).fails = false := by
      rw [clock]
      exact Bool.eq_false_iff.mpr stuck
    have after := (runs (Grows env) (Grows.quiet env) (fun _ w' => Agrees cfg volumeId w')
      fun _ => rfl).mpr
      ((ends _ _).mpr ⟨trivial, sound', trivial, agrees'⟩)
    have fine := (runs _ (sound_quiet env) (fun _ _ => True) fun _ => rfl).mpr
      ((ends _ _).mpr ⟨?_, ?_, not_false, trivial⟩)
    · refine iff_of_true ⟨after.2, fun _ failed => ?_⟩ after.1
      obtain ⟨a, member, fails⟩ := failed
      exact absurd fails (fine.1 a member)
    · rintro ⟨e, fails⟩
      cases extends_.symm.trans fails
    · rintro ⟨e, fails⟩
      cases grows.symm.trans fails

end

/-! ## A resize that gets stuck -/

instance (env : Env) (o : Op) (w : World) : Decidable (Grows env o w) := by
  unfold Grows
  split <;> infer_instance

/-- Node `n1` with a volume of 64 MiB. -/
def sized : World where
  db := Function.update Sample.fresh.db .volumes
    ⟨[⟨"d1", "n1", "home", 64, "/dev/nyc-n1/data-d1", "ready", 0⟩], by decide⟩
  hosts := fun _ => { Client.Host.empty with
    lvs := AList.insert ("nyc-n1", "data-d1") ⟨64, none, false, .ext4⟩ ∅ }
  clock := 0

/-- The command at the given place in the run fails. -/
def failsAt (n : Nat) : Env := { Sample.env with chance := fun i => ⟨i = n, "", fun _ => false⟩ }

theorem sized_agrees : Agrees Sample.cluster "d1" sized :=
  ⟨⟨"d1", "n1", "home", 64, "/dev/nyc-n1/data-d1", "ready", 0⟩, ⟨64, none, false, .ext4⟩,
    by decide +kernel, by decide +kernel, rfl⟩

/-- The LV has grown to 128 MiB, `resize2fs` fails, and the row stays at 64. -/
theorem resize_gets_stuck :
    ¬ ∀ (env : Env) (cfg : Id → NodeConfig) (hops : Nat) (nodeId volumeId : Id) (sizeMb :
      Int) (w : World),
      Agrees cfg volumeId w → Robust env cfg hops nodeId volumeId sizeMb w := by
  intro robust
  obtain ⟨row, lv, found, there, same⟩ :=
    (robust (failsAt 2) Sample.cluster 0 "n1" "d1" 128 sized sized_agrees).agrees
  have size : (volumeOf (run (exec (failsAt 2)) (resize Sample.cluster 0 "n1" "d1" 128) sized).2.db
      "d1").map VolumeRow.sizeMb = some 64 := by decide +kernel
  have grown : (volumeOf (run (exec (failsAt 2)) (resize Sample.cluster 0 "n1" "d1" 128) sized).2.db
      "d1").bind (fun row => (lvOf Sample.cluster (run (exec (failsAt 2))
        (resize Sample.cluster 0 "n1" "d1" 128) sized).2 row).map Lv.sizeMb) = some 128 := by
    decide +kernel
  rw [found, Option.map_some, Option.some_inj] at size
  rw [found, Option.bind_some, there, Option.map_some, Option.some_inj] at grown
  omega

/-- Where `lvextend` fails, the resize can be repeated. -/
theorem resize_repeats : Robust (failsAt 1) Sample.cluster 0 "n1" "d1" 128 sized :=
  (robust_iff (failsAt 1) Sample.cluster 0 "n1" "d1" 128 sized sized_agrees).mpr (by decide +kernel)

end Resize

end Nyc
