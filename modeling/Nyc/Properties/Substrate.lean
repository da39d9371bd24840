import Nyc.Client.Pool
import Nyc.Client.Steps

/-!
# The start of a node, again

`pool.ensure` is a chain of check-then-act steps. Each check guards one step, except the last:
the golden image stands for the base volume, its contents and the snapshot. A start that stops
between the volume and its snapshot leaves what no later start gets past.
-/

namespace Nyc

open Data Effects Effects.Program Client Client.Pool

namespace Substrate

/-! ## One command -/

section Rules

variable {fails : Nat → Bool} {ok : PoolCmd → Nat × Machine → Prop} {s : Nat × Machine}

theorem wp_onMachine {l α : Type} (Φ : OpSpec PoolCmd PoolCmd.Res Exn l) (p : Sh α)
    (Q : Except Exn α → l) :
    wp Φ (onMachine p) Q = wp (fun c Q => Φ (.host c) Q) p Q := by
  induction p with
  | ret a => rfl
  | raise e => rfl
  | op c k ih =>
    change Φ (.host c) (fun r => wp Φ (onMachine (k r)) Q) = _
    exact congrArg (Φ (.host c)) (funext ih)

/-- A command of the start does its step, or fails and changes nothing. -/
theorem execPool_rule {c : PoolCmd} {Q : Except Exn c.Res → Nat × Machine → Prop}
    (stopped : fails s.1 = true → Q (.error c.exn) (s.1 + 1, s.2))
    (refused : c.step [] s.2 = none → Q (.error c.exn) (s.1 + 1, s.2))
    (done : ∀ a m, c.step [] s.2 = some (a, m) → Q (.ok a) (s.1 + 1, m)) :
    Q (execPool fails c s).1 (execPool fails c s).2 := by
  unfold execPool
  split
  next stops => exact stopped (Bool.and_eq_true_iff.mp stops).1
  · split
    next a m step => exact done a m step
    next step => exact refused step

theorem cmd_rule {c : PoolCmd} {Q : Except Exn c.Res → Nat × Machine → Prop} (met : ok c s)
    (stopped : fails s.1 = true → Q (.error c.exn) (s.1 + 1, s.2))
    (refused : c.step [] s.2 = none → Q (.error c.exn) (s.1 + 1, s.2))
    (done : ∀ a m, c.step [] s.2 = some (a, m) → Q (.ok a) (s.1 + 1, m)) :
    wp (checked (execPool fails) ok) (cmd c) Q s := by
  rw [cmd, wp_perform]
  exact ⟨met, execPool_rule stopped refused done⟩

/-- `_pv_exists`: what it says holds, unless the command fails. -/
theorem pvExists_rule {dev : Dev} {Q : Except Exn Bool → Nat × Machine → Prop}
    (met : ok (.pvs dev) s) (yes : dev ∈ s.2.pvs → Q (.ok true) (s.1 + 1, s.2))
    (no : fails s.1 = true ∨ ¬ (dev ∈ s.2.pvs ∧ s.2.present dev = true) →
      Q (.ok false) (s.1 + 1, s.2)) :
    wp (checked (execPool fails) ok) (pvExists dev) Q s := by
  simp only [pvExists, exitsZero, wp_tryCatch, wp_bind]
  apply cmd_rule met
  · intro stops
    exact no (.inl stops)
  · intro refused
    refine no (.inr fun there => ?_)
    simp only [PoolCmd.step, if_pos there] at refused
    cases refused
  · intro a m step
    simp only [PoolCmd.step] at step
    split at step
    next there =>
      cases step
      exact yes there.1
    · cases step

/-- `vg_exists`, the same way. -/
theorem vgExists_rule {vg : Str} {Q : Except Exn Bool → Nat × Machine → Prop} (met : ok (.vgs vg) s)
    (yes : ∀ d, s.2.vgs.lookup vg = some d → Q (.ok true) (s.1 + 1, s.2))
    (no : fails s.1 = true ∨ (s.2.vgs.lookup vg).any s.2.present = false →
      Q (.ok false) (s.1 + 1, s.2)) :
    wp (checked (execPool fails) ok) (vgExists vg) Q s := by
  simp only [vgExists, exitsZero, wp_tryCatch, wp_bind]
  apply cmd_rule met
  · intro stops
    exact no (.inl stops)
  -- `vgs` exits with an error when the group is not active
  · intro refused
    refine no (.inr ?_)
    by_contra there
    simp only [PoolCmd.step, if_pos (Bool.not_eq_false _ ▸ there)] at refused
    cases refused
  · intro a m step
    simp only [PoolCmd.step] at step
    split at step
    next there =>
      cases step
      obtain ⟨d, found, _⟩ := (Option.any_eq_true _ _).mp there
      exact yes d found
    · cases step

/-- Without `lvs` there are no volumes: a failure reads as an empty list. -/
theorem wp_lvExists (vg name : Str) (Q : Except Exn Bool → Nat × Machine → Prop) :
    wp (checked (execPool fails) ok) (onMachine (Lv.exists_ vg name)) Q s ↔
      ok (.host (.lvm (.lvs .exists_ vg))) s ∧
        Q (.ok (!fails s.1 && decide (s.2.host.lvs.lookup (vg, name) ≠ none))) (s.1 + 1, s.2) := by
  rw [wp_onMachine, Lv.exists_, Lv.listLvs, exceptPrivops, lvm]
  simp only [wp_bind, wp_tryCatch, wp_perform, wp_pure]
  change _ ∧ _ ↔ _
  refine and_congr_right fun _ => ?_
  cases stops : fails s.1 with
  | true =>
    simp only [execPool, stops, PoolCmd.fallible, Cmd.privileged, Bool.and_self, if_true]
    rfl
  | false =>
    have listed : (Lvs.names s.2.host.lvs vg).contains name =
        decide (s.2.host.lvs.lookup (vg, name) ≠ none) := by
      rw [List.contains_eq_mem, decide_eq_decide]
      exact Lvs.mem_names _ _ _
    simp only [execPool, stops, Bool.false_and, Bool.false_eq_true, if_false,
      PoolCmd.step, Cmd.step,
      LvmCmd.step, Option.map_some, onError_ok, onValue_ok, listed, Bool.not_false, Bool.true_and]

end Rules

/-! ## What the start lays out -/

variable {cfg : PoolConfig} {nodeId : Id} {m : Machine} {fails : Nat → Bool}

def group (cfg : PoolConfig) (nodeId : Id) : Str := cfg.vgFor nodeId

def pvOf (cfg : PoolConfig) : Dev :=
  if truthy cfg.device then .disk (cfg.device.getD []) else .loop cfg.loopFile

/-- The node's group is on the node's device, or is still to be made there. -/
structure Sane (cfg : PoolConfig) (nodeId : Id) (m : Machine) : Prop where
  own : ∀ d, m.vgs.lookup (group cfg nodeId) = some d → d = pvOf cfg ∧ d ∈ m.pvs
  unclaimed : m.vgs.lookup (group cfg nodeId) = none →
    m.unused (pvOf cfg) = true ∧ ∀ name, m.host.lvs.lookup (group cfg nodeId, name) = none
  backed : ∀ file ∈ m.loops, file ∈ m.files

/-- If the device is that of a file, the file is attached. -/
def LoopUp (cfg : PoolConfig) (m : Machine) : Prop := ∀ file, pvOf cfg = .loop file → file ∈ m.loops

structure Attached (cfg : PoolConfig) (m : Machine) : Prop where
  loops : LoopUp cfg m
  labelled : pvOf cfg ∈ m.pvs

/-- All that the golden image is made in. -/
structure Up (cfg : PoolConfig) (nodeId : Id) (m : Machine) : Prop extends Attached cfg m where
  grouped : m.vgs.lookup (group cfg nodeId) = some (pvOf cfg)
  pooled : m.host.lvs.lookup (group cfg nodeId, cfg.thinpool) ≠ none
  active : group cfg nodeId ∈ m.active

/-- Neither the base volume nor the golden image is there. -/
def Bare (cfg : PoolConfig) (nodeId : Id) (lvs : Lvs) : Prop :=
  lvs.lookup (group cfg nodeId, BASE_ROOTFS) = none ∧
    lvs.lookup (group cfg nodeId, GOLD_DEFAULT) = none

/-- The base volume is there without the golden image. -/
def Stuck (cfg : PoolConfig) (nodeId : Id) (lvs : Lvs) : Prop :=
  lvs.lookup (group cfg nodeId, BASE_ROOTFS) ≠ none ∧
    lvs.lookup (group cfg nodeId, GOLD_DEFAULT) = none

/-- The base volume holds the rootfs image, and the golden image is a read-only snapshot of it. -/
def Golden (cfg : PoolConfig) (nodeId : Id) (lvs : Lvs) : Prop :=
  lvs.lookup (group cfg nodeId, cfg.thinpool) ≠ none ∧
  (lvs.lookup (group cfg nodeId, BASE_ROOTFS)).map Lv.content = some .image ∧
  ∃ lv, lvs.lookup (group cfg nodeId, GOLD_DEFAULT) = some lv ∧ lv.origin = some BASE_ROOTFS ∧
    lv.readonly = true ∧ lv.content = .image

/-- The substrate is complete. -/
structure Complete (cfg : PoolConfig) (nodeId : Id) (m : Machine) : Prop where
  sane : Sane cfg nodeId m
  up : Up cfg nodeId m
  golden : Golden cfg nodeId m.host.lvs

/-! ## Layer by layer -/

/-- What holds of the volumes whatever the layers below do: a pool that is made leaves it, and so
does a label where the group has no volumes, or where a command has failed. -/
structure Stays (cfg : PoolConfig) (nodeId : Id) (fails : Nat → Bool) (X : Lvs → Prop) : Prop where
  pool : ∀ lvs sizeMb, X lvs → lvs.lookup (group cfg nodeId, cfg.thinpool) = none →
    X (lvs.insert (group cfg nodeId, cfg.thinpool) ⟨sizeMb, none, false, .zeros⟩)
  label : ∀ lvs (p : Str × Str → Lv → Bool), X lvs →
    ((∃ i, fails i = true) ∨ ∀ name, lvs.lookup (group cfg nodeId, name) = none) →
      X (Store.keep p lvs)

/-- A part of the start ends well in `J`, or in `E` after a command that has failed. -/
def Ends {α : Type} (fails : Nat → Bool) (J : α → Machine → Prop) (E : Machine → Prop) :
    Except Exn α → Nat × Machine → Prop
  | .ok a, s => J a s.2
  | .error _, s => E s.2 ∧ ∃ i, fails i = true

theorem ends_bind {α β : Type} {ok : PoolCmd → Nat × Machine → Prop} {J : α → Machine → Prop}
    {J' : β → Machine → Prop} {E : Machine → Prop} {p : Setup α} {f : α → Setup β}
    {s : Nat × Machine} (first : wp (checked (execPool fails) ok) p (Ends fails J E) s)
    (rest : ∀ a s', J a s'.2 → wp (checked (execPool fails) ok) (f a) (Ends fails J' E) s') :
    wp (checked (execPool fails) ok) (p >>= f) (Ends fails J' E) s := by
  refine checked_bind (execPool fails) ok (fun a s' => J a s'.2) ?_ rest
  refine checked_mono _ _ _ _ _ ?_ s first
  rintro (e | a) s' post
  · exact post
  · exact post

/-- Neither `dd` nor the snapshot of the golden image fails. -/
def Unbroken (fails : Nat → Bool) : PoolCmd → Nat × Machine → Prop
  | .dd _ _ _, s => fails s.1 = false
  | .host (.lvm (.snapshot _ _ _ _)), s => fails s.1 = false
  | _, _ => True

section Layers

variable {X : Lvs → Prop} {s : Nat × Machine}

def Base (cfg : PoolConfig) (nodeId : Id) (X : Lvs → Prop) (m : Machine) : Prop :=
  Sane cfg nodeId m ∧ X m.host.lvs

theorem LoopUp.present (loops : LoopUp cfg m) : m.present (pvOf cfg) = true := by
  cases dev : pvOf cfg with
  | disk path => rfl
  | loop file =>
    simpa only [Machine.present, List.contains_eq_mem, decide_eq_true_eq] using loops file dev

/-- Labelling the node's device clears what the node's group was. -/
theorem Sane.label (sane : Sane cfg nodeId m) : Sane cfg nodeId (m.label (pvOf cfg)) := by
  have gone : (m.label (pvOf cfg)).vgs.lookup (group cfg nodeId) = none := by
    simp only [Machine.label, Store.lookup_keep, Option.filter_eq_none_iff]
    intro d found
    simp [(sane.own d found).1]
  refine ⟨fun d found => ?_, fun _ => ⟨?_, fun name => ?_⟩, sane.backed⟩
  · rw [gone] at found
    cases found
  · refine List.all_eq_true.mpr fun e kept => ?_
    exact (List.mem_filter.mp kept).2
  · simp only [Machine.label, Store.lookup_keep, Option.filter_eq_none_iff]
    intro lv there
    cases found : m.vgs.lookup (group cfg nodeId) with
    | none =>
      rw [(sane.unclaimed found).2 name] at there
      cases there
    | some d => simp [(sane.own d found).1]

theorem ensurePvcreate_ends (stays : Stays cfg nodeId fails X) (base : Base cfg nodeId X s.2)
    (loops : LoopUp cfg s.2) :
    wp (checked (execPool fails) (Unbroken fails)) (ensurePvcreate cfg.force (pvOf cfg))
      (Ends fails (fun _ m => Base cfg nodeId X m ∧ Attached cfg m) (Base cfg nodeId X)) s := by
  rw [ensurePvcreate, wp_bind]
  apply pvExists_rule trivial
  · intro labelled
    exact ⟨base, loops, labelled⟩
  · intro unseen
    apply cmd_rule trivial
    · intro stops
      exact ⟨base, _, stops⟩
    · intro refused
      refine ⟨base, ?_⟩
      -- `pvcreate` is refused only where the group is there, and then the device is labelled.
      rcases unseen with stops | unlabelled
      · exact ⟨_, stops⟩
      · have used : s.2.unused (pvOf cfg) = true := by
          cases found : s.2.vgs.lookup (group cfg nodeId) with
          | none => exact (base.1.unclaimed found).1
          | some d =>
            obtain ⟨rfl, labelled⟩ := base.1.own d found
            exact absurd ⟨labelled, loops.present⟩ unlabelled
        simp only [PoolCmd.step, loops.present, used, or_true, and_self, if_true] at refused
        cases refused
    · intro a m step
      simp only [PoolCmd.step] at step
      split at step
      next =>
        cases step
        refine ⟨⟨base.1.label, ?_⟩, loops, List.mem_cons_self⟩
        refine stays.label s.2.host.lvs (fun k _ => s.2.vgs.lookup k.1 ≠ some (pvOf cfg)) base.2 ?_
        rcases unseen with stops | unlabelled
        · exact .inl ⟨_, stops⟩
        · refine .inr fun name => ?_
          cases found : s.2.vgs.lookup (group cfg nodeId) with
          | none => exact (base.1.unclaimed found).2 name
          | some d =>
            obtain ⟨rfl, labelled⟩ := base.1.own d found
            exact absurd ⟨labelled, loops.present⟩ unlabelled
      · cases step

/-- The device, attached and labelled. -/
theorem ensurePv_ends (stays : Stays cfg nodeId fails X) (base : Base cfg nodeId X s.2) :
    wp (checked (execPool fails) (Unbroken fails)) (ensurePv cfg)
      (Ends fails (fun dev m => dev = pvOf cfg ∧ Base cfg nodeId X m ∧ Attached cfg m)
        (Base cfg nodeId X)) s := by
  unfold ensurePv
  split
  next disk =>
    have dev : pvOf cfg = .disk (cfg.device.getD []) := if_pos disk
    have loops : LoopUp cfg s.2 := fun file same => by cases dev.symm.trans same
    rw [← dev]
    refine ends_bind (ensurePvcreate_ends stays base loops) fun _ s' post => ?_
    exact ⟨rfl, post⟩
  next loopback =>
    have dev : pvOf cfg = .loop cfg.loopFile := if_neg loopback
    rw [ensureLoopback]
    refine ends_bind (J := fun _ => Base cfg nodeId X) ?_ fun _ s₁ base₁ => ?_
    · apply cmd_rule trivial
      · exact fun stops => ⟨base, _, stops⟩
      · intro refused
        cases refused
      · intro a m step
        cases step
        exact base
    -- The backing file is there, or is made.
    refine ends_bind (J := fun b m => Base cfg nodeId X m ∧ (b = true → cfg.loopFile ∈ m.files)) ?_
      fun there s₂ post₂ => ?_
    · apply cmd_rule trivial
      · exact fun stops => ⟨base₁, _, stops⟩
      · intro refused
        cases refused
      · intro a m step
        cases step
        exact ⟨base₁, fun listed => by simpa using listed⟩
    refine ends_bind (J := fun _ m => Base cfg nodeId X m ∧ cfg.loopFile ∈ m.files) ?_
      fun _ s₃ post₃ => ?_
    · rw [wp_whenTrue]
      cases there with
      | true => exact ⟨post₂.1, post₂.2 rfl⟩
      | false =>
        apply cmd_rule trivial
        · exact fun stops => ⟨post₂.1, _, stops⟩
        · intro refused
          cases refused
        · intro a m step
          cases step
          exact ⟨⟨⟨post₂.1.1.own, post₂.1.1.unclaimed,
            fun file up => List.mem_cons_of_mem _ (post₂.1.1.backed file up)⟩, post₂.1.2⟩,
            List.mem_cons_self⟩
    -- It has a loop device, or gets one.
    refine ends_bind (J := fun d m => d = pvOf cfg ∧ Base cfg nodeId X m ∧ LoopUp cfg m) ?_
      fun d s₄ post₄ => ?_
    · rw [loopDev]
      refine ends_bind (J := fun x m => Base cfg nodeId X m ∧ cfg.loopFile ∈ m.files ∧
        ∀ d, x = some d → d = pvOf cfg ∧ LoopUp cfg m) ?_ fun x s' post => ?_
      · apply cmd_rule trivial
        · exact fun stops => ⟨post₃.1, _, stops⟩
        · intro refused
          cases refused
        · intro a m step
          cases step
          refine ⟨post₃.1, post₃.2, fun d found => ?_⟩
          split at found
          next up =>
            cases found
            refine ⟨dev.symm, fun file same => ?_⟩
            cases dev.symm.trans same
            simpa using up
          · cases found
      · cases x with
        | some d => exact ⟨(post.2.2 d rfl).1, post.1, (post.2.2 d rfl).2⟩
        | none =>
          apply cmd_rule trivial
          · exact fun stops => ⟨post.1, _, stops⟩
          · intro refused
            simp only [PoolCmd.step, if_pos (List.contains_iff_mem.mpr post.2.1)] at refused
            cases refused
          · intro a m step
            simp only [PoolCmd.step, if_pos (List.contains_iff_mem.mpr post.2.1)] at step
            cases step
            refine ⟨dev.symm, ⟨⟨post.1.1.own, post.1.1.unclaimed, fun file up => ?_⟩, post.1.2⟩,
              fun file same => ?_⟩
            · rcases List.mem_cons.mp up with rfl | up
              · exact post.2.1
              · exact post.1.1.backed file up
            · cases dev.symm.trans same
              exact List.mem_cons_self
    obtain ⟨rfl, base₄, loops⟩ := post₄
    refine ends_bind (ensurePvcreate_ends stays base₄ loops) fun _ s' post => ?_
    exact ⟨rfl, post⟩

/-- The chain up to the golden image. -/
def layOut (nodeId : Id) (cfg : PoolConfig) : Setup Unit := do
  let pv ← ensurePv cfg
  whenTrue (!(← vgExists (group cfg nodeId))) (cmd (.vgcreate (group cfg nodeId) pv))
  ensurePool (group cfg nodeId) cfg.thinpool
  cmd (.vgchange (group cfg nodeId))

theorem ensure_eq (src : Str) : ensure nodeId cfg src = (layOut nodeId cfg >>= fun _ =>
    ensureDefaultGolden (group cfg nodeId) cfg src >>= fun _ => pure (group cfg nodeId)) := by
  simp only [ensure, layOut, group, LawfulMonad.bind_assoc]

theorem layOut_ends (stays : Stays cfg nodeId fails X) (base : Base cfg nodeId X s.2) :
    wp (checked (execPool fails) (Unbroken fails)) (layOut nodeId cfg)
      (Ends fails (fun _ m => Base cfg nodeId X m ∧ Up cfg nodeId m) (Base cfg nodeId X)) s := by
  rw [layOut]
  refine ends_bind (ensurePv_ends stays base) fun pv s₁ post₁ => ?_
  obtain ⟨rfl, base₁, attached⟩ := post₁
  -- The group.
  refine ends_bind (J := fun b m => Base cfg nodeId X m ∧ Attached cfg m ∧
    ((b = true ∧ m.vgs.lookup (group cfg nodeId) = some (pvOf cfg)) ∨
      (b = false ∧ ((∃ i, fails i = true) ∨ m.vgs.lookup (group cfg nodeId) = none)))) ?_
        fun b s₂ post₂ => ?_
  · apply vgExists_rule trivial
    · intro d found
      obtain ⟨rfl, _⟩ := base₁.1.own d found
      exact ⟨base₁, attached, .inl ⟨rfl, found⟩⟩
    · intro unseen
      refine ⟨base₁, attached, .inr ⟨rfl, ?_⟩⟩
      rcases unseen with stops | unseen
      · exact .inl ⟨_, stops⟩
      · refine .inr ?_
        cases found : s₁.2.vgs.lookup (group cfg nodeId) with
        | none => rfl
        | some d =>
          obtain ⟨rfl, _⟩ := base₁.1.own d found
          rw [found, Option.any_some, attached.loops.present] at unseen
          cases unseen
  obtain ⟨base₂, attached₂, group₂⟩ := post₂
  refine ends_bind (J := fun _ m => Base cfg nodeId X m ∧ Attached cfg m ∧
    m.vgs.lookup (group cfg nodeId) = some (pvOf cfg)) ?_ fun _ s₃ post₃ => ?_
  · rw [wp_whenTrue]
    rcases group₂ with ⟨rfl, found⟩ | ⟨rfl, missing⟩
    · exact ⟨base₂, attached₂, found⟩
    · apply cmd_rule trivial
      · exact fun stops => ⟨base₂, _, stops⟩
      · intro refused
        refine ⟨base₂, ?_⟩
        rcases missing with stops | missing
        · exact stops
        · have free : s₂.2.vgs.lookup (group cfg nodeId) = none ∧ pvOf cfg ∈ s₂.2.pvs ∧
              s₂.2.present (pvOf cfg) = true ∧ s₂.2.unused (pvOf cfg) = true :=
            ⟨missing, attached₂.labelled, attached₂.loops.present, (base₂.1.unclaimed missing).1⟩
          simp only [PoolCmd.step, if_pos free] at refused
          cases refused
      · intro a m step
        simp only [PoolCmd.step] at step
        split at step
        next free =>
          cases step
          have made : AList.lookup (group cfg nodeId)
              (s₂.2.vgs.insert (group cfg nodeId) (pvOf cfg)) =
                some (pvOf cfg) := AList.lookup_insert _
          refine ⟨⟨⟨fun d found => ?_, fun missing => ?_, base₂.1.backed⟩, base₂.2⟩,
            ⟨attached₂.loops, attached₂.labelled⟩, made⟩
          · cases made.symm.trans found
            exact ⟨rfl, attached₂.labelled⟩
          · cases made.symm.trans missing
        · cases step
  obtain ⟨base₃, attached₃, grouped⟩ := post₃
  -- The thin pool.
  refine ends_bind (J := fun _ m => Base cfg nodeId X m ∧ Attached cfg m ∧
    m.vgs.lookup (group cfg nodeId) = some (pvOf cfg) ∧
    m.host.lvs.lookup (group cfg nodeId, cfg.thinpool) ≠ none) ?_ fun _ s₄ post₄ => ?_
  · rw [ensurePool, wp_bind, wp_lvExists]
    refine ⟨trivial, ?_⟩
    rw [onValue_ok, wp_ite]
    split
    next listed =>
      rw [Bool.and_eq_true, decide_eq_true_eq] at listed
      exact ⟨base₃, attached₃, grouped, listed.2⟩
    next unlisted =>
      apply cmd_rule trivial
      · exact fun stops => ⟨base₃, _, stops⟩
      · intro refused
        refine ⟨base₃, s₃.1, ?_⟩
        by_contra sound
        rw [Bool.not_eq_true] at sound
        have missing : s₃.2.host.lvs.lookup (group cfg nodeId, cfg.thinpool) = none := by
          simpa [sound] using unlisted
        simp only [PoolCmd.step, grouped, if_pos missing] at refused
        cases refused
      · intro a m step
        simp only [PoolCmd.step, grouped] at step
        split at step
        next free =>
          cases step
          refine ⟨⟨⟨base₃.1.own, fun missing => ?_, base₃.1.backed⟩, stays.pool _ _ base₃.2 free⟩,
            ⟨attached₃.loops, attached₃.labelled⟩, grouped, ?_⟩
          · cases grouped.symm.trans missing
          · rw [AList.lookup_insert]
            exact Option.some_ne_none _
        · cases step
  obtain ⟨base₄, attached₄, grouped₄, pooled⟩ := post₄
  -- The group is activated.
  apply cmd_rule trivial
  · exact fun stops => ⟨base₄, _, stops⟩
  · intro refused
    rw [PoolCmd.step, grouped₄, if_pos (Option.some_ne_none _)] at refused
    cases refused
  · intro a m step
    rw [PoolCmd.step, grouped₄, if_pos (Option.some_ne_none _)] at step
    cases step
    refine ⟨⟨⟨base₄.1.own, base₄.1.unclaimed, base₄.1.backed⟩, base₄.2⟩,
      ⟨⟨attached₄.loops, attached₄.labelled⟩, grouped₄, pooled, ?_⟩⟩
    change _ ∈ ite _ _ _
    split
    next already => exact List.contains_iff_mem.mp already
    · exact List.mem_cons_self

/-! ## The golden image -/

abbrev createOp (nodeId : Id) (cfg : PoolConfig) : PoolCmd :=
  .host (.lvm (.createThin (group cfg nodeId) cfg.thinpool BASE_ROOTFS cfg.baseRootfsMb))

abbrev ddOp (nodeId : Id) (cfg : PoolConfig) (src : Str) : PoolCmd :=
  .dd src (group cfg nodeId) BASE_ROOTFS

abbrev snapOp (nodeId : Id) (cfg : PoolConfig) : PoolCmd :=
  .host (.lvm (.snapshot (group cfg nodeId) BASE_ROOTFS GOLD_DEFAULT true))

/-- The three steps behind the one check. -/
def make (nodeId : Id) (cfg : PoolConfig) (src : Str) : Setup Unit := do
  let _ ← onMachine (Lv.createThin (group cfg nodeId) cfg.thinpool BASE_ROOTFS cfg.baseRootfsMb)
  cmd (ddOp nodeId cfg src)
  let _ ← onMachine (Lv.snapshot (group cfg nodeId) BASE_ROOTFS GOLD_DEFAULT)

variable {ok : PoolCmd → Nat × Machine → Prop} {src : Str}

theorem wp_make (Q : Except Exn Unit → Nat × Machine → Prop) :
    wp (checked (execPool fails) ok) (make nodeId cfg src) Q s ↔
      ok (createOp nodeId cfg) s ∧
      onValue (fun _ s₁ => ok (ddOp nodeId cfg src) s₁ ∧
        onValue (fun _ s₂ => ok (snapOp nodeId cfg) s₂ ∧
          onValue (fun _ => Q (.ok ())) Q
            (execPool fails (snapOp nodeId cfg) s₂).1 (execPool fails (snapOp nodeId cfg) s₂).2) Q
          (execPool fails (ddOp nodeId cfg src) s₁).1 (execPool fails (ddOp nodeId cfg src) s₁).2) Q
        (execPool fails (createOp nodeId cfg) s).1 (execPool fails (createOp nodeId cfg) s).2 := by
  simp only [make, Lv.createThin, Lv.snapshot, lvm, cmd, wp_bind, wp_onMachine, wp_perform, wp_pure]
  rfl

/-- Without a golden image, the start goes on to make one. -/
theorem wp_golden (missing : s.2.host.lvs.lookup (group cfg nodeId, GOLD_DEFAULT) = none)
    (met : ok (.host (.lvm (.lvs .exists_ (group cfg nodeId)))) s)
    (Q : Except Exn Unit → Nat × Machine → Prop) :
    wp (checked (execPool fails) ok) (ensureDefaultGolden (group cfg nodeId) cfg src) Q s ↔
      wp (checked (execPool fails) ok) (make nodeId cfg src) Q (s.1 + 1, s.2) := by
  rw [ensureDefaultGolden, wp_bind, wp_lvExists]
  have unlisted : (!fails s.1 && decide
      (AList.lookup (group cfg nodeId, GOLD_DEFAULT) s.2.host.lvs ≠ none)) =
      false := by
    simp [missing]
  rw [unlisted, onValue_ok, and_iff_right met]
  rfl

theorem exec_stops {c : PoolCmd} (stops : fails s.1 = true) (fallible : c.fallible = true) :
    execPool fails c s = (.error c.exn, (s.1 + 1, s.2)) := by
  simp only [execPool, stops, fallible, Bool.and_self, if_true]

theorem execPool_refused {c : PoolCmd} (step : c.step [] s.2 = none) :
    execPool fails c s = (.error c.exn, (s.1 + 1, s.2)) := by
  unfold execPool
  split
  · rfl
  · rw [step]

theorem exec_done {c : PoolCmd} (sound : fails s.1 = false) {a : c.Res} {m' : Machine}
    (step : c.step [] s.2 = some (a, m')) : execPool fails c s = (.ok a, (s.1 + 1, m')) := by
  simp only [execPool, sound, Bool.false_and, Bool.false_eq_true, if_false, step]

/-- A configuration that can work: the pool has a name of its own, and the base volume a size. -/
structure Proper (cfg : PoolConfig) : Prop where
  base : cfg.thinpool ≠ BASE_ROOTFS
  gold : cfg.thinpool ≠ GOLD_DEFAULT
  size : 0 < cfg.baseRootfsMb

/-- The machine with other volumes. -/
def withLvs (m : Machine) (lvs : Lvs) : Machine := { m with host := { m.host with lvs := lvs } }

def baseMade (nodeId : Id) (cfg : PoolConfig) (lvs : Lvs) : Lvs :=
  lvs.insert (group cfg nodeId, BASE_ROOTFS) ⟨cfg.baseRootfsMb, none, false, .zeros⟩

def baseWritten (nodeId : Id) (cfg : PoolConfig) (lvs : Lvs) : Lvs :=
  Store.modify (group cfg nodeId, BASE_ROOTFS) (fun lv => { lv with
    content := .image }) (baseMade nodeId cfg lvs)

def goldMade (nodeId : Id) (cfg : PoolConfig) (lvs : Lvs) : Lvs :=
  (baseWritten nodeId cfg lvs).insert (group cfg nodeId, GOLD_DEFAULT)
    ⟨cfg.baseRootfsMb, some BASE_ROOTFS, true, .image⟩

theorem gold_ne_base : GOLD_DEFAULT ≠ BASE_ROOTFS := by decide

theorem key_ne : (group cfg nodeId, GOLD_DEFAULT) ≠ (group cfg nodeId, BASE_ROOTFS) :=
  fun same => gold_ne_base (congrArg Prod.snd same)

theorem lookup_baseWritten (lvs : Lvs) (key : Str × Str) :
    (baseWritten nodeId cfg lvs).lookup key =
      if key = (group cfg nodeId, BASE_ROOTFS) then some ⟨cfg.baseRootfsMb, none, false, .image⟩
      else lvs.lookup key := by
  rw [baseWritten, Store.lookup_modify]
  split
  next same => rw [same, baseMade, AList.lookup_insert, Option.map_some]
  next other => rw [baseMade, AList.lookup_insert_ne other]

theorem create_done {n : Nat} (proper : Proper cfg) (sound : fails n = false)
    (pooled : m.host.lvs.lookup (group cfg nodeId, cfg.thinpool) ≠ none)
    (missing : m.host.lvs.lookup (group cfg nodeId, BASE_ROOTFS) = none) :
    execPool fails (createOp nodeId cfg) (n, m) =
      (.ok (), (n + 1, withLvs m (baseMade nodeId cfg m.host.lvs))) := by
  refine exec_done sound ?_
  have free : AList.lookup (group cfg nodeId, BASE_ROOTFS) m.host.lvs = none ∧
      AList.lookup (group cfg nodeId, cfg.thinpool) m.host.lvs ≠ none ∧ 0 < cfg.baseRootfsMb :=
    ⟨missing, pooled, proper.size⟩
  simp only [PoolCmd.step, Cmd.step, LvmCmd.step]
  rw [if_pos free]
  rfl

theorem dd_done {n : Nat} {lvs : Lvs} (sound : fails n = false) :
    execPool fails (ddOp nodeId cfg src) (n, withLvs m (baseMade nodeId cfg lvs)) =
      (.ok (), (n + 1, withLvs m (baseWritten nodeId cfg lvs))) := by
  refine exec_done sound ?_
  have there : (baseMade nodeId cfg lvs).lookup (group cfg nodeId, BASE_ROOTFS) ≠ none := by
    rw [baseMade, AList.lookup_insert]
    exact Option.some_ne_none _
  exact if_pos there

theorem snap_done {n : Nat} {lvs : Lvs} (sound : fails n = false)
    (missing : lvs.lookup (group cfg nodeId, GOLD_DEFAULT) = none) :
    execPool fails (snapOp nodeId cfg) (n, withLvs m (baseWritten nodeId cfg lvs)) =
      (.ok (), (n + 1, withLvs m (goldMade nodeId cfg lvs))) := by
  refine exec_done sound ?_
  have base : (baseWritten nodeId cfg lvs).lookup (group cfg nodeId, BASE_ROOTFS) =
      some ⟨cfg.baseRootfsMb, none, false, .image⟩ := by
    rw [lookup_baseWritten, if_pos rfl]
  have free : (baseWritten nodeId cfg lvs).lookup (group cfg nodeId, GOLD_DEFAULT) = none := by
    rw [lookup_baseWritten, if_neg key_ne, missing]
  have step : LvmCmd.step (.snapshot (group cfg nodeId) BASE_ROOTFS GOLD_DEFAULT true)
      (baseWritten nodeId cfg lvs) = some ((), goldMade nodeId cfg lvs) := by
    simp only [LvmCmd.step, base]
    exact if_pos free
  change Option.map _ (Option.map _ (LvmCmd.step _ (baseWritten nodeId cfg lvs))) = _
  rw [step]
  rfl

/-- Volumes added to a group that is there leave its layers alone. -/
theorem base_withLvs {Y : Lvs → Prop} {lvs : Lvs} (sane : Sane cfg nodeId m) (up : Up cfg nodeId m)
    (holds : Y lvs) :
    Base cfg nodeId Y (withLvs m lvs) := by
  refine ⟨⟨sane.own, fun missing => ?_, sane.backed⟩, holds⟩
  cases up.grouped.symm.trans missing

theorem golden_goldMade {lvs : Lvs} (pooled : lvs.lookup (group cfg nodeId, cfg.thinpool) ≠ none) :
    Golden cfg nodeId (goldMade nodeId cfg lvs) := by
  refine ⟨?_, ?_, ⟨cfg.baseRootfsMb, some BASE_ROOTFS, true, .image⟩,
    AList.lookup_insert _, rfl, rfl, rfl⟩
  · rw [goldMade, Store.lookup_insert, lookup_baseWritten]
    split
    · exact Option.some_ne_none _
    · split
      · exact Option.some_ne_none _
      · exact pooled
  · rw [goldMade, AList.lookup_insert_ne key_ne.symm, lookup_baseWritten, if_pos rfl]
    rfl

/-- How the last part of the start can end: without a trace, with a base volume that has no golden
image, or well. -/
theorem make_cases {n : Nat} (proper : Proper cfg) (sane : Sane cfg nodeId m) (up : Up cfg nodeId m)
    (bare : Bare cfg nodeId m.host.lvs) :
    ((∃ i, fails i = true) ∧ wp (checked (execPool fails) (Unbroken fails)) (make nodeId cfg src)
      (fun r s' => (∃ e, r = .error e) ∧ Base cfg nodeId (Bare cfg nodeId) s'.2) (n, m)) ∨
    ((∃ i, fails i = true) ∧ ¬ wp (checked (execPool fails) (Unbroken fails)) (make nodeId cfg src)
        (fun _ _ => True) (n, m) ∧
      wp (sequential (execPool fails)) (make nodeId cfg src)
        (fun r s' => (∃ e, r = .error e) ∧ Base cfg nodeId (Stuck cfg nodeId) s'.2) (n, m)) ∨
    wp (checked (execPool fails) (Unbroken fails)) (make nodeId cfg src)
      (fun r s' => r = .ok () ∧ Complete cfg nodeId s'.2) (n, m) := by
  have unlisted : (baseMade nodeId cfg m.host.lvs).lookup
      (group cfg nodeId, GOLD_DEFAULT) = none := by
    rw [baseMade, AList.lookup_insert_ne key_ne, bare.2]
  -- the three commands in turn; the first that fails decides what is left behind
  cases first : fails n with
  | true =>
    refine .inl ⟨⟨n, first⟩, (wp_make _).mpr ?_⟩
    rw [exec_stops (s := (n, m)) first rfl]
    exact ⟨trivial, ⟨_, rfl⟩, sane, bare⟩
  | false =>
    have created := create_done (n := n) proper first up.pooled bare.1
    cases second : fails (n + 1) with
    | true =>
      refine .inr (.inl ⟨⟨_, second⟩, fun met => ?_, ?_⟩)
      · rw [wp_make, created, onValue_ok] at met
        have fine : fails (n + 1) = false := met.2.1
        rw [second] at fine
        cases fine
      · refine sequential_of_unchecked ((wp_make _).mpr ?_)
        rw [created, onValue_ok, exec_stops (s := (n + 1, _)) second rfl]
        refine ⟨trivial, trivial, ⟨_, rfl⟩, base_withLvs sane up ⟨?_, unlisted⟩⟩
        rw [baseMade, AList.lookup_insert]
        exact Option.some_ne_none _
    | false =>
      -- the volume is made and filled
      have written : execPool fails (ddOp nodeId cfg src)
          (n + 1, withLvs m (baseMade nodeId cfg m.host.lvs)) =
          (.ok (), (n + 1 + 1, withLvs m (baseWritten nodeId cfg m.host.lvs))) := dd_done second
      cases third : fails (n + 1 + 1) with
      | true =>
        refine .inr (.inl ⟨⟨_, third⟩, fun met => ?_, ?_⟩)
        · rw [wp_make, created, onValue_ok, written, onValue_ok] at met
          have fine : fails (n + 1 + 1) = false := met.2.2.1
          rw [third] at fine
          cases fine
        · refine sequential_of_unchecked ((wp_make _).mpr ?_)
          rw [created, onValue_ok, written, onValue_ok, exec_stops (s := (n + 1 + 1, _)) third rfl]
          refine ⟨trivial, trivial, trivial, ⟨_, rfl⟩, base_withLvs sane up ⟨?_, ?_⟩⟩
          · rw [lookup_baseWritten, if_pos rfl]
            exact Option.some_ne_none _
          · rw [lookup_baseWritten, if_neg key_ne, bare.2]
      | false =>
        -- all three went through
        have snapped := snap_done (m := m) third bare.2
        refine .inr (.inr ((wp_make _).mpr ?_))
        rw [created, onValue_ok, written, onValue_ok, snapped, onValue_ok]
        have golden := golden_goldMade up.pooled
        obtain ⟨sane', golden'⟩ := base_withLvs sane up golden
        refine ⟨trivial, second, third, rfl, sane', ?_, golden'⟩
        exact ⟨⟨up.loops, up.labelled⟩, up.grouped, golden.1, up.active⟩

/-! ## A whole start -/

theorem stays_bare (proper : Proper cfg) : Stays cfg nodeId fails (Bare cfg nodeId) := by
  refine ⟨fun lvs sizeMb bare _ => ⟨?_, ?_⟩, fun lvs p bare _ => ⟨?_, ?_⟩⟩
  · rw [AList.lookup_insert_ne fun same => proper.base (congrArg Prod.snd same).symm, bare.1]
  · rw [AList.lookup_insert_ne fun same => proper.gold (congrArg Prod.snd same).symm, bare.2]
  · rw [Store.lookup_keep, bare.1, Option.filter_none]
  · rw [Store.lookup_keep, bare.2, Option.filter_none]

/-- A start in which every command that can succeed does. -/
def sound : Nat → Bool := fun _ => false

theorem sound_eq (n : Nat) : sound n = false := rfl

theorem stays_stuck (proper : Proper cfg) : Stays cfg nodeId sound (Stuck cfg nodeId) := by
  refine ⟨fun lvs sizeMb stuck _ => ⟨?_, ?_⟩, fun lvs p stuck cleared => ?_⟩
  · rw [AList.lookup_insert_ne fun same => proper.base (congrArg Prod.snd same).symm]
    exact stuck.1
  · rw [AList.lookup_insert_ne fun same => proper.gold (congrArg Prod.snd same).symm, stuck.2]
  · rcases cleared with ⟨i, stops⟩ | empty
    · cases stops
    · exact absurd (empty _) stuck.1

theorem stays_golden : Stays cfg nodeId sound (Golden cfg nodeId) := by
  refine ⟨fun lvs sizeMb golden missing => absurd missing golden.1, fun lvs p golden cleared => ?_⟩
  rcases cleared with ⟨i, stops⟩ | empty
  · cases stops
  · exact absurd (empty _) golden.1

/-- The layers first: where they are laid out, the golden image follows. -/
theorem ensure_iff (stays : Stays cfg nodeId fails X) (base : Base cfg nodeId X s.2)
    (Q : Except Exn Str → Nat × Machine → Prop) :
    wp (checked (execPool fails) (Unbroken fails)) (ensure nodeId cfg src) Q s ↔
      onValue (fun _ => wp (checked (execPool fails) (Unbroken fails))
        (ensureDefaultGolden (group cfg nodeId) cfg src) (onValue
          (fun _ => Q (.ok (group cfg nodeId))) Q)) Q
        (run (execPool fails) (layOut nodeId cfg) s).1
          (run (execPool fails) (layOut nodeId cfg) s).2 := by
  have laid := ((wp_checked _ _ _ _ _).mp (layOut_ends stays base)).1
  rw [ensure_eq, wp_bind, wp_checked, and_iff_right laid]
  simp only [wp_bind, wp_pure]

theorem laidOut (stays : Stays cfg nodeId fails X) (base : Base cfg nodeId X s.2) :
    ((∃ e, (run (execPool fails) (layOut nodeId cfg) s).1 = .error e) ∧ (∃ i, fails i = true) ∧
      Base cfg nodeId X (run (execPool fails) (layOut nodeId cfg) s).2.2) ∨
    ((run (execPool fails) (layOut nodeId cfg) s).1 = .ok () ∧
      Base cfg nodeId X (run (execPool fails) (layOut nodeId cfg) s).2.2 ∧
      Up cfg nodeId (run (execPool fails) (layOut nodeId cfg) s).2.2) := by
  have ends := ((wp_checked _ _ _ _ _).mp (layOut_ends stays base)).2
  cases answer : (run (execPool fails) (layOut nodeId cfg) s).1 with
  | error e =>
    rw [answer] at ends
    exact .inl ⟨⟨e, rfl⟩, ends.2, ends.1⟩
  | ok _ =>
    rw [answer] at ends
    exact .inr ⟨rfl, ends⟩

/-- A start from a node without a golden image, whichever commands fail. -/
theorem ensure_cases (fails : Nat → Bool) (src : Str) (proper : Proper cfg)
    (base : Base cfg nodeId (Bare cfg nodeId) s.2) :
    ((∃ i, fails i = true) ∧ wp (checked (execPool fails) (Unbroken fails)) (ensure nodeId cfg src)
      (fun _ s' => Base cfg nodeId (Bare cfg nodeId) s'.2) s) ∨
    ((∃ i, fails i = true) ∧ ¬ wp (checked (execPool fails) (Unbroken fails))
      (ensure nodeId cfg src)
        (fun _ _ => True) s ∧
      wp (sequential (execPool fails)) (ensure nodeId cfg src)
        (fun _ s' => Base cfg nodeId (Stuck cfg nodeId) s'.2) s) ∨
    wp (checked (execPool fails) (Unbroken fails)) (ensure nodeId cfg src)
      (fun r s' => r = .ok (group cfg nodeId) ∧ Complete cfg nodeId s'.2) s := by
  have stays : Stays cfg nodeId fails (Bare cfg nodeId) := stays_bare proper
  -- the layout fails, and nothing of the base image is there yet
  rcases laidOut stays base with ⟨⟨e, answer⟩, stopped, base'⟩ | ⟨answer, base', up⟩
  · refine .inl ⟨stopped, (ensure_iff stays base _).mpr ?_⟩
    rw [answer]
    exact base'
  · rcases make_cases (n := (run (execPool fails) (layOut nodeId cfg) s).2.1 + 1)
      proper base'.1 up base'.2 with ⟨stopped, ends⟩ | ⟨stopped, broken, ends⟩ | ends
    · refine .inl ⟨stopped, (ensure_iff stays base _).mpr ?_⟩
      rw [answer, onValue_ok, wp_golden base'.2.2 trivial]
      refine checked_mono _ _ _ _ _ ?_ _ ends
      rintro _ s' ⟨⟨e, rfl⟩, post⟩
      exact post
    · refine .inr (.inl ⟨stopped, fun met => broken ?_, ?_⟩)
      · have met := (ensure_iff stays base _).mp met
        rw [answer, onValue_ok, wp_golden base'.2.2 trivial] at met
        exact checked_mono _ _ _ _ _ (fun _ _ _ => trivial) _ met
      · have last : wp (sequential (execPool fails))
            (ensureDefaultGolden (group cfg nodeId) cfg src)
            (fun r s' => (∃ e, r = .error e) ∧ Base cfg nodeId (Stuck cfg nodeId) s'.2)
            (run (execPool fails) (layOut nodeId cfg) s).2 := by
          refine sequential_of_unchecked ((wp_golden base'.2.2 trivial _).mpr ?_)
          exact (wp_checked _ _ _ _ _).mpr ⟨fun _ _ => trivial, (wp_sequential _ _ _ _).mp ends⟩
        rw [ensure_eq, wp_bind, wp_sequential, answer, onValue_ok, wp_bind]
        refine sequential_mono _ _ _ _ ?_ _ last
        rintro _ s' ⟨⟨e, rfl⟩, post⟩
        exact post
    · refine .inr (.inr ((ensure_iff stays base _).mpr ?_))
      rw [answer, onValue_ok, wp_golden base'.2.2 trivial]
      refine checked_mono _ _ _ _ _ ?_ _ ends
      rintro _ s' ⟨rfl, complete⟩
      exact ⟨rfl, complete⟩

/-- A base volume without a golden image stops every later start. -/
theorem stuck_fails (src : Str) (proper : Proper cfg)
    (base : Base cfg nodeId (Stuck cfg nodeId) s.2) :
    wp (sequential (execPool sound)) (ensure nodeId cfg src) (fun r _ => ∃ e, r = .error e) s := by
  have stays : Stays cfg nodeId sound (Stuck cfg nodeId) := stays_stuck proper
  refine sequential_of_checked ((ensure_iff stays base _).mpr ?_)
  rcases laidOut stays base with ⟨⟨e, answer⟩, _, _⟩ | ⟨answer, base', up⟩
  · rw [answer]
    exact ⟨e, rfl⟩
  · rw [answer, onValue_ok, wp_golden base'.2.2 trivial, wp_make]
    have refused : (createOp nodeId cfg).step []
        (run (execPool sound) (layOut nodeId cfg) s).2.2 = none := by
      simp only [PoolCmd.step, Cmd.step, LvmCmd.step, base'.2.1, false_and, if_false,
        Option.map_none]
    rw [execPool_refused (s := ((run (execPool sound) (layOut nodeId cfg) s).2.1 + 1,
      (run (execPool sound) (layOut nodeId cfg) s).2.2)) refused]
    exact ⟨trivial, _, rfl⟩

/-- Where the golden image is there, a start makes the rest. -/
theorem golden_completes (src : Str) (base : Base cfg nodeId (Golden cfg nodeId) s.2) :
    wp (sequential (execPool sound)) (ensure nodeId cfg src)
      (fun r s' => r = .ok (group cfg nodeId) ∧ Complete cfg nodeId s'.2) s := by
  refine sequential_of_checked ((ensure_iff stays_golden base _).mpr ?_)
  rcases laidOut stays_golden base with ⟨_, ⟨i, stops⟩, _⟩ | ⟨answer, base', up⟩
  · cases stops
  · obtain ⟨lv, there, _⟩ := base'.2.2.2
    rw [answer, onValue_ok, ensureDefaultGolden, wp_bind, wp_lvExists]
    refine ⟨trivial, ?_⟩
    have listed : (!sound (run (execPool sound) (layOut nodeId cfg) s).2.1 &&
        decide (AList.lookup (group cfg nodeId, GOLD_DEFAULT)
          (run (execPool sound) (layOut nodeId cfg) s).2.2.host.lvs ≠ none)) = true := by
      simp [sound, there]
    rw [listed]
    exact ⟨rfl, base'.1, up, base'.2⟩

/-! ## Configurations that cannot work -/

/-- What carries the name of the golden image is no snapshot of the base volume. -/
def NoGold (cfg : PoolConfig) (nodeId : Id) (lvs : Lvs) : Prop :=
  ∀ lv, lvs.lookup (group cfg nodeId, GOLD_DEFAULT) = some lv → lv.origin ≠ some BASE_ROOTFS

theorem stays_noGold : Stays cfg nodeId fails (NoGold cfg nodeId) := by
  refine ⟨fun lvs sizeMb noGold _ lv there => ?_, fun lvs p noGold _ lv there => ?_⟩
  · rw [Store.lookup_insert] at there
    split at there
    · cases there
      exact Option.some_ne_none _ ∘ Eq.symm
    · exact noGold lv there
  · rw [Store.lookup_keep, Option.filter_eq_some_iff] at there
    exact noGold lv there.1

theorem improper_cases (improper : ¬ Proper cfg) :
    (cfg.thinpool = BASE_ROOTFS ∨ cfg.baseRootfsMb ≤ 0) ∨ cfg.thinpool = GOLD_DEFAULT := by
  by_contra all
  rw [not_or, not_or] at all
  obtain ⟨⟨base, size⟩, gold⟩ := all
  exact improper ⟨base, gold, by omega⟩

/-- A pool with the name of the base volume, or a base volume without a size: `lvcreate` is
refused. -/
theorem create_refused (improper : cfg.thinpool = BASE_ROOTFS ∨ cfg.baseRootfsMb ≤ 0) :
    (createOp nodeId cfg).step [] m = none := by
  have blocked : ¬ (AList.lookup (group cfg nodeId, BASE_ROOTFS) m.host.lvs = none ∧
      AList.lookup (group cfg nodeId, cfg.thinpool) m.host.lvs ≠ none ∧ 0 < cfg.baseRootfsMb) := by
    rintro ⟨free, pooled, size⟩
    rcases improper with same | small
    · exact pooled (same ▸ free)
    · omega
  simp only [PoolCmd.step, Cmd.step, LvmCmd.step]
  rw [if_neg blocked]
  rfl

/-- A pool with the name of the golden image: the snapshot is refused. -/
theorem snap_refused (there : m.host.lvs.lookup (group cfg nodeId, GOLD_DEFAULT) ≠ none) :
    (snapOp nodeId cfg).step [] m = none := by
  simp only [PoolCmd.step, Cmd.step, LvmCmd.step]
  split
  · rw [if_neg there]
    rfl
  · rfl

theorem make_spares (improper : ¬ Proper cfg) (sane : Sane cfg nodeId m) (up : Up cfg nodeId m)
    (noGold : NoGold cfg nodeId m.host.lvs) {n : Nat} :
    wp (checked (execPool fails) (fun _ _ => True)) (make nodeId cfg src)
      (fun _ s' => Base cfg nodeId (NoGold cfg nodeId) s'.2) (n, m) := by
  rw [wp_make]
  refine ⟨trivial, ?_⟩
  rcases improper_cases improper with improper | same
  · rw [execPool_refused (s := (n, m)) (create_refused improper)]
    exact ⟨sane, noGold⟩
  · have there : m.host.lvs.lookup (group cfg nodeId, GOLD_DEFAULT) ≠ none := same ▸ up.pooled
    -- The base volume may be made and written; the snapshot is refused.
    refine execPool_rule (Q := onValue _ _) (fun _ => ⟨sane, noGold⟩) (fun _ => ⟨sane, noGold⟩) ?_
    intro a m₁ step
    obtain ⟨⟨b, h⟩, made, put⟩ := Option.map_eq_some_iff.mp step
    obtain ⟨⟨c, lvs⟩, made, put'⟩ := Option.map_eq_some_iff.mp made
    simp only [LvmCmd.step] at made
    split at made <;> cases made
    cases put'
    cases put
    have gold : (AList.insert (group cfg nodeId, BASE_ROOTFS) (⟨cfg.baseRootfsMb, none,
        false, .zeros⟩ : Lv)
        m.host.lvs).lookup (group cfg nodeId, GOLD_DEFAULT) =
        m.host.lvs.lookup (group cfg nodeId, GOLD_DEFAULT) := AList.lookup_insert_ne key_ne
    have noGold₁ : NoGold cfg nodeId (AList.insert (group cfg nodeId, BASE_ROOTFS)
        (⟨cfg.baseRootfsMb, none, false, .zeros⟩ : Lv) m.host.lvs) := by
      intro lv found
      exact noGold lv (gold.symm.trans found)
    have base₁ := base_withLvs sane up noGold₁
    refine ⟨trivial, ?_⟩
    refine execPool_rule (Q := onValue _ _) (fun _ => base₁) (fun _ => base₁) ?_
    intro a m₂ step
    simp only [PoolCmd.step] at step
    split at step <;> cases step
    have gold₂ : (Store.modify (group cfg nodeId, BASE_ROOTFS) (fun lv => { lv with
        content := .image })
        (AList.insert (group cfg nodeId, BASE_ROOTFS) (⟨cfg.baseRootfsMb, none, false, .zeros⟩ : Lv)
        m.host.lvs)).lookup (group cfg nodeId, GOLD_DEFAULT) =
        m.host.lvs.lookup (group cfg nodeId, GOLD_DEFAULT) := by
      rw [Store.lookup_modify, if_neg key_ne, gold]
    have noGold₂ : NoGold cfg nodeId (Store.modify (group cfg nodeId, BASE_ROOTFS)
        (fun lv => { lv with content := .image }) (AList.insert (group cfg nodeId, BASE_ROOTFS)
        (⟨cfg.baseRootfsMb, none, false, .zeros⟩ : Lv) m.host.lvs)) :=
      fun lv found => noGold lv (gold₂.symm.trans found)
    have base₂ := base_withLvs sane up noGold₂
    refine ⟨trivial, ?_⟩
    rw [execPool_refused (snap_refused (by rw [gold₂]; exact there))]
    exact base₂

/-- With such a configuration no start makes a golden image. -/
theorem ensure_spares (fails : Nat → Bool) (src : Str) (improper : ¬ Proper cfg)
    (base : Base cfg nodeId (NoGold cfg nodeId) s.2) :
    wp (sequential (execPool fails)) (ensure nodeId cfg src)
      (fun _ s' => Base cfg nodeId (NoGold cfg nodeId) s'.2) s := by
  rw [ensure_eq, wp_bind, wp_sequential]
  rcases laidOut stays_noGold base with ⟨⟨e, answer⟩, _, base'⟩ | ⟨answer, base', up⟩
  · rw [answer]
    exact base'
  · rw [answer, onValue_ok]
    refine sequential_of_unchecked ?_
    rw [wp_bind, ensureDefaultGolden, wp_bind, wp_lvExists]
    refine ⟨trivial, ?_⟩
    rw [onValue_ok, wp_ite]
    split
    · exact base'
    · refine checked_mono _ _ _ _ _ ?_ _ (make_spares improper base'.1 up base'.2)
      rintro (e | a) s' post
      · exact post
      · exact post

/-! ## A complete substrate -/

theorem pv_idle (complete : Complete cfg nodeId s.2) {Q : Except Exn Dev → Nat × Machine → Prop}
    (rest : ∀ n, Q (.ok (pvOf cfg)) (n, s.2)) :
    wp (checked (execPool sound) (fun _ _ => True)) (ensurePv cfg) Q s := by
  have present := complete.up.loops.present
  -- the label is there, so `pvcreate` is not run
  have labelled : ∀ (n : Nat) (Q : Except Exn Unit → Nat × Machine → Prop),
      (∀ n, Q (.ok ()) (n, s.2)) →
      wp (checked (execPool sound) (fun _ _ => True)) (ensurePvcreate cfg.force (pvOf cfg))
        Q (n, s.2) := by
    intro n Q rest
    rw [ensurePvcreate, wp_bind]
    apply pvExists_rule trivial
    · exact fun _ => rest _
    · rintro (stops | unlabelled)
      · cases stops
      · exact absurd ⟨complete.up.labelled, present⟩ unlabelled
  unfold ensurePv
  split
  next disk =>
    have dev : pvOf cfg = .disk (cfg.device.getD []) := if_pos disk
    rw [← dev, wp_bind]
    exact labelled s.1 _ rest
  next loopback =>
    have dev : pvOf cfg = .loop cfg.loopFile := if_neg loopback
    have up : cfg.loopFile ∈ s.2.loops := complete.up.loops cfg.loopFile dev
    have made : cfg.loopFile ∈ s.2.files := complete.sane.backed cfg.loopFile up
    -- the directory, the listing of files, the listing of loop devices
    rw [ensureLoopback, wp_bind]
    apply cmd_rule trivial (fun stops => by cases stops) (fun refused => by cases refused)
    intro a m step
    cases step
    rw [onValue_ok, wp_bind]
    apply cmd_rule trivial (fun stops => by cases stops) (fun refused => by cases refused)
    intro a m step
    cases step
    have listed : s.2.files.contains cfg.loopFile = true := by simpa using made
    rw [onValue_ok, listed, wp_bind, wp_whenTrue, Bool.not_true,
      if_neg Bool.false_ne_true, onValue_ok,
      wp_bind, loopDev, wp_bind]
    apply cmd_rule trivial (fun stops => by cases stops) (fun refused => by cases refused)
    intro a m step
    cases step
    have attached : s.2.loops.contains cfg.loopFile = true := by simpa using up
    rw [onValue_ok, if_pos attached]
    change wp (checked (execPool sound) fun _ _ =>
      True) (ensurePvcreate cfg.force (Dev.loop cfg.loopFile) >>=
      fun _ => pure (Dev.loop cfg.loopFile)) Q _
    rw [← dev, wp_bind]
    exact labelled _ _ rest

/-- Nothing changes where everything is there. -/
theorem ensure_idle (src : Str) (complete : Complete cfg nodeId m) (n : Nat) :
    wp (sequential (execPool sound)) (ensure nodeId cfg src)
      (fun r s' => r = .ok (group cfg nodeId) ∧ s'.2 = m) (n, m) := by
  refine sequential_of_unchecked ?_
  rw [ensure_eq, layOut, wp_bind, wp_bind]
  refine pv_idle complete fun n => ?_
  rw [onValue_ok, wp_bind]
  apply vgExists_rule trivial
  case no =>
    rintro (stops | missing)
    · cases stops
    · rw [complete.up.grouped, Option.any_some, complete.up.loops.present] at missing
      cases missing
  intro d _
  -- the pool and the golden root are there, so neither is made again
  have pooled : decide (AList.lookup (group cfg nodeId, cfg.thinpool) m.host.lvs ≠ none) = true :=
    decide_eq_true complete.up.pooled
  rw [onValue_ok, wp_bind, wp_whenTrue, Bool.not_true, if_neg Bool.false_ne_true,
    onValue_ok, wp_bind,
    ensurePool, wp_bind, wp_lvExists, pooled]
  refine ⟨trivial, ?_⟩
  simp only [sound_eq, Bool.not_false, Bool.and_true, if_true, onValue_ok, wp_pure]
  apply cmd_rule trivial (fun stops => by cases stops)
  · intro refused
    rw [PoolCmd.step, complete.up.grouped, if_pos (Option.some_ne_none _)] at refused
    cases refused
  intro a m' step
  rw [PoolCmd.step, complete.up.grouped, if_pos (Option.some_ne_none _),
    if_pos (List.contains_iff_mem.mpr complete.up.active)] at step
  cases step
  obtain ⟨lv, there, _⟩ := complete.golden.2.2
  have listed : decide (AList.lookup (group cfg nodeId, GOLD_DEFAULT) m.host.lvs ≠
      none) = true := by
    rw [there]
    rfl
  rw [onValue_ok, wp_bind, ensureDefaultGolden, wp_bind, wp_lvExists, listed]
  exact ⟨trivial, rfl, rfl⟩

end Layers

/-! ## A start after one that did not finish -/

/-- A start, by its commands. -/
def start (nodeId : Id) (cfg : PoolConfig) (src : Str) (fails : Nat → Bool) (m : Machine) :
    Except Exn Str × Machine :=
  ((run (execPool fails) (ensure nodeId cfg src) (0, m)).1,
    (run (execPool fails) (ensure nodeId cfg src) (0, m)).2.2)

/-- The process of the node starts again, alone or with its machine. -/
def restarted (reboot : Bool) (m : Machine) : Machine := if reboot then m.reboot else m

/-- Where no start has made the base volume or the golden image yet. -/
def Unprovisioned (cfg : PoolConfig) (nodeId : Id) (m : Machine) : Prop :=
  Sane cfg nodeId m ∧ Bare cfg nodeId m.host.lvs

/-- Whatever of the first start was done, the next one ends with the substrate; and a start on the
complete substrate changes nothing. -/
structure SelfHeals (cfg : PoolConfig) (nodeId : Id) (src : Str) (fails : Nat → Bool)
    (m : Machine) : Prop where
  returns : ∀ reboot, (start nodeId cfg src sound
    (restarted reboot (start nodeId cfg src fails m).2)).1 =
    .ok (group cfg nodeId)
  completes : ∀ reboot, Complete cfg nodeId
    (start nodeId cfg src sound (restarted reboot (start nodeId cfg src fails m).2)).2
  idle : ∀ m', Complete cfg nodeId m' → start nodeId cfg src sound m' = (.ok (group cfg nodeId), m')

theorem base_restarted {X : Lvs → Prop} (reboot : Bool) (base : Base cfg nodeId X m) :
    Base cfg nodeId X (restarted reboot m) := by
  cases reboot with
  | false => exact base
  | true =>
    exact ⟨⟨base.1.own, base.1.unclaimed, fun file up => absurd up List.not_mem_nil⟩, base.2⟩

/-- A start completes what an earlier one left, whichever commands of that failed or were never
reached, if and only if the configuration can work and the earlier start did not stop at the `dd` or
the snapshot that follow the base volume. -/
theorem selfHeals_iff (cfg : PoolConfig) (nodeId : Id) (src : Str) (fails : Nat → Bool)
    (m : Machine) (blank : Unprovisioned cfg nodeId m) :
    SelfHeals cfg nodeId src fails m ↔
      Proper cfg ∧ ∀ a ∈ trail (execPool fails) (ensure nodeId cfg src) (0, m),
        Unbroken fails a.1 a.2 := by
  have idle : ∀ m', Complete cfg nodeId m' →
      start nodeId cfg src sound m' = (.ok (group cfg nodeId), m') := by
    intro m' complete
    obtain ⟨answer, same⟩ := (wp_sequential _ _ _ _).mp (ensure_idle src complete 0)
    exact Prod.ext answer same
  by_cases proper : Proper cfg
  case neg =>
    refine iff_of_false (fun heals => ?_) (fun both => proper both.1)
    have noGold : NoGold cfg nodeId m.host.lvs := by
      intro lv there
      rw [blank.2.2] at there
      cases there
    have first := (wp_sequential _ _ _ _).mp
      (ensure_spares (s := (0, m)) fails src proper ⟨blank.1, noGold⟩)
    have second := (wp_sequential _ _ _ _).mp (ensure_spares (s := (0, _)) sound src proper
      (base_restarted false first))
    obtain ⟨lv, there, origin, _⟩ := (heals.completes false).golden.2.2
    exact second.2 lv there origin
  rcases ensure_cases (s := (0, m)) fails src proper blank with
    ⟨_, ends⟩ | ⟨_, broken, ends⟩ | ends
  · -- The first start left no base volume.
    obtain ⟨unbroken, left⟩ := (wp_checked _ _ _ _ _).mp ends
    have next : ∀ reboot,
        (start nodeId cfg src sound (restarted reboot (start nodeId cfg src fails m).2)).1 =
        .ok (group cfg nodeId) ∧
        Complete cfg nodeId (start nodeId cfg src sound
          (restarted reboot (start nodeId cfg src fails m).2)).2 := by
      intro reboot
      rcases ensure_cases (s := (0, _)) sound src proper (base_restarted reboot left) with
        ⟨⟨i, stops⟩, _⟩ | ⟨⟨i, stops⟩, _⟩ | ends'
      · cases stops
      · cases stops
      · exact ((wp_checked _ _ _ _ _).mp ends').2
    exact iff_of_true ⟨fun reboot => (next reboot).1, fun reboot => (next reboot).2,
      idle⟩ ⟨proper, unbroken⟩
  · -- It left a base volume without a golden image.
    refine iff_of_false (fun heals => ?_)
      (fun both => broken ((wp_checked _ _ _ _ _).mpr ⟨both.2, trivial⟩))
    have left := (wp_sequential _ _ _ _).mp ends
    obtain ⟨e, answer⟩ :=
      (wp_sequential _ _ _ _).mp (stuck_fails (s := (0, _)) src proper (base_restarted false left))
    cases answer.symm.trans (heals.returns false)
  · -- It made the golden image.
    obtain ⟨unbroken, _, complete⟩ := (wp_checked _ _ _ _ _).mp ends
    have next : ∀ reboot,
        (start nodeId cfg src sound (restarted reboot (start nodeId cfg src fails m).2)).1 =
        .ok (group cfg nodeId) ∧
        Complete cfg nodeId (start nodeId cfg src sound
          (restarted reboot (start nodeId cfg src fails m).2)).2 := by
      intro reboot
      exact (wp_sequential _ _ _ _).mp (golden_completes (s := (0, _)) src
        (base_restarted reboot ⟨complete.sane, complete.golden⟩))
    exact iff_of_true ⟨fun reboot => (next reboot).1, fun reboot => (next reboot).2,
      idle⟩ ⟨proper, unbroken⟩

/-! ## A start that stops too early -/

instance (fails : Nat → Bool) (c : PoolCmd) (s : Nat × Machine) :
    Decidable (Unbroken fails c s) := by
  unfold Unbroken
  split <;> infer_instance

def loopback : PoolConfig := ⟨⟨"nyc", "pool", none⟩, "/node", 20, 4096, false⟩

/-- The node stops after so many commands. -/
def stopsAfter (n : Nat) : Nat → Bool := fun i => n ≤ i

theorem empty_unprovisioned : Unprovisioned loopback "node-aaaa" Machine.empty := by
  refine ⟨⟨fun d found => ?_, fun _ => ⟨by decide +kernel, fun name => rfl⟩,
    fun file up => ?_⟩, rfl, rfl⟩
  · cases found
  · cases up

/-- The first start stops after it has made the base volume; every later one fails on it. -/
theorem start_gets_stuck :
    ¬ ∀ (cfg : PoolConfig) (nodeId : Id) (src : Str) (fails : Nat → Bool) (m : Machine),
      Unprovisioned cfg nodeId m → SelfHeals cfg nodeId src fails m := by
  intro heals
  have returns := (heals loopback "node-aaaa" "/repo/assets/rootfs.ext4" (stopsAfter 14)
    Machine.empty empty_unprovisioned).returns true
  have fails : (start "node-aaaa" loopback "/repo/assets/rootfs.ext4" sound (restarted true
      (start "node-aaaa" loopback "/repo/assets/rootfs.ext4" (stopsAfter 14)
        Machine.empty).2)).1.toOption = none := by
    decide +kernel
  rw [returns] at fails
  cases fails

/-- A node that stops before the base volume starts well afterwards. -/
theorem start_heals :
    SelfHeals loopback "node-aaaa" "/repo/assets/rootfs.ext4" (stopsAfter 13) Machine.empty :=
  (selfHeals_iff loopback "node-aaaa" "/repo/assets/rootfs.ext4"
    (stopsAfter 13) Machine.empty empty_unprovisioned).mpr
    ⟨⟨by decide, by decide, by decide⟩, by decide +kernel⟩

end Substrate

end Nyc
