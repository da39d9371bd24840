import Nyc.Client.Volume
import Nyc.Config

/-!
# `client/volume/pool.py`: the substrate of a node

The chain from a block device to the golden image that VMs boot from, made when the node
starts. Beside its host the node has here the layers under its volumes: backing files, loop
devices, physical volumes and groups. A loop device is named by the file behind it; its
number, which the kernel chooses, is never looked at.
-/

namespace Nyc.Client

open Data
open Effects (Program)
open Effects.Program (perform whenTrue)

inductive Dev where
  | disk (path : Str)
  | loop (file : Str)
  deriving DecidableEq, Repr

/-- A node at its start. What is on disk outlives a reboot; loop devices and activations do not. -/
structure Machine where
  host : Host
  files : List Str
  loops : List Str
  pvs : List Dev
  /-- The groups, each on its physical volume. -/
  vgs : Store Str Dev
  active : List Str
  /-- In MiB. -/
  capacity : Dev → Int

/-- A node on which nothing was ever set up. -/
def Machine.empty : Machine := ⟨Host.empty, [], [], [], ∅, [], fun _ => 0⟩

def Machine.present (m : Machine) : Dev → Bool
  | .disk _ => true
  | .loop file => m.loops.contains file

def Machine.reboot (m : Machine) : Machine := { m with loops := [], active := [] }

inductive PoolCmd where
  | host (c : Cmd)
  | mkdirs (path : Str)
  | exists_ (file : Str)
  | truncate (file : Str) (sizeGb : Int)
  /-- `losetup -j`: the loop device of the file, if it has one. -/
  | losetupOf (file : Str)
  | losetupFind (file : Str)
  | pvs (dev : Dev)
  | pvcreate (force : Bool) (dev : Dev)
  | vgs (vg : Str)
  | vgcreate (vg : Str) (dev : Dev)
  | thinPool (vg pool : Str)
  | vgchange (vg : Str)
  | dd (source vg name : Str)

abbrev PoolCmd.Res : PoolCmd → Type
  | host c => c.Res
  | exists_ _ => Bool
  | losetupOf _ => Option Dev
  | losetupFind _ => Dev
  | _ => Unit

/-- No group is on the device. -/
def Machine.unused (m : Machine) (dev : Dev) : Bool := m.vgs.entries.all fun e => e.2 ≠ dev

/-- The label is written: a group that was on the device is gone, and its volumes with it. -/
def Machine.label (m : Machine) (dev : Dev) : Machine :=
  { m with
    pvs := dev :: m.pvs
    vgs := Store.keep (fun _ d => d ≠ dev) m.vgs
    host := { m.host with lvs := Store.keep (fun k _ => m.vgs.lookup k.1 ≠ some dev) m.host.lvs } }

namespace PoolCmd

/-- What the commands on the substrate do; those on the host are `Cmd.step`. -/
def step (out : Str) : (c : PoolCmd) → Machine → Option (c.Res × Machine)
  | host c, m => (c.step out m.host).map fun (a, h) => (a, { m with host := h })
  | mkdirs _, m => some ((), m)
  | exists_ file, m => some (m.files.contains file, m)
  | truncate file sizeGb, m =>
    some ((), { m with
      files := file :: m.files
      capacity := Function.update m.capacity (.loop file) (1024 * sizeGb) })
  | losetupOf file, m => some (if m.loops.contains file then some (.loop file) else none, m)
  | losetupFind file, m =>
    if m.files.contains file then some (.loop file, { m with loops := file :: m.loops }) else none
  | pvs dev, m => if dev ∈ m.pvs ∧ m.present dev then some ((), m) else none
  | pvcreate force dev, m =>
    if m.present dev ∧ (force ∨ m.unused dev) then some ((), m.label dev) else none
  | vgs vg, m => if (m.vgs.lookup vg).any m.present then some ((), m) else none
  | vgcreate vg dev, m =>
    if m.vgs.lookup vg = none ∧ dev ∈ m.pvs ∧ m.present dev ∧ m.unused dev then
      some ((), { m with vgs := m.vgs.insert vg dev })
    else none
  | thinPool vg pool, m =>
    match m.vgs.lookup vg with
    | some dev =>
      if m.host.lvs.lookup (vg, pool) = none then
        some ((), { m with host := { m.host with
          lvs := m.host.lvs.insert (vg, pool) ⟨m.capacity dev, none, false, .zeros⟩ } })
      else none
    | none => none
  | vgchange vg, m =>
    if m.vgs.lookup vg ≠ none then
      some ((), { m with active := if m.active.contains vg then m.active else vg :: m.active })
    else none
  | dd _ vg name, m =>
    if m.host.lvs.lookup (vg, name) ≠ none then
      some ((), { m with host := { m.host with
        lvs := Store.modify (vg, name) (fun lv => { lv with content := .image }) m.host.lvs } })
    else none

def exn : PoolCmd → Exn
  | host c => c.exn
  | mkdirs _ | exists_ _ => .os
  | _ => .privops

/-- Whether the command can fail by itself; `Path.exists` does not. -/
def fallible : PoolCmd → Bool
  | host c => c.privileged
  | exists_ _ => false
  | _ => true

end PoolCmd

/-- The commands of the start, by how many there have been. -/
def execPool (fails : Nat → Bool) (c : PoolCmd) (s : Nat × Machine) :
    Except Exn c.Res × (Nat × Machine) :=
  if fails s.1 && c.fallible then (.error c.exn, (s.1 + 1, s.2))
  else
    match c.step [] s.2 with
    | some (a, m) => (.ok a, (s.1 + 1, m))
    | none => (.error c.exn, (s.1 + 1, s.2))

/-- A program of the node's start. -/
abbrev Setup : Type → Type := Program PoolCmd PoolCmd.Res Exn

def onMachine {α : Type} : Sh α → Setup α
  | .ret a => .ret a
  | .raise e => .raise e
  | .op c k => .op (.host c) fun r => onMachine (k r)

/-- `LvmConfig`, with what only the start reads; `force` is `NYC_LVM_FORCE`. -/
structure PoolConfig extends Config.LvmConfig where
  nodeFolder : Str
  loopSizeGb : Int
  baseRootfsMb : Int
  force : Bool

def PoolConfig.loopFolder (c : PoolConfig) : Str := c.nodeFolder ++ "/.lvm"

def PoolConfig.loopFile (c : PoolConfig) : Str := c.loopFolder ++ "/pv.img"

namespace Pool

def BASE_ROOTFS : Str := "base-rootfs"

def cmd (c : PoolCmd) : Setup c.Res := @perform PoolCmd PoolCmd.Res Exn c

/-- `except PrivopsError: return False`. -/
def exitsZero (p : Setup Unit) : Setup Bool :=
  tryCatch (do p; return true) fun e => if e = .privops then pure false else throw e

def pvExists (dev : Dev) : Setup Bool := exitsZero (cmd (.pvs dev))

def vgExists (vg : Str) : Setup Bool := exitsZero (cmd (.vgs vg))

def ensurePvcreate (force : Bool) (dev : Dev) : Setup Unit := do
  if ← pvExists dev then pure () else cmd (.pvcreate force dev)

def loopDev (file : Str) : Setup Dev := do
  match ← cmd (.losetupOf file) with
  | some dev => return dev
  | none => cmd (.losetupFind file)

def ensureLoopback (cfg : PoolConfig) : Setup Dev := do
  cmd (.mkdirs cfg.loopFolder)
  whenTrue (!(← cmd (.exists_ cfg.loopFile))) (cmd (.truncate cfg.loopFile cfg.loopSizeGb))
  let dev ← loopDev cfg.loopFile
  ensurePvcreate cfg.force dev
  return dev

def ensurePv (cfg : PoolConfig) : Setup Dev :=
  if truthy cfg.device then do
    ensurePvcreate cfg.force (.disk (cfg.device.getD []))
    return .disk (cfg.device.getD [])
  else ensureLoopback cfg

def ensurePool (vg pool : Str) : Setup Unit := do
  if ← onMachine (Lv.exists_ vg pool) then pure () else cmd (.thinPool vg pool)

def ensureDefaultGolden (vg : Str) (cfg : PoolConfig) (rootfsSrc : Str) : Setup Unit := do
  if ← onMachine (Lv.exists_ vg GOLD_DEFAULT) then pure ()
  else do
    let _ ← onMachine (Lv.createThin vg cfg.thinpool BASE_ROOTFS cfg.baseRootfsMb)
    cmd (.dd rootfsSrc vg BASE_ROOTFS)
    let _ ← onMachine (Lv.snapshot vg BASE_ROOTFS GOLD_DEFAULT)

/-- The name of the group. -/
def ensure (nodeId : Id) (cfg : PoolConfig) (rootfsSrc : Str) : Setup Str := do
  let pv ← ensurePv cfg
  let vg := cfg.vgFor nodeId
  whenTrue (!(← vgExists vg)) (cmd (.vgcreate vg pv))
  ensurePool vg cfg.thinpool
  cmd (.vgchange vg)
  ensureDefaultGolden vg cfg rootfsSrc
  return vg

end Pool

end Nyc.Client
