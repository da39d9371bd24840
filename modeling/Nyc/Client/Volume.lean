import Nyc.Client.Exec

/-! `client/volume`: thin volumes, their names by role, snapshots and clones. -/

namespace Nyc.Client

open Effects (Program)
open Effects.Program (perform forEach filterEach whenSome)

namespace Names

def DATA : Str := "data-"
def SNAP : Str := "snap-"
def GOLD : Str := "gold-"
def ROOTFS : Str := "rootfs-"

def data (volId : Id) : Str := DATA ++ volId
def snap (snapId : Id) : Str := SNAP ++ snapId
def gold (snapId : Id) : Str := GOLD ++ snapId
def rootfs (vmId : Id) : Str := ROOTFS ++ vmId

end Names

def GOLD_DEFAULT : Str := "gold-default"

/-- `except PrivopsError: return default`. -/
def exceptPrivops {α : Type} (p : Sh α) (fallback : α) : Sh α :=
  tryCatch p fun e => if e = .privops then pure fallback else throw e

def lvm (c : LvmCmd) : Sh c.Res := @perform Cmd Cmd.Res Exn (.lvm c)

namespace Lv

def createThin (vg pool name : Str) (sizeMb : Int) : Sh Path := do
  lvm (.createThin vg pool name sizeMb)
  return .device vg name

def snapshot (vg origin name : Str) : Sh Path := do
  lvm (.snapshot vg origin name true)
  return .device vg name

def clone (vg origin name : Str) : Sh Path := do
  lvm (.snapshot vg origin name false)
  return .device vg name

def listLvs (lister : Lister) (vg : Str) : Sh (List Str) :=
  exceptPrivops (lvm (.lvs lister vg)) []

/-- The source's `exists`. -/
def exists_ (vg name : Str) : Sh Bool := do
  let names ← listLvs .exists_ vg
  return names.contains name

def remove (vg name : Str) : Sh Unit := do
  if ← exists_ vg name then lvm (.remove vg name)

def extend (vg name : Str) (sizeMb : Int) : Sh Unit := do
  lvm (.extend vg name sizeMb)
  lvm (.resize2fs vg name)

def formatExt4 (vg name : Str) : Sh Unit := lvm (.mkfs vg name)

end Lv

namespace Create

/-- `volume/create.py`: `run`. -/
def run (vg pool name : Str) (sizeMb : Int) : Sh Path := do
  let dev ← Lv.createThin vg pool name sizeMb
  Lv.formatExt4 vg name
  return dev

def fromSnapshot (vg snapshotLv name : Str) : Sh Path := Lv.clone vg snapshotLv name

end Create

namespace SnapAction

/-- `volume/snapshot.py`: `create`. -/
def create (vg sourceLv : Str) (snapId : Id) : Sh Path :=
  Lv.snapshot vg sourceLv (Names.snap snapId)

def golden (vg : Str) (snapId goldId : Id) : Sh Path :=
  Lv.snapshot vg (Names.snap snapId) (Names.gold goldId)

def remove (vg lvName : Str) : Sh Unit := Lv.remove vg lvName

end SnapAction

end Nyc.Client
