import Nyc.Client.Proxy
import Nyc.Tables

/-!
# The cluster

The replicated database and the hosts of the nodes. A node's program (`Py`) issues database
operations, asks the standard library for what it draws from outside (`uuid`, the clock,
`random`), and runs commands on its own host. Every operation is atomic: the database is
linearizable.
-/

namespace Nyc

open Data Effects

/-- What the surroundings answer, by the index of the operation in the run. -/
structure Env where
  uuid : Nat → Id
  now : Nat → Timestamp
  choice : Nat → Nat
  chance : Nat → Client.Chance

structure World where
  db : Db
  hosts : Id → Client.Host
  /-- How many operations there have been. -/
  clock : Nat

inductive Op where
  | getAll (t : Tbl) (where_ : t.Row → Bool)
  | get (t : Tbl) (where_ : t.Row → Bool)
  | insert (t : Tbl) (row : t.Row)
  | update (t : Tbl) (where_ : t.Row → Bool) (set : t.Row → t.Row)
  | delete (t : Tbl) (where_ : t.Row → Bool)
  | uuid4
  | now
  | choice
  | host (nodeId : Id) (c : Client.Cmd)

/-- `update` and `delete` answer with the number of rows affected. -/
abbrev Op.Res : Op → Type
  | getAll t _ => List t.Row
  | get t _ => Option t.Row
  | insert _ _ => Unit
  | update _ _ _ => Nat
  | delete _ _ => Nat
  | uuid4 => Id
  | now => Timestamp
  | choice => Nat
  | host _ c => c.Res

/-- A program of a node's process. -/
abbrev Py : Type → Type := Program Op Op.Res Exn

def World.tick (w : World) : World := { w with clock := w.clock + 1 }

def World.setTable (w : World) (t : Tbl) (rows : Table t.unique) : World :=
  { w with db := Function.update w.db t rows }

def World.setHost (w : World) (nodeId : Id) (h : Client.Host) : World :=
  { w with hosts := Function.update w.hosts nodeId h }

/-- One operation. A constraint that a write would break raises `RqliteError`. -/
def exec (env : Env) : (o : Op) → World → Except Exn o.Res × World
  | .getAll t where_, w => (.ok ((w.db t).getAll where_), w.tick)
  | .get t where_, w => (.ok ((w.db t).get where_), w.tick)
  | .insert t row, w =>
    match (w.db t).insert row with
    | some rows => (.ok (), (w.setTable t rows).tick)
    | none => (.error .rqlite, w.tick)
  | .update t where_ set, w =>
    match (w.db t).update where_ set with
    | some rows => (.ok ((w.db t).getAll where_).length, (w.setTable t rows).tick)
    | none => (.error .rqlite, w.tick)
  | .delete t where_, w =>
    (.ok ((w.db t).getAll where_).length, (w.setTable t ((w.db t).delete where_)).tick)
  | .uuid4, w => (.ok (env.uuid w.clock), w.tick)
  | .now, w => (.ok (env.now w.clock), w.tick)
  | .choice, w => (.ok (env.choice w.clock), w.tick)
  | .host nodeId c, w =>
    (((w.hosts nodeId).exec (env.chance w.clock) c).1,
      (w.setHost nodeId ((w.hosts nodeId).exec (env.chance w.clock) c).2).tick)

/-! ## The operations as programs -/

def getAll (t : Tbl) (where_ : t.Row → Bool) : Py (List t.Row) :=
  @Program.perform Op Op.Res Exn (.getAll t where_)

def get (t : Tbl) (where_ : t.Row → Bool) : Py (Option t.Row) :=
  @Program.perform Op Op.Res Exn (.get t where_)

def insert (t : Tbl) (row : t.Row) : Py Unit :=
  @Program.perform Op Op.Res Exn (.insert t row)

def update (t : Tbl) (where_ : t.Row → Bool) (set : t.Row → t.Row) : Py Nat :=
  @Program.perform Op Op.Res Exn (.update t where_ set)

def delete (t : Tbl) (where_ : t.Row → Bool) : Py Nat :=
  @Program.perform Op Op.Res Exn (.delete t where_)

def uuid4 : Py Id := @Program.perform Op Op.Res Exn .uuid4

def now : Py Timestamp := @Program.perform Op Op.Res Exn .now

def choice : Py Nat := @Program.perform Op Op.Res Exn .choice

/-- Run a client program on the host of a node. -/
def onHost (nodeId : Id) {α : Type} : Client.Sh α → Py α
  | .ret a => .ret a
  | .raise e => .raise e
  | .op c k => .op (.host nodeId c) fun r => onHost nodeId (k r)

/-- The process of a node: who it is and how it is configured. -/
structure Node where
  id : Id
  cfg : NodeConfig

def Node.sh (self : Node) {α : Type} (p : Client.Sh α) : Py α := onHost self.id p

/-- `volume_vg(node_id)`. -/
def Node.volumeVg (self : Node) (nodeId : Id) : Str := self.cfg.lvm.vgFor nodeId

end Nyc
