import Nyc.Footprint

/-!
# The rows that a VM names

A VM names its VPC and, where it has one, its data volume. No constraint of the tables keeps
these rows there: the two deletes look for VMs first, the two creations look for the rows
first, and between the looking and the writing other requests may write. Where none of them
takes away what was found, every row that a VM names exists.
-/

namespace Nyc

open Data Effects Effects.Program

namespace References

/-! ## References -/

/-- What a VM names: a row of the VPCs or of the volumes. -/
inductive Ref where
  | vpc (id : Id)
  | volume (id : Id)
  deriving DecidableEq, Repr

/-- What the VM of a row names. -/
def refs (vm : VmRow) : List Ref := .vpc vm.vpcId :: (vm.dataVolumeId.map Ref.volume).toList

namespace Ref

/-- The row is in its table. -/
def There (w : World) : Ref → Prop
  | vpc id => ∃ r ∈ w.db .vpcs, r.id = id
  | volume id => ∃ r ∈ w.db .volumes, r.id = id

/-- The operation deletes the row; deletes go by the id. -/
def goneBy : Ref → Op → Bool
  | vpc id, .delete .vpcs p => p ⟨id, [], [], 0⟩
  | volume id, .delete .volumes p => p ⟨id, [], [], 0, [], [], 0⟩
  | _, _ => false

/-- Thread `i` found the row, or made it. -/
def held (i : Nat) : Ref → Event Op Op.Res Exn → Bool
  | vpc id, ⟨j, .get .vpcs _, .ok (some r)⟩ => j = i && r.id = id
  | vpc id, ⟨j, .insert .vpcs r, .ok ()⟩ => j = i && r.id = id
  | volume id, ⟨j, .get .volumes _, .ok (some r)⟩ => j = i && r.id = id
  | volume id, ⟨j, .insert .volumes r, .ok ()⟩ => j = i && r.id = id
  | _, _ => false

theorem held_thread {i : Nat} {ref : Ref} {e : Event Op Op.Res Exn} (h : ref.held i e = true) :
    e.thread = i := by
  unfold held at h
  split at h <;> first | exact of_decide_eq_true (Bool.and_eq_true_iff.mp h).1 | cases h

end Ref

/-- Every row that a VM names is there. -/
def Intact (w : World) : Prop := ∀ vm ∈ w.db .vms, ∀ ref ∈ refs vm, ref.There w

instance (w : World) (ref : Ref) : Decidable (ref.There w) :=
  match ref with
  | .vpc id => inferInstanceAs (Decidable (∃ r ∈ (w.db .vpcs).rows, r.id = id))
  | .volume id => inferInstanceAs (Decidable (∃ r ∈ (w.db .volumes).rows, r.id = id))

instance (w : World) : Decidable (Intact w) :=
  inferInstanceAs (Decidable (∀ vm ∈ (w.db .vms).rows, ∀ ref ∈ refs vm, ref.There w))

/-! ## The history since a lookup -/

/-- What happened since the newest event of this kind. -/
def since (mark : Event Op Op.Res Exn → Bool) (s : Run) : List (Event Op Op.Res Exn) :=
  s.trace.takeWhile fun e => !mark e

/-- Thread `i` looked for a VM. -/
def looked (i : Nat) : Event Op Op.Res Exn → Bool
  | ⟨j, .get .vms _, _⟩ => j = i
  | _ => false

theorem looked_thread {i : Nat} {e : Event Op Op.Res Exn} (h : looked i e = true) :
    e.thread = i := by
  unfold looked at h
  split at h
  · exact of_decide_eq_true h
  · cases h

/-- Another thread deleted the row. -/
def removed (i : Nat) (ref : Ref) (e : Event Op Op.Res Exn) : Bool :=
  e.thread ≠ i && ref.goneBy e.op

/-- Another thread inserted a VM, still there, that names a row which the operation deletes. -/
def named (i : Nat) (o : Op) (w : World) : Event Op Op.Res Exn → Bool
  | ⟨j, .insert .vms r, _⟩ =>
    j ≠ i && (refs r).any (fun ref => ref.goneBy o) && (w.db .vms).rows.any fun vm => vm.id = r.id
  | _ => false

/-- The rows that the operation starts to name. -/
def naming : Op → List Ref
  | .insert .vms row => refs row
  | _ => []

/-- A request that inserts a VM names no volume by the empty text, and no other request has deleted
what it names since it found it; when a request deletes a row, no other one has inserted a VM that
names it since it looked for one. -/
def undisturbed : Gate Op Op.Res Exn World := fun i o s =>
  (∀ ref ∈ naming o, ref ≠ .volume [] ∧
    (since (ref.held i) s).all (fun e => !removed i ref e) = true) ∧
    (since (looked i) s).all (fun e => !named i o s.world e) = true

instance (i : Nat) (o : Op) (s : Run) : Decidable (undisturbed i o s) :=
  inferInstanceAs (Decidable ((∀ ref ∈ naming o, ref ≠ .volume [] ∧
    (since (ref.held i) s).all (fun e => !removed i ref e) = true) ∧
    (since (looked i) s).all (fun e => !named i o s.world e) = true))

/-! ## Rely and guarantee -/

/-- Two rows of one VM, with the same references. -/
structure Alike (a b : VmRow) : Prop where
  id : a.id = b.id
  refs : refs a = refs b

/-- What the new events account for: the VMs that `s` had not, and the rows that were named and are
gone. -/
structure Moved (new : List (Event Op Op.Res Exn)) (s s' : Run) : Prop where
  trace : s'.trace = new ++ s.trace
  vms : ∀ vm' ∈ s'.world.db .vms, (∃ vm ∈ s.world.db .vms, Alike vm vm') ∨
    ∃ e ∈ new, ∃ r, e.op = .insert .vms r ∧ Alike r vm'
  rows : ∀ ref : Ref, ref.There s.world → ref.There s'.world ∨ ∃ e ∈ new, ref.goneBy e.op = true

def Rely (i : Nat) (s s' : Run) : Prop := ∃ new, Moved new s s' ∧ ∀ e ∈ new, e.thread ≠ i

def Guar (i : Nat) (s s' : Run) : Prop := ∃ e, Moved [e] s s' ∧ e.thread = i

theorem Alike.refl (vm : VmRow) : Alike vm vm := ⟨rfl, rfl⟩

theorem Alike.trans {a b c : VmRow} (h : Alike a b) (h' : Alike b c) : Alike a c :=
  ⟨h.id.trans h'.id, h.refs.trans h'.refs⟩

theorem Moved.refl (s : Run) : Moved [] s s where
  trace := rfl
  vms vm there := .inl ⟨vm, there, .refl vm⟩
  rows _ there := .inl there

theorem Moved.trans {new new' : List (Event Op Op.Res Exn)} {s s' s'' : Run} (h : Moved new s s')
    (h' : Moved new' s' s'') : Moved (new' ++ new) s s'' where
  trace := by rw [h'.trace, h.trace, List.append_assoc]
  vms vm'' there'' := by
    rcases h'.vms vm'' there'' with ⟨vm', there', alike'⟩ | ⟨e, made, r, inserts, alike⟩
    · rcases h.vms vm' there' with ⟨vm, there, alike⟩ | ⟨e, made, r, inserts, alike⟩
      · exact .inl ⟨vm, there, alike.trans alike'⟩
      · exact .inr ⟨e, List.mem_append_right _ made, r, inserts, alike.trans alike'⟩
    · exact .inr ⟨e, List.mem_append_left _ made, r, inserts, alike⟩
  rows ref there := by
    rcases h.rows ref there with there' | ⟨e, made, gone⟩
    · rcases h'.rows ref there' with there'' | ⟨e, made, gone⟩
      · exact .inl there''
      · exact .inr ⟨e, List.mem_append_left _ made, gone⟩
    · exact .inr ⟨e, List.mem_append_right _ made, gone⟩

theorem Rely.refl (i : Nat) (s : Run) : Rely i s s :=
  ⟨[], .refl s, fun _ there => absurd there List.not_mem_nil⟩

theorem Rely.trans (i : Nat) (s s' s'' : Run) (h : Rely i s s') (h' : Rely i s' s'') :
    Rely i s s'' := by
  obtain ⟨new, moved, others⟩ := h
  obtain ⟨new', moved', others'⟩ := h'
  refine ⟨new' ++ new, moved.trans moved', fun e there => ?_⟩
  exact (List.mem_append.mp there).elim (others' e) (others e)

theorem Guar.rely (i j : Nat) (s s' : Run) (differ : i ≠ j) (h : Guar j s s') : Rely i s s' := by
  obtain ⟨e, moved, own⟩ := h
  refine ⟨[e], moved, fun e' there => ?_⟩
  rw [List.mem_singleton.mp there, own]
  exact Ne.symm differ

/-! ## What a lookup knows -/

/-- The row was there when thread `i` found it, so another thread deleted it if it is gone. -/
def Held (i : Nat) (ref : Ref) (s : Run) : Prop :=
  ref.There s.world ∨ ∃ e ∈ since (ref.held i) s, removed i ref e = true

/-- When thread `i` looked, no VM named a row that `o` deletes: those that do are other threads'. -/
def Unused (i : Nat) (o : Op) (s : Run) : Prop :=
  ∀ vm ∈ s.world.db .vms, ∀ ref ∈ refs vm, ref.goneBy o = true →
    ∃ e ∈ since (looked i) s, e.thread ≠ i ∧ ∃ r, e.op = .insert .vms r ∧ Alike r vm

theorem since_append {mark : Event Op Op.Res Exn → Bool} {s s' : Run}
    {new : List (Event Op Op.Res Exn)}
    (same : s'.trace = new ++ s.trace) (quiet : ∀ e ∈ new, mark e = false) :
    since mark s' = new ++ since mark s := by
  rw [since, same, List.takeWhile_append_of_pos fun e there => by rw [quiet e there]; rfl]
  rfl

theorem Held.stable {i : Nat} {ref : Ref} {s s' : Run} (h : Held i ref s) (moved : Rely i s s') :
    Held i ref s' := by
  obtain ⟨new, moved, others⟩ := moved
  have quiet : ∀ e ∈ new, ref.held i e = false := fun e there =>
    Bool.eq_false_iff.mpr fun mine => others e there (Ref.held_thread mine)
  rw [Held, since_append moved.trace quiet]
  rcases h with there | ⟨e, before, gone⟩
  · refine (moved.rows ref there).imp id ?_
    rintro ⟨e, made, gone⟩
    refine ⟨e, List.mem_append_left _ made, ?_⟩
    rw [removed, gone, Bool.and_true]
    exact decide_eq_true (others e made)
  · exact .inr ⟨e, List.mem_append_right _ before, gone⟩

theorem Unused.stable {i : Nat} {o : Op} {s s' : Run} (h : Unused i o s) (moved : Rely i s s') :
    Unused i o s' := by
  obtain ⟨new, moved, others⟩ := moved
  have quiet : ∀ e ∈ new, looked i e = false := fun e there =>
    Bool.eq_false_iff.mpr fun mine => others e there (looked_thread mine)
  intro vm' there' ref refers gone
  rw [since_append moved.trace quiet]
  rcases moved.vms vm' there' with ⟨vm, there, alike⟩ | ⟨e, made, r, inserts, alike⟩
  · obtain ⟨e, before, other, r, inserts, alike'⟩ := h vm there ref (alike.refs ▸ refers) gone
    exact ⟨e, List.mem_append_right _ before, other, r, inserts, alike'.trans alike⟩
  · exact ⟨e, List.mem_append_left _ made, others e made, r, inserts, alike⟩

/-! ## Single operations -/

/-- The deletes and the lookups that a reference names. -/
def Ref.delete : Ref → Op
  | vpc id => .delete .vpcs fun r => r.id = id
  | volume id => .delete .volumes fun r => r.id = id

def Ref.usedBy : Ref → VmRow → Bool
  | vpc id => fun r => r.vpcId = id
  | volume id => fun r => r.dataVolumeId = some id

theorem Ref.usedBy_of_mem {ref : Ref} {vm : VmRow} (refers : ref ∈ refs vm) :
    ref.usedBy vm = true := by
  rcases List.mem_cons.mp refers with rfl | refers
  · exact decide_eq_true rfl
  · obtain ⟨id, there, rfl⟩ := Option.map_eq_some_iff.mp (Option.mem_toList.mp refers)
    exact decide_eq_true there

@[simp] theorem Ref.goneBy_delete (ref ref' : Ref) :
    ref'.goneBy ref.delete = decide (ref' = ref) := by
  cases ref <;> cases ref' <;> simp [Ref.delete, Ref.goneBy]

section Steps

variable (env : Env)

theorem Ref.There.of_rows {w w' : World} {ref : Ref} (h : ref.There w)
    (vpcs : ∀ r ∈ w.db .vpcs, ∃ r' ∈ w'.db .vpcs, r'.id = r.id)
    (volumes : ∀ r ∈ w.db .volumes, ∃ r' ∈ w'.db .volumes, r'.id = r.id) : ref.There w' := by
  cases ref with
  | vpc id =>
    obtain ⟨r, there, rfl⟩ := h
    exact vpcs r there
  | volume id =>
    obtain ⟨r, there, rfl⟩ := h
    exact volumes r there

/-- An operation outside both tables. -/
theorem Ref.There.frame {w : World} {o : Op} {ref : Ref} (h : ref.There w) (vpcs : ¬ o.writes .vpcs)
    (volumes : ¬ o.writes .volumes) : ref.There (exec env o w).2 := by
  refine Ref.There.of_rows h (fun r there => ⟨r, ?_, rfl⟩) fun r there => ⟨r, ?_, rfl⟩
  · rwa [exec_frame env w .vpcs o vpcs]
  · rwa [exec_frame env w .volumes o volumes]

theorem Ref.There.insert {w : World} {ref : Ref} (h : ref.There w) (t : Tbl) (row : t.Row) :
    ref.There (exec env (.insert t row) w).2 := by
  cases rows : (w.db t).insert row with
  | none =>
    rw [exec_insert_none env w t row rows]
    exact Ref.There.of_rows h (fun r there => ⟨r, there, rfl⟩) fun r there => ⟨r, there, rfl⟩
  | some rows' =>
    rw [exec_insert_some env w t row rows]
    have kept (t' : Tbl) (r : t'.Row) (there : r ∈ w.db t') : r ∈ (w.setTable t rows').db t' := by
      by_cases same : t' = t
      · subst same
        rw [setTable_self]
        exact (Table.mem_insert rows).mpr (.inl there)
      · rwa [setTable_ne w t t' rows' same]
    exact Ref.There.of_rows h (fun r there => ⟨r, kept .vpcs r there, rfl⟩)
      fun r there => ⟨r, kept .volumes r there, rfl⟩

/-- What requests other than the creations and the two deletes do to the rows that are named. -/
theorem Ref.There.touch {ts ds : List Tbl} {o : Op} (h : Touch ts ds o) (vpcs : .vpcs ∉ ds)
    (volumes : .volumes ∉ ds) {w : World} {ref : Ref} (there : ref.There w) :
    ref.There (exec env o w).2 := by
  cases h with
  | insert t row known => exact Ref.There.insert env there t row
  | size p sizeMb =>
    obtain ⟨rows, updated, same⟩ :=
      exec_update env w .volumes p (fun r => { r with sizeMb := sizeMb })
      (by simp [Tbl.unique])
    rw [same]
    refine Ref.There.of_rows there (fun r before => ⟨r, ?_, rfl⟩) fun r before => ?_
    · rwa [tick_db, setTable_ne w _ _ _ (by decide)]
    · rw [tick_db, setTable_self]
      refine ⟨_, (Table.mem_update updated).mpr ⟨r, before, rfl⟩, ?_⟩
      split <;> rfl
  | delete t p known =>
    refine Ref.There.frame env there ?_ ?_
    · exact fun (same : t = .vpcs) => vpcs (same ▸ known)
    · exact fun (same : t = .volumes) => volumes (same ▸ known)
  | status p st | ready p | task p f known => exact Ref.There.frame env there nofun nofun
  | _ => exact Ref.There.frame env there not_false not_false

/-- They give a VM a new status at most. -/
theorem alike_touch {ts ds : List Tbl} {o : Op} (h : Touch ts ds o) (vms : .vms ∉ ts) {w : World} :
    ∀ vm' ∈ (exec env o w).2.db .vms, ∃ vm ∈ w.db .vms, Alike vm vm' := by
  by_cases writes : o.writes .vms
  · cases h with
    -- a status is no part of what a reference names
    | status p st =>
      obtain ⟨rows, updated, same⟩ := exec_update env w .vms p (fun r => { r with status := st })
        (by simp [Tbl.unique])
      rw [same, tick_db, setTable_self]
      intro vm' there
      obtain ⟨vm, before, rfl⟩ := (Table.mem_update updated).mp there
      refine ⟨vm, before, ?_⟩
      split <;> exact ⟨rfl, rfl⟩
    | insert t row known =>
      obtain rfl : t = .vms := writes
      exact absurd known vms
    | delete t p known =>
      obtain rfl : t = .vms := writes
      intro vm' there
      rw [exec_delete, tick_db, setTable_self, Table.mem_delete] at there
      exact ⟨vm', there.1, .refl vm'⟩
    | ready p | size p n | task p f known => exact absurd writes nofun
    | _ => exact absurd writes id
  · rw [exec_frame env w .vms o writes]
    exact fun vm there => ⟨vm, there, .refl vm⟩

theorem Intact.of_alike {w w' : World} (h : Intact w)
    (vms : ∀ vm' ∈ w'.db .vms, ∃ vm ∈ w.db .vms, Alike vm vm')
    (rows : ∀ vm ∈ w'.db .vms, ∀ ref ∈ refs vm, ref.There w → ref.There w') : Intact w' := by
  intro vm' there' ref refers
  obtain ⟨vm, there, alike⟩ := vms vm' there'
  exact rows vm' there' ref refers (h vm there ref (alike.refs ▸ refers))

/-- A row that thread `i` finds or makes is there after the step. -/
theorem Ref.There.of_held {i : Nat} {ref : Ref} {o : Op} {w : World} {answer : Except Exn o.Res}
    (given : answer = (exec env o w).1) (found : ref.held i ⟨i, o, answer⟩ = true) :
    ref.There (exec env o w).2 := by
  -- a row that was read stands in the table
  have got {t : Tbl} {p : t.Row → Bool} {r : t.Row} (given :
      .ok (some r) = (exec env (.get t p) w).1) :
      r ∈ w.db t := (Table.get_some (Except.ok.inj given).symm).1
  -- an insert that returned put the row there
  have made {t : Tbl} {r : t.Row} (given : .ok () = (exec env (.insert t r) w).1) :
      r ∈ (exec env (.insert t r) w).2.db t := by
    cases rows : (w.db t).insert r with
    | none =>
      rw [exec_insert_none env w t r rows] at given
      cases given
    | some rows' =>
      rw [exec_insert_some env w t r rows, tick_db, setTable_self]
      exact (Table.mem_insert rows).mpr (.inr rfl)
  unfold Ref.held at found
  split at found
  next id j p r event =>
    cases event
    exact ⟨r, got given, of_decide_eq_true (Bool.and_eq_true_iff.mp found).2⟩
  next id j r event =>
    cases event
    exact ⟨r, made given, of_decide_eq_true (Bool.and_eq_true_iff.mp found).2⟩
  next id j p r event =>
    cases event
    exact ⟨r, got given, of_decide_eq_true (Bool.and_eq_true_iff.mp found).2⟩
  next id j r event =>
    cases event
    exact ⟨r, made given, of_decide_eq_true (Bool.and_eq_true_iff.mp found).2⟩
  next => cases found

theorem Held.own {i : Nat} {ref : Ref} {o : Op} {s : Run} (h : Held i ref s)
    (kept : ref.There s.world → ref.There (exec env o s.world).2) :
    Held i ref (s.after (exec env) i o) := by
  by_cases found : ref.held i ⟨i, o, (exec env o s.world).1⟩ = true
  · exact .inl (Ref.There.of_held env rfl found)
  · have same : since (ref.held i) (s.after (exec env) i o) =
        [⟨i, o, (exec env o s.world).1⟩] ++ since (ref.held i) s :=
      since_append rfl fun e there => by
        rw [List.mem_singleton.mp there]
        exact Bool.eq_false_iff.mpr found
    rw [Held, same]
    rcases h with there | ⟨e, before, gone⟩
    · exact .inl (kept there)
    · exact .inr ⟨e, List.mem_append_right _ before, gone⟩

/-- An operation of a request that neither creates a VM nor deletes what a VM may name. -/
theorem touch_step (i : Nat) {s : Run} {ts ds : List Tbl} {o : Op} (h : Touch ts ds o)
    (vms : .vms ∉ ts) (vpcs : .vpcs ∉ ds) (volumes : .volumes ∉ ds) (intact : Intact s.world) :
    Intact (s.after (exec env) i o).world ∧ Guar i s (s.after (exec env) i o) ∧
      ∀ ref, Held i ref s → Held i ref (s.after (exec env) i o) := by
  have rows (ref : Ref) (there : ref.There s.world) : ref.There (exec env o s.world).2 :=
    there.touch env h vpcs volumes
  have alike := alike_touch env h vms (w := s.world)
  refine ⟨intact.of_alike alike fun _ _ ref _ => rows ref, ?_,
    fun ref held => held.own env (rows ref)⟩
  exact ⟨_, ⟨rfl, fun vm' there => .inl (alike vm' there),
    fun ref there => .inl (rows ref there)⟩, rfl⟩

/-- The insert of a VM that names rows which thread `i` has found. -/
theorem insert_step (i : Nat) {s : Run} (row : VmRow) (intact : Intact s.world)
    (held : ∀ ref ∈ refs row, ref ≠ .volume [] → Held i ref s)
    (gate : undisturbed i (.insert .vms row) s) :
    Intact (s.after (exec env) i (.insert .vms row)).world ∧
      Guar i s (s.after (exec env) i (.insert .vms row)) := by
  have rows (ref : Ref) (there : ref.There s.world) :
      ref.There (exec env (.insert .vms row) s.world).2 := there.insert env .vms row
  -- the row's references are there: nobody has deleted them since they were found
  have own : ∀ ref ∈ refs row, ref.There s.world := by
    intro ref refers
    obtain ⟨proper, quiet⟩ := gate.1 ref refers
    rcases held ref refers proper with there | ⟨e, later, gone⟩
    · exact there
    · have kept := List.all_eq_true.mp quiet e later
      rw [gone] at kept
      cases kept
  have vms : ∀ vm ∈ (exec env (.insert .vms row) s.world).2.db .vms,
      vm ∈ s.world.db .vms ∨ vm = row := by
    cases inserted : (s.world.db .vms).insert row with
    | none =>
      rw [exec_insert_none env s.world .vms row inserted]
      exact fun vm there => .inl there
    | some rows' =>
      rw [exec_insert_some env s.world .vms row inserted, tick_db, setTable_self]
      exact fun vm there => (Table.mem_insert inserted).mp there
  constructor
  · intro vm there ref refers
    rcases vms vm there with before | rfl
    · exact rows ref (intact vm before ref refers)
    · exact rows ref (own ref refers)
  · refine ⟨_, ⟨rfl, fun vm there => ?_, fun ref there => .inl (rows ref there)⟩, rfl⟩
    rcases vms vm there with before | rfl
    · exact .inl ⟨vm, before, .refl vm⟩
    · exact .inr ⟨_, List.mem_singleton_self _, vm, rfl, .refl vm⟩

/-- Only the one row goes. -/
theorem Ref.There.delete {w : World} {ref ref' : Ref} (h : ref.There w) (other : ref ≠ ref') :
    ref.There (exec env ref'.delete w).2 := by
  -- deleting by one id leaves the rows of every other
  have kept {t : Tbl} {id : Id} {key : t.Row →
      Id} {r : t.Row} (there : r ∈ w.db t) (differs : key r ≠ id) :
      r ∈ (exec env (.delete t fun r => key r = id) w).2.db t := by
    rw [exec_delete, tick_db, setTable_self, Table.mem_delete]
    exact ⟨there, decide_eq_false differs⟩
  cases ref with
  | vpc id =>
    obtain ⟨r, there, rfl⟩ := h
    cases ref' with
    | vpc id' => exact ⟨r, kept there fun same => other (congrArg vpc same), rfl⟩
    | volume id' =>
      rw [← exec_frame env w .vpcs (Ref.volume id').delete nofun] at there
      exact ⟨r, there, rfl⟩
  | volume id =>
    obtain ⟨r, there, rfl⟩ := h
    cases ref' with
    | vpc id' =>
      rw [← exec_frame env w .volumes (Ref.vpc id').delete nofun] at there
      exact ⟨r, there, rfl⟩
    | volume id' => exact ⟨r, kept there fun same => other (congrArg volume same), rfl⟩

theorem delete_step (i : Nat) {s : Run} (ref : Ref) (intact : Intact s.world)
    (unused : Unused i ref.delete s) (gate : undisturbed i ref.delete s) :
    Intact (s.after (exec env) i ref.delete).world ∧
      Guar i s (s.after (exec env) i ref.delete) := by
  have same : (exec env ref.delete s.world).2.db .vms = s.world.db .vms := by
    apply exec_frame
    cases ref <;> exact nofun
  -- a VM that names the row was inserted by another thread since the look, against the gate
  have free : ∀ vm ∈ s.world.db .vms, ref ∉ refs vm := by
    intro vm there refers
    obtain ⟨e, later, other, r, inserts, alike⟩ := unused vm there ref refers (by simp)
    have apart := List.all_eq_true.mp gate.2 e later
    obtain ⟨j, o, a⟩ := e
    obtain rfl : o = .insert .vms r := inserts
    have names : (refs r).any (fun ref' => ref'.goneBy ref.delete) = true :=
      List.any_eq_true.mpr ⟨ref, alike.refs ▸ refers, by simp⟩
    have still : (s.world.db .vms).rows.any (fun vm => vm.id = r.id) = true :=
      List.any_eq_true.mpr ⟨vm, there, decide_eq_true alike.id.symm⟩
    rw [named, names, still, decide_eq_true other] at apart
    cases apart
  constructor
  · intro vm there ref' refers
    rw [Shared.after, same] at there
    refine (intact vm there ref' refers).delete env ?_
    rintro rfl
    exact free vm there refers
  · refine ⟨_, ⟨rfl, fun vm there => .inl ⟨vm, ?_, .refl vm⟩, fun ref' there => ?_⟩, rfl⟩
    · rwa [Shared.after, same] at there
    · by_cases one : ref' = ref
      · exact .inr ⟨_, List.mem_singleton_self _, by simp [one]⟩
      · exact .inl (there.delete env one)

end Steps

/-! ## The requests -/

section Requests

variable (env : Env) (i : Nat)

/-- Thread `i` among the other requests. -/
abbrev amongRequests : OpSpec Op Op.Res Exn (Run → Prop) :=
  among (exec env) i (fun s => Intact s.world) (Rely i) (Guar i) (undisturbed i)

/-- Thread `i` has found all of these rows. -/
def Holds (found : List Ref) (s : Run) : Prop := ∀ ref ∈ found, Held i ref s

variable {env i} (ts ds : List Tbl)

theorem Holds.stable {found : List Ref} {s s' : Run} (h : Holds i found s) (moved : Rely i s s') :
    Holds i found s' := fun ref there => (h ref there).stable moved

theorem Holds.cons {found : List Ref} {ref : Ref} {s : Run} (h : Holds i found s)
    (held : Held i ref s) :
    Holds i (ref :: found) s := List.forall_mem_cons.mpr ⟨held, h⟩

/-- A footprint that leaves alone which VMs there are, and what they name. -/
structure Aside (ts ds : List Tbl) : Prop where
  vms : .vms ∉ ts
  vpcs : .vpcs ∉ ds
  volumes : .volumes ∉ ds

theorem holds_of_touch {α : Type} {p : Py α} (h : Only (Touch ts ds) p) (aside : Aside ts ds)
    (found : List Ref) (s : Run) (holds : Holds i found s) :
    wp (amongRequests env i) p (fun _ s' => Holds i found s') s := by
  refine among_mono p _ _ (fun _ _ post => post.1) s
    (among_of_issues (Holds i found) (fun s s' holds moved _ => holds.stable moved) ?_ p
      (fun _ => True) h s holds)
  intro o s touches holds intact _
  have step := touch_step env i touches aside.vms aside.vpcs aside.volumes intact
  exact ⟨step.1, step.2.1, fun ref there => step.2.2 ref (holds ref there), fun _ _ => trivial⟩

theorem holds_then {α β : Type} {p : Py α} {f : α → Py β} (h : Only (Touch ts ds) p)
    (aside : Aside ts ds) {found : List Ref} {s : Run} (holds : Holds i found s)
    (rest : ∀ a s', Holds i found s' → wp (amongRequests env i) (f a) (fun _ _ => True) s') :
    wp (amongRequests env i) (p >>= f) (fun _ _ => True) s :=
  among_seq (J := fun _ => Holds i found)
    (among_mono p _ _ (fun _ _ post _ _ =>
      post) s (holds_of_touch ts ds h aside found s holds)) rest

theorem done_of_touch {α : Type} {p : Py α} (h : Only (Touch ts ds) p) (aside : Aside ts ds)
    (s : Run) :
    wp (amongRequests env i) p (fun _ _ => True) s :=
  among_mono p _ _ (fun _ _ _ => trivial) s
    (holds_of_touch ts ds h aside [] s fun _ there => absurd there List.not_mem_nil)

/-- One operation of such a program, after which more is found. -/
theorem find_among {o : Op} (h : Touch ts ds o) (aside : Aside ts ds) {found : List Ref}
    {J : Except Exn o.Res → Run → Prop} {s : Run} (holds : Holds i found s)
    (post : ∀ s' : Run, Intact s'.world → Holds i found (s'.after (exec env) i o) →
      J (exec env o s'.world).1 (s'.after (exec env) i o)) :
    wp (amongRequests env i) (perform o : Py o.Res) J s := by
  rw [wp_perform]
  intro s' moved intact _
  have step := touch_step env i h aside.vms aside.vpcs aside.volumes intact
  refine ⟨step.1, step.2.1, post s' intact fun ref there => step.2.2 ref ?_⟩
  exact (holds ref there).stable moved

theorem insertVm_among (row : VmRow) (s : Run)
    (held : ∀ ref ∈ refs row, ref ≠ .volume [] → Held i ref s) :
    wp (amongRequests env i) (Nyc.insert .vms row) (fun _ _ => True) s := by
  rw [Nyc.insert, wp_perform]
  intro s' moved intact gate
  have step := insert_step env i row intact
    (fun ref refers proper => (held ref refers proper).stable moved) gate
  exact ⟨step.1, step.2, trivial⟩

/-! ### The two creations -/

theorem vpcOr404_then {β : Type} (vpcId : Id) {f : VpcRow → Py β} (s : Run)
    (rest : ∀ vpc s', Holds i [.vpc vpcId] s' →
      wp (amongRequests env i) (f vpc) (fun _ _ => True) s') :
    wp (amongRequests env i) (Vms.vpcOr404 vpcId >>= f) (fun _ _ => True) s := by
  refine among_seq (J := fun _ => Holds i [.vpc vpcId]) ?_ rest
  rw [Vms.vpcOr404, wp_bind, get]
  refine find_among [] [] (.get ..) ⟨by decide, by decide, by decide⟩
    (fun _ there => absurd there List.not_mem_nil : Holds i [] s) fun s' _ _ => ?_
  rw [exec_get, onValue_ok, wp_orHttp]
  cases answer : (s'.world.db .vpcs).get fun r => r.id = vpcId with
  | none => rintro _ ⟨⟩
  | some vpc =>
    rintro _ -
    obtain ⟨there, same⟩ := Table.get_some answer
    exact List.forall_mem_singleton.mpr (.inl ⟨vpc, there, of_decide_eq_true same⟩)

/-- What the body of `POST /vms` names. -/
def bodyRefs (body : VmIn) : List Ref :=
  .vpc body.vpcId :: if truthy body.dataVolumeId then [.volume (body.dataVolumeId.getD [])] else []

theorem bodyVolumePath_then {β : Type} (body : VmIn) {f : Option Client.Path → Py β} (s : Run)
    (holds : Holds i [.vpc body.vpcId] s)
    (rest : ∀ path s', Holds i (bodyRefs body) s' →
      wp (amongRequests env i) (f path) (fun _ _ => True) s') :
    wp (amongRequests env i) (Vms.bodyVolumePath body >>= f) (fun _ _ => True) s := by
  refine among_seq (J := fun _ => Holds i (bodyRefs body)) ?_ rest
  rw [Vms.bodyVolumePath, bodyRefs, wp_ite]
  split
  · rw [wp_bind, Vms.volumePath, wp_bind, get]
    refine find_among [] [] (.get ..) ⟨by decide, by decide, by decide⟩ holds
      fun s' _ holds' => ?_
    rw [exec_get, onValue_ok, wp_bind, wp_orHttp]
    cases answer : (s'.world.db .volumes).get fun r => r.id = body.dataVolumeId.getD [] with
    | none => rintro _ ⟨⟩
    | some vol =>
      rintro _ -
      obtain ⟨there, same⟩ := Table.get_some answer
      refine List.forall_mem_cons.mpr ⟨holds' _ (List.mem_singleton_self _), ?_⟩
      exact List.forall_mem_singleton.mpr (.inl ⟨vol, there, of_decide_eq_true same⟩)
  · rintro _ -
    exact holds

theorem createLocal_among (self : Node) (body : VmIn) (nodeId : Id) (s : Run) :
    wp (amongRequests env i) (Vms.createLocal self body nodeId) (fun _ _ => True) s := by
  have aside : Aside [] [] := ⟨by decide, by decide, by decide⟩
  refine vpcOr404_then _ s fun vpc s' holds => bodyVolumePath_then body s' holds
    fun path s' holds => ?_
  refine holds_then [] [] (Vms.usedIps_touch _) aside holds fun _ s' holds =>
    holds_then [] [] (.fromExcept _) aside holds fun ip s' holds =>
    holds_then [] [] (.uuid4 .uuid4) aside holds fun id s' holds =>
    holds_then [] [] (.now .now) aside holds fun time s' holds => ?_
  refine among_then (insertVm_among _ s' ?_) fun _ s'' => ?_
  -- the row names the VPC and the volume that the request read
  · intro ref refers proper
    refine holds ref ?_
    rcases List.mem_cons.mp refers with rfl | refers
    · exact List.mem_cons_self
    · obtain ⟨d, given, rfl⟩ := Option.map_eq_some_iff.mp (Option.mem_toList.mp refers)
      have given : body.dataVolumeId = some d := given
      have full : truthy body.dataVolumeId = true := by
        cases d with
        | nil => exact absurd rfl proper
        | cons c cs => rw [given]; rfl
      rw [bodyRefs, if_pos full, given]
      exact List.mem_cons_of_mem _ (List.mem_singleton_self _)
  · exact done_of_touch [] [] (.bind (Vms.bringUp_touch self ..) fun _ => .pure _) aside s''

/-- The default VPC is found, or made, or found where another request made it first. -/
theorem ensureDefaultVpc_then {β : Type} {f : VpcRow → Py β} (s : Run)
    (rest : ∀ vpc s', Holds i [.vpc vpc.id] s' →
      wp (amongRequests env i) (f vpc) (fun _ _ => True) s') :
    wp (amongRequests env i) (Defaults.ensureDefaultVpc >>= f) (fun _ _ => True) s := by
  have aside : Aside [] [] := ⟨by decide, by decide, by decide⟩
  have none_found {s : Run} : Holds i [] s := fun _ there => absurd there List.not_mem_nil
  have find {α : Type} {g : Option VpcRow → Py α} {Q : Except Exn α → Run → Prop} (s : Run)
      (absent : ∀ s', wp (amongRequests env i) (g none) Q s')
      (present : ∀ vpc s', Holds i [.vpc vpc.id] s' →
        wp (amongRequests env i) (g (some vpc)) Q s') :
      wp (amongRequests env i) (Defaults.defaultVpc >>= g) Q s := by
    rw [wp_bind, Defaults.defaultVpc, get]
    refine find_among [] [] (.get ..) aside none_found fun s' _ _ => ?_
    rw [exec_get, onValue_ok]
    cases answer : (s'.world.db .vpcs).get fun r => r.name = Defaults.DEFAULT_VPC_NAME with
    | none => exact absent _
    | some vpc =>
      obtain ⟨there, -⟩ := Table.get_some answer
      exact present vpc _ (List.forall_mem_singleton.mpr (.inl ⟨vpc, there, rfl⟩))
  refine among_seq (J := fun vpc => Holds i [.vpc vpc.id]) ?_ rest
  refine find s (fun s' => ?_) fun vpc s' holds => ?_
  · rw [wp_bind, uuid4]
    refine find_among [] [] .uuid4 aside none_found fun s' _ _ => ?_
    rw [exec_uuid4, onValue_ok, wp_bind, now]
    refine find_among [] [] .now aside none_found fun s' _ _ => ?_
    rw [exec_now, onValue_ok, wp_tryCatch, wp_bind, Nyc.insert]
    refine find_among [.vpcs] [] (.insert .vpcs _ List.mem_cons_self)
      ⟨by decide, by decide, by decide⟩ none_found fun s' _ _ => ?_
    -- the insert made the row, or found another of its name
    cases answer : (exec env (.insert .vpcs _) s'.world).1 with
    | ok _ =>
      rintro _ ⟨⟩
      refine List.forall_mem_singleton.mpr (.inl (Ref.There.of_held env (i := i) answer.symm ?_))
      simp [Ref.held]
    | error e =>
      rw [onValue_error, onError_error, wp_ite]
      split
      · refine find _ (fun s' => ?_) fun vpc s' holds => ?_
        · rintro _ ⟨⟩
        · rintro _ ⟨⟩
          exact holds
      · rintro _ ⟨⟩
  · rintro _ ⟨⟩
    exact holds

theorem autoVolume_then {β : Type} (self : Node) (body : SpawnIn) (nodeId : Id)
    {f : VolumeRow → Py β} {found : List Ref} (s : Run) (holds : Holds i found s)
    (rest : ∀ vol s', Holds i (.volume vol.id :: found) s' →
      wp (amongRequests env i) (f vol) (fun _ _ => True) s') :
    wp (amongRequests env i) (Vms.autoVolume self body nodeId >>= f) (fun _ _ => True) s := by
  have aside : Aside [] [] := ⟨by decide, by decide, by decide⟩
  rw [Vms.autoVolume]
  simp only [LawfulMonad.bind_assoc]
  refine holds_then [] [] (.uuid4 .uuid4) aside holds fun volId s' holds =>
    holds_then [] [] (Vms.provisionData_touch self ..) aside holds fun made s' holds =>
    holds_then [] [] (.now .now) aside holds fun time s' holds => ?_
  refine among_seq (J := fun _ => Holds i (.volume volId :: found)) ?_ fun _ s'' holds =>
    rest _ s'' holds
  rw [Nyc.insert]
  refine find_among [.volumes] [] (.insert .volumes _ List.mem_cons_self)
    ⟨by decide, by decide, by decide⟩ holds fun s'' _ holds' => ?_
  rintro _ answer
  refine holds'.cons (.inl (Ref.There.of_held env (i := i) answer.symm ?_))
  simp [Ref.held]

theorem spawnLocal_among (self : Node) (body : SpawnIn) (nodeId : Id) (preBringUp : Id → Py Unit)
    (s : Run) (pre : ∀ id s', wp (amongRequests env i) (preBringUp id) (fun _ _ => True) s') :
    wp (amongRequests env i) (Vms.spawnLocal self body nodeId preBringUp) (fun _ _ => True) s := by
  have aside : Aside [] [] := ⟨by decide, by decide, by decide⟩
  refine ensureDefaultVpc_then s fun vpc s' holds => ?_
  refine holds_then [] [] (Vms.resolveRootImage_touch ..) aside holds fun origin s' holds => ?_
  refine autoVolume_then self body nodeId s' holds fun vol s' holds => ?_
  refine holds_then [] [] (Vms.usedIps_touch _) aside holds fun _ s' holds =>
    holds_then [] [] (.fromExcept _) aside holds fun ip s' holds =>
    holds_then [] [] (.uuid4 .uuid4) aside holds fun id s' holds =>
    holds_then [] [] (.now .now) aside holds fun time s' holds => ?_
  refine among_then (insertVm_among _ s' fun ref refers _ => ?_) fun _ s'' => ?_
  · -- the row names the VPC and the volume, in the other order
    refine holds ref ?_
    rcases List.mem_cons.mp refers with rfl | refers
    · exact List.mem_cons_of_mem _ (List.mem_singleton_self _)
    · exact List.mem_singleton.mp refers ▸ List.mem_cons_self
  · refine among_then (pre _ s'') fun _ s'' => ?_
    exact done_of_touch [] [] (.bind (Vms.bringUp_touch self ..) fun _ => .pure _) aside s''

theorem createProxyLocal_among (self : Node) (body : ProxyIn) (vpc : VpcRow) (nodeId : Id)
    (s : Run) :
    wp (amongRequests env i) (Proxy.createProxyLocal self body vpc nodeId) (fun _ _ => True) s := by
  have aside : Aside [.publicIps, .proxies, .tasks] [] := ⟨by decide, by decide, by decide⟩
  refine among_then (done_of_touch _ _ (PublicIps.usedAddresses_touch _ (by decide)) aside s)
    fun _ s' => among_then (done_of_touch _ _ (.fromExcept _) aside s') fun entry s' =>
    among_then (done_of_touch _ _ (.now .now) aside s') fun _ s' =>
    among_then (done_of_touch _ _ (.uuid4 .uuid4) aside s') fun _ s' => ?_
  refine among_then (spawnLocal_among self _ nodeId _ s' fun id s' => ?_) fun _ s' => ?_
  · exact done_of_touch _ _ (.insert (.insert .publicIps _ (by decide))) aside s'
  · exact done_of_touch _ _ (Proxy.record_touch _ _ _ _ _ _ (by decide) (by decide)) aside s'

/-! ### The two deletes -/

/-- The look for a VM that uses the row, which refuses the delete if there is one. -/
theorem look_then {β : Type} (ref : Ref) (detail : Str) {f : Py β} (s : Run)
    (rest : ∀ s', Unused i ref.delete s' → wp (amongRequests env i) f (fun _ _ => True) s') :
    wp (amongRequests env i) (do
      let vm ← get .vms ref.usedBy
      refuseIf vm.isSome 409 detail
      f) (fun _ _ => True) s := by
  rw [wp_bind, get, wp_perform]
  intro s' _ intact _
  have step := touch_step env i (.get .vms ref.usedBy : Touch [] [] _) (by decide) (by decide)
    (by decide) intact
  refine ⟨step.1, step.2.1, ?_⟩
  rw [exec_get, onValue_ok]
  cases answer : (s'.world.db .vms).get ref.usedBy with
  | some vm => trivial
  | none =>
    refine rest _ fun vm there ref' refers gone => ?_
    -- no VM used the row at the look
    obtain rfl : ref' = ref := of_decide_eq_true ((Ref.goneBy_delete ref ref').symm.trans gone)
    have unused := Table.get_none.mp answer vm there
    rw [Ref.usedBy_of_mem refers] at unused
    cases unused

/-- A command on a host is no look. -/
theorem unused_of_sh {β : Type} (self : Node) (p : Client.Sh Unit) (o : Op) {f : Py β} (s : Run)
    (unused : Unused i o s)
    (rest : ∀ s', Unused i o s' → wp (amongRequests env i) f (fun _ _ => True) s') :
    wp (amongRequests env i) (do self.sh p; f) (fun _ _ => True) s := by
  refine among_seq (J := fun _ => Unused i o) (p := self.sh p) ?_ fun _ => rest
  have host : Only (fun o => ∃ c, o = .host self.id c) (self.sh p) :=
    .shAny self p fun c => ⟨c, rfl⟩
  refine among_mono _ _ _ (fun _ _ post _ _ => post.1) s (among_of_issues (Unused i o)
    (fun s s' unused moved _ => unused.stable moved) ?_ _ (fun _ => True) host s unused)
  rintro _ s ⟨c, rfl⟩ unused intact _
  have step := touch_step env i (.host self.id c : Touch [] [] _) (by decide) (by decide)
    (by decide) intact
  refine ⟨step.1, step.2.1, fun vm there ref refers gone => ?_, fun _ _ => trivial⟩
  obtain ⟨e, later, known⟩ := unused vm there ref refers gone
  exact ⟨e, List.mem_cons_of_mem _ later, known⟩

theorem delete_among (ref : Ref) (s : Run) (unused : Unused i ref.delete s) :
    wp (amongRequests env i) (@perform Op Op.Res Exn ref.delete) (fun _ _ => True) s := by
  rw [wp_perform]
  intro s' moved intact gate
  have step := delete_step env i ref intact (unused.stable moved) gate
  exact ⟨step.1, step.2, trivial⟩

theorem deleteVpc_among (vpcId : Id) (s : Run) :
    wp (amongRequests env i) (Vpcs.deleteVpc vpcId) (fun _ _ => True) s := by
  refine look_then (.vpc vpcId) _ s fun s' unused => ?_
  refine among_then (delete_among (.vpc vpcId) s' unused) fun affected s'' => ?_
  exact done_of_touch [] [] (.bind (refuseIf_touch ..) fun _ => .pure _)
    ⟨by decide, by decide, by decide⟩ s''

theorem deleteVolumeLocal_among (self : Node) (row : VolumeRow) (s : Run) :
    wp (amongRequests env i) (Volumes.deleteLocal self row) (fun _ _ => True) s := by
  refine look_then (.volume row.id) _ s fun s' unused => ?_
  refine unused_of_sh self _ _ s' unused fun s'' unused => ?_
  exact among_then (delete_among (.volume row.id) s'' unused) fun _ _ => trivial

/-! ### Every request -/

/-- The requests that create a VM or delete what a VM may name, and those that do neither. -/
theorem serveHere_among (self : Node) (req : Request) (found : Api.Found req) (s : Run) :
    wp (amongRequests env i) (Api.serveHere self req found) (fun _ _ => True) s := by
  have other (aside : Aside req.writes req.deletes) :
      wp (amongRequests env i) (Api.serveHere self req found) (fun _ _ => True) s :=
    done_of_touch _ _ (Api.serveHere_touch self req found .refl) aside s
  cases req with
  | deleteVpc vpcId => exact deleteVpc_among vpcId s
  | deleteVolume volumeId => exact deleteVolumeLocal_among self found s
  | createVm body => exact createLocal_among self body _ s
  | spawnVm body pin =>
    have spawn : wp (amongRequests env i) (Vms.spawnLocal self body self.id fun _ => pure ())
        (fun _ _ => True) s :=
      spawnLocal_among self body _ _ s fun _ _ => trivial
    exact among_then spawn fun _ _ => trivial
  | createProxy body => exact createProxyLocal_among self body _ _ s
  | _ =>
    exact other ⟨by simp [Request.writes], by simp [Request.deletes], by simp [Request.deletes]⟩

theorem composes : Api.Composes fun _ p => ∀ s, wp (amongRequests env i) p (fun _ _ => True) s where
  bind p f first rest s := among_then (first s) rest
  throw _ _ _ := trivial
  remote p h s := by
    rw [Api.remote, wp_tryCatch]
    refine among_mono _ _ _ ?_ s (h s)
    rintro (e | a) _ _ <;> trivial

theorem serve_among (cfg : Id → NodeConfig) (hops : Nat) (nodeId : Id) (req : Request) (s : Run) :
    wp (amongRequests env i) (Api.serve cfg hops nodeId req) (fun _ _ => True) s := by
  have aside : Aside [.vpcs, .publicIps] [] := ⟨by decide, by decide, by decide⟩
  apply Api.serve_composed composes cfg (fun _ => True) (fun _ _ _ => trivial) _ _ _ hops nodeId req
    trivial
  · intro p s
    exact done_of_touch _ _ (.get (.get ..)) aside s
  · intro nodeId req _ s
    exact done_of_touch _ _ (Api.lookUp_touch _ req fun _ there _ => there) aside s
  · intro nodeId req found _ s
    exact serveHere_among _ req found s

end Requests

/-- Where no request takes away what another found, or names what another is about to take away,
every row that a VM names is there in every state. -/
theorem named_rows_exist (cfg : Id → NodeConfig) (env : Env) (hops : Nat)
    (arriving : List (Id × Request)) (w : World) (intact : Intact w)
    (c : Config Op Op.Res Exn Response World)
    (reached : Reachable (exec env) undisturbed (Api.requests cfg hops arriving w) c) :
    Intact c.shared.world :=
  (reached.holds (fun s => Intact s.world) Rely Guar (fun _ _ _ => True) Rely.refl Rely.trans
    (fun i j s s' differ _ _ guar => Guar.rely i j s s' differ guar) intact
    (fun i p there => by
      obtain ⟨a, -, rfl⟩ := List.mem_map.mp (List.mem_of_getElem? there)
      exact serve_among cfg hops a.1 a.2 _)).1

/-! ## A VM of a VPC that is gone -/

/-- The default VPC, and no VM in it. -/
def emptyVpc : World :=
  { Sample.twoVms with db := Function.update Sample.twoVms.db .vms Table.empty }

/-- `POST /vms` into the VPC and `DELETE /vpcs` of it. -/
def createAndDelete : Config Op Op.Res Exn Response World :=
  Api.requests Sample.cluster 1 [("n1", .createVm ⟨"vm", "vpc1", none, none⟩),
    ("n1", .deleteVpc "vpc1")] emptyVpc

theorem dangling_reached : ∃ c, Reachable (exec Sample.env) anyStep createAndDelete c ∧
    ¬ Intact c.shared.world :=
  Config.exists_of_follow (exec Sample.env) anyStep _ [1, 0, 0, 0, 0, 0, 1] _ (by decide +kernel)

/-- The delete finds no VM, the creation inserts one, and the delete goes on. -/
theorem vm_outlives_its_vpc :
    ¬ ∀ c, Reachable (exec Sample.env) anyStep createAndDelete c → Intact c.shared.world := by
  intro intact
  obtain ⟨c, reached, dangling⟩ := dangling_reached
  exact dangling (intact c reached)

theorem created_reached : ∃ c, Reachable (exec Sample.env) undisturbed createAndDelete c ∧
    (c.shared.world.db .vms).rows.length = 1 :=
  Config.exists_of_follow (exec Sample.env) undisturbed _ [0, 0, 0, 0, 0, 1] _ (by decide +kernel)

/-- The delete looks after the insert, and is refused. -/
theorem created_vm_keeps_its_vpc :
    ∃ c, Reachable (exec Sample.env) undisturbed createAndDelete c ∧
      (c.shared.world.db .vms).rows.length = 1 ∧ Intact c.shared.world := by
  obtain ⟨c, reached, one⟩ := created_reached
  refine ⟨c, reached, one, named_rows_exist Sample.cluster Sample.env 1 _ emptyVpc ?_ c reached⟩
  exact fun vm there => absurd there (Table.not_mem_empty vm)

end References

end Nyc
