import Mathlib.Data.List.DropRight
import Nyc.Client.Vm

/-!
# The files of a guest

What a `debugfs` session makes of a root file system, by the names in it. A `write`, a `mkdir` or a
`symlink` onto a name that is taken fails and changes nothing, so does an `rm` of a directory, and
so does any line about a name whose parent is no directory; the session goes on. A mode carries the
type of an entry: giving a directory the mode of a file makes a file of it, and its names are lost.
Permissions and owners are no part of what a name stands for.
-/

namespace Nyc.Client

/-- The types that modes are given for. -/
inductive FileType where
  | regular
  | directory
  deriving DecidableEq, Repr

/-- An octal number. -/
def octal (digits : Str) : Nat := digits.foldl (fun n c => 8 * n + (c.toNat - '0'.toNat)) 0

/-- The type bits of a mode. -/
def FileType.ofMode (mode : Str) : Option FileType :=
  match octal mode / 4096 with
  | 8 => some .regular
  | 4 => some .directory
  | _ => none

/-- What a name stands for. What a mode of another type makes of an entry is `damaged`: of the type
given, but no text and no name can be read in it. -/
inductive Entry where
  | dir
  | file (text : Str)
  | link (target : Str)
  | damaged (type : FileType)
  deriving DecidableEq, Repr

/-- The entry with the type bits of a mode. An empty file becomes an empty directory. -/
def Entry.retype : FileType → Entry → Entry
  | .regular, .file text => .file text
  | .directory, .dir => .dir
  | .directory, .file [] => .dir
  | type, _ => .damaged type

/-! ## Paths -/

/-- The path up to its last separator; that of the root is empty. -/
def parent (path : Str) : Str := (path.rdropWhile (· ≠ '/')).dropLast

/-- The name is somewhere below the path. -/
def Below (path q : Str) : Prop := path ++ ['/'] <+: q

instance (path q : Str) : Decidable (Below path q) := inferInstanceAs (Decidable (_ <+: _))

/-- A path is its parent, a separator and a last part, unless it has no separator. -/
theorem parent_cases (q : Str) : parent q = [] ∨ ∃ last, q = parent q ++ '/' :: last := by
  by_cases none_ : q.rdropWhile (· ≠ '/') = []
  · left
    rw [parent, none_]
    rfl
  · right
    have separator : (q.rdropWhile (· ≠ '/')).getLast none_ = '/' := by
      simpa using List.rdropWhile_last_not _ q none_
    refine ⟨q.rtakeWhile (· ≠ '/'), ?_⟩
    have start := List.dropLast_append_getLast none_
    rw [separator] at start
    have whole : q.rdropWhile (· ≠ '/') ++ q.rtakeWhile (· ≠ '/') = q :=
      List.rdropWhile_append_rtakeWhile
    rw [← start, List.append_assoc] at whole
    exact whole.symm

theorem parent_ne {q : Str} (named : q ≠ []) : parent q ≠ q := by
  intro same
  rcases parent_cases q with none_ | ⟨last, split⟩
  · exact named (same.symm.trans none_)
  · have lengths := congrArg List.length split
    rw [same, List.length_append, List.length_cons] at lengths
    omega

/-- A name is below its parent. -/
theorem below_parent {q : Str} (named : parent q ≠ []) : Below (parent q) q := by
  rcases parent_cases q with none_ | ⟨last, split⟩
  · exact absurd none_ named
  · refine ⟨last, ?_⟩
    rw [List.append_assoc]
    exact split.symm

/-- Nothing is above a name but what is above its parent, or is its parent. -/
theorem below_of_parent {p q : Str} (below : Below p (parent q)) : Below p q := by
  rcases parent_cases q with none_ | ⟨last, split⟩
  · have lengths := below.length_le
    rw [none_, List.length_append] at lengths
    exact absurd lengths (Nat.not_succ_le_zero _)
  · rw [split]
    exact below.trans (List.prefix_append _ _)

theorem not_below_parent (q : Str) : ¬ Below q (parent q) := by
  intro below
  have lengths := below.length_le
  rw [List.length_append] at lengths
  rcases parent_cases q with none_ | ⟨last, split⟩
  · rw [none_] at lengths
    exact absurd lengths (Nat.not_succ_le_zero _)
  · have whole := congrArg List.length split
    rw [List.length_append, List.length_cons] at whole
    rw [List.length_singleton] at lengths
    omega

/-! ## The names of a guest -/

/-- The root, or the name of a directory. -/
def IsDir (entry : Str → Option Entry) (path : Str) : Prop := path = [] ∨ entry path = some .dir

instance (entry : Str → Option Entry) (path : Str) : Decidable (IsDir entry path) :=
  inferInstanceAs (Decidable (_ ∨ _))

/-- What the names stand for. Every name is in a directory. -/
@[ext] structure Guest where
  entry : Str → Option Entry
  rooted : ∀ q, entry q ≠ none → IsDir entry (parent q)

abbrev Guest.IsDir (g : Guest) (path : Str) : Prop := Client.IsDir g.entry path

def Guest.empty : Guest := ⟨fun _ => none, fun _ there => absurd rfl there⟩

/-- What `mkfs.ext4` makes. -/
def Guest.fresh : Guest where
  entry q := if q = "/lost+found" then some .dir else none
  rooted q there := by
    split at there
    next same =>
      rw [same]
      exact .inl (by decide)
    next => exact absurd rfl there

namespace DebugfsLine

def path : DebugfsLine → Str
  | mkdir path | rm path | write _ path | setInodeField path _ _ | symlink path _ => path

/-- What the line makes of the name that it is about, in a directory. -/
def act : DebugfsLine → Option Entry → Option Entry
  | mkdir _, none => some .dir
  | write text _, none => some (.file text)
  | symlink _ target, none => some (.link target)
  | rm _, some .dir => some .dir
  | rm _, some (.damaged .directory) => some (.damaged .directory)
  | rm _, _ => none
  | setInodeField _ field value, some e =>
    if field = "mode" then some (((FileType.ofMode value).map fun type =>
      e.retype type).getD e) else some e
  | _, e => e

/-- A directory stays one. -/
def Keeps (l : DebugfsLine) : Prop := l.act (some .dir) = some .dir

instance (l : DebugfsLine) : Decidable l.Keeps := inferInstanceAs (Decidable (_ = _))

/-- What the names stand for afterwards, where the parent of the name is a directory. -/
def entries (l : DebugfsLine) (entry : Str → Option Entry) (q : Str) : Option Entry :=
  if q = l.path then l.act (entry q)
  else if entry l.path = some .dir ∧ ¬ l.Keeps ∧ Below l.path q then none
  else entry q

/-- The names are still in directories: those below a directory that is none any more are lost. -/
theorem entries_rooted (l : DebugfsLine) (g : Guest) (inside : g.IsDir (parent l.path)) (q : Str)
    (there : l.entries g.entry q ≠ none) : Client.IsDir (l.entries g.entry) (parent q) := by
  by_cases root : parent q = []
  · exact .inl root
  right
  -- what is above a name that is there was not lost
  have stays (p : Str) (dir : g.entry p = some .dir) (other : p ≠ l.path) (kept : Below l.path p →
      ¬ (g.entry l.path = some .dir ∧ ¬ l.Keeps)) : l.entries g.entry p = some .dir := by
    rw [entries, if_neg other, if_neg fun lost => kept lost.2.2 ⟨lost.1, lost.2.1⟩]
    exact dir
  by_cases here : q = l.path
  · rw [here] at root ⊢
    apply stays _ (inside.resolve_left root)
    · intro same
      rw [same] at root
      exact parent_ne root same
    · exact fun below => absurd below (not_below_parent _)
  · rw [entries, if_neg here] at there
    split at there
    next => exact absurd rfl there
    next kept =>
      have dir := (g.rooted q there).resolve_left root
      by_cases above : parent q = l.path
      · have keeps : l.Keeps := by
          by_contra lost
          apply kept
          rw [← above]
          exact ⟨dir, lost, below_parent root⟩
        rw [entries, if_pos above, dir]
        exact keeps
      · apply stays _ dir above
        intro below lost
        exact kept ⟨lost.1, lost.2, below_of_parent below⟩

def apply (l : DebugfsLine) (g : Guest) : Guest :=
  if inside : g.IsDir (parent l.path) then ⟨l.entries g.entry, l.entries_rooted g inside⟩ else g

/-- The line neither is about the name nor loses it. -/
def Spares (q : Str) (l : DebugfsLine) : Prop := l.path ≠ q ∧ (Below l.path q → l.Keeps)

instance (q : Str) (l : DebugfsLine) : Decidable (l.Spares q) := inferInstanceAs (Decidable (_ ∧ _))

theorem apply_spared {l : DebugfsLine} {q : Str} (spares : l.Spares q) (g : Guest) :
    (l.apply g).entry q = g.entry q := by
  rw [apply]
  split
  · change l.entries g.entry q = _
    rw [entries, if_neg spares.1.symm, if_neg fun lost => lost.2.1 (spares.2 lost.2.2)]
  · rfl

theorem apply_here (l : DebugfsLine) (g : Guest) :
    (l.apply g).entry l.path = if g.IsDir (parent l.path) then l.act
      (g.entry l.path) else g.entry l.path := by
  rw [apply]
  split
  · change l.entries g.entry l.path = _
    rw [entries, if_pos rfl]
  · rfl

end DebugfsLine

def session (lines : List DebugfsLine) (g : Guest) : Guest := lines.foldl (fun g l => l.apply g) g

theorem session_append (first second : List DebugfsLine) (g : Guest) :
    session (first ++ second) g = session second (session first g) := List.foldl_append

/-- A session leaves a name that its lines spare. -/
theorem session_spared {lines : List DebugfsLine} {q : Str} (spares : ∀ l ∈ lines, l.Spares q)
    (g : Guest) :
    (session lines g).entry q = g.entry q := by
  induction lines generalizing g with
  | nil => rfl
  | cons l rest ih =>
    have tail := ih (fun l there => spares l (List.mem_cons_of_mem _ there)) (l.apply g)
    exact tail.trans (DebugfsLine.apply_spared (spares l List.mem_cons_self) g)

/-- What lines about one name make of what it stands for. -/
def fate (lines : List DebugfsLine) (e : Option Entry) : Option Entry :=
  lines.foldl (fun e l => l.act e) e

/-- Lines about one name do what they do to what it stands for, in a directory. -/
theorem session_here {lines : List DebugfsLine} {q : Str} (named : q ≠ [])
    (about : ∀ l ∈ lines, l.path = q) (g : Guest) :
    (session lines g).entry q = if g.IsDir (parent q) then fate lines
      (g.entry q) else g.entry q := by
  induction lines generalizing g with
  | nil => exact (ite_self _).symm
  | cons l rest ih =>
    have here : l.path = q := about l List.mem_cons_self
    have above : l.Spares (parent q) := by
      rw [← here]
      rw [← here] at named
      exact ⟨(parent_ne named).symm, fun below => absurd below (not_below_parent _)⟩
    have tail := ih (fun l there => about l (List.mem_cons_of_mem _ there)) (l.apply g)
    have head := l.apply_here g
    rw [here] at head
    have same : (l.apply g).IsDir (parent q) ↔ g.IsDir (parent q) := by
      rw [Guest.IsDir, Guest.IsDir, IsDir, IsDir, DebugfsLine.apply_spared above]
    change (session rest (l.apply g)).entry q = _
    rw [tail, head]
    by_cases inside : g.IsDir (parent q)
    · rw [if_pos (same.mpr inside), if_pos inside, if_pos inside]
      rfl
    · rw [if_neg (mt same.mp inside), if_neg inside, if_neg inside]

/-- The files on a volume, where the base image holds `image`. -/
def Content.guest (image : Guest) : Content → Guest
  | .zeros => .empty
  | .ext4 => .fresh
  | .image => image
  | .edited base lines => session lines (base.guest image)

end Nyc.Client
