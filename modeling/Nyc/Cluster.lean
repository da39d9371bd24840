import Nyc.Effects.Sequence
import Nyc.Footprint

/-!
# Runs of the cluster

What users, nodes and the two loops of a node do, one action after the other.
-/

namespace Nyc

open Effects Effects.Program

/-- `join` and `leave` are what dadar does to the registry of nodes. -/
inductive Action where
  | request (nodeId : Id) (req : Request)
  | reconcile (nodeId : Id)
  | tick (nodeId : Id)
  | join (row : NodeRow)
  | leave (nodeId : Id)

namespace Action

def program (cfg : Id → NodeConfig) (hops : Nat) : Action → Py Response
  | request nodeId req => Api.serve cfg hops nodeId req
  | reconcile nodeId => do
    return .report nodeId (← PassOnce.run ⟨nodeId, cfg nodeId⟩)
  | tick nodeId => do
    Executor.tick ⟨nodeId, cfg nodeId⟩
    return .empty
  | join row => do
    insert .nodes row
    return .empty
  | leave nodeId => do
    let _ ← delete .nodes fun r => r.nodeId = nodeId
    return .empty

/-- Of an action the requests and the passes are looked at; the rest is programs of allowed
operations. -/
theorem rule {C : Py Response → Prop} {allowed : Op → Prop} (cfg : Id → NodeConfig) (hops : Nat)
    (a : Action) (of_only : ∀ p, Only allowed p → C p)
    (ticks : ∀ nodeId, Only allowed (Executor.tick ⟨nodeId, cfg nodeId⟩))
    (joins : ∀ row, allowed (.insert .nodes row)) (leaves : ∀ p, allowed (.delete .nodes p))
    (requests : ∀ nodeId req, a = .request nodeId req → C (Api.serve cfg hops nodeId req))
    (passes : ∀ nodeId, a = .reconcile nodeId →
      C (PassOnce.run ⟨nodeId, cfg nodeId⟩ >>= fun reports => pure (.report nodeId reports))) :
    C (a.program cfg hops) := by
  cases a with
  | request nodeId req => exact requests nodeId req rfl
  | reconcile nodeId => exact passes nodeId rfl
  | tick nodeId =>
    apply of_only
    exact .bind (ticks nodeId) fun _ => .pure _
  | join row =>
    apply of_only
    exact .bind (.insert (joins row)) fun _ => .pure _
  | leave nodeId =>
    apply of_only
    exact .bind (.delete (leaves _)) fun _ => .pure _

end Action

/-- Every action may be taken. -/
def anyAction : Action → World → Prop := fun _ _ => True

instance (a : Action) (w : World) : Decidable (anyAction a w) := .isTrue trivial

def succeeded : Except Exn Response → Prop
  | .ok _ => True
  | .error _ => False

instance : DecidablePred succeeded
  | .ok _ => .isTrue trivial
  | .error _ => .isFalse id

/-- Whatever became of an action. -/
def anyEnd : Except Exn Response → Prop := fun _ => True

instance : DecidablePred anyEnd := fun _ => .isTrue trivial

/-- The ids of the sample cluster are the numbers from ten million on. -/
theorem Sample.fresh_ids : Function.Injective Sample.env.uuid := by
  intro i j same
  have digits := congrArg (Nat.ofDigitChars 10 · 0) same
  simp only [Sample.env, Nat.ofDigitChars_ten_toDigits] at digits
  omega

/-- They are none of the names that the source gives a meaning. -/
theorem Sample.custom_ids (k : Nat) : Sample.env.uuid k ≠ "default".toList := by
  intro same
  have digit : ∀ c ∈ Nat.toDigits 10 (10000000 + k), c.isDigit = true := fun c there =>
    Nat.isDigit_of_mem_toDigits (by decide) (by decide) there
  change Nat.toDigits 10 (10000000 + k) = "default".toList at same
  rw [same] at digit
  exact absurd (digit 'd' (by decide)) (by decide)

end Nyc
