import Mathlib.Data.List.Basic
import ScriptBoundary.Proofs.Enclosure.Call
import ScriptBoundary.Script.Builtin.Basic

/-!
# Built-in functions that stay inside

A list of built-in functions stays inside if each of them does, whatever it is called with and
whatever machine it is given, as long as these stay inside.
-/

namespace ScriptBoundary.Script

open ScriptBoundary.Script.Comp

variable {K : Ref → Prop} {m : Machine} {c : BuiltinCall}

/-- **Whether a built-in function stays inside.** -/
def Builtin.Stays (K : Ref → Prop) (b : Builtin) : Prop :=
  ∀ (m : Machine) (c : BuiltinCall), m.Stays K → c.Within K → (b.run m c).Stays K (Value.Within K)

namespace BuiltinCall

/-- An argument that is an object. -/
theorem Within.object (hc : c.Within K) {i : Nat} {r : Ref} (h : c.arg i = .object r) : K r := by
  have harg := hc.arg i
  rw [h] at harg
  exact harg

theorem Within.thisObject (hc : c.Within K) {r : Ref} (h : c.this = .object r) : K r := by
  have hthis := hc.this
  rw [h] at hthis
  exact hthis

theorem Within.make {nature : Nature} {proto : Intrinsic} (hc : c.Within K) (hm : m.Stays K)
    (ht : nature.tied = []) (hn : nature.Within K) :
    (c.make m nature proto).Stays K (Value.Within K) := by
  refine .bind (P := K) ?_ fun p hp => .bind (.newObjectOf ht hn hp .empty) fun _ hr => .pure hr
  cases ht : c.newTarget with
  | none => exact .intrinsic _
  | some t => exact .protoFor hm (hc.newTarget t ht)

theorem Within.thisNature : (c.thisNature).Stays K (Nature.Within K) := by
  unfold BuiltinCall.thisNature
  split
  · exact .bind (.readObject _) fun _ ho => .pure ho.nature
  · exact .pure trivial

end BuiltinCall

theorem Comp.Stays.requireCallable (v : Value) :
    (Script.requireCallable v).Stays K fun _ => True :=
  .bind (.isCallable v) fun _ _ => .unless (.throwType _)

end ScriptBoundary.Script
