import ScriptBoundary.Proofs.Enclosure.Convert
import ScriptBoundary.Script.Operator

/-!
# Operators stay inside

The value of an operator is a primitive.
-/

namespace ScriptBoundary.Script

variable {K : Ref → Prop} {m : Machine} {v w : Value}

theorem Comp.Stays.onIntegers (op : BinaryOp) (a b : Int) :
    (op.onIntegers a b).Stays K (Value.Within K) := by
  unfold BinaryOp.onIntegers
  split
  case h_4 => exact .ite (.raise _ _) (.pure trivial)
  case h_5 => exact .ite (.raise _ _) (.pure trivial)
  case h_6 => exact .ite (.raise _ _) (.pure trivial)
  case h_12 => exact .throwType _
  all_goals exact .pure trivial

namespace Machine.Stays

open ScriptBoundary.Script.Comp

theorem arithmetic (op : BinaryOp) (hm : m.Stays K) (hv : v.Within K) (hw : w.Within K) :
    (m.arithmetic op v w).Stays K (Value.Within K) := by
  unfold Machine.arithmetic
  split
  · exact .pure trivial
  · refine .bind (hm.toNumeric hv) fun _ _ => .bind (hm.toNumeric hw) fun _ _ => ?_
    split
    · exact .pure trivial
    · exact .onIntegers _ _ _
    · exact .throwType _

theorem add (hm : m.Stays K) (hv : v.Within K) (hw : w.Within K) :
    (m.add v w).Stays K (Value.Within K) := by
  unfold Machine.add
  split
  · exact .pure trivial
  · exact .pure trivial
  · refine .bind (.holding (hm.toPrimitive hv)) fun p hp =>
      .bind (.holding (hm.toPrimitive hw)) fun q hq => ?_
    split
    · exact .bind (Stays.primitiveText _) fun _ _ => .pure trivial
    · exact .bind (Stays.primitiveText _) fun _ _ => .pure trivial
    · exact hm.arithmetic _ hp hq

theorem compareValues (hm : m.Stays K) (hv : v.Within K) (hw : w.Within K) :
    (m.compareValues v w).Stays K fun _ => True :=
  .bind (.holding (hm.toPrimitive hv)) fun _ _ => .bind (.holding (hm.toPrimitive hw)) fun _ _ =>
    Stays.comparePrimitives _ _

theorem inherits (hm : m.Stays K) (proto : Ref) :
    ∀ fuel r, (m.inherits proto fuel r).Stays K fun _ => True
  | 0, _ => .pure trivial
  | fuel + 1, r => by
    refine .bind hm.protoOf fun p _ => ?_
    cases p with
    | none => exact .pure trivial
    | some p => exact .ite (.pure trivial) (inherits hm proto fuel p)

/-- A bound function stands for its target, which is inside. -/
theorem ordinaryInstanceOf (hm : m.Stays K) (v : Value) :
    ∀ fuel r, K r → (m.ordinaryInstanceOf fuel v r).Stays K fun _ => True
  | 0, _, _ => .exhausted
  | fuel + 1, r, hr => by
    refine .bind (.readObject r) fun o ho => ?_
    cases hn : o.nature with
    | bound target this args constructs =>
      have hbound := ho.nature
      rw [hn] at hbound
      exact ordinaryInstanceOf hm v fuel target hbound.1
    | _ =>
      refine .ite (.pure trivial) ?_
      split
      · refine .bind (hm.get hr) fun p _ => ?_
        split
        · exact .bind (P := fun _ => True) (.inspect fun _ _ => trivial) fun _ _ =>
            hm.inherits _ _ _
        · exact .throwType _
      · exact .pure trivial

theorem instanceOf (hm : m.Stays K) (hv : v.Within K) (hw : w.Within K) :
    (m.instanceOf v w).Stays K fun _ => True := by
  cases w with
  | object r =>
    refine .bind (hm.getMethod hw) fun f hf => ?_
    cases f with
    | some f => exact .bind (hm.call hf.get hw (.one hv)) fun _ _ => .pure trivial
    | none =>
      exact .bind (.isCallable _) fun _ _ => .ite
        (.bind (P := fun _ => True) (.inspect fun _ _ => trivial) fun _ _ =>
          hm.ordinaryInstanceOf v _ r hw)
        (.throwType _)
  | _ => exact .throwType _

/-- **Binary operators.** -/
theorem binary (op : BinaryOp) (hm : m.Stays K) (hv : v.Within K) (hw : w.Within K) :
    (m.binary op v w).Stays K (Value.Within K) := by
  cases op with
  | add => exact hm.add hv hw
  | eq => exact .bind (hm.looseEquals hv hw) fun _ _ => .pure trivial
  | ne => exact .bind (hm.looseEquals hv hw) fun _ _ => .pure trivial
  | strictEq => exact .pure trivial
  | strictNe => exact .pure trivial
  | lt => exact .bind (hm.compareValues hv hw) fun _ _ => .pure trivial
  | gt => exact .bind (hm.compareValues hv hw) fun _ _ => .pure trivial
  | le => exact .bind (hm.compareValues hv hw) fun _ _ => .pure trivial
  | ge => exact .bind (hm.compareValues hv hw) fun _ _ => .pure trivial
  | instanceOf => exact .bind (hm.instanceOf hv hw) fun _ _ => .pure trivial
  | has =>
    cases w with
    | object r => exact .bind (hm.toKey hv) fun _ _ => .bind hm.has fun _ _ => .pure trivial
    | _ => exact .throwType _
  | _ => exact hm.arithmetic _ hv hw

/-- **Unary operators.** -/
theorem unary (op : UnaryOp) (hm : m.Stays K) (hv : v.Within K) :
    (m.unary op v).Stays K (Value.Within K) := by
  cases op with
  | typeOf => exact .bind (.typeName _) fun _ _ => .pure trivial
  | void => exact .pure trivial
  | not => exact .pure trivial
  | plus => exact .bind (hm.toNumber hv) fun _ _ => .pure trivial
  | negate =>
    refine .bind (hm.toNumeric hv) fun p hp => ?_
    split
    · exact .pure trivial
    · exact .pure trivial
    · exact .pure hp
  | bitNot =>
    refine .bind (hm.toNumeric hv) fun p hp => ?_
    split
    · exact .pure trivial
    · exact .pure trivial
    · exact .pure hp

end Machine.Stays

end ScriptBoundary.Script
