import ScriptBoundary.Proofs.Enclosure.Builtin.Basic
import ScriptBoundary.Script.Builtin.Numbers

/-!
# The functions of numbers, booleans and big integers stay inside

What they give are primitives, and boxes where they construct.
-/

namespace ScriptBoundary.Script

open ScriptBoundary.Script.Comp

variable {K : Ref → Prop} {m : Machine} {c : BuiltinCall} {v : Value}

theorem Machine.Stays.radixOf (hm : m.Stays K) (hv : v.Within K) :
    (Builtin.radixOf m v).Stays K fun _ => True := by
  refine .ite (.pure trivial) (.bind (hm.toExtent hv) fun e _ => ?_)
  split
  · exact .ite (.pure trivial) (.raise _ _)
  · exact .raise _ _

namespace Builtin

theorem stays_thisNumber (c : BuiltinCall) : (thisNumber c).Stays K fun _ => True := by
  refine .bind BuiltinCall.Within.thisNature fun n _ => ?_
  split
  · exact .pure trivial
  · exact .pure trivial
  · exact .throwType _

theorem stays_thisBoolean (c : BuiltinCall) : (thisBoolean c).Stays K fun _ => True := by
  refine .bind BuiltinCall.Within.thisNature fun n _ => ?_
  split
  · exact .pure trivial
  · exact .pure trivial
  · exact .throwType _

theorem stays_thisInteger (c : BuiltinCall) : (thisInteger c).Stays K fun _ => True := by
  refine .bind BuiltinCall.Within.thisNature fun n _ => ?_
  split
  · exact .pure trivial
  · exact .pure trivial
  · exact .throwType _

/-- A function that asks whether its argument is a number of some sort. -/
theorem stays_numberTest {test : Float → Bool} (v : Value) :
    (match v with
      | .number x => pure (.boolean (test x))
      | _ => pure (.boolean false) : Comp Value).Stays K (Value.Within K) := by
  split
  · exact .pure trivial
  · exact .pure trivial

/-- **Every function of numbers, booleans and big integers.** -/
theorem stays_numbers : numbers.Forall (Builtin.Stays K) := by
  refine ⟨?number, ?isFinite, ?isInteger, ?isNaN, ?isSafeInteger, ?toString, ?toLocaleString,
    ?valueOf, ?toFixed, ?parseFloat, ?parseInt, ?isFinite', ?isNaN', ?boolean, ?booleanToString,
    ?booleanValueOf, ?bigint, ?bigintToString, ?bigintValueOf⟩
  all_goals intro m c hm hc
  case number =>
    refine .bind (P := fun _ => True) ?_ fun x _ => ?_
    · have hargs := hc.args
      split
      · exact .pure trivial
      · next v rest heq =>
        rw [heq] at hargs
        refine .bind (hm.toNumeric hargs.head) fun x _ => ?_
        split <;> exact .pure trivial
    · split
      · exact .pure trivial
      · exact hc.make hm rfl trivial
  case isFinite => exact stays_numberTest _
  case isInteger => exact stays_numberTest _
  case isNaN => exact stays_numberTest _
  case isSafeInteger => exact stays_numberTest _
  case toString =>
    exact .bind (stays_thisNumber c) fun _ _ => .bind (hm.radixOf (hc.arg 0)) fun _ _ =>
      .pure trivial
  case toLocaleString => exact .bind (stays_thisNumber c) fun _ _ => .pure trivial
  case valueOf => exact .bind (stays_thisNumber c) fun _ _ => .pure trivial
  case toFixed =>
    refine .bind (stays_thisNumber c) fun x _ =>
      .bind (.ite (.pure trivial) (hm.toExtent (hc.arg 0))) fun e _ => ?_
    split
    · exact .ite (.raise _ _) (.ite (.pure trivial) (.pure trivial))
    · exact .raise _ _
  case parseFloat => exact .bind (hm.toText (hc.arg 0)) fun _ _ => .pure trivial
  case parseInt =>
    exact .bind (hm.toText (hc.arg 0)) fun _ _ => .bind (hm.toNumber (hc.arg 1)) fun _ _ =>
      .pure trivial
  case isFinite' => exact .bind (hm.toNumber (hc.arg 0)) fun _ _ => .pure trivial
  case isNaN' => exact .bind (hm.toNumber (hc.arg 0)) fun _ _ => .pure trivial
  case boolean =>
    dsimp only [constructor]
    split
    · exact .pure trivial
    · exact hc.make hm rfl trivial
  case booleanToString => exact .bind (stays_thisBoolean c) fun _ _ => .pure trivial
  case booleanValueOf => exact .bind (stays_thisBoolean c) fun _ _ => .pure trivial
  case bigint =>
    refine .ite (.throwType _) (.bind (hm.toPrimitive (hc.arg 0)) fun p _ => ?_)
    cases p with
    | number x => exact .ite (.pure trivial) (.raise _ _)
    | bigint n => exact .pure trivial
    | boolean b => exact .pure trivial
    | text t =>
      dsimp only
      split
      · exact .pure trivial
      · exact .raise _ _
    | _ => exact .throwType _
  case bigintToString =>
    exact .bind (stays_thisInteger c) fun _ _ => .bind (hm.radixOf (hc.arg 0)) fun _ _ =>
      .pure trivial
  case bigintValueOf => exact .bind (stays_thisInteger c) fun _ _ => .pure trivial

theorem stays_ofNumber (name : String) (f : Float → Float) : (ofNumber name f).Stays K :=
  fun _ _ hm hc => .bind (hm.toNumber (hc.arg 0)) fun _ _ => .pure trivial

/-- **Every function of mathematics.** -/
theorem stays_mathematics : mathematics.Forall (Builtin.Stays K) := by
  have hnumbers : ∀ {m : Machine} {c : BuiltinCall}, m.Stays K → c.Within K →
      (mapList m.toNumber c.args).Stays K fun xs => ∀ x ∈ xs, True := fun hm hc =>
    .mapList (R := fun _ => True) (fun _ hv => hm.toNumber hv) hc.args
  refine ⟨stays_ofNumber _ _, stays_ofNumber _ _, stays_ofNumber _ _, stays_ofNumber _ _,
    stays_ofNumber _ _, stays_ofNumber _ _, stays_ofNumber _ _, stays_ofNumber _ _,
    stays_ofNumber _ _, stays_ofNumber _ _, stays_ofNumber _ _, stays_ofNumber _ _,
    stays_ofNumber _ _, stays_ofNumber _ _, stays_ofNumber _ _, stays_ofNumber _ _,
    stays_ofNumber _ _, stays_ofNumber _ _, stays_ofNumber _ _, ?atan2, ?pow, ?max, ?min, ?hypot⟩
  all_goals intro m c hm hc
  case atan2 =>
    exact .bind (hm.toNumber (hc.arg 0)) fun _ _ => .bind (hm.toNumber (hc.arg 1)) fun _ _ =>
      .pure trivial
  case pow =>
    exact .bind (hm.toNumber (hc.arg 0)) fun _ _ => .bind (hm.toNumber (hc.arg 1)) fun _ _ =>
      .pure trivial
  case max => exact .bind (hnumbers hm hc) fun _ _ => .pure trivial
  case min => exact .bind (hnumbers hm hc) fun _ _ => .pure trivial
  case hypot =>
    exact .bind (hnumbers hm hc) fun _ _ => .ite (.pure trivial) (.pure trivial)

end Builtin

end ScriptBoundary.Script
