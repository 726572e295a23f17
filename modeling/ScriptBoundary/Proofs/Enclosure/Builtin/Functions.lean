import ScriptBoundary.Proofs.Enclosure.Builtin.Basic
import ScriptBoundary.Script.Builtin.Functions

/-!
# The functions of functions, errors and symbols stay inside
-/

namespace ScriptBoundary.Script

open ScriptBoundary.Script.Comp

variable {K : Ref → Prop} {m : Machine} {r : Ref} {v : Value}

namespace Machine.Stays

theorem boundProps {given : Nat} (hm : m.Stays K) (hr : K r) :
    (Builtin.boundProps m r given).Stays K fun ps => ∀ p ∈ ps, p.2.Within K := by
  refine .bind (P := fun _ => True) ?_ fun _ _ => .bind (hm.get hr) fun _ _ => .pure ?_
  · refine .bind hm.getOwn fun _ _ => .ite (.bind (hm.get hr) fun x _ => ?_) (.pure trivial)
    split
    · split <;> exact .pure trivial
    · exact .pure trivial
  · exact List.forall_mem_cons.mpr ⟨trivial, List.forall_mem_singleton.mpr trivial⟩

theorem errorText (hm : m.Stays K) (hr : K r) : (Builtin.errorText m r).Stays K fun _ => True := by
  refine .bind (P := fun _ => True) ?name fun _ _ => .bind (P := fun _ => True) ?message fun _ _ =>
    .ite (.pure trivial) (.ite (.pure trivial) (.pure trivial))
  all_goals
    refine .bind (hm.get hr) fun v hv => ?_
    split
    · exact .pure trivial
    · exact hm.toText hv

end Machine.Stays

namespace Builtin

/-- **Every function of functions.** -/
theorem stays_functions : functions.Forall (Builtin.Stays K) := by
  refine ⟨?function, ?prototype, ?apply, ?bind, ?call, ?toString, ?hasInstance⟩
  all_goals intro m c hm hc
  case function => exact .raise _ _
  case prototype => exact .pure trivial
  case apply =>
    refine .bind (.requireCallable _) fun _ _ => ?_
    split
    · next r hr =>
      exact .bind (hm.listOf (hc.object hr)) fun _ hvs => hm.call hc.this (hc.arg 0) hvs
    · exact .ite (hm.call hc.this (hc.arg 0) .nil) (.throwType _)
  case bind =>
    dsimp only [method]
    split
    · next target htarget =>
      have ht := hc.thisObject htarget
      refine .bind (.readObject target) fun o _ => .ite (.throwType _) <| .bind hm.protoOf
        fun proto hproto => .bind (.newObject rfl (⟨ht, hc.arg 0, hc.args.tail⟩ :
          (Nature.bound target (c.arg 0) c.args.tail _).Within K) hproto .empty) fun bound hbound =>
        .bind (hm.boundProps ht) fun props hprops =>
        .bind (.forList ?_ hprops) fun _ _ => .pure hbound
      exact fun p hp => .performOnly rfl hp
    · exact .throwType _
  case call =>
    exact .bind (.requireCallable _) fun _ _ => hm.call hc.this (hc.arg 0) hc.args.tail
  case toString =>
    dsimp only [method]
    split
    · next r hr =>
      refine .bind (.readObject r) fun o _ => ?_
      split
      · exact .pure trivial
      · refine .bind (hm.get (hc.thisObject hr)) fun v hv => ?_
        split
        · exact .pure trivial
        · exact .pure trivial
        · exact .bind (hm.toText hv) fun _ _ => .pure trivial
      · refine .bind (hm.get (hc.thisObject hr)) fun v hv => ?_
        split
        · exact .pure trivial
        · exact .pure trivial
        · exact .bind (hm.toText hv) fun _ _ => .pure trivial
      · exact .pure trivial
      · exact .pure trivial
      · exact .throwType _
    · exact .throwType _
  case hasInstance =>
    dsimp only [symbolMethod]
    split
    · next r hr =>
      exact .bind (P := fun _ => True) (.inspect fun _ _ => trivial) fun _ _ =>
        .bind (hm.ordinaryInstanceOf _ _ r (hc.thisObject hr)) fun _ _ => .pure trivial
    · exact .pure trivial

theorem stays_errorConstructor (k : ErrorClass) (self : Intrinsic) :
    (errorConstructor k self).Stays K := by
  intro m c hm hc
  refine .bind (hc.make hm rfl trivial) fun v hv => ?_
  cases v with
  | object r =>
    refine .firstTwoUnless (hm.toText (hc.arg 0)) (fun _ _ => .performOnly rfl trivial) fun _ => ?_
    split
    · next options ho =>
      exact .bind hm.has fun _ _ =>
        .firstTwo (hm.get (hc.object ho)) (fun _ hw => .performOnly rfl hw) fun _ => .pure hv
    · exact .pure hv
  | _ => exact .pure trivial

/-- **Every function of errors.** -/
theorem stays_errors : errors.Forall (Builtin.Stays K) := by
  refine ⟨stays_errorConstructor _ _, stays_errorConstructor _ _, stays_errorConstructor _ _,
    stays_errorConstructor _ _, stays_errorConstructor _ _, stays_errorConstructor _ _,
    stays_errorConstructor _ _, ?aggregate, ?toString⟩
  all_goals intro m c hm hc
  case aggregate =>
    refine .bind (hc.make hm rfl trivial) fun v hv => ?_
    cases v with
    | object r =>
      exact .firstTwoUnless (hm.toText (hc.arg 1)) (fun _ _ => .performOnly rfl trivial) fun _ =>
        .bind (hm.listOfIterable (hc.arg 0)) fun _ hvs => .bind (.newArray hvs) fun _ hlist =>
        .bind (.performOnly rfl hlist) fun _ _ => .pure hv
    | _ => exact .pure trivial
  case toString =>
    dsimp only [method]
    split
    · next r hr => exact .bind (hm.errorText (hc.thisObject hr)) fun _ _ => .pure trivial
    · exact .throwType _

theorem stays_thisSymbol (c : BuiltinCall) : (thisSymbol c).Stays K fun _ => True := by
  refine .bind BuiltinCall.Within.thisNature fun n _ => ?_
  split
  · exact .pure trivial
  · exact .pure trivial
  · exact .throwType _

/-- **Every function of symbols.** -/
theorem stays_symbols : symbols.Forall (Builtin.Stays K) := by
  refine ⟨?symbol, ?toString, ?valueOf, ?description, ?toPrimitive⟩
  all_goals intro m c hm hc
  case symbol =>
    refine .ite (.throwType _) <| .bind (P := fun _ => True)
      (.ite (.pure trivial) (.bind (hm.toText (hc.arg 0)) fun _ _ => .pure trivial)) fun _ _ =>
      .bind (.perform rfl trivial) fun _ _ => .pure trivial
  case toString => exact .bind (stays_thisSymbol c) fun _ _ => .pure trivial
  case valueOf => exact .bind (stays_thisSymbol c) fun _ _ => .pure trivial
  case description =>
    refine .bind (stays_thisSymbol c) fun s _ => ?_
    split
    · exact .pure trivial
    · exact .pure trivial
  case toPrimitive => exact .bind (stays_thisSymbol c) fun _ _ => .pure trivial

end Builtin

end ScriptBoundary.Script
