import ScriptBoundary.Proofs.Enclosure.Builtin.Basic
import ScriptBoundary.Script.Builtin.Dates

/-!
# The functions of dates stay inside
-/

namespace ScriptBoundary.Script

open ScriptBoundary.Script.Comp

variable {K : Ref → Prop}

namespace Builtin

theorem stays_thisTime (c : BuiltinCall) : (thisTime c).Stays K fun _ => True := by
  refine .bind BuiltinCall.Within.thisNature fun n _ => ?_
  split
  · exact .pure trivial
  · exact .throwType _

theorem stays_datePart (name : String) (part : Moment → Int) : (datePart name part).Stays K :=
  fun _ c _ _ => .bind (stays_thisTime c) fun _ _ => .ite (.pure trivial) (.pure trivial)

theorem stays_dateText (name : String) (text : Moment → String) : (dateText name text).Stays K :=
  fun _ c _ _ => .bind (stays_thisTime c) fun _ _ => .ite (.pure trivial) (.pure trivial)

theorem stays_dateParts : ∀ b ∈ dateParts, b.Stays K := by
  intro b hb
  obtain ⟨p, -, hp⟩ := List.mem_flatMap.mp hb
  rcases List.mem_cons.mp hp with rfl | hp
  · exact stays_datePart _ _
  · obtain rfl := List.mem_singleton.mp hp
    exact stays_datePart _ _

/-- **Every function of dates.** -/
theorem stays_dates : ∀ b ∈ dates, b.Stays K := by
  refine List.forall_mem_append.mpr ⟨List.forall_iff_forall_mem.mp ?_, stays_dateParts⟩
  refine ⟨?date, ?utc, ?parse, ?getTime, ?valueOf, ?getTimezoneOffset, ?setTime, ?toISOString,
    ?toJSON, ?toPrimitive, stays_dateText _ _, stays_dateText _ _, stays_dateText _ _,
    stays_dateText _ _, stays_dateText _ _⟩
  all_goals intro m c hm hc
  case date =>
    have hargs := hc.args
    refine .ite (.pure trivial) (.bind (P := fun _ => True) ?_ fun _ _ => hc.make hm rfl trivial)
    split
    · exact .pure trivial
    · next v heq =>
      rw [heq] at hargs
      refine .bind (P := fun _ => True) ?_ fun n _ => ?_
      · split
        · exact .bind (.readObject _) fun _ _ => .pure trivial
        · exact .pure trivial
      · split
        · exact .pure trivial
        · refine .bind (hm.toPrimitive hargs.head) fun p hp => ?_
          split
          · exact .pure trivial
          · exact .bind (hm.toNumber hp) fun _ _ => .pure trivial
    · exact .bind (.mapList (R := fun _ => True) (fun _ hv => hm.toNumber hv)
        fun _ hv => hc.args _ (List.mem_of_mem_take hv)) fun _ _ => .pure trivial
  case utc =>
    exact .bind (.mapList (R := fun _ => True) (fun _ hv => hm.toNumber hv)
      fun _ hv => hc.args _ (List.mem_of_mem_take hv)) fun _ _ => .pure trivial
  case parse => exact .bind (hm.toText (hc.arg 0)) fun _ _ => .pure trivial
  case getTime => exact .bind (stays_thisTime c) fun _ _ => .pure trivial
  case valueOf => exact .bind (stays_thisTime c) fun _ _ => .pure trivial
  case getTimezoneOffset => exact .bind (stays_thisTime c) fun _ _ => .pure trivial
  case setTime =>
    refine .bind (stays_thisTime c) fun _ _ => .bind (hm.toNumber (hc.arg 0)) fun _ _ => ?_
    dsimp only
    split
    · exact .bind (.performOnly rfl trivial) fun _ _ => .pure trivial
    · exact .pure trivial
  case toISOString =>
    exact .bind (stays_thisTime c) fun _ _ => .ite (.raise _ _) (.pure trivial)
  case toJSON =>
    refine .bind (.toObject hc.this) fun r hr =>
      .bind (hm.toPrimitive (v := .object r) hr) fun p _ => ?_
    have hcall : Comp.Stays K (do
        m.call (← m.get r (Key.ofString "toISOString")) (.object r) []) (Value.Within K) :=
      .bind (hm.get hr) fun _ hf => hm.call hf (w := .object r) hr .nil
    split
    · exact .ite (.pure trivial) hcall
    · exact hcall
  case toPrimitive =>
    dsimp only [symbolMethod]
    split
    · next r t hr _ =>
      have hthis := hc.thisObject hr
      split
      · exact hm.ordinaryPrimitive hthis
      · exact hm.ordinaryPrimitive hthis
      · exact hm.ordinaryPrimitive hthis
      · exact .throwType _
    · exact .throwType _

end Builtin

end ScriptBoundary.Script
