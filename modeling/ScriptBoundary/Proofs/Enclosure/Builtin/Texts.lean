import ScriptBoundary.Proofs.Enclosure.Builtin.Arrays
import ScriptBoundary.Script.Builtin.Texts

/-!
# The functions of strings stay inside

What they give are primitives, but for the parts of a string, which come in an array.
-/

namespace ScriptBoundary.Script

open ScriptBoundary.Script.Comp

variable {K : Ref → Prop} {m : Machine} {c : BuiltinCall} {v : Value}

namespace Machine.Stays

theorem thisText (hm : m.Stays K) (hc : c.Within K) :
    (Builtin.thisText m c).Stays K fun _ => True := .ite (.throwType _) (hm.toText hc.this)

theorem wholeNumber (hm : m.Stays K) (hv : v.Within K) :
    (Builtin.wholeNumber m v).Stays K fun _ => True := .ite (.pure trivial) (hm.toExtent hv)

/-- A position cut to a text, the end of it if missing. -/
theorem clamped {size : Nat} (hm : m.Stays K) (hv : v.Within K) :
    (if v.isUndefined then pure size else do return (← m.toExtent v).clamp size : Comp Nat).Stays K
      fun _ => True :=
  .ite (.pure trivial) (.bind (hm.toExtent hv) fun _ _ => .pure trivial)

theorem twoPositions {size : Nat} (hm : m.Stays K) (hc : c.Within K) :
    (Builtin.twoPositions m c size).Stays K fun _ => True :=
  .bind (hm.wholeNumber (hc.arg 0)) fun _ _ =>
    .bind (hm.clamped (hc.arg 1)) fun _ _ => .pure trivial

end Machine.Stays

namespace Builtin

theorem stays_ownText (c : BuiltinCall) : (ownText c).Stays K fun _ => True := by
  refine .bind BuiltinCall.Within.thisNature fun n _ => ?_
  split
  · exact .pure trivial
  · exact .pure trivial
  · exact .throwType _

/-- **Every function of strings.** -/
theorem stays_texts : texts.Forall (Builtin.Stays K) := by
  refine ⟨?string, ?fromCharCode, ?fromCodePoint, ?toString, ?valueOf, ?element, ?charAt,
    ?charCodeAt, ?codePointAt, ?concat, ?endsWith, ?includes, ?indexOf, ?lastIndexOf, ?padEnd,
    ?padStart, ?repeated, ?replace, ?slice, ?split, ?startsWith, ?substr, ?substring, ?toLowerCase,
    ?toUpperCase, ?trim, ?trimStart, ?trimEnd, ?iterator⟩
  all_goals intro m c hm hc
  case string =>
    refine .bind (P := fun _ => True) ?_ fun t _ => ?_
    · have hargs := hc.args
      split
      · exact .pure trivial
      · exact .pure trivial
      · next v rest _ heq _ =>
        rw [heq] at hargs
        exact hm.toText hargs.head
    · split
      · exact .pure trivial
      · refine .bind (hc.make hm rfl trivial) fun v hv => ?_
        split
        · exact .bind (.performOnly rfl trivial) fun _ _ => .pure hv
        · exact .pure hv
  case fromCharCode =>
    exact .bind (.mapList (R := fun _ => True) (fun _ hv => hm.toNumber hv) hc.args) fun _ _ =>
      .pure trivial
  case fromCodePoint =>
    exact .bind (.mapList (R := fun _ => True) (fun _ hv => hm.toNumber hv) hc.args) fun _ _ =>
      .ite (.pure trivial) (.raise _ _)
  case toString => exact .bind (stays_ownText c) fun _ _ => .pure trivial
  case valueOf => exact .bind (stays_ownText c) fun _ _ => .pure trivial
  case element =>
    refine .bind (hm.thisText hc) fun t _ => .bind (hm.wholeNumber (hc.arg 0)) fun e _ => ?_
    split
    · refine .ite (.pure trivial) (.pure ?_)
      cases t.unitAt? _ <;> trivial
    · exact .pure trivial
  case charAt =>
    exact .bind (hm.thisText hc) fun _ _ => .bind (hm.wholeNumber (hc.arg 0)) fun _ _ =>
      .pure trivial
  case charCodeAt =>
    refine .bind (hm.thisText hc) fun t _ => .bind (hm.wholeNumber (hc.arg 0)) fun e _ => ?_
    split <;> exact .pure trivial
  case codePointAt =>
    refine .bind (hm.thisText hc) fun t _ => .bind (hm.wholeNumber (hc.arg 0)) fun e _ => ?_
    split
    · split
      · exact .ite (.pure trivial) (.pure trivial)
      · exact .pure trivial
      · exact .pure trivial
    · exact .pure trivial
  case concat =>
    exact .bind (hm.thisText hc) fun _ _ =>
      .bind (.foldList (A := Value.Within K) (R := fun _ => True)
      (fun _ _ _ hv => .bind (hm.toText hv) fun _ _ => .pure trivial) trivial hc.args) fun _ _ =>
      .pure trivial
  case endsWith =>
    exact .bind (hm.thisText hc) fun _ _ => .bind (hm.toText (hc.arg 0)) fun _ _ =>
      .bind (hm.clamped (hc.arg 1)) fun _ _ => .pure trivial
  case includes =>
    exact .bind (hm.thisText hc) fun _ _ => .bind (hm.toText (hc.arg 0)) fun _ _ =>
      .bind (hm.wholeNumber (hc.arg 1)) fun _ _ => .pure trivial
  case indexOf =>
    refine .bind (hm.thisText hc) fun _ _ => .bind (hm.toText (hc.arg 0)) fun _ _ =>
      .bind (hm.wholeNumber (hc.arg 1)) fun _ _ => ?_
    split <;> exact .pure trivial
  case lastIndexOf =>
    refine .bind (hm.thisText hc) fun _ _ => .bind (hm.toText (hc.arg 0)) fun _ _ =>
      .bind (hm.toNumber (hc.arg 1)) fun _ _ => ?_
    dsimp only
    split <;> exact .pure trivial
  case padEnd =>
    exact .bind (hm.thisText hc) fun _ _ => .bind (hm.toLength (hc.arg 0)) fun _ _ =>
      .bind (.ite (.pure trivial) (hm.toText (hc.arg 1))) fun _ _ => .pure trivial
  case padStart =>
    exact .bind (hm.thisText hc) fun _ _ => .bind (hm.toLength (hc.arg 0)) fun _ _ =>
      .bind (.ite (.pure trivial) (hm.toText (hc.arg 1))) fun _ _ => .pure trivial
  case repeated =>
    refine .bind (hm.thisText hc) fun _ _ => .bind (hm.wholeNumber (hc.arg 0)) fun e _ => ?_
    split
    · exact .pure trivial
    · exact .raise _ _
  case replace =>
    refine .bind (hm.thisText hc) fun _ _ => .bind (hm.toText (hc.arg 0)) fun _ _ => ?_
    split
    · exact .pure trivial
    · refine .bind (P := fun _ => True) (.bind (.isCallable _) fun _ _ => .ite ?_
        (hm.toText (hc.arg 1))) fun _ _ => .pure trivial
      exact .bind (hm.call (hc.arg 1) trivial (.cons trivial (.cons trivial (.one trivial))))
        fun _ hv => hm.toText hv
  case slice =>
    exact .bind (hm.thisText hc) fun _ _ => .bind (hm.wholeNumber (hc.arg 0)) fun _ _ =>
      .bind (hm.position (hc.arg 1)) fun _ _ => .pure trivial
  case split =>
    refine .bind (hm.thisText hc) fun _ _ => .bind (P := fun _ => True) (.ite (.pure trivial)
      (.bind (hm.toNumber (hc.arg 1)) fun _ _ => .pure trivial)) fun _ _ =>
      .bind (hm.toText (hc.arg 0)) fun _ _ => .bind (.newArray ?_) fun _ hr => .pure hr
    exact .map (f := .text) (fun _ => trivial) _
  case startsWith =>
    exact .bind (hm.thisText hc) fun _ _ => .bind (hm.toText (hc.arg 0)) fun _ _ =>
      .bind (hm.wholeNumber (hc.arg 1)) fun _ _ => .pure trivial
  case substr =>
    exact .bind (hm.thisText hc) fun _ _ => .bind (hm.wholeNumber (hc.arg 0)) fun _ _ =>
      .bind (hm.clamped (hc.arg 1)) fun _ _ => .pure trivial
  case substring =>
    exact .bind (hm.thisText hc) fun _ _ => .bind (hm.twoPositions hc) fun _ _ => .pure trivial
  case toLowerCase => exact .bind (hm.thisText hc) fun _ _ => .pure trivial
  case toUpperCase => exact .bind (hm.thisText hc) fun _ _ => .pure trivial
  case trim => exact .bind (hm.thisText hc) fun _ _ => .pure trivial
  case trimStart => exact .bind (hm.thisText hc) fun _ _ => .pure trivial
  case trimEnd => exact .bind (hm.thisText hc) fun _ _ => .pure trivial
  case iterator =>
    exact .bind (hm.thisText hc) fun t _ => .newListIterator (v := .text t) trivial

end Builtin

end ScriptBoundary.Script
