import ScriptBoundary.Proofs.Enclosure.Expression
import ScriptBoundary.Script.Call

/-!
# Statements and calls stay inside
-/

namespace ScriptBoundary.Script

variable {K : Ref → Prop} {m : Machine} {f : Frame} {v w : Value} {o : Option Value}
  {labels : List String} {head : Code} {body : Stmt} {test update : Expr}

/-! ## How statements end -/

namespace Flow

theorem Within.value? {flow : Flow} (hf : flow.Within K) : ValueWithin? K flow.value? := by
  cases flow with
  | returned v => exact .present hf
  | _ => exact hf

theorem Within.fill {flow : Flow} (hf : flow.Within K) (ho : ValueWithin? K o) :
    (flow.fill o).Within K := by
  cases flow with
  | returned v => exact hf
  | normal v => exact ValueWithin?.or hf ho
  | breakTo l v => exact ValueWithin?.or hf ho
  | continueTo l v => exact ValueWithin?.or hf ho

/-- Another iteration, or the end of a loop. -/
def NextWithin (K : Ref → Prop) : Flow ⊕ Option Value → Prop
  | .inl flow => flow.Within K
  | .inr v => ValueWithin? K v

theorem Within.afterBody {flow : Flow} (hf : flow.Within K) (ho : ValueWithin? K o) :
    NextWithin K (flow.afterBody labels o) := by
  cases flow with
  | normal v => exact ValueWithin?.or hf ho
  | returned v => exact hf
  | breakTo l v =>
    cases l with
    | none => exact ValueWithin?.or (o := v) hf ho
    | some l => exact ValueWithin?.or (o := v) hf ho
  | continueTo l v =>
    have hor := ValueWithin?.or (o := v) hf ho
    cases l with
    | none => exact hor
    | some l =>
      show NextWithin K (if labels.contains l then _ else _)
      split
      · exact hor
      · exact hor

end Flow

namespace Comp

variable {α : Type} {Q : α → Prop}

theorem Stays.tick : (Script.tick f).Stays K fun _ => True :=
  .bind .activation fun _ _ => .bind (.perform rfl trivial) fun _ _ => .when (.exceed _)

theorem Stays.declareFunctions {scope : Ref} (functions : List Code) :
    (Script.declareFunctions scope functions).Stays K fun _ => True := by
  refine .forList (A := fun _ => True) (fun code _ => ?_) fun _ _ => trivial
  exact .bind .newNamedClosure fun r hr =>
    .performOnly rfl (ValueWithin?.present (v := .object r) hr)

/-- Running code in a scope of its own. -/
theorem Stays.inBlockScope {lexicals : List Lexical} {functions : List Code}
    {body : Frame → Comp α} (hb : ∀ f, (body f).Stays K Q) :
    (Script.inBlockScope f lexicals functions body).Stays K Q := by
  refine .ite (hb f) (.bind (.newScope fun b hb => ?_) fun _ _ => .holdingRefs <|
    .bind (.declareFunctions _) fun _ _ => hb _)
  obtain ⟨l, -, rfl⟩ := List.mem_map.mp hb
  exact within_lexicalBinding l

theorem Stays.copyScope {scope : Ref} : (Script.copyScope scope).Stays K fun _ => True :=
  .bind (.readScope scope) fun _ hs => .perform rfl hs

end Comp

namespace Machine

open ScriptBoundary.Script.Comp

namespace Stays

theorem whileStep (hm : m.Stays K) (ho : ValueWithin? K o) :
    (m (.whileStep f labels test body o)).Stays K (Flow.Within K) :=
  hm (.whileStep f labels test body o) ho

theorem doStep (hm : m.Stays K) (ho : ValueWithin? K o) :
    (m (.doStep f labels body test o)).Stays K (Flow.Within K) :=
  hm (.doStep f labels body test o) ho

theorem forStep {names : List Lexical} {first : Bool} (hm : m.Stays K) (ho : ValueWithin? K o) :
    (m (.forStep f labels names first test update body o)).Stays K (Flow.Within K) :=
  hm (.forStep f labels names first test update body o) ho

theorem ofStep (hm : m.Stays K) (hv : v.Within K) (hw : w.Within K) (ho : ValueWithin? K o) :
    (m (.ofStep f labels head body v w o)).Stays K (Flow.Within K) :=
  hm (.ofStep f labels head body v w o) ⟨hv, hw, ho⟩

theorem inStep {walk : NameWalk} (hm : m.Stays K) (ho : ValueWithin? K o) :
    (m (.inStep f labels head body walk o)).Stays K (Flow.Within K) :=
  hm (.inStep f labels head body walk o) ho

theorem execLabeled {s : Stmt} (hm : m.Stays K) :
    (m (.exec f labels s)).Stays K (Flow.Within K) := hm (.exec f labels s) trivial

/-! ## Statements -/

theorem execList (hm : m.Stays K) :
    ∀ (stmts : List Stmt) {o : Option Value}, ValueWithin? K o →
      (m.execList f o stmts).Stays K (Flow.Within K)
  | [], _, ho => .pure ho
  | s :: rest, o, ho => by
    refine .bind hm.exec fun flow hf => ?_
    cases flow with
    | normal v => exact execList hm rest (ValueWithin?.or (o := v) hf ho)
    | breakTo l v => exact .pure (Flow.Within.fill hf ho)
    | continueTo l v => exact .pure (Flow.Within.fill hf ho)
    | returned v => exact .pure (Flow.Within.fill hf ho)

theorem execDeclarators {sort : DeclSort} (hm : m.Stays K) :
    ∀ parts, (m.execDeclarators f sort parts).Stays K fun _ => True
  | [] => .pure trivial
  | part :: rest => by
    unfold Machine.execDeclarators
    split
    · next heq => cases heq
    · next heq =>
      cases heq
      dsimp only
      split
      · exact .ite (.bind (hm.bindTo (v := .undefined) trivial) fun _ _ => execDeclarators hm rest)
          (execDeclarators hm rest)
      · exact .bind hm.eval fun _ hv => .bind (.holding (hm.bindTo hv)) fun _ _ =>
          execDeclarators hm rest
    · next heq =>
      cases heq
      exact execDeclarators hm rest

/-- The end of a loop, or what the next iteration makes of the value so far. -/
theorem goOn {again : Option Value → Comp Flow}
    (hagain : ∀ o, ValueWithin? K o → (again o).Stays K (Flow.Within K)) :
    ∀ next : Flow ⊕ Option Value, Flow.NextWithin K next → (match next with
      | .inl flow => pure flow
      | .inr v => again v : Comp Flow).Stays K (Flow.Within K) := by
  intro next hnext
  cases next with
  | inl flow => exact .pure hnext
  | inr v => exact hagain v hnext

theorem whileTask (hm : m.Stays K) (ho : ValueWithin? K o) :
    (m.whileTask f labels test body o).Stays K (Flow.Within K) :=
  .bind .tick fun _ _ => .bind hm.eval fun _ _ => .ite (.pure ho) <|
    .bind hm.exec fun _ hf => goOn (fun _ h => hm.whileStep h) _ (hf.afterBody ho)

theorem doTask (hm : m.Stays K) (ho : ValueWithin? K o) :
    (m.doTask f labels body test o).Stays K (Flow.Within K) :=
  .bind hm.exec fun _ hf => goOn (fun o h => .bind .tick fun _ _ =>
    .bind hm.eval fun _ _ => .ite (hm.doStep h) (.pure (show (Flow.normal o).Within K from h))) _
      (hf.afterBody ho)

theorem forTask {names : List Lexical} {first : Bool} (hm : m.Stays K) (ho : ValueWithin? K o) :
    (m.forTask f labels names first test update body o).Stays K (Flow.Within K) := by
  have hrest : ∀ (f : Frame) (goesOn : Comp Bool), (goesOn.Stays K fun _ => True) →
      Comp.Stays K (do
        if ← goesOn then return (← m.exec f body).afterBody labels o
        else return .inl (.normal o)) (Flow.NextWithin K) := fun f goesOn hgoes =>
    .bind hgoes fun _ _ => .ite (.bind hm.exec fun _ hf => .pure (hf.afterBody ho)) (.pure ho)
  refine .bind (P := fun _ => True) (.ite (.pure trivial) .copyScope) fun scope _ =>
    .bind (.holdingRefs (Q := Flow.NextWithin K) ?_) fun _ hnext =>
    goOn (fun _ h => hm.forStep h) _ hnext
  refine .ite (hrest _ _ ?first) (.bind .tick fun _ _ => ?next)
  case' next => split
  case' h_1 => refine hrest _ _ ?_
  case' h_2 => refine .bind hm.eval fun _ _ => hrest _ _ ?_
  -- Whether the loop goes on is asked in the same way each time.
  all_goals
    split
    · exact .pure trivial
    · exact .bind hm.eval fun _ _ => .pure trivial

theorem execWith (hm : m.Stays K) (hv : v.Within K) :
    (m.execWith f head body v).Stays K (Flow.Within K) :=
  .inBlockScope fun _ => .bind (hm.bindTo hv) fun _ _ => hm.exec

theorem ofTask (hm : m.Stays K) (hv : v.Within K) (hw : w.Within K) (ho : ValueWithin? K o) :
    (m.ofTask f labels head body v w o).Stays K (Flow.Within K) := by
  have hi : (⟨v, w⟩ : Iteration).Within K := ⟨hv, hw⟩
  refine .bind .tick fun _ _ => .bind (hm.draw hi) fun item hitem => ?_
  cases item with
  | none => exact .pure ho
  | some item =>
    refine .bind (.attempt (.keeping (hm.execWith hitem.get))) fun c hc => ?_
    cases c with
    | value flow =>
      have hnext : Flow.NextWithin K (flow.afterBody labels o) := Flow.Within.afterBody hc ho
      dsimp only
      cases hafter : flow.afterBody labels o with
      | inl flow =>
        rw [hafter] at hnext
        exact .bind (hm.close hi) fun _ _ => .pure hnext
      | inr o' =>
        rw [hafter] at hnext
        exact hm.ofStep hv hw hnext
    | thrown e => exact hm.closeAndThrow hi hc
    | limit l => exact .exceed l

theorem inTask {walk : NameWalk} (hm : m.Stays K) (ho : ValueWithin? K o) :
    (m.inTask f labels head body walk o).Stays K (Flow.Within K) := by
  refine .bind .tick fun _ _ => .bind hm.walk fun step _ => ?_
  cases step with
  | none => exact .pure ho
  | some step =>
    exact .bind (.holdingRefs (hm.execWith trivial)) fun _ hf => goOn (fun _ h => hm.inStep h) _
      (hf.afterBody ho)

theorem matchingCase (hm : m.Stays K) :
    ∀ i cases, (m.matchingCase f v i cases).Stays K fun _ => True
  | _, [] => .pure trivial
  | i, c :: rest => by
    unfold Machine.matchingCase
    split
    · next heq => cases heq
    · next heq =>
      cases heq
      exact matchingCase hm _ rest
    · next heq =>
      cases heq
      exact .bind (.holding hm.eval) fun _ _ => .ite (.pure trivial) (matchingCase hm _ rest)
    · next heq =>
      cases heq
      exact matchingCase hm _ rest

theorem execSwitch {e : Expr} {lexicals : List Lexical} {functions cases : List Code}
    (hm : m.Stays K) : (m.execSwitch f e lexicals functions cases).Stays K (Flow.Within K) := by
  refine .bind hm.eval fun _ _ => .inBlockScope fun _ => .bind (hm.matchingCase _ _) fun _ _ =>
    .bind (hm.execList _ .absent) fun flow hf => ?_
  split
  · next w => exact .pure (ValueWithin?.or (o := w) hf (.present trivial))
  · exact .pure (hf.fill (.present trivial))

theorem execHandler {parameter handler : Code} (hm : m.Stays K) (hv : v.Within K) :
    (m.execHandler f parameter handler v).Stays K (Flow.Within K) := by
  unfold Machine.execHandler
  split
  · exact hm.exec
  · exact .inBlockScope fun _ => .bind (hm.bindTo hv) fun _ _ => hm.exec

theorem execTry {parameter handler last : Code} (hm : m.Stays K) :
    (m.execTry f body parameter handler last).Stays K (Flow.Within K) := by
  unfold Machine.execTry
  dsimp only
  split
  · refine .bind (P := Flow.Within K) ?_ fun _ hf => .pure (hf.fill (.present trivial))
    split
    · exact hm.exec
    · exact .catchThrow hm.exec fun _ hv => hm.execHandler hv
  · refine .bind (.attempt (Q := Flow.Within K) ?_) fun c hc => ?_
    · split
      · exact hm.exec
      · exact .catchThrow hm.exec fun _ hv => hm.execHandler hv
    cases c with
    | limit l => exact .exceed l
    | thrown e =>
      exact .bind (.keeping hm.exec) fun _ hf => .ite (.throwValue hc)
        (.pure (hf.fill (.present trivial)))
    | value done =>
      refine .bind (.keeping hm.exec) fun flow hf => .pure (Flow.Within.fill ?_ (.present trivial))
      split
      · exact hc
      · exact hf

/-- **Executing a statement.** -/
theorem execTask {s : Stmt} (hm : m.Stays K) :
    (m.execTask f labels s).Stays K (Flow.Within K) := by
  have hundefined : ValueWithin? K (some .undefined) := .present trivial
  unfold Machine.execTask
  split
  · exact .pure ValueWithin?.absent
  · exact .bind hm.eval fun _ hv => .pure (ValueWithin?.present hv)
  · exact .bind (hm.execDeclarators _) fun _ _ => .pure ValueWithin?.absent
  · exact .bind hm.eval fun _ hv => .bind (.initialiseName hv) fun _ _ => .pure ValueWithin?.absent
  · exact .inBlockScope fun _ => hm.execList _ .absent
  · refine .bind hm.eval fun _ _ => .ite (.bind hm.exec fun _ hf => .pure (hf.fill hundefined)) ?_
    split
    · exact .pure hundefined
    · exact .bind hm.exec fun _ hf => .pure (hf.fill hundefined)
  · exact hm.whileStep hundefined
  · exact hm.doStep hundefined
  · refine .inBlockScope fun _ => ?_
    split
    · exact hm.forStep hundefined
    · exact .bind hm.exec fun _ _ => hm.forStep hundefined
  · exact .bind hm.eval fun _ hv => .bind (hm.iterate hv) fun _ hi =>
      .keeping (hm.ofStep hi.iterator hi.next hundefined)
  · exact .bind hm.eval fun _ hv => .bind (hm.startWalk hv) fun _ _ => hm.inStep hundefined
  · split
    · exact .pure trivial
    · exact .bind hm.eval fun _ hv => .pure hv
  · exact .pure ValueWithin?.absent
  · exact .pure ValueWithin?.absent
  · exact .bind hm.eval fun _ hv => .throwValue hv
  · exact hm.execTry
  · exact hm.execSwitch
  · refine .bind hm.execLabeled fun flow hf => ?_
    split
    · next l o => exact .ite (.pure (ValueWithin?.or (o := o) hf hundefined)) (.pure hf)
    · exact .pure hf
  · exact .bind hm.eval fun _ hv => .pure (ValueWithin?.present hv)

end Stays

end Machine

end ScriptBoundary.Script
