import ScriptBoundary.Proofs.Enclosure.Binding
import ScriptBoundary.Proofs.Enclosure.Operator
import ScriptBoundary.Proofs.Enclosure.Proxy
import ScriptBoundary.Script.Expression

/-!
# Expressions stay inside
-/

namespace ScriptBoundary.Script

variable {K : Ref → Prop} {m : Machine} {f : Frame} {r : Ref} {k : Key} {v w : Value}

/-- A function with its `this`, both inside. -/
structure Callee.Within (K : Ref → Prop) (c : Callee) : Prop where
  function : c.function.Within K
  this : c.this.Within K

/-- What is known of a callee that may be missing: its function. -/
theorem within_function {c : Option Callee} (hc : ∀ d ∈ c, d.Within K) :
    ValueWithin? K (c.map Callee.function) := fun v hv => by
  obtain ⟨d, hd, rfl⟩ := Option.map_eq_some_iff.mp hv
  exact (hc d hd).function

theorem within_accessorSlot {present : Option Slot} {isGetter enumerable : Bool}
    (hp : ∀ s ∈ present, s.Within K) (hv : v.Within K) :
    (accessorSlot present isGetter v enumerable).Within K := by
  rcases present with - | ⟨content, enumerable', configurable⟩
  · cases isGetter with
    | true => exact ⟨hv, trivial⟩
    | false => exact ⟨trivial, hv⟩
  · have hs := hp _ rfl
    cases content with
    | data w writable =>
      cases isGetter with
      | true => exact ⟨hv, trivial⟩
      | false => exact ⟨trivial, hv⟩
    | accessor g t =>
      cases isGetter with
      | true => exact ⟨hv, hs.2⟩
      | false => exact ⟨hs.1, hv⟩

theorem Comp.Stays.classFrame {callee : Ref} (hv : v.Within K) :
    (Script.classFrame f callee v).Stays K fun _ => True := by
  refine .bind (.perform rfl ⟨fun _ hb => ?_, fun _ hc => ?_⟩) fun _ _ => .pure trivial
  · cases Array.not_mem_empty _ hb
  · exact Option.some.inj hc ▸ ⟨.present hv, trivial⟩

namespace Machine

open ScriptBoundary.Script.Comp

/-- Putting a method or an accessor on an object. -/
theorem Stays.defineMember {enumerable : Bool} {sort : FunctionSort} {code : Code} :
    (Machine.defineMember f r enumerable k sort code).Stays K fun _ => True := by
  refine .bind .newClosure fun fn hfn => .bind .ownSlot fun present hp => .performOnly rfl ?_
  cases sort with
  | getter => exact within_accessorSlot hp hfn
  | setter => exact within_accessorSlot hp hfn
  | _ => exact hfn

namespace Stays

theorem evalArgs (hm : m.Stays K) :
    ∀ args, (m.evalArgs f args).Stays K (ValuesWithin K)
  | [] => .pure .nil
  | e :: rest => by
    unfold Machine.evalArgs
    split
    · next heq => cases heq
    · next e rest heq =>
      cases heq
      exact .bind hm.eval fun _ hv => .bind (hm.listOfIterable hv) fun _ hvs =>
        .bind (.keeping (evalArgs hm _)) fun _ hmore => .pure (hvs.append hmore)
    · next heq =>
      cases heq
      exact .bind hm.eval fun _ hv => .bind (.holding (evalArgs hm _)) fun _ hmore =>
        .pure (.cons hv hmore)

theorem evalItems (hm : m.Stays K) :
    ∀ next items, (m.evalItems f r next items).Stays K fun _ => True
  | _, [] => .writeLength
  | next, e :: rest => by
    unfold Machine.evalItems
    split
    · next heq => cases heq
    · next heq =>
      cases heq
      exact evalItems hm _ rest
    · next heq =>
      cases heq
      exact .bind hm.eval fun _ hv => .bind (hm.listOfIterable hv) fun _ hvs =>
        .bind (.forList (fun _ hp => .performOnly rfl hp) hvs.zipIdx) fun _ _ => evalItems hm _ rest
    · next heq =>
      cases heq
      exact .bind hm.eval fun _ hv => .bind (.performOnly rfl hv) fun _ _ => evalItems hm _ rest

theorem evalMember {member : Code} (hm : m.Stays K) :
    (m.evalMember f r member).Stays K fun _ => True := by
  unfold Machine.evalMember
  split
  · exact .bind hm.keyOfName fun _ _ => .bind hm.eval fun _ hv => .performOnly rfl hv
  · exact .bind hm.keyOfName fun _ _ => Stays.defineMember
  · exact .bind hm.keyOfName fun _ _ => Stays.defineMember
  · exact .bind hm.keyOfName fun _ _ => Stays.defineMember
  · refine .bind hm.eval fun p hp => ?_
    cases p with
    | object p => exact .performOnly rfl fun _ hq => Option.some.inj hq ▸ hp
    | null => exact .performOnly rfl fun _ hq => nomatch hq
    | _ => exact .pure trivial
  · exact .bind hm.eval fun _ hv => .unless (.bind (.toObject hv) fun _ hs => hm.copyProps hs)
  · exact .pure trivial

theorem evalParts (hm : m.Stays K) : ∀ parts, (m.evalParts f parts).Stays K (ValuesWithin K)
  | [] => .pure .nil
  | _ :: rest => .bind hm.eval fun _ hv => .bind (.holding (evalParts hm rest)) fun _ hmore =>
      .pure (.cons hv hmore)

theorem joinParts (hm : m.Stays K) :
    ∀ (out : Text) ts vs, ValuesWithin K vs → (m.joinParts out ts vs).Stays K fun _ => True
  | _, [], _, _ => .pure trivial
  | _, _ :: _, [], _ => .pure trivial
  | _, _ :: ts, _ :: vs, hvs => .bind (hm.toText hvs.head) fun _ _ => joinParts hm _ ts vs hvs.rest

theorem initialiseFields (hm : m.Stays K) (hv : v.Within K) :
    (m.initialiseFields r v).Stays K fun _ => True := by
  refine .bind (.readObject r) fun o _ => ?_
  split
  · refine .forList (A := fun _ => True) (fun field _ => ?_) fun _ _ => trivial
    refine .bind (.perform rfl trivial) fun _ _ => .bind (.classFrame hv) fun _ _ =>
      .bind (P := Value.Within K) ?_ fun _ hw => hm.createOrThrow hw
    split
    · exact .pure trivial
    · exact hm.eval
  · exact .pure trivial

/-- **What is called**, with its `this`. -/
theorem calleeOf {e : Expr} (hm : m.Stays K) :
    (m.calleeOf f e).Stays K fun c => ∀ d ∈ c, d.Within K := by
  have hnothing : (pure none : Comp (Option Callee)).Stays K fun c => ∀ d ∈ c, d.Within K :=
    .pure fun _ hd => nomatch hd
  have hgiven : ∀ v w : Value, v.Within K → w.Within K →
      (pure (some ⟨v, w⟩) : Comp (Option Callee)).Stays K fun c => ∀ d ∈ c, d.Within K :=
    fun _ _ hv hw => .pure fun _ hd => Option.some.inj hd ▸ ⟨hv, hw⟩
  unfold Machine.calleeOf
  split
  · refine .bind hm.chain fun base hb => ?_
    cases base with
    | none => exact hnothing
    | some base =>
      exact .ite hnothing (.bind (hm.getOf hb.get) fun _ hv => hgiven _ _ hv hb.get)
  · refine .bind hm.chain fun base hb => ?_
    cases base with
    | none => exact hnothing
    | some base =>
      exact .ite hnothing <| .bind (.holding hm.eval) fun _ hk => .ite (.throwType _) <|
        .bind (.holding (hm.toKey hk)) fun _ _ => .bind (hm.getOf hb.get) fun _ hv =>
        hgiven _ _ hv hb.get
  · refine .bind .readThis fun _ hthis => .bind hm.superBase fun p hp => ?_
    split
    · exact .bind (hm.getFor hthis) fun _ hv => hgiven _ _ hv hthis
    · exact .bind (hm.getOf hp) fun _ hv => hgiven _ _ hv hthis
  · refine .bind .readThis fun _ hthis => .bind hm.eval fun _ hk => .bind (hm.toKey hk) fun _ _ =>
      .bind hm.superBase fun p hp => ?_
    split
    · exact .bind (hm.getFor hthis) fun _ hv => hgiven _ _ hv hthis
    · exact .bind (hm.getOf hp) fun _ hv => hgiven _ _ hv hthis
  · refine .bind hm.chain fun v hv => .pure fun d hd => ?_
    obtain ⟨w, hw, rfl⟩ := Option.map_eq_some_iff.mp hd
    exact ⟨hv w hw, trivial⟩

theorem chainTask {e : Expr} (hm : m.Stays K) :
    (m.chainTask f e).Stays K (ValueWithin? K) := by
  unfold Machine.chainTask
  split
  · exact .bind hm.calleeOf fun _ hc => .pure (within_function hc)
  · exact .bind hm.calleeOf fun _ hc => .pure (within_function hc)
  · refine .bind hm.calleeOf fun c hc => ?_
    cases c with
    | none => exact .pure .absent
    | some c =>
      have hcallee := hc c rfl
      exact .ite (.pure .absent) <| .bind (.holding (hm.evalArgs _)) fun _ hvs =>
        .bind (hm.call hcallee.function hcallee.this hvs) fun _ hv => .pure (.present hv)
  · exact .bind hm.eval fun _ hv => .pure (.present hv)

/-- A target that is about to be changed: its value is inside, and storing stays inside. -/
def TargetStays (K : Ref → Prop) (t : Value × (Value → Comp Unit)) : Prop :=
  t.1.Within K ∧ ∀ v, v.Within K → (t.2 v).Stays K fun _ => True

theorem readTarget {target : Code} (hm : m.Stays K) :
    (m.readTarget f target).Stays K (TargetStays K) := by
  unfold Machine.readTarget
  split
  · exact .bind hm.readName fun _ hv => .pure ⟨hv, fun _ hw => hm.writeName hw⟩
  · exact .bind hm.eval fun _ hb => .bind (.holding (hm.getOf hb)) fun _ hv =>
      .pure ⟨hv, fun _ hw => hm.putOf hb hw⟩
  · exact .bind hm.eval fun _ hb => .bind (.holding hm.eval) fun _ hk => .ite (.throwType _) <|
      .bind (.holding (hm.toKey hk)) fun _ _ => .bind (.holding (hm.getOf hb)) fun _ hv =>
      .pure ⟨hv, fun _ hw => hm.putOf hb hw⟩
  · exact .bind hm.calleeOf fun _ hc =>
      .pure ⟨(within_function hc).getD trivial, fun _ hw => hm.putSuper hw⟩
  · exact .bind hm.eval fun _ hk => .bind (hm.toKey hk) fun _ _ => .bind hm.calleeOf fun _ hc =>
      .pure ⟨(within_function hc).getD trivial, fun _ hw => hm.putSuper hw⟩
  · exact .raise _ _

/-- **Assignments.** -/
theorem evalAssign {op : AssignOp} {target value : Code} (hm : m.Stays K) :
    (m.evalAssign f op target value).Stays K (Value.Within K) := by
  cases op with
  | plain =>
    unfold Machine.evalAssign
    dsimp only
    split
    · exact .bind hm.eval fun _ hb => .bind (.holding hm.eval) fun _ hv =>
        .bind (.holding (hm.putOf hb hv)) fun _ _ => .pure hv
    · exact .bind hm.eval fun _ hb => .bind (.holding hm.eval) fun _ hk =>
        .bind (.holding hm.eval) fun _ hv => .ite (.throwType _) <|
        .bind (.holding (hm.toKey hk)) fun _ _ => .bind (.holding (hm.putOf hb hv)) fun _ _ =>
        .pure hv
    · exact .bind hm.eval fun _ hv => .bind (.holding (hm.bindTo hv)) fun _ _ => .pure hv
  | arithmetic op =>
    exact .bind hm.readTarget fun _ ht => .bind (.holding hm.eval) fun _ hv =>
      .bind (hm.binary op ht.1 hv) fun _ hw => .bind (ht.2 _ hw) fun _ _ => .pure hw
  | logical op =>
    exact .bind hm.readTarget fun _ ht => .ite
      (.bind hm.eval fun _ hv => .bind (ht.2 _ hv) fun _ _ => .pure hv) (.pure ht.1)

theorem evalUpdate {increment before : Bool} {target : Code} (hm : m.Stays K) :
    (m.evalUpdate f increment before target).Stays K (Value.Within K) := by
  refine .bind hm.readTarget fun t ht => .bind (hm.toNumeric ht.1) fun x hx => ?_
  cases x with
  | bigint n =>
    refine .bind (ht.2 _ trivial) fun _ _ => .pure ?_
    split <;> trivial
  | number x =>
    refine .bind (ht.2 _ trivial) fun _ _ => .pure ?_
    split <;> trivial
  | _ => exact .pure hx

theorem evalDelete {e : Expr} (hm : m.Stays K) :
    (m.evalDelete f e).Stays K (Value.Within K) := by
  have hremove : ∀ (base : Value) (k : Key), base.Within K → Comp.Stays K (do
      let r ← toObject base
      if ← m.delete r k then return .boolean true
      else if f.strict then throwType "Cannot delete property"
      else return .boolean false) (Value.Within K) := fun _ _ hb =>
    .bind (.toObject hb) fun _ _ => .bind hm.delete fun _ _ => .ite (.pure trivial) <|
      .ite (.throwType _) (.pure trivial)
  unfold Machine.evalDelete
  dsimp only
  split
  · exact .bind hm.deleteName fun _ _ => .pure trivial
  · refine .bind hm.chain fun base hb => ?_
    cases base with
    | none => exact .pure trivial
    | some base => exact .ite (.pure trivial) (hremove _ _ hb.get)
  · refine .bind hm.chain fun base hb => ?_
    cases base with
    | none => exact .pure trivial
    | some base =>
      exact .ite (.pure trivial) <| .bind (.holding hm.eval) fun _ hk =>
        .bind (hm.toKey hk) fun _ _ => hremove _ _ hb.get
  · refine .bind hm.chain fun base hb => ?_
    cases base with
    | none => exact .pure trivial
    | some base => exact .ite (.pure trivial) (hremove _ _ hb.get)
  · exact .bind hm.eval fun _ _ => .pure trivial

/-- **Calling the parent constructor**: the parent and `new.target` were found in the heap. -/
theorem evalSuperCall {args : List Code} (hm : m.Stays K) :
    (m.evalSuperCall f args).Stays K (Value.Within K) := by
  refine .bind .enclosingCall? fun c hc => ?_
  cases c with
  | none => exact .raise _ _
  | some c =>
    refine .bind hm.protoOf fun parent hp => .bind (hm.evalArgs _) fun vs hvs => ?_
    have htarget := (hc c rfl).newTarget
    split
    · next p target htargetEq =>
      rw [htargetEq] at htarget
      exact .bind (.isConstructor _) fun _ _ => .ite (.throwType _) <|
        .bind (hm.construct (hp p rfl) hvs htarget) fun _ hthis => .bind (.readScope _) fun _ _ =>
        .ite (.raise _ _) <| .bind (.performOnly rfl hthis) fun _ _ =>
        .bind (hm.initialiseFields hthis) fun _ _ => .pure hthis
    · exact .throwType _

theorem parentOf {parent : Code} (hm : m.Stays K) :
    (m.parentOf f parent).Stays K fun p => (∀ q ∈ p.1, K q) ∧ K p.2 := by
  unfold Machine.parentOf
  split
  · exact .bind (.intrinsic _) fun _ hp => .bind (.intrinsic _) fun _ hq =>
      .pure ⟨fun _ hr => Option.some.inj hr ▸ hp, hq⟩
  · refine .bind hm.eval fun v hv => ?_
    cases v with
    | null => exact .bind (.intrinsic _) fun _ hq => .pure ⟨fun _ hr => (nomatch hr), hq⟩
    | object p =>
      refine .bind (.isConstructor _) fun _ _ => .ite (.throwType _) <|
        .bind (hm.get hv) fun q hq => ?_
      cases q with
      | object q => exact .pure ⟨fun _ hr => Option.some.inj hr ▸ hq, hv⟩
      | null => exact .pure ⟨fun _ hr => (nomatch hr), hv⟩
      | _ => exact .throwType _
    | _ => exact .throwType _

theorem classMembers {constructor proto : Ref} (hm : m.Stays K) (hc : K constructor) :
    ∀ fields members, (m.classMembers f constructor proto fields members).Stays K fun _ => True
  | _, [] => .pure trivial
  | fields, member :: rest => by
    unfold Machine.classMembers
    dsimp only
    split
    · exact .bind hm.keyOfName fun _ _ => .bind Stays.defineMember fun _ _ =>
        classMembers hm hc _ rest
    · exact .bind hm.keyOfName fun _ _ => .bind Stays.defineMember fun _ _ =>
        classMembers hm hc _ rest
    · exact .bind hm.keyOfName fun _ _ => .bind Stays.defineMember fun _ _ =>
        classMembers hm hc _ rest
    · refine .bind hm.keyOfName fun _ _ => .ite ?_ (classMembers hm hc _ rest)
      refine .bind (.classFrame (v := .object constructor) hc) fun _ _ =>
        .bind (P := Value.Within K) ?_ fun _ hv => .bind (hm.createOrThrow hv) fun _ _ =>
        classMembers hm hc _ rest
      split
      · exact .pure trivial
      · exact hm.eval
    · exact classMembers hm hc _ rest

/-- **Classes.** -/
theorem evalClass {name : Option String} {parent constructor : Code} {members : List Code}
    (hm : m.Stays K) :
    (m.evalClass f name parent constructor members).Stays K (Value.Within K) := by
  refine .bind (.newScope fun b hb => ?_) fun scope _ => .holdingRefs ?_
  · obtain ⟨n, -, rfl⟩ := List.mem_map.mp hb
    exact .absent
  refine .bind hm.parentOf fun p hp =>
    .bind (.newObject rfl trivial hp.1 .empty) fun proto hproto => .bind .newClosure fun c hc =>
    .bind (.performOnly rfl fun _ hq => Option.some.inj hq ▸ hp.2) fun _ _ =>
    .bind (.performOnly rfl hproto) fun _ _ => .bind (.performOnly rfl hc) fun _ _ =>
    .bind (.holdingRefs (hm.classMembers hc _ _)) fun _ _ => .bind (.readObject c) fun o _ => ?_
  cases name with
  | none =>
    cases o.nature with
    | closure k => exact .bind (.performOnly rfl trivial) fun _ _ => .pure hc
    | _ => exact .pure hc
  | some n =>
    have hnamed : ∀ f : Frame, (Script.initialiseName f n (.object c)).Stays K fun _ => True :=
      fun _ => .initialiseName (v := .object c) hc
    cases o.nature with
    | closure k =>
      exact .bind (.performOnly rfl trivial) fun _ _ => .bind (hnamed _) fun _ _ => .pure hc
    | _ => exact .bind (hnamed _) fun _ _ => .pure hc

/-- A function literal, in a scope of its own if it has a name for itself. -/
theorem evalFunction {info : FunctionInfo} {params functions body : List Code} :
    (m.evalTask f (.function info params functions body)).Stays K (Value.Within K) := by
  refine .ite (.bind (.newScope ?_) fun _ _ => .bind .newNamedClosure fun _ hr =>
    .bind (.performOnly rfl hr) fun _ _ => .pure hr) (.bind .newNamedClosure fun _ hr => .pure hr)
  exact List.forall_mem_singleton.mpr .absent

/-- **Evaluating an expression.** -/
theorem evalTask {e : Expr} (hm : m.Stays K) : (m.evalTask f e).Stays K (Value.Within K) := by
  unfold Machine.evalTask
  split
  · exact .pure trivial
  · exact .pure trivial
  · exact .pure trivial
  · exact .pure trivial
  · exact .pure trivial
  · exact hm.readName
  · exact .readThis
  · refine .bind .enclosingCall? fun c hc => ?_
    cases c with
    | none => exact .pure trivial
    | some c => exact .pure (hc c rfl).newTarget
  · refine .bind (hm.evalParts _) fun vs hvs => ?_
    split
    · exact .pure trivial
    · exact .bind (hm.joinParts _ _ vs hvs) fun _ _ => .pure trivial
  · exact .bind (.newArray .nil) fun _ hr => .bind (.holding (hm.evalItems _ _)) fun _ _ => .pure hr
  · exact .bind .newPlain fun _ hr => .bind
      (.holding (.forList (A := fun _ => True) (fun _ _ => hm.evalMember) fun _ _ => trivial))
      fun _ _ => .pure hr
  · exact evalFunction (m := m)
  · exact hm.evalClass
  · refine .bind hm.readName? fun v hv => ?_
    cases v with
    | none => exact .pure trivial
    | some v => exact hm.unary _ hv.get
  · exact .bind hm.eval fun _ hv => hm.unary _ hv
  · exact hm.evalDelete
  · exact hm.evalUpdate
  · exact .bind hm.eval fun _ ha => .bind (.holding hm.eval) fun _ hb => hm.binary _ ha hb
  · exact .bind hm.eval fun _ hv => .ite hm.eval (.pure hv)
  · exact .bind hm.eval fun _ _ => .ite hm.eval hm.eval
  · exact hm.evalAssign
  · exact .bind hm.eval fun _ _ => hm.eval
  · exact .bind hm.chainTask fun _ hv => .pure (hv.getD trivial)
  · exact .bind hm.chainTask fun _ hv => .pure (hv.getD trivial)
  · exact .bind hm.chainTask fun _ hv => .pure (hv.getD trivial)
  · exact .bind hm.calleeOf fun _ hc => .pure ((within_function hc).getD trivial)
  · exact .bind hm.calleeOf fun _ hc => .pure ((within_function hc).getD trivial)
  · exact hm.evalSuperCall
  · refine .bind hm.eval fun c hc => .bind (.holding (hm.evalArgs _)) fun vs hvs => ?_
    cases c with
    | object r =>
      exact .bind (.isConstructor _) fun _ _ => .ite (hm.construct hc hvs hc) (.throwType _)
    | _ => exact .throwType _
  · exact .bind hm.chain fun _ hv => .pure (hv.getD trivial)
  · exact hm.eval
  · exact .pure trivial

end Stays

end Machine

end ScriptBoundary.Script
