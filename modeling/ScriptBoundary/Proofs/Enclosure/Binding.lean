import ScriptBoundary.Proofs.Enclosure.Property
import ScriptBoundary.Script.Closure
import ScriptBoundary.Script.Pattern

/-!
# Names, iterators, patterns and new functions stay inside

A name is looked up in scopes, and a scope that is found holds only what is inside. That goes for
the scopes a function was made in as well, so it does not matter which scope a function refers to.
-/

namespace ScriptBoundary.Script

variable {K : Ref → Prop} {m : Machine} {f : Frame} {r : Ref} {k : Key} {v w : Value}

/-! ## What is found in scopes -/

/-- Where a name stands, its value is inside. -/
def Place.Within (K : Ref → Prop) : Place → Prop
  | .binding _ b => b.Within K
  | .global _ => True

theorem Heap.Within.placeOf {h : Heap} (hh : h.Within K) (name : String) :
    ∀ fuel r, (h.placeOf name fuel r).Within K
  | 0, _ => trivial
  | fuel + 1, r => by
    unfold Heap.placeOf
    dsimp only
    split
    · next b hb => exact (hh.scope r).find? b hb
    · split
      · trivial
      · exact hh.placeOf name fuel _
      · trivial

theorem Heap.Within.enclosingCall? {h : Heap} (hh : h.Within K) :
    ∀ fuel r, ∀ c ∈ h.enclosingCall? fuel r, c.info.Within K
  | 0, _ => fun _ hc => nomatch hc
  | fuel + 1, r => by
    unfold Heap.enclosingCall?
    dsimp only
    split
    · next info hcall => exact fun _ hc => Option.some.inj hc ▸ (hh.scope r).call info hcall
    · exact hh.enclosingCall? fuel _
    · exact fun _ hc => nomatch hc

/-- An iterator with its `next` method, both inside. -/
structure Iteration.Within (K : Ref → Prop) (i : Iteration) : Prop where
  iterator : i.iterator.Within K
  next : i.next.Within K

namespace Comp

theorem Stays.globalObjectOf (realm : Ref) : (Script.globalObjectOf realm).Stays K K :=
  .bind (P := fun r : Realm => ∀ i : Intrinsic, K (r.base + i.ctorIdx))
    (.inspect fun _ hh => hh.realm realm) fun _ hr => .pure (hr _)

theorem Stays.placeOf {name : String} : (Script.placeOf f name).Stays K (Place.Within K) :=
  .inspect fun _ hh => hh.placeOf name _ _

theorem Stays.enclosingCall? :
    (Script.enclosingCall? f).Stays K fun c => ∀ e ∈ c, e.info.Within K :=
  .inspect fun _ hh => hh.enclosingCall? _ _

theorem Stays.newScope {outer : Ref} {bindings : List Binding}
    (hb : ∀ b ∈ bindings, b.Within K) : (Script.newScope outer bindings).Stays K fun _ => True :=
  .perform rfl ⟨fun b hm => hb b (List.mem_toArray.mp hm), fun _ hc => nomatch hc⟩

theorem within_lexicalBinding (l : Lexical) : (Lexical.binding l).Within K := .absent

theorem Stays.initialiseName {name : String} (hv : v.Within K) :
    (Script.initialiseName f name v).Stays K fun _ => True := by
  refine .bind .placeOf fun p _ => ?_
  cases p with
  | binding scope b => exact .performOnly rfl hv
  | global realm => exact .pure trivial

/-- **The value of `this`.** -/
theorem Stays.readThis : (Script.readThis f).Stays K (Value.Within K) := by
  refine .bind .enclosingCall? fun c hc => ?_
  cases c with
  | some c =>
    dsimp only
    cases hthis : c.info.this with
    | some v => exact .pure ((hc c rfl).this v hthis)
    | none => exact .raise _ _
  | none =>
    exact .bind (P := fun _ => True) (.inspect fun _ _ => trivial) fun _ _ =>
      .bind (.globalObjectOf _) fun _ hg => .pure hg

/-! ## New functions -/

theorem within_functionProps (name : Text) (n : Nat) :
    ∀ p ∈ functionProps name n, p.2.Within K :=
  List.forall_mem_cons.mpr ⟨trivial, List.forall_mem_singleton.mpr trivial⟩

/-- **A new function** with, if it is an ordinary one, a prototype for what it constructs. -/
theorem Stays.newClosure {scope : Ref} {code : Code} {name : Text} {home : Option Ref} :
    (Script.newClosure scope code name home).Stays K K := by
  unfold Script.newClosure
  split
  · refine .bind .activation fun _ _ => .bind (.intrinsic _) fun _ hp => .ite ?_ ?_
    · refine .bind .newPlain fun made hmade => .bind (.newObjectOf rfl trivial hp (.ofList ?_))
        fun _ hf => .bind (.performOnly rfl hf) fun _ _ => .pure hf
      exact List.forall_mem_append.mpr
        ⟨within_functionProps _ _, List.forall_mem_singleton.mpr hmade⟩
    · exact .newObjectOf rfl trivial hp (.ofList (within_functionProps _ _))
  · exact .newPlain

theorem Stays.newNamedClosure {scope : Ref} {code : Code} :
    (Script.newNamedClosure scope code).Stays K K := .newClosure

theorem Stays.protoFor {i : Intrinsic} (hm : m.Stays K) (hr : K r) :
    (Script.protoFor m r i).Stays K K := by
  refine .bind (hm.get hr) fun p hp => ?_
  cases p with
  | object q => exact .pure hp
  | _ =>
    refine .bind .activation fun _ _ => .bind (.readObject r) fun o _ =>
      .bind (P := fun base : Ref => ∀ i : Intrinsic, K (base + i.ctorIdx)) ?_ fun _ hb =>
      .pure (hb i)
    exact .inspect fun _ hh => hh.realm _

end Comp

namespace Machine

open ScriptBoundary.Script.Comp

/-- The home object of a method may be any: it is only asked for its prototype. -/
theorem Stays.homeOf : (Machine.homeOf f).Stays K fun _ => True := by
  refine .bind .enclosingCall? fun c _ => ?_
  cases c with
  | none => exact .pure trivial
  | some c =>
    refine .bind (.readObject _) fun _ _ => ?_
    split <;> exact .pure trivial

namespace Stays

/-! ## Variables -/

theorem readName? {name : String} (hm : m.Stays K) :
    (m.readName? f name).Stays K (ValueWithin? K) := by
  refine .bind .placeOf fun p hp => ?_
  cases p with
  | binding scope b =>
    dsimp only
    cases hv : b.value with
    | some v => exact .pure (.present (hp v hv))
    | none => exact .raise _ _
  | global realm =>
    exact .bind (.globalObjectOf _) fun _ hg => .bind hm.has fun _ _ =>
      .ite (.bind (hm.get hg) fun _ hv => .pure (.present hv)) (.pure .absent)

theorem readName {name : String} (hm : m.Stays K) :
    (m.readName f name).Stays K (Value.Within K) := by
  refine .bind hm.readName? fun v hv => ?_
  cases v with
  | some v => exact .pure hv.get
  | none => exact .raise _ _

theorem writeName {name : String} (hm : m.Stays K) (hv : v.Within K) :
    (m.writeName f name v).Stays K fun _ => True := by
  refine .bind .placeOf fun p _ => ?_
  cases p with
  | binding scope b =>
    exact .ite (.raise _ _) <| .ite (.performOnly rfl hv) (.ite (.throwType _) (.pure trivial))
  | global realm =>
    exact .bind (.globalObjectOf _) fun _ hg => .ite
      (.bind hm.has fun _ _ => .ite (hm.put hg hv) (.raise _ _))
      (.bind (hm.set hg hv) fun _ _ => .pure trivial)

theorem deleteName {name : String} (hm : m.Stays K) :
    (m.deleteName f name).Stays K fun _ => True := by
  refine .bind .placeOf fun p _ => ?_
  cases p with
  | binding scope b => exact .pure trivial
  | global realm => exact .bind (.globalObjectOf _) fun _ _ => hm.delete

/-! ## Iterators -/

theorem iterate (hm : m.Stays K) (hv : v.Within K) :
    (m.iterate v).Stays K (Iteration.Within K) := by
  refine .bind (hm.getMethod hv) fun f hf => ?_
  cases f with
  | none => exact .throwType _
  | some f =>
    refine .bind (hm.call hf.get hv .nil) fun i hi => ?_
    cases i with
    | object r => exact .bind (hm.getOf hi) fun _ hn => .pure ⟨hi, hn⟩
    | _ => exact .throwType _

theorem draw {i : Iteration} (hm : m.Stays K) (hi : i.Within K) :
    (m.draw i).Stays K (ValueWithin? K) := by
  refine .bind (.keeping (hm.call hi.next hi.iterator .nil)) fun a ha => ?_
  cases a with
  | object r =>
    exact .bind (hm.get ha) fun _ _ => .ite (.pure .absent) <|
      .bind (hm.get ha) fun _ hv => .pure (.present hv)
  | _ => exact .throwType _

theorem close {i : Iteration} (hm : m.Stays K) (hi : i.Within K) :
    (m.close i).Stays K fun _ => True := by
  refine .bind (hm.getMethod hi.iterator) fun f hf => ?_
  cases f with
  | none => exact .pure trivial
  | some f =>
    refine .bind (hm.call hf.get hi.iterator .nil) fun a _ => ?_
    cases a with
    | object r => exact .pure trivial
    | _ => exact .throwType _

theorem closeAndThrow {α : Type} {Q : α → Prop} {i : Iteration} (hm : m.Stays K)
    (hi : i.Within K) (hv : v.Within K) : (m.closeAndThrow i v : Comp α).Stays K Q :=
  .bind (.keeping (.catchThrow (hm.close hi) fun _ _ => .pure trivial)) fun _ _ => .throwValue hv

theorem gatherTask {drawn : List Value} (hm : m.Stays K) (hv : v.Within K) (hw : w.Within K)
    (hd : ValuesWithin K drawn) : (m.gatherTask v w drawn).Stays K (ValuesWithin K) := by
  refine .bind (.keeping (hm.draw ⟨hv, hw⟩)) fun x hx => ?_
  cases x with
  | none => exact .pure hd.reverse
  | some x => exact hm.gather hv hw (.cons hx.get hd)

theorem listOfIterable (hm : m.Stays K) (hv : v.Within K) :
    (m.listOfIterable v).Stays K (ValuesWithin K) :=
  .bind (hm.iterate hv) fun _ hi => hm.gather hi.iterator hi.next .nil

theorem walkTask {walk : NameWalk} (hm : m.Stays K) :
    (m.walkTask walk).Stays K fun _ => True := by
  unfold Machine.walkTask
  dsimp only
  split
  · split
    · exact hm.walk
    · refine .ite hm.walk (.bind hm.getOwn fun s _ => ?_)
      cases s with
      | none => exact hm.walk
      | some s => exact .ite (.pure trivial) hm.walk
  · refine .bind hm.protoOf fun p _ => ?_
    cases p with
    | none => exact .pure trivial
    | some p => exact .bind hm.ownKeys fun _ _ => hm.walk
  · exact .pure trivial

theorem startWalk (hm : m.Stays K) (hv : v.Within K) : (m.startWalk v).Stays K fun _ => True :=
  .ite (.pure trivial) <| .bind (.toObject hv) fun _ _ => .bind hm.ownKeys fun _ _ => .pure trivial

/-! ## Patterns -/

theorem putOf (hm : m.Stays K) (hw : w.Within K) (hv : v.Within K) :
    (m.putOf f w k v).Stays K fun _ => True :=
  .bind (.toObject hw) fun _ _ => .bind (hm.setFor hv hw) fun _ _ =>
    .unless (.when (.throwType _))

theorem keyOfName {name : Code} (hm : m.Stays K) : (m.keyOfName f name).Stays K fun _ => True := by
  unfold Machine.keyOfName
  split
  · exact .pure trivial
  · exact .bind hm.eval fun _ hv => hm.toKey hv
  · exact .pure trivial

theorem superBase (hm : m.Stays K) : (m.superBase f).Stays K (Value.Within K) := by
  refine .bind Stays.homeOf fun home _ => ?_
  cases home with
  | none => exact .pure trivial
  | some home =>
    refine .bind hm.protoOf fun p hp => ?_
    cases p with
    | none => exact .pure trivial
    | some p => exact .pure (hp p rfl)

theorem putSuper (hm : m.Stays K) (hv : v.Within K) :
    (m.putSuper f k v).Stays K fun _ => True := by
  refine .bind .readThis fun this hthis => .bind hm.superBase fun p _ => ?_
  cases p with
  | object p => exact .bind (hm.setFor hv hthis) fun _ _ => .unless (.when (.throwType _))
  | _ => exact .throwType _

/-- What an array pattern takes from an iterator. -/
theorem bindItems {sort : BindingSort} {i : Iteration} {rest : Pattern} (hm : m.Stays K)
    (hi : i.Within K) : ∀ done items, (m.bindItems f sort i rest done items).Stays K fun _ => True
  | done, [] => by
    unfold Machine.bindItems
    split
    · exact .pure trivial
    · exact .bind (.ite (.pure .nil) (hm.gather hi.iterator hi.next .nil)) fun _ hvs =>
        .bind (.newArray hvs) fun _ hr => .bind (hm.bindTo (v := .object _) hr) fun _ _ =>
        .pure trivial
  | done, p :: ps => by
    refine .bind (.ite (.pure .absent) (hm.draw hi)) fun drawn hd => ?_
    have hv := hd.getD (v := .undefined) trivial
    split
    · exact bindItems hm hi _ ps
    · exact .bind (hm.bindTo hv) fun _ _ => bindItems hm hi _ ps

theorem bindFields {sort : BindingSort} (hm : m.Stays K) (hv : v.Within K) :
    ∀ used fields, (m.bindFields f sort v used fields).Stays K fun _ => True
  | _, [] => .pure trivial
  | used, field :: fields => by
    unfold Machine.bindFields
    split
    · next heq => cases heq
    · next name target rest heq =>
      cases heq
      exact .bind hm.keyOfName fun _ _ => .bind (hm.getOf hv) fun _ hw =>
        .bind (hm.bindTo hw) fun _ _ => bindFields hm hv _ fields
    · next heq =>
      cases heq
      exact bindFields hm hv _ fields

theorem copyProps {target source : Ref} {except : List Key} (hm : m.Stays K) (hs : K source) :
    (m.copyProps target source except).Stays K fun _ => True := by
  refine .bind hm.ownKeys fun _ _ =>
    .forList (A := fun _ => True) (fun k _ => ?_) fun _ _ => trivial
  refine .ite (.pure trivial) (.bind hm.getOwn fun s _ => ?_)
  cases s with
  | none => exact .pure trivial
  | some s => exact .when (.bind (hm.get hs) fun _ hv => .performOnly rfl hv)

/-- **Binding a pattern.** -/
theorem bindTask {sort : BindingSort} {target : Pattern} (hm : m.Stays K) (hv : v.Within K) :
    (m.bindTask f sort target v).Stays K fun _ => True := by
  unfold Machine.bindTask
  split
  · split
    · exact hm.writeName hv
    · exact .initialiseName hv
  · exact .bind (.ite hm.eval (.pure hv)) fun _ hw => hm.bindTo hw
  · exact .bind (.keeping hm.eval) fun _ hb => hm.putOf hb hv
  · exact .bind (.keeping hm.eval) fun _ hb =>
      .bind (.keeping (.bind hm.eval fun _ hk => hm.toKey hk)) fun _ _ => hm.putOf hb hv
  · exact hm.putSuper hv
  · exact .bind hm.eval fun _ hk => .bind (hm.toKey hk) fun _ _ => hm.putSuper hv
  · exact hm.bindTo hv
  · refine .bind (hm.iterate hv) fun i hi => .bind (.attempt (hm.bindItems hi _ _)) fun c hc => ?_
    cases c with
    | value done => exact .unless (hm.close hi)
    | thrown e => exact hm.closeAndThrow hi hc
    | limit l => exact .exceed l
  · refine .ite (.throwType _) (.bind (.keeping (hm.bindFields hv _ _)) fun _ _ => ?_)
    split
    · exact .pure trivial
    · exact .bind .newPlain fun _ hr => .bind (.toObject hv) fun _ hs =>
        .bind (hm.copyProps hs) fun _ _ => hm.bindTo (v := .object _) hr
  · exact .pure trivial

end Stays

end Machine

end ScriptBoundary.Script
