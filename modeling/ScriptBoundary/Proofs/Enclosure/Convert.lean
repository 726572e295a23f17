import ScriptBoundary.Proofs.Enclosure.Basic
import ScriptBoundary.Script.Convert

/-!
# Conversions stay inside

A conversion asks objects for their own methods, which it finds among their properties and calls on
them. What comes of it is a primitive, or the object that a primitive is wrapped in.
-/

namespace ScriptBoundary.Script

variable {K : Ref → Prop} {m : Machine} {r : Ref} {k : Key} {v w : Value}

namespace Comp

theorem Stays.isCallable (v : Value) : (Script.isCallable v).Stays K fun _ => True :=
  .inspect fun _ _ => trivial

theorem Stays.isConstructor (v : Value) : (Script.isConstructor v).Stays K fun _ => True := by
  cases v with
  | object r => exact .bind (.readObject r) fun _ _ => .pure trivial
  | _ => exact .pure trivial

theorem Stays.typeName (v : Value) : (Script.typeName v).Stays K fun _ => True :=
  .inspect fun _ _ => trivial

/-- The object a primitive is wrapped in is a new one. -/
theorem Stays.toObject (hv : v.Within K) : (Script.toObject v).Stays K K := by
  cases v with
  | object r => exact .pure hv
  | undefined => exact .throwType _
  | null => exact .throwType _
  | text t =>
    exact .bind (.intrinsic _) fun _ hp =>
      .newObjectOf rfl trivial hp (.ofList (List.forall_mem_singleton.mpr trivial))
  | boolean b => exact .bind (.intrinsic _) fun _ hp => .newObjectOf rfl trivial hp .empty
  | number x => exact .bind (.intrinsic _) fun _ hp => .newObjectOf rfl trivial hp .empty
  | symbol s => exact .bind (.intrinsic _) fun _ hp => .newObjectOf rfl trivial hp .empty
  | bigint n => exact .bind (.intrinsic _) fun _ hp => .newObjectOf rfl trivial hp .empty

theorem Stays.isArrayFrom : ∀ fuel r, (Script.isArrayFrom fuel r).Stays K fun _ => True
  | 0, _ => .exhausted
  | fuel + 1, r => by
    refine .bind (.readObject r) fun o _ => ?_
    split
    · exact .pure trivial
    · exact Stays.isArrayFrom fuel _
    · exact .throwType _
    · exact .pure trivial

theorem Stays.isArray (v : Value) : (Script.isArray v).Stays K fun _ => True := by
  cases v with
  | object r =>
    exact .bind (P := fun _ => True) (.inspect fun _ _ => trivial) fun size _ =>
      .isArrayFrom (size + 1) r
  | _ => exact .pure trivial

end Comp

namespace Machine

open ScriptBoundary.Script.Comp

theorem Stays.primitiveNumber (v : Value) : (Machine.primitiveNumber v).Stays K fun _ => True := by
  cases v with
  | symbol s => exact .throwType _
  | bigint n => exact .throwType _
  | _ => exact .pure trivial

theorem Stays.primitiveText (v : Value) : (Machine.primitiveText v).Stays K fun _ => True := by
  cases v with
  | symbol s => exact .throwType _
  | _ => exact .pure trivial

theorem Stays.comparePrimitives (v w : Value) :
    (Machine.comparePrimitives v w).Stays K fun _ => True := by
  unfold Machine.comparePrimitives
  split
  · exact .pure trivial
  · exact .pure trivial
  · exact .pure trivial
  · exact .pure trivial
  · exact .bind (Stays.primitiveNumber _) fun _ _ => .pure trivial
  · exact .bind (Stays.primitiveNumber _) fun _ _ => .pure trivial
  · exact .bind (Stays.primitiveNumber _) fun _ _ =>
      .bind (Stays.primitiveNumber _) fun _ _ => .pure trivial

theorem within_textProperty? {t : Text} : ∀ p ∈ textProperty? t k, p.Within K := fun p hp => by
  unfold textProperty? at hp
  split at hp
  · obtain ⟨u, -, rfl⟩ := Option.map_eq_some_iff.mp hp
    trivial
  · obtain ⟨-, hp⟩ := Option.ite_none_right_eq_some.mp hp
    obtain rfl := Option.some.inj hp
    trivial

namespace Stays

/-- Properties of values. -/
theorem getOf (hm : m.Stays K) (hv : v.Within K) :
    (m.getOf v k).Stays K (Value.Within K) := by
  cases v with
  | object r => exact hm.getFor hv
  | undefined => exact .throwType _
  | null => exact .throwType _
  | text t =>
    rw [Machine.getOf]
    split
    · next p hp => exact .pure (within_textProperty? p hp)
    · exact .bind (.intrinsic _) fun _ _ => hm.getFor trivial
  | boolean b => exact .bind (.intrinsic _) fun _ _ => hm.getFor trivial
  | number x => exact .bind (.intrinsic _) fun _ _ => hm.getFor trivial
  | symbol s => exact .bind (.intrinsic _) fun _ _ => hm.getFor trivial
  | bigint n => exact .bind (.intrinsic _) fun _ _ => hm.getFor trivial

theorem getMethod (hm : m.Stays K) (hv : v.Within K) :
    (m.getMethod v k).Stays K (ValueWithin? K) :=
  .bind (hm.getOf hv) fun _ hf => .ite (.pure .absent) <|
    .bind (.isCallable _) fun _ _ => .ite (.pure (.present hf)) (.throwType _)

theorem askMethods (hm : m.Stays K) (hr : K r) :
    ∀ names, (m.askMethods r names).Stays K (Value.Within K)
  | [] => .throwType _
  | name :: rest => by
    refine .bind (hm.get hr) fun f hf => .bind (.isCallable f) fun _ _ => .ite ?_ ?_
    · refine .bind (.holding (hm.call hf hr .nil)) fun v hv => ?_
      cases v with
      | object q => exact askMethods hm hr rest
      | _ => exact .pure trivial
    · exact askMethods hm hr rest

theorem ordinaryPrimitive (hm : m.Stays K) {hint : Hint} (hr : K r) :
    (m.ordinaryPrimitive r hint).Stays K (Value.Within K) := by
  refine .bind .activation fun act _ => .ite (.pure ?_) (.converting (hm.askMethods hr _))
  split <;> trivial

/-- **Converting to a primitive.** -/
theorem toPrimitive (hm : m.Stays K) {hint : Hint} (hv : v.Within K) :
    (m.toPrimitive v hint).Stays K (Value.Within K) := by
  cases v with
  | object r =>
    refine .bind (hm.getMethod hv) fun f hf => ?_
    cases f with
    | none => exact hm.ordinaryPrimitive hv
    | some f =>
      refine .bind (.holding (hm.call hf.get hv (.one trivial))) fun p hp => ?_
      cases p with
      | object q => exact .throwType _
      | _ => exact .pure trivial
  | _ => exact .pure hv

theorem toNumber (hm : m.Stays K) (hv : v.Within K) : (m.toNumber v).Stays K fun _ => True :=
  .bind (hm.toPrimitive hv) fun p _ => Stays.primitiveNumber p

theorem toNumeric (hm : m.Stays K) (hv : v.Within K) :
    (m.toNumeric v).Stays K (Value.Within K) := by
  refine .bind (hm.toPrimitive hv) fun p _ => ?_
  cases p with
  | bigint n => exact .pure trivial
  | _ => exact .bind (Stays.primitiveNumber _) fun _ _ => .pure trivial

theorem toText (hm : m.Stays K) (hv : v.Within K) : (m.toText v).Stays K fun _ => True :=
  .bind (hm.toPrimitive hv) fun p _ => Stays.primitiveText p

theorem toKey (hm : m.Stays K) (hv : v.Within K) : (m.toKey v).Stays K fun _ => True := by
  refine .bind (hm.toPrimitive hv) fun p _ => ?_
  cases p with
  | symbol s => exact .pure trivial
  | number x => exact .pure trivial
  | _ => exact .bind (Stays.primitiveText _) fun _ _ => .pure trivial

theorem toExtent (hm : m.Stays K) (hv : v.Within K) : (m.toExtent v).Stays K fun _ => True :=
  .bind (hm.toNumber hv) fun _ _ => .pure trivial

theorem toLength (hm : m.Stays K) (hv : v.Within K) : (m.toLength v).Stays K fun _ => True :=
  .bind (hm.toExtent hv) fun _ _ => .pure trivial

theorem lengthOf (hm : m.Stays K) (hr : K r) : (m.lengthOf r).Stays K fun _ => True := by
  refine .bind (.readObject r) fun o _ => ?_
  split
  · exact .pure trivial
  · exact .bind (hm.get hr) fun _ hn => hm.toLength hn

/-- Storing, creating and deleting, where a refusal is an error. -/
theorem put (hm : m.Stays K) (hr : K r) (hv : v.Within K) :
    (m.put r k v).Stays K fun _ => True :=
  .bind (hm.set hr hv) fun _ _ => .unless (.throwType _)

theorem defineOrThrow (hm : m.Stays K) {d : Descriptor} (hd : d.Within K) :
    (m.defineOrThrow r k d).Stays K fun _ => True :=
  .bind (hm.define hd) fun _ _ => .unless (.throwType _)

theorem createOrThrow (hm : m.Stays K) (hv : v.Within K) :
    (m.createOrThrow r k v).Stays K fun _ => True :=
  .bind (hm.define (Slot.Within.toDescriptor hv)) fun _ _ => .unless (.throwType _)

theorem deleteOrThrow (hm : m.Stays K) :
    (m.deleteOrThrow r k).Stays K fun _ => True :=
  .bind hm.delete fun _ _ => .ite (.pure trivial) .throwType_bind

theorem listOf (hm : m.Stays K) (hr : K r) : (m.listOf r).Stays K (ValuesWithin K) :=
  .bind (hm.lengthOf hr) fun _ _ =>
    .mapList (A := fun _ => True) (fun _ _ => hm.get hr) fun _ _ => trivial

theorem looseEquals (hm : m.Stays K) (hv : v.Within K) (hw : w.Within K) :
    (m.looseEquals v w).Stays K fun _ => True := by
  unfold Machine.looseEquals
  split
  · exact .pure trivial
  · exact .ite (.pure trivial) (.bind (hm.toPrimitive hv) fun _ _ => .pure trivial)
  · exact .ite (.pure trivial) (.bind (hm.toPrimitive hw) fun _ _ => .pure trivial)
  · exact .pure trivial

end Stays

end Machine

end ScriptBoundary.Script
