import ScriptBoundary.Proofs.Enclosure.Builtin.Basic
import ScriptBoundary.Script.Builtin.Objects

/-!
# The functions of objects stay inside
-/

namespace ScriptBoundary.Script

open ScriptBoundary.Script.Comp

variable {K : Ref → Prop} {m : Machine} {r : Ref} {v : Value}

namespace Builtin

/-- An argument as a prototype. -/
theorem within_protoArgument? (hv : v.Within K) : ∀ p ∈ protoArgument? v, ∀ q ∈ p, K q := by
  cases v with
  | object r =>
    intro p hp q hq
    obtain rfl := Option.some.inj hp
    exact Option.some.inj hq ▸ hv
  | null =>
    intro p hp q hq
    obtain rfl := Option.some.inj hp
    cases hq
  | _ => exact fun _ hp => nomatch hp

end Builtin

namespace Comp

open Builtin

theorem Stays.classWord : (Builtin.classWord r).Stays K fun _ => True :=
  .bind (.isArray _) fun _ _ => .ite (.pure trivial) <| .bind (.readObject r) fun _ _ =>
    .pure trivial

end Comp

namespace Machine.Stays

theorem describeObject (hm : m.Stays K) (hv : v.Within K) :
    (Builtin.describeObject m v).Stays K (Value.Within K) := by
  unfold Builtin.describeObject
  split
  · exact .pure trivial
  · exact .pure trivial
  · refine .bind (.toObject hv) fun r hr => .bind .classWord fun _ _ =>
      .bind (hm.get hr) fun t _ => ?_
    cases t with
    | text t => exact .pure trivial
    | _ => exact .pure trivial

/-- The names of an object come with the object. -/
theorem ownNames {enumerableOnly : Bool} (hm : m.Stays K) (hv : v.Within K) :
    (Builtin.ownNames m v enumerableOnly).Stays K fun ns => ∀ n ∈ ns, K n.1 := by
  refine .bind (.toObject hv) fun r hr => .bind hm.ownKeys fun ks _ => ?_
  have hnames : ∀ n ∈ ks.filterMap (fun k => k.text?.map fun t => (r, k, t)), K n.1 := by
    intro n hn
    obtain ⟨k, -, hk⟩ := List.mem_filterMap.mp hn
    obtain ⟨t, -, rfl⟩ := Option.map_eq_some_iff.mp hk
    exact hr
  refine .ite (.pure hnames) (.foldList (A := fun n => K n.1) (fun out n hout hn => ?_)
    (fun _ h => nomatch h) hnames)
  refine .bind hm.getOwn fun s _ => ?_
  cases s with
  | none => exact .pure hout
  | some s =>
    refine .pure ?_
    split
    · exact List.forall_mem_append.mpr ⟨hout, List.forall_mem_singleton.mpr hn⟩
    · exact hout

theorem defineAll (hm : m.Stays K) (hv : v.Within K) :
    (Builtin.defineAll m r v).Stays K fun _ => True := by
  refine .bind (.toObject hv) fun p hp => .bind hm.ownKeys fun ks _ =>
    .bind (.foldList (A := fun _ => True) (R := fun ds => ∀ d ∈ ds, d.2.Within K)
      (fun out k hout _ => ?_) (fun _ h => nomatch h) fun _ _ => trivial) fun ds hds =>
    .forList (A := fun d => d.2.Within K) (fun d hd => hm.defineOrThrow hd) hds
  refine .bind hm.getOwn fun s _ => ?_
  cases s with
  | none => exact .pure hout
  | some s =>
    refine .ite (.bind (hm.get hp) fun _ hw => .bind (.descriptorOf hm hw) fun _ hd => .pure ?_)
      (.pure hout)
    exact List.forall_mem_append.mpr ⟨hout, List.forall_mem_singleton.mpr hd⟩

theorem setIntegrity {frozen : Bool} (hm : m.Stays K) :
    (Builtin.setIntegrity m r frozen).Stays K fun _ => True := by
  refine .bind hm.preventExtensions fun _ _ => .ite (.pure trivial) <| .bind hm.ownKeys fun ks _ =>
    .bind (.forList (A := fun _ => True) (fun k _ => ?_) fun _ _ => trivial)
    fun _ _ => .pure trivial
  refine .bind hm.getOwn fun s _ => ?_
  cases s with
  | none => exact .pure trivial
  | some s =>
    refine hm.defineOrThrow ?_
    split
    · exact ⟨.absent, .absent, .absent⟩
    · exact ⟨.absent, .absent, .absent⟩

theorem hasIntegrity {frozen : Bool} (hm : m.Stays K) :
    (Builtin.hasIntegrity m r frozen).Stays K fun _ => True := by
  refine .bind hm.isExtensible fun _ _ => .ite (.pure trivial) <| .bind hm.ownKeys fun ks _ =>
    .foldList (A := fun _ => True) (fun ok k _ _ => ?_) trivial fun _ _ => trivial
  refine .bind hm.getOwn fun s _ => ?_
  cases s with
  | none => exact .pure trivial
  | some s => exact .pure trivial

theorem assignAll {sources : List Value} (hm : m.Stays K) (hr : K r)
    (hs : ValuesWithin K sources) : (Builtin.assignAll m r sources).Stays K fun _ => True := by
  refine .forList (A := Value.Within K) (fun source hsource => ?_) hs
  refine .ite (.pure trivial) <| .bind (.toObject hsource) fun p hp => .bind hm.ownKeys fun ks _ =>
    .forList (A := fun _ => True) (fun k _ => ?_) fun _ _ => trivial
  refine .bind hm.getOwn fun s _ => ?_
  cases s with
  | none => exact .pure trivial
  | some s => exact .when (.bind (hm.get hp) fun _ hv => hm.put hr hv)

end Machine.Stays

namespace Builtin

/-- **Every function of objects.** -/
theorem stays_objects : objects.Forall (Builtin.Stays K) := by
  refine ⟨?object, ?create, ?getPrototypeOf, ?setPrototypeOf, ?getOwnPropertyDescriptor,
    ?getOwnPropertyDescriptors, ?getOwnPropertyNames, ?getOwnPropertySymbols, ?keys, ?values,
    ?entries, ?assign, ?defineProperty, ?defineProperties, ?freeze, ?sealing, ?preventExtensions,
    ?isFrozen, ?isSealed, ?isExtensible, ?is, ?fromEntries, ?hasOwn, ?hasOwnProperty,
    ?isPrototypeOf, ?propertyIsEnumerable, ?toLocaleString, ?toString, ?valueOf, ?getProto,
    ?setProto⟩
  all_goals intro m c hm hc
  case object =>
    exact .ite (hc.make hm rfl trivial) <| .ite (.bind .newPlain fun _ hr => .pure hr) <|
      .bind (.toObject (hc.arg 0)) fun _ hr => .pure hr
  case create =>
    dsimp only [method]
    split
    · exact .throwType _
    · next p hp =>
      exact .bind (.newObject rfl trivial (within_protoArgument? (hc.arg 0) p hp) .empty)
        fun _ hr => .firstUnless (hm.defineAll (hc.arg 1)) fun _ => .pure hr
  case getPrototypeOf =>
    exact .bind (.toObject (hc.arg 0)) fun _ _ => .bind hm.protoOf fun _ hp =>
      .pure (within_protoValue hp)
  case setPrototypeOf =>
    dsimp only [method]
    split
    · exact .throwType _
    · next p r hp _ =>
      exact .bind (hm.setProtoOf (within_protoArgument? (hc.arg 1) p hp)) fun _ _ =>
        .ite (.pure (hc.arg 0)) (.throwType _)
    · exact .ite (.throwType _) (.pure (hc.arg 0))
  case getOwnPropertyDescriptor =>
    refine .bind (.toObject (hc.arg 0)) fun _ _ => .bind (hm.toKey (hc.arg 1)) fun _ _ =>
      .bind hm.getOwn fun s hs => ?_
    cases s with
    | none => exact .pure trivial
    | some s => exact .describe (hs s rfl)
  case getOwnPropertyDescriptors =>
    refine .bind (.toObject (hc.arg 0)) fun _ _ => .bind .newPlain fun _ hout =>
      .bind hm.ownKeys fun _ _ => .bind (.forList (A := fun _ => True) (fun k _ => ?_)
        fun _ _ => trivial) fun _ _ => .pure hout
    refine .bind hm.getOwn fun s hs => ?_
    cases s with
    | none => exact .pure trivial
    | some s => exact .bind (.describe (hs s rfl)) fun _ hv => hm.createOrThrow hv
  case getOwnPropertyNames =>
    refine .bind (hm.ownNames (hc.arg 0)) fun ns _ => .bind (.newArray ?_) fun _ hr => .pure hr
    exact .map (f := fun n => .text n.2.2) (fun _ => trivial) ns
  case getOwnPropertySymbols =>
    refine .bind (.toObject (hc.arg 0)) fun _ _ => .bind hm.ownKeys fun ks _ =>
      .bind (.newArray fun v hv => ?_) fun _ hr => .pure hr
    obtain ⟨k, -, hk⟩ := List.mem_filterMap.mp hv
    split at hk
    · exact Option.some.inj hk ▸ trivial
    · cases hk
  case keys =>
    refine .bind (hm.ownNames (hc.arg 0)) fun ns _ => .bind (.newArray ?_) fun _ hr => .pure hr
    exact .map (f := fun n => .text n.2.2) (fun _ => trivial) ns
  case values =>
    exact .bind (hm.ownNames (hc.arg 0)) fun _ hns =>
      .bind (.mapList (fun _ hn => hm.get hn) hns) fun _ hvs =>
      .bind (.newArray hvs) fun _ hr => .pure hr
  case entries =>
    refine .bind (hm.ownNames (hc.arg 0)) fun _ hns =>
      .bind (.mapList (R := Value.Within K) (fun n hn => ?_) hns) fun _ hvs =>
      .bind (.newArray hvs) fun _ hr => .pure hr
    exact .bind (hm.get hn) fun _ hv => .bind (.newArray (.cons trivial (.one hv))) fun _ hr =>
      .pure hr
  case assign =>
    exact .bind (.toObject (hc.arg 0)) fun _ hr => .bind (hm.assignAll hr hc.args.tail) fun _ _ =>
      .pure hr
  case defineProperty =>
    dsimp only [method]
    split
    · exact .bind (hm.toKey (hc.arg 1)) fun _ _ => .bind (.descriptorOf hm (hc.arg 2)) fun _ hd =>
        .bind (hm.defineOrThrow hd) fun _ _ => .pure (hc.arg 0)
    · exact .throwType _
  case defineProperties =>
    dsimp only [method]
    split
    · exact .bind (hm.defineAll (hc.arg 1)) fun _ _ => .pure (hc.arg 0)
    · exact .throwType _
  case freeze =>
    dsimp only [method]
    split
    · exact .bind hm.setIntegrity fun _ _ => .ite (.pure (hc.arg 0)) (.throwType _)
    · exact .pure (hc.arg 0)
  case sealing =>
    dsimp only [method]
    split
    · exact .bind hm.setIntegrity fun _ _ => .ite (.pure (hc.arg 0)) (.throwType _)
    · exact .pure (hc.arg 0)
  case preventExtensions =>
    dsimp only [method]
    split
    · exact .bind hm.preventExtensions fun _ _ => .ite (.pure (hc.arg 0)) (.throwType _)
    · exact .pure (hc.arg 0)
  case isFrozen =>
    dsimp only [method]
    split
    · exact .bind hm.hasIntegrity fun _ _ => .pure trivial
    · exact .pure trivial
  case isSealed =>
    dsimp only [method]
    split
    · exact .bind hm.hasIntegrity fun _ _ => .pure trivial
    · exact .pure trivial
  case isExtensible =>
    dsimp only [method]
    split
    · exact .bind hm.isExtensible fun _ _ => .pure trivial
    · exact .pure trivial
  case is => exact .pure trivial
  case fromEntries =>
    refine .bind .newPlain fun _ hout => .bind (hm.listOfIterable (hc.arg 0)) fun _ hvs =>
      .bind (.forList (A := Value.Within K) (fun e he => ?_) hvs) fun _ _ => .pure hout
    exact .bind (hm.getOf he) fun _ hk => .bind (hm.toKey hk) fun _ _ =>
      .bind (hm.getOf he) fun _ hv => hm.createOrThrow hv
  case hasOwn =>
    exact .bind (.toObject (hc.arg 0)) fun _ _ => .bind (hm.toKey (hc.arg 1)) fun _ _ =>
      .bind hm.getOwn fun _ _ => .pure trivial
  case hasOwnProperty =>
    exact .bind (hm.toKey (hc.arg 0)) fun _ _ => .bind (.toObject hc.this) fun _ _ =>
      .bind hm.getOwn fun _ _ => .pure trivial
  case isPrototypeOf =>
    dsimp only [method]
    split
    · exact .bind (.toObject hc.this) fun _ _ =>
        .bind (P := fun _ => True) (.inspect fun _ _ => trivial) fun _ _ =>
        .bind (hm.inherits _ _ _) fun _ _ => .pure trivial
    · exact .pure trivial
  case propertyIsEnumerable =>
    exact .bind (hm.toKey (hc.arg 0)) fun _ _ => .bind (.toObject hc.this) fun _ _ =>
      .bind hm.getOwn fun _ _ => .pure trivial
  case toLocaleString => exact .bind (hm.getOf hc.this) fun _ hf => hm.call hf hc.this .nil
  case toString => exact hm.describeObject hc.this
  case valueOf => exact .bind (.toObject hc.this) fun _ hr => .pure hr
  case getProto =>
    exact .bind (.toObject hc.this) fun _ _ => .bind hm.protoOf fun _ hp =>
      .pure (within_protoValue hp)
  case setProto =>
    refine .ite (.throwType _) ?_
    split
    · next p r hp _ =>
      exact .bind (hm.setProtoOf (within_protoArgument? (hc.arg 0) p hp)) fun _ _ =>
        .ite (.pure trivial) (.throwType _)
    · exact .pure trivial

end Builtin

end ScriptBoundary.Script
