import ScriptBoundary.Proofs.Enclosure.Builtin.Arrays
import ScriptBoundary.Script.Builtin.Collections

/-!
# Maps, sets, proxies and reflection stay inside

The entries of a map or a set are found in the heap. What is entered is an argument of the call.
-/

namespace ScriptBoundary.Script

open ScriptBoundary.Script.Comp

variable {K : Ref → Prop} {m : Machine} {c : BuiltinCall} {r : Ref} {v : Value}

namespace Builtin

/-- The entries of a map. -/
def EntriesWithin (K : Ref → Prop) (es : Array (Option (Value × Value))) : Prop :=
  ∀ e ∈ es, ∀ p ∈ e, p.1.Within K ∧ p.2.Within K

/-- The members of a set. -/
def MembersWithin (K : Ref → Prop) (es : Array (Option Value)) : Prop :=
  ∀ e ∈ es, ∀ v ∈ e, v.Within K

theorem within_normalKey (hv : v.Within K) : (normalKey v).Within K := by
  cases v with
  | object r => exact hv
  | _ => trivial

end Builtin

namespace BuiltinCall.Within

open Builtin

theorem thisMap (hc : c.Within K) :
    (Builtin.thisMap c).Stays K fun p => K p.1 ∧ EntriesWithin K p.2 := by
  refine .bind thisNature fun n hn => ?_
  split
  · next r entries hr => exact .pure ⟨hc.thisObject hr, hn⟩
  · exact .throwType _

theorem thisSet (hc : c.Within K) :
    (Builtin.thisSet c).Stays K fun p => K p.1 ∧ MembersWithin K p.2 := by
  refine .bind thisNature fun n hn => ?_
  split
  · next r entries hr => exact .pure ⟨hc.thisObject hr, hn⟩
  · exact .throwType _

end BuiltinCall.Within

namespace Builtin

theorem stays_collection {self proto : Intrinsic} {name adder : String} {nature : Nature}
    {pairs : Bool} (ht : nature.tied = []) (hn : nature.Within K) :
    (collection self proto name adder nature pairs).Stays K := by
  intro m c hm hc
  refine .ite (.throwType _) <| .bind (hc.make hm ht hn) fun v hv => .ite (.pure hv) <|
    .bind (hm.getOf hv) fun add hadd => .bind (.requireCallable _) fun _ _ =>
    .bind (.keeping (hm.listOfIterable (hc.arg 0))) fun items hitems =>
    .bind (.forList (fun item hitem => ?_) hitems) fun _ _ => .pure hv
  exact .ite (.bind (hm.getOf hitem) fun _ hk => .bind (hm.getOf hitem) fun _ hx =>
      .bind (hm.call hadd hv (.cons hk (.one hx))) fun _ _ => .pure trivial)
    (.bind (hm.call hadd hv (.one hitem)) fun _ _ => .pure trivial)

/-- **Every function of maps and sets.** -/
theorem stays_collections : collections.Forall (Builtin.Stays K) := by
  have hnone : ∀ e ∈ (#[] : Array (Option (Value × Value))), ∀ p ∈ e,
      p.1.Within K ∧ p.2.Within K := fun _ he => nomatch Array.not_mem_empty _ he
  have hnone' : ∀ e ∈ (#[] : Array (Option Value)), ∀ v ∈ e, v.Within K :=
    fun _ he => nomatch Array.not_mem_empty _ he
  refine ⟨stays_collection rfl hnone, stays_collection rfl hnone', stays_collection rfl hnone,
    stays_collection rfl hnone', ?mapGet, ?mapHas, ?mapSet, ?mapDelete, ?mapClear, ?mapForEach,
    ?mapSize, ?mapEntries, ?mapKeys, ?mapValues, ?mapIterator, ?setAdd, ?setHas, ?setDelete,
    ?setClear, ?setForEach, ?setSize, ?setValues, ?setIterator⟩
  all_goals intro m c hm hc
  case mapGet =>
    refine .bind hc.thisMap fun p hp => .pure ?_
    obtain ⟨r, es⟩ := p
    cases hfound : ((mapIndex? es (c.arg 0)).bind fun i => es[i]?).join with
    | none => trivial
    | some e =>
      obtain ⟨i, -, hi⟩ := Option.bind_eq_some_iff.mp (Option.join_eq_some_iff.mp hfound)
      exact (hp.2 _ (Array.mem_of_getElem? hi) e rfl).2
  case mapHas => exact .bind hc.thisMap fun _ _ => .pure trivial
  case mapSet =>
    refine .bind hc.thisMap fun p hp => .bind (.performOnly rfl ?_) fun _ _ => .pure hc.this
    have hentry : ∀ q ∈ some (normalKey (c.arg 0), c.arg 1), q.1.Within K ∧ q.2.Within K :=
      fun q hq => Option.some.inj hq ▸ ⟨within_normalKey (hc.arg 0), hc.arg 1⟩
    show EntriesWithin K _
    split
    · exact forall_mem_setIfInBounds hp.2 hentry
    · exact Array.forall_mem_push.mpr ⟨hentry, hp.2⟩
  case mapDelete =>
    refine .bind hc.thisMap fun p hp => ?_
    dsimp only
    split
    · exact .bind (.performOnly rfl (forall_mem_setIfInBounds hp.2 fun _ h => nomatch h)) fun _ _ =>
        .pure trivial
    · exact .pure trivial
  case mapClear =>
    refine .bind hc.thisMap fun p _ =>
      .bind (.performOnly rfl fun e he => ?_) fun _ _ => .pure trivial
    obtain ⟨_, -, rfl⟩ := Array.mem_map.mp he
    exact fun _ h => nomatch h
  case mapForEach =>
    refine .bind hc.thisMap fun p hp => .bind (.requireCallable _) fun _ _ =>
      .bind (.forList (A := fun e => e.1.Within K ∧ e.2.Within K) (fun e he => ?_) fun e he => ?_)
      fun _ _ => .pure trivial
    · exact .bind (hm.call (hc.arg 0) (hc.arg 1) (.cons he.2 (.cons he.1
        (.one (v := .object p.1) hp.1)))) fun _ _ => .pure trivial
    · obtain ⟨o, ho, rfl⟩ := List.mem_filterMap.mp he
      exact hp.2 _ (Array.mem_toList_iff.mp ho) e rfl
  case mapSize => exact .bind hc.thisMap fun _ _ => .pure trivial
  case mapEntries => exact .bind hc.thisMap fun _ _ => .newListIterator hc.this
  case mapKeys => exact .bind hc.thisMap fun _ _ => .newListIterator hc.this
  case mapValues => exact .bind hc.thisMap fun _ _ => .newListIterator hc.this
  case mapIterator => exact .bind hc.thisMap fun _ _ => .newListIterator hc.this
  case setAdd =>
    refine .bind hc.thisSet fun p hp => ?_
    dsimp only
    split
    · exact .pure hc.this
    · refine .bind (.performOnly rfl (Array.forall_mem_push.mpr ⟨fun v hv => ?_, hp.2⟩)) fun _ _ =>
        .pure hc.this
      exact Option.some.inj hv ▸ within_normalKey (hc.arg 0)
  case setHas => exact .bind hc.thisSet fun _ _ => .pure trivial
  case setDelete =>
    refine .bind hc.thisSet fun p hp => ?_
    dsimp only
    split
    · exact .bind (.performOnly rfl (forall_mem_setIfInBounds hp.2 fun _ h => nomatch h)) fun _ _ =>
        .pure trivial
    · exact .pure trivial
  case setClear =>
    refine .bind hc.thisSet fun p _ =>
      .bind (.performOnly rfl fun e he => ?_) fun _ _ => .pure trivial
    obtain ⟨_, -, rfl⟩ := Array.mem_map.mp he
    exact fun _ h => nomatch h
  case setForEach =>
    refine .bind hc.thisSet fun p hp => .bind (.requireCallable _) fun _ _ =>
      .bind (.forList (A := Value.Within K) (fun v hv => ?_) fun v hv => ?_)
      fun _ _ => .pure trivial
    · exact .bind (hm.call (hc.arg 0) (hc.arg 1) (.cons hv (.cons hv
        (.one (v := .object p.1) hp.1)))) fun _ _ => .pure trivial
    · obtain ⟨o, ho, rfl⟩ := List.mem_filterMap.mp hv
      exact hp.2 _ (Array.mem_toList_iff.mp ho) v rfl
  case setSize => exact .bind hc.thisSet fun _ _ => .pure trivial
  case setValues => exact .bind hc.thisSet fun _ _ => .newListIterator hc.this
  case setIterator => exact .bind hc.thisSet fun _ _ => .newListIterator hc.this

theorem stays_targetOf (hv : v.Within K) : (targetOf v).Stays K K := by
  cases v with
  | object r => exact .pure hv
  | _ => exact .throwType _

/-- **Every function of proxies and of reflection.** -/
theorem stays_reflection : reflection.Forall (Builtin.Stays K) := by
  refine ⟨?proxy, ?apply, ?construct, ?defineProperty, ?deleteProperty, ?get,
    ?getOwnPropertyDescriptor, ?getPrototypeOf, ?has, ?isExtensible, ?ownKeys, ?preventExtensions,
    ?set, ?setPrototypeOf⟩
  all_goals intro m c hm hc
  case proxy =>
    refine .ite (.throwType _) ?_
    split
    · next target handler ht hh =>
      refine .bind (.readObject target) fun o _ => .bind (.intrinsic _) fun _ hp =>
        .bind (.newObjectOf rfl (?_ : (Nature.proxy (some (target, handler)) _ _).Within K) hp
          .empty) fun _ hr => .pure hr
      exact fun p hp => Option.some.inj hp ▸ ⟨hc.object ht, hc.object hh⟩
    · exact .throwType _
    · exact .throwType _
  case apply =>
    refine .bind (.requireCallable _) fun _ _ => ?_
    split
    · next r hr =>
      exact .bind (hm.listOf (hc.object hr)) fun _ hvs => hm.call (hc.arg 0) (hc.arg 1) hvs
    · exact .throwType _
  case construct =>
    dsimp only [method]
    split
    · next f list hf hlist =>
      refine .bind (.isConstructor _) fun _ _ => .ite (.throwType _) <|
        .bind (.isConstructor _) fun _ _ => .ite (.throwType _) <|
        .bind (hm.listOf (hc.object hlist)) fun _ hvs => hm.construct (hc.object hf) hvs ?_
      have htarget : (if c.args.length < 3 then c.arg 0 else c.arg 2).Within K := by
        split
        · exact hc.arg 0
        · exact hc.arg 2
      revert htarget
      cases (if c.args.length < 3 then c.arg 0 else c.arg 2) with
      | object t => exact id
      | _ => exact fun _ => hc.object hf
    · exact .throwType _
  case defineProperty =>
    exact .bind (stays_targetOf (hc.arg 0)) fun _ _ => .bind (hm.toKey (hc.arg 1)) fun _ _ =>
      .bind (.descriptorOf hm (hc.arg 2)) fun _ hd => .bind (hm.define hd) fun _ _ => .pure trivial
  case deleteProperty =>
    exact .bind (stays_targetOf (hc.arg 0)) fun _ _ => .bind (hm.toKey (hc.arg 1)) fun _ _ =>
      .bind hm.delete fun _ _ => .pure trivial
  case get =>
    refine .bind (stays_targetOf (hc.arg 0)) fun _ _ => .bind (hm.toKey (hc.arg 1)) fun _ _ =>
      hm.getFor ?_
    split
    · exact hc.arg 0
    · exact hc.arg 2
  case getOwnPropertyDescriptor =>
    refine .bind (stays_targetOf (hc.arg 0)) fun _ _ => .bind (hm.toKey (hc.arg 1)) fun _ _ =>
      .bind hm.getOwn fun s hs => ?_
    cases s with
    | none => exact .pure trivial
    | some s => exact .describe (hs s rfl)
  case getPrototypeOf =>
    exact .bind (stays_targetOf (hc.arg 0)) fun _ _ => .bind hm.protoOf fun _ hp =>
      .pure (within_protoValue hp)
  case has =>
    exact .bind (stays_targetOf (hc.arg 0)) fun _ _ => .bind (hm.toKey (hc.arg 1)) fun _ _ =>
      .bind hm.has fun _ _ => .pure trivial
  case isExtensible =>
    exact .bind (stays_targetOf (hc.arg 0)) fun _ _ => .bind hm.isExtensible fun _ _ =>
      .pure trivial
  case ownKeys =>
    exact .bind (stays_targetOf (hc.arg 0)) fun _ _ => .bind hm.ownKeys fun ks _ =>
      .bind (.newArray (.map Key.within_toValue ks)) fun _ hr => .pure hr
  case preventExtensions =>
    exact .bind (stays_targetOf (hc.arg 0)) fun _ _ => .bind hm.preventExtensions fun _ _ =>
      .pure trivial
  case set =>
    refine .bind (stays_targetOf (hc.arg 0)) fun _ _ => .bind (hm.toKey (hc.arg 1)) fun _ _ =>
      .bind (hm.setFor (hc.arg 2) ?_) fun _ _ => .pure trivial
    split
    · exact hc.arg 0
    · exact hc.arg 3
  case setPrototypeOf =>
    refine .bind (stays_targetOf (hc.arg 0)) fun _ _ => ?_
    split
    · next p hp =>
      exact .bind (hm.setProtoOf (within_protoArgument? (hc.arg 1) p hp)) fun _ _ => .pure trivial
    · exact .throwType _

end Builtin

end ScriptBoundary.Script
