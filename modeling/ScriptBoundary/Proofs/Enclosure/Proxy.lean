import ScriptBoundary.Proofs.Enclosure.Property
import ScriptBoundary.Script.Proxy

/-!
# Proxies stay inside

Target and handler of a proxy are in the heap, so both are inside. What a trap answers is the value
of a call, and what is taken from it is taken from its properties.
-/

namespace ScriptBoundary.Script

variable {K : Ref → Prop} {m : Machine} {r : Ref} {k : Key} {v w : Value} {d : Descriptor}
  {s : Slot} {parts : Option (Ref × Ref)} {p : Option Ref}

theorem Key.within_toValue (k : Key) : k.toValue.Within K := by
  cases k <;> trivial

theorem within_protoValue (hp : ∀ q ∈ p, K q) : (protoValue p).Within K := by
  cases p with
  | none => trivial
  | some q => exact hp q rfl

/-- An outcome of the search for a trap: target, handler and trap are inside. -/
def TrapWithin (K : Ref → Prop) (t : Ref × Ref × Option Value) : Prop :=
  K t.1 ∧ K t.2.1 ∧ ValueWithin? K t.2.2

namespace Comp

/-- The object that describes a property. -/
theorem Stays.describe (hs : s.Within K) : (Script.describe s).Stays K (Value.Within K) := by
  obtain ⟨content, enumerable, configurable⟩ := s
  refine .bind (.intrinsic _) fun _ hp =>
    .bind (.newObjectOf rfl trivial hp (.ofList ?_)) fun _ hr => .pure hr
  refine List.forall_mem_append.mpr ⟨?_, List.forall_mem_cons.mpr
    ⟨trivial, List.forall_mem_singleton.mpr trivial⟩⟩
  cases content with
  | data v w => exact List.forall_mem_cons.mpr ⟨hs, List.forall_mem_singleton.mpr trivial⟩
  | accessor g t => exact List.forall_mem_cons.mpr ⟨hs.1, List.forall_mem_singleton.mpr hs.2⟩

/-- A part that may be missing as a property that may be missing. -/
theorem within_part {name : String} {o : Option Value} (ho : ValueWithin? K o) :
    ∀ q ∈ (o.map fun v => (Key.ofString name, Slot.plain v)).toList, q.2.Within K := fun q hq => by
  obtain ⟨v, hv', rfl⟩ := Option.map_eq_some_iff.mp (Option.mem_toList.mp hq)
  exact ho v hv'

theorem within_flag {name : String} (b : Option Bool) :
    ∀ q ∈ (b.map fun b => (Key.ofString name, Slot.plain (.boolean b))).toList, q.2.Within K :=
  fun q hq => by
    obtain ⟨b, -, rfl⟩ := Option.map_eq_some_iff.mp (Option.mem_toList.mp hq)
    trivial

theorem Stays.describePartly (hd : d.Within K) :
    (Script.describePartly d).Stays K (Value.Within K) := by
  refine .bind (.intrinsic _) fun _ hp =>
    .bind (.newObjectOf rfl trivial hp (.ofList ?_)) fun _ hr => .pure hr
  open List in
  exact forall_mem_append.mpr ⟨forall_mem_append.mpr ⟨forall_mem_append.mpr
    ⟨forall_mem_append.mpr ⟨forall_mem_append.mpr ⟨within_part hd.value, within_flag _⟩,
      within_part hd.get⟩, within_part hd.set⟩, within_flag _⟩, within_flag _⟩

/-- **Reading a descriptor** off an object. -/
theorem Stays.descriptorOf (hm : m.Stays K) (hv : v.Within K) :
    (Script.descriptorOf m v).Stays K (Descriptor.Within K) := by
  cases v with
  | object r =>
    have hpart : ∀ name : String, Comp.Stays K (do
        if ← m.has r (Key.ofString name) then return some (← m.get r (Key.ofString name))
        else return none) (ValueWithin? K) := fun name =>
      .bind hm.has fun _ _ => .ite (.bind (hm.get hv) fun _ hw => .pure (.present hw))
        (.pure .absent)
    refine .bind (hpart _) fun _ _ => .bind (hpart _) fun _ _ => .bind (hpart _) fun _ hvalue =>
      .bind (hpart _) fun _ _ => .bind (hpart _) fun _ hget =>
      .bind (P := fun _ => True) ?getter fun _ _ => .bind (hpart _) fun _ hset =>
      .bind (P := fun _ => True) ?setter fun _ _ =>
      .ite (.throwType _) (.pure ⟨hvalue, hget, hset⟩)
    all_goals
      dsimp only
      split
      · exact .pure trivial
      · exact .pure trivial
      · exact .bind (.isCallable _) fun _ _ => .unless (.throwType _)
  | _ => exact .throwType _

end Comp

namespace Machine

open ScriptBoundary.Script.Comp

/-- The keys that a trap lists. -/
theorem Stays.keysOfValues : ∀ vs, (Machine.keysOfValues vs).Stays K fun _ => True
  | [] => .pure trivial
  | v :: vs => by
    refine .bind (P := fun _ => True) ?_ fun _ _ => .bind (Stays.keysOfValues vs) fun _ _ =>
      .pure trivial
    cases v with
    | text t => exact .pure trivial
    | symbol s => exact .pure trivial
    | _ => exact .throwType _

namespace Stays

theorem trap {name : String} (hm : m.Stays K) (hp : ∀ p ∈ parts, K p.1 ∧ K p.2) :
    (m.trap parts name).Stays K (TrapWithin K) := by
  cases parts with
  | none => exact .throwType _
  | some p =>
    obtain ⟨htarget, hhandler⟩ := hp p rfl
    exact .bind (hm.getMethod (v := .object p.2) hhandler) fun _ hf =>
      .pure ⟨htarget, hhandler, hf⟩

/-- **Going on with the target or with the trap.** -/
theorem trapped {α : Type} {Q : α → Prop} {name : String} {g : Ref × Ref × Option Value → Comp α}
    (hm : m.Stays K) (hp : ∀ p ∈ parts, K p.1 ∧ K p.2)
    (hnone : ∀ target handler, K target → (g (target, handler, none)).Stays K Q)
    (hsome : ∀ target handler f, K target → K handler → f.Within K →
      (g (target, handler, some f)).Stays K Q) : (m.trap parts name >>= g).Stays K Q := by
  refine .bind (hm.trap hp) fun t ht => ?_
  obtain ⟨target, handler, f⟩ := t
  obtain ⟨htarget, hhandler, hf⟩ := ht
  cases f with
  | none => exact hnone target handler htarget
  | some f => exact hsome target handler f htarget hhandler hf.get

theorem callTrap {handler : Ref} {args : List Value} (hm : m.Stays K) (hv : v.Within K)
    (hr : K handler) (hargs : ValuesWithin K args) :
    (m.callTrap v handler args).Stays K (Value.Within K) := hm.call hv hr hargs

theorem proxyProtoOf (hm : m.Stays K) (hp : ∀ p ∈ parts, K p.1 ∧ K p.2) :
    (m.proxyProtoOf parts).Stays K fun p => ∀ q ∈ p, K q := by
  refine hm.trapped hp (fun _ _ _ => hm.protoOf) fun target handler f htarget hhandler hf => ?_
  refine .bind (hm.callTrap hf hhandler (.one htarget)) fun answer hanswer =>
    .bind (P := fun p => ∀ q ∈ p, K q) ?_ fun p hp => .bind hm.isExtensible fun _ _ =>
    .ite (.pure hp) <| .bind hm.protoOf fun _ _ => .ite (.pure hp) (.throwType _)
  cases answer with
  | object r => exact .pure fun _ hq => Option.some.inj hq ▸ hanswer
  | null => exact .pure fun _ hq => nomatch hq
  | _ => exact .throwType _

theorem proxySetProto (hm : m.Stays K) (hp : ∀ p ∈ parts, K p.1 ∧ K p.2) (hq : ∀ q ∈ p, K q) :
    (m.proxySetProto parts p).Stays K fun _ => True := by
  refine hm.trapped hp (fun _ _ _ => hm.setProtoOf hq)
    fun target handler f htarget hhandler hf => ?_
  exact .bind (hm.callTrap hf hhandler (.cons htarget (.one (within_protoValue hq))))
    fun _ _ => .ite (.pure trivial) <| .bind hm.isExtensible fun _ _ => .ite (.pure trivial) <|
    .bind hm.protoOf fun _ _ => .ite (.pure trivial) (.throwType _)

theorem proxyIsExtensible (hm : m.Stays K) (hp : ∀ p ∈ parts, K p.1 ∧ K p.2) :
    (m.proxyIsExtensible parts).Stays K fun _ => True := by
  refine hm.trapped hp (fun _ _ _ => hm.isExtensible) fun target handler f htarget hhandler hf => ?_
  exact .bind (hm.callTrap hf hhandler (.one htarget)) fun _ _ =>
    .bind hm.isExtensible fun _ _ => .ite (.pure trivial) (.throwType _)

theorem proxyPreventExtensions (hm : m.Stays K) (hp : ∀ p ∈ parts, K p.1 ∧ K p.2) :
    (m.proxyPreventExtensions parts).Stays K fun _ => True := by
  refine hm.trapped hp (fun _ _ _ => hm.preventExtensions)
    fun target handler f htarget hhandler hf => ?_
  exact .bind (hm.callTrap hf hhandler (.one htarget)) fun _ _ =>
    .bind hm.isExtensible fun _ _ => .ite (.throwType _) (.pure trivial)

theorem proxyGetOwn (hm : m.Stays K) (hp : ∀ p ∈ parts, K p.1 ∧ K p.2) :
    (m.proxyGetOwn parts k).Stays K fun s => ∀ t ∈ s, t.Within K := by
  have hnothing : ∀ t ∈ (none : Option Slot), t.Within K := fun _ ht => nomatch ht
  refine hm.trapped hp (fun _ _ _ => hm.getOwn) fun target handler f htarget hhandler hf => ?_
  refine .bind (hm.callTrap hf hhandler (.cons htarget (.one k.within_toValue)))
    fun answer hanswer => .bind hm.getOwn fun present _ => ?_
  cases answer with
  | undefined =>
    cases present with
    | none => exact .pure hnothing
    | some s =>
      exact .ite (.throwType _) <| .bind hm.isExtensible fun _ _ =>
        .ite (.pure hnothing) (.throwType _)
  | object r =>
    refine .bind hm.isExtensible fun _ _ => .bind (.descriptorOf hm hanswer) fun d hd =>
      .ite (.throwType _) ?_
    have hshown :
        (pure (some d.toSlot) : Comp (Option Slot)).Stays K fun s => ∀ t ∈ s, t.Within K :=
      .pure fun _ ht => Option.some.inj ht ▸ hd.toSlot
    refine .ite hshown ?_
    cases present with
    | none => exact .throwType _
    | some s => exact .ite (.throwType _) (.ite (.throwType _) hshown)
  | _ => exact .throwType _

theorem proxyDefine (hm : m.Stays K) (hp : ∀ p ∈ parts, K p.1 ∧ K p.2) (hd : d.Within K) :
    (m.proxyDefine parts k d).Stays K fun _ => True := by
  refine hm.trapped hp (fun _ _ _ => hm.define hd) fun target handler f htarget hhandler hf => ?_
  refine .bind (.describePartly hd) fun _ ho =>
    .bind (hm.callTrap hf hhandler (.cons htarget (.cons k.within_toValue (.one ho))))
    fun _ _ => .ite (.pure trivial) <| .bind hm.getOwn fun present _ =>
    .bind hm.isExtensible fun _ _ => ?_
  cases present with
  | none => exact .ite (.throwType _) (.pure trivial)
  | some s => exact .ite (.throwType _) (.pure trivial)

theorem proxyHas (hm : m.Stays K) (hp : ∀ p ∈ parts, K p.1 ∧ K p.2) :
    (m.proxyHas parts k).Stays K fun _ => True := by
  refine hm.trapped hp (fun _ _ _ => hm.has) fun target handler f htarget hhandler hf => ?_
  refine .bind (hm.callTrap hf hhandler (.cons htarget (.one k.within_toValue)))
    fun _ _ => .ite (.pure trivial) <| .bind hm.getOwn fun present _ => ?_
  cases present with
  | none => exact .pure trivial
  | some s =>
    exact .ite (.throwType _) <| .bind hm.isExtensible fun _ _ =>
      .ite (.pure trivial) (.throwType _)

theorem proxyGet (hm : m.Stays K) (hp : ∀ p ∈ parts, K p.1 ∧ K p.2) (hv : v.Within K) :
    (m.proxyGet parts k v).Stays K (Value.Within K) := by
  refine hm.trapped hp (fun _ _ _ => hm.getFor hv) fun target handler f htarget hhandler hf => ?_
  refine .bind (hm.callTrap hf hhandler (.cons htarget (.cons k.within_toValue (.one hv))))
    fun _ hanswer => .bind hm.getOwn fun _ _ => ?_
  split
  · exact .ite (.pure hanswer) (.throwType _)
  · exact .ite (.pure hanswer) (.throwType _)
  · exact .pure hanswer

theorem proxySet (hm : m.Stays K) (hp : ∀ p ∈ parts, K p.1 ∧ K p.2) (hv : v.Within K)
    (hw : w.Within K) : (m.proxySet parts k v w).Stays K fun _ => True := by
  refine hm.trapped hp (fun _ _ _ => hm.setFor hv hw) fun target handler f htarget hhandler hf => ?_
  have hargs := ValuesWithin.cons (v := .object target) htarget
    (.cons k.within_toValue (.cons hv (.one hw)))
  refine .bind (hm.callTrap hf hhandler hargs) fun _ _ => .ite (.pure trivial) <|
    .bind hm.getOwn fun _ _ => ?_
  split
  · exact .ite (.pure trivial) (.throwType _)
  · exact .throwType _
  · exact .pure trivial

theorem proxyDelete (hm : m.Stays K) (hp : ∀ p ∈ parts, K p.1 ∧ K p.2) :
    (m.proxyDelete parts k).Stays K fun _ => True := by
  refine hm.trapped hp (fun _ _ _ => hm.delete) fun target handler f htarget hhandler hf => ?_
  refine .bind (hm.callTrap hf hhandler (.cons htarget (.one k.within_toValue)))
    fun _ _ => .ite (.pure trivial) <| .bind hm.getOwn fun present _ => ?_
  cases present with
  | none => exact .pure trivial
  | some s =>
    exact .ite (.throwType _) <| .bind hm.isExtensible fun _ _ =>
      .ite (.pure trivial) (.throwType _)

theorem proxyOwnKeys (hm : m.Stays K) (hp : ∀ p ∈ parts, K p.1 ∧ K p.2) :
    (m.proxyOwnKeys parts).Stays K fun _ => True := by
  refine hm.trapped hp (fun _ _ _ => hm.ownKeys) fun target handler f htarget hhandler hf => ?_
  refine .bind (hm.callTrap hf hhandler (.one htarget)) fun answer hanswer =>
    .bind (P := fun _ => True) ?_ fun _ _ => .ite (.throwType _) <|
    .bind hm.isExtensible fun _ _ => .bind hm.ownKeys fun _ _ =>
    .bind (.foldList (A := fun _ => True) (R := fun _ => True) (fun out _ _ _ => ?_) trivial
      fun _ _ => trivial) fun _ _ =>
    .ite (.pure trivial) <| .ite (.throwType _) <| .ite (.pure trivial) <|
    .ite (.pure trivial) (.throwType _)
  · cases answer with
    | object r => exact .bind (hm.listOf hanswer) fun vs _ => Stays.keysOfValues vs
    | _ => exact .throwType _
  · refine .bind hm.getOwn fun s _ => ?_
    cases s with
    | none => exact .pure trivial
    | some s => exact .pure trivial

end Stays

/-! ## The internal methods of any object -/

theorem Stays.onProxy {α : Type} {Q : α → Prop} {proxy : Option (Ref × Ref) → Comp α}
    {ordinary : Comp α} (hproxy : ∀ parts, (∀ p ∈ parts, K p.1 ∧ K p.2) → (proxy parts).Stays K Q)
    (hordinary : ordinary.Stays K Q) : (Machine.onProxy r proxy ordinary).Stays K Q := by
  refine .bind (.readObject r) fun o ho => ?_
  cases hn : o.nature with
  | proxy parts callable constructs =>
    have hparts := ho.nature
    rw [hn] at hparts
    exact hproxy parts hparts
  | _ => exact hordinary

namespace Stays

theorem getOwnTask (hm : m.Stays K) :
    (m.getOwnTask r k).Stays K fun s => ∀ t ∈ s, t.Within K :=
  Stays.onProxy (fun _ hp => hm.proxyGetOwn hp) .ownSlot

theorem defineTask (hm : m.Stays K) (hd : d.Within K) :
    (m.defineTask r k d).Stays K fun _ => True :=
  Stays.onProxy (fun _ hp => hm.proxyDefine hp hd) (hm.defineOwn hd)

theorem hasTask (hm : m.Stays K) : (m.hasTask r k).Stays K fun _ => True :=
  Stays.onProxy (fun _ hp => hm.proxyHas hp) hm.hasIn

theorem getTask (hm : m.Stays K) (hv : v.Within K) :
    (m.getTask r k v).Stays K (Value.Within K) :=
  Stays.onProxy (fun _ hp => hm.proxyGet hp hv) (hm.getFrom hv)

theorem setTask (hm : m.Stays K) (hv : v.Within K) (hw : w.Within K) :
    (m.setTask r k v w).Stays K fun _ => True :=
  Stays.onProxy (fun _ hp => hm.proxySet hp hv hw) (hm.setIn hv hw)

theorem deleteTask (hm : m.Stays K) : (m.deleteTask r k).Stays K fun _ => True :=
  Stays.onProxy (fun _ hp => hm.proxyDelete hp) .deleteFrom

theorem ownKeysTask (hm : m.Stays K) : (m.ownKeysTask r).Stays K fun _ => True :=
  Stays.onProxy (fun _ hp => hm.proxyOwnKeys hp) .ownKeysOf

theorem protoOfTask (hm : m.Stays K) : (m.protoOfTask r).Stays K fun p => ∀ q ∈ p, K q :=
  Stays.onProxy (fun _ hp => hm.proxyProtoOf hp) <|
    .bind (.readObject r) fun _ ho => .pure ho.proto

theorem setProtoOfTask (hm : m.Stays K) (hp : ∀ q ∈ p, K q) :
    (m.setProtoOfTask r p).Stays K fun _ => True :=
  Stays.onProxy (fun _ hparts => hm.proxySetProto hparts hp) (.changeProto hp)

theorem isExtensibleTask (hm : m.Stays K) : (m.isExtensibleTask r).Stays K fun _ => True :=
  Stays.onProxy (fun _ hp => hm.proxyIsExtensible hp) <|
    .bind (.readObject r) fun _ _ => .pure trivial

theorem preventExtensionsTask (hm : m.Stays K) :
    (m.preventExtensionsTask r).Stays K fun _ => True :=
  Stays.onProxy (fun _ hp => hm.proxyPreventExtensions hp) <|
    .bind (.performOnly rfl trivial) fun _ _ => .pure trivial

end Stays

end Machine

end ScriptBoundary.Script
