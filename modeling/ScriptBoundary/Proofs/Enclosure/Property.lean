import ScriptBoundary.Proofs.Enclosure.Convert
import ScriptBoundary.Script.Property

/-!
# Properties stay inside

What an object shows under a key is what it holds, the value of the variable that it is tied to, or
a unit of its text.
-/

namespace ScriptBoundary.Script

variable {K : Ref → Prop} {m : Machine} {r : Ref} {k : Key} {v w : Value} {d : Descriptor}
  {s : Slot}

/-- **The own property of a key** is inside. -/
theorem Heap.Within.ownSlot? {h : Heap} (hh : h.Within K) (r : Ref) (k : Key) :
    ∀ s ∈ h.ownSlot? r k, s.Within K := by
  intro s hs
  obtain ⟨t, ht, rfl⟩ := Option.map_eq_some_iff.mp hs
  have htw : t.Within K := by
    rw [Object.slot?] at ht
    rcases Option.or_eq_some_iff.mp ht with hunit | ⟨-, hfind⟩
    · unfold Object.unit? at hunit
      split at hunit
      · obtain ⟨u, -, rfl⟩ := Option.map_eq_some_iff.mp hunit
        trivial
      · cases hunit
    · exact (hh.object r).props.find? t hfind
  split
  · next scope name v w _ hcontent =>
    rw [Slot.Within, hcontent] at htw
    show Value.Within K _
    cases hb : (h.scope scope).find? name with
    | none => exact htw
    | some b => exact ((hh.scope scope).find? b hb).getD htw
  · exact htw

namespace Comp

theorem Stays.ownSlot : (Script.ownSlot r k).Stays K fun s => ∀ t ∈ s, t.Within K :=
  .inspect fun _ hh => hh.ownSlot? r k

theorem Stays.defineOrdinary (hd : d.Within K) :
    (Script.defineOrdinary r k d).Stays K fun _ => True := by
  refine .bind .ownSlot fun s hs => ?_
  cases s with
  | none =>
    exact .bind (.readObject r) fun _ _ =>
      .ite (.bind (.performOnly rfl hd.toSlot) fun _ _ => .pure trivial) (.pure trivial)
  | some s =>
    exact .ite (.bind (.performOnly rfl (hd.layOver (hs s rfl))) fun _ _ => .pure trivial)
      (.pure trivial)

theorem Stays.writeLength {n : Nat} {writable : Bool} :
    (Script.writeLength r n writable).Stays K fun _ => True := .performOnly rfl trivial

theorem Stays.dropElements : ∀ is, (Script.dropElements r is).Stays K fun _ => True
  | [] => .pure trivial
  | i :: is => by
    refine .bind .ownSlot fun s _ => ?_
    cases s with
    | none => exact Stays.dropElements is
    | some s =>
      exact .ite (.bind (.performOnly rfl trivial) fun _ _ => Stays.dropElements is) (.pure trivial)

/-- What is written to a tied element is written to its variable. -/
theorem Stays.defineInArguments (hd : d.Within K) :
    (Script.defineInArguments r k d).Stays K fun _ => True := by
  refine .bind (.readObject r) fun o _ => ?_
  split
  · exact .defineOrdinary hd
  · refine .bind .ownSlot fun shown hs => .bind (.defineOrdinary ?_) fun _ _ =>
      .ite (.pure trivial) <| .ite (.bind .untie fun _ _ => .pure trivial) ?_
    · split
      · refine ⟨?_, hd.get, hd.set⟩
        cases shown with
        | none => exact .absent
        | some s => exact (hs s rfl).value?
      · exact hd
    · cases hv : d.value with
      | some v =>
        exact .bind (.performOnly rfl (hd.value v hv)) fun _ _ =>
          .ite (.bind .untie fun _ _ => .pure trivial) (.pure trivial)
      | none => exact .ite (.bind .untie fun _ _ => .pure trivial) (.pure trivial)

theorem Stays.deleteFrom : (Script.deleteFrom r k).Stays K fun _ => True := by
  refine .bind .ownSlot fun s _ => ?_
  cases s with
  | none => exact .pure trivial
  | some s =>
    exact .ite (.bind (.performOnly rfl trivial) fun _ _ => .bind .untie fun _ _ => .pure trivial)
      (.pure trivial)

theorem Stays.ownKeysOf : (Script.ownKeysOf r).Stays K fun _ => True :=
  .bind (.readObject r) fun _ _ => .pure trivial

theorem Stays.changeProto {p : Option Ref} (hp : ∀ q ∈ p, K q) :
    (Script.changeProto r p).Stays K fun _ => True :=
  .bind (.readObject r) fun _ _ => .ite (.pure trivial) <| .ite (.pure trivial) <|
    .bind (P := fun _ => True) (.inspect fun _ _ => trivial) fun _ _ => .ite (.pure trivial) <|
      .bind (P := fun _ => True) (.inspect fun _ _ => trivial) fun _ _ => .ite (.pure trivial) <|
        .bind (.performOnly rfl hp) fun _ _ => .pure trivial

end Comp

namespace Machine

open ScriptBoundary.Script.Comp

namespace Stays

theorem defineLength (hm : m.Stays K) (hd : d.Within K) :
    (m.defineLength r d).Stays K fun _ => True := by
  unfold Machine.defineLength
  split
  · exact .defineOrdinary hd
  · next v hv =>
    have hvalue := hd.value v hv
    have hd' : ∀ n w,
        ({ d with value := some (Value.ofNat n), writable := w } : Descriptor).Within K :=
      fun _ _ => ⟨.present trivial, hd.get, hd.set⟩
    refine .bind (hm.toNumber hvalue) fun _ _ => .bind (hm.toNumber hvalue) fun _ _ =>
      .ite (.raise _ _) <| .bind (.readObject r) fun _ _ => .ite (.defineOrdinary (hd' _ _)) <|
      .ite (.pure trivial) <| .bind (.defineOrdinary (hd' _ _)) fun _ _ => .ite (.pure trivial) <|
      .bind (.dropElements _) fun i _ => ?_
    cases i with
    | none => exact .ite (.bind .writeLength fun _ _ => .pure trivial) (.pure trivial)
    | some i => exact .bind .writeLength fun _ _ => .pure trivial

theorem defineInArray (hm : m.Stays K) (hd : d.Within K) :
    (m.defineInArray r k d).Stays K fun _ => True := by
  unfold Machine.defineInArray
  split
  · exact .bind (.readObject r) fun _ _ => .ite (.defineOrdinary hd) <| .ite (.pure trivial) <|
      .bind (.defineOrdinary hd) fun _ _ =>
        .ite (.bind .writeLength fun _ _ => .pure trivial) (.pure trivial)
  · exact .ite (hm.defineLength hd) (.defineOrdinary hd)

/-- **Defining a property.** -/
theorem defineOwn (hm : m.Stays K) (hd : d.Within K) :
    (m.defineOwn r k d).Stays K fun _ => True := by
  refine .bind (.readObject r) fun o _ => ?_
  split
  · exact hm.defineInArray hd
  · exact .defineInArguments hd
  · split
    · split
      · exact .pure trivial
      · exact .defineOrdinary hd
    · exact .defineOrdinary hd
  · exact .defineOrdinary hd

theorem readSlot (hm : m.Stays K) (hs : s.Within K) (hv : v.Within K) :
    (m.readSlot s v).Stays K (Value.Within K) := by
  obtain ⟨content, enumerable, configurable⟩ := s
  cases content with
  | data w _ => exact .pure hs
  | accessor g t => exact .ite (.pure trivial) (hm.call hs.1 hv .nil)

/-- **Reading a property.** -/
theorem getFrom (hm : m.Stays K) (hv : v.Within K) :
    (m.getFrom r k v).Stays K (Value.Within K) := by
  refine .bind .ownSlot fun s hs => ?_
  cases s with
  | some s => exact hm.readSlot (hs s rfl) hv
  | none =>
    refine .bind (.readObject r) fun o _ => ?_
    split
    · exact hm.getFor hv
    · exact .pure trivial

theorem hasIn (hm : m.Stays K) : (m.hasIn r k).Stays K fun _ => True := by
  refine .bind .ownSlot fun s _ => ?_
  cases s with
  | some s => exact .pure trivial
  | none =>
    refine .bind (.readObject r) fun o _ => ?_
    split
    · exact hm.has
    · exact .pure trivial

theorem assignTo (hm : m.Stays K) (hs : s.Within K) (hv : v.Within K) (hw : w.Within K) :
    (m.assignTo s k v w).Stays K fun _ => True := by
  obtain ⟨content, enumerable, configurable⟩ := s
  cases content with
  | accessor g t =>
    exact .ite (.pure trivial) (.bind (hm.call hs.2 hw (.one hv)) fun _ _ => .pure trivial)
  | data u writable =>
    unfold Machine.assignTo
    dsimp only
    split
    · next q =>
      refine .bind hm.getOwn fun t _ => ?_
      cases t with
      | some t => exact .ite (.pure trivial) (hm.define ⟨.present hv, .absent, .absent⟩)
      | none => exact hm.define (Slot.Within.toDescriptor (s := Slot.plain v) hv)
    · exact .pure trivial

/-- **Assigning a property.** -/
theorem setIn (hm : m.Stays K) (hv : v.Within K) (hw : w.Within K) :
    (m.setIn r k v w).Stays K fun _ => True := by
  refine .bind .ownSlot fun s hs => ?_
  cases s with
  | some s => exact hm.assignTo (hs s rfl) hv hw
  | none =>
    refine .bind (.readObject r) fun o _ => ?_
    split
    · exact hm.setFor hv hw
    · exact hm.assignTo trivial hv hw

end Stays

end Machine

end ScriptBoundary.Script
