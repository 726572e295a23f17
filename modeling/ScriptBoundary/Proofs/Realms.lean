import ScriptBoundary.Proofs.Whereabouts

/-!
# Realms and their global objects

A realm has a global object and a global scope, and a name that no scope knows is looked up on that
object. Scripts can do a lot to both: put properties on the one and bindings into the other. But the
realm always finds them again, the scope always leads back to its realm, and the global object stays
an ordinary object. So "the global object of an instance" is well defined whatever scripts do.

No two instances have the same one, as a new instance has its realm behind everything that was in
the heap before.

## Main results

* `namesItself_addRealm`: in a new realm `globalThis` is the global object
* `keepsRealms_apply`: no edit separates a realm from its global object
* `Scene.apart_run`: in every scene that moves lead to, instances have global objects of their own
* `Scene.lasts_run`: an instance stays in its realm, and keeps its global object
-/

namespace ScriptBoundary.Script

/-! ## Putting properties -/

namespace Props

/-- A property is put in the place of the one with its key, or at the end. -/
theorem toList_insert (ps : Props) (k : Key) (s : Slot) :
    ∃ before after, (∀ p ∈ before, (p.1 == k) = false)
      ∧ (ps.insert k s).slots.toList = before ++ (k, s) :: after
      ∧ (ps.slots.toList = before ++ after ∧ after = []
        ∨ ∃ t, ps.slots.toList = before ++ (k, t) :: after) := by
  unfold insert
  split
  · next i hi =>
    obtain ⟨hlt, hat, hbefore⟩ := Array.findIdx?_eq_some_iff_getElem.mp hi
    have hk : ps.slots[i] = (k, ps.slots[i].2) := Prod.ext (eq_of_beq hat) rfl
    refine ⟨ps.slots.toList.take i, ps.slots.toList.drop (i + 1), fun p hp => ?_, ?_,
      .inr ⟨ps.slots[i].2, ?_⟩⟩
    · obtain ⟨j, hj, rfl⟩ := List.mem_take_iff_getElem.mp hp
      exact Bool.eq_false_iff.mpr (hbefore j (by omega))
    · rw [Array.toList_setIfInBounds, List.set_eq_take_append_cons_drop,
        if_pos (by simpa using hlt)]
    · rw [← hk, ← Array.getElem_toList, List.getElem_cons_drop, List.take_append_drop]
  · next hnone =>
    refine ⟨ps.slots.toList, [], fun p hp => ?_, Array.toList_push,
      .inl ⟨(List.append_nil _).symm, rfl⟩⟩
    exact Array.findIdx?_eq_none_iff.mp hnone p (Array.mem_toList_iff.mp hp)

/-- **What is found after a property was put**: that one under its key, and under any other key what
was found before. -/
theorem find?_insert (ps : Props) (k k' : Key) (s : Slot) :
    (ps.insert k s).find? k' = if k' = k then some s else ps.find? k' := by
  obtain ⟨before, after, hbefore, hput, hwas⟩ := ps.toList_insert k s
  have hskip : ∀ t rest, (before ++ (k, t) :: rest).find? (fun p => p.1 == k) = some (k, t) := by
    intro t rest
    rw [List.find?_append, List.find?_eq_none.mpr fun p hp => by simp [hbefore p hp],
      Option.none_or]
    exact List.find?_cons_of_pos (beq_self_eq_true k)
  rw [find?, find?, ← Array.find?_toList, ← Array.find?_toList, hput]
  split
  · next h => rw [h, hskip]; rfl
  · next h =>
    have hne : ¬(k == k') = true := fun heq => h (eq_of_beq heq).symm
    obtain ⟨hps, rfl⟩ | ⟨t, hps⟩ := hwas
    all_goals rw [hps]; simp [List.find?_append, hne]

/-- Properties that are put under other keys do not get in the way. -/
theorem find?_foldl_insert {β : Type} (key : β → Key) (slot : Props → β → Slot) {bs : List β}
    {k : Key} (h : ∀ b ∈ bs, key b ≠ k) (ps : Props) :
    (bs.foldl (fun ps b => ps.insert (key b) (slot ps b)) ps).find? k = ps.find? k := by
  induction bs generalizing ps with
  | nil => rfl
  | cons b bs ih =>
    rw [List.foldl_cons, ih (fun b' hb' => h b' (List.mem_cons_of_mem _ hb')), find?_insert,
      if_neg (h b List.mem_cons_self).symm]

end Props

namespace Object

/-- An object with one more property, or with another one in its place. -/
def put (o : Object) (k : Key) (s : Slot) : Object := { o with props := o.props.insert k s }

/-- A property that was put is shown, unless there is a unit in the way. -/
theorem slot?_put {o : Object} {k : Key} (h : o.isUnit k = false) (k' : Key) (s : Slot) :
    (o.put k s).slot? k' = if k' = k then some s else o.slot? k' := by
  have hunit : (o.put k s).unit? k' = o.unit? k' := rfl
  rw [slot?, hunit, put, Props.find?_insert]
  split
  · next hk =>
    subst hk
    rw [unit?_eq_none_iff.mpr h, Option.none_or]
  · rfl

end Object

/-! ## The global object of a realm -/

namespace Heap

/-- Where a realm has its global object. -/
def globalAt (h : Heap) (realm : Ref) : Ref :=
  (h.realm realm).base + Intrinsic.globalObject.ctorIdx

/-- A realm with its global scope, which leads back to it, and its global object. -/
structure Houses (h : Heap) (realm : Ref) (s : Scope) (o : Object) : Prop where
  isRealm : ∃ m, h.cells[realm]? = some (.realm m)
  scope : h.cells[(h.realm realm).scope]? = some (.scope s)
  global : h.cells[h.globalAt realm]? = some (.object o)
  leads : s.global = some realm
  plain : o.nature = .plain

/-- Whether scripts of a realm find a value under a name: none of the global `let`, `const` and
`class` names hides it, and the global object has it. -/
def Shows (h : Heap) (realm : Ref) (name : String) (v : Value) : Prop :=
  ∃ s o t w, h.Houses realm s o ∧ s.find? name = none
    ∧ o.slot? (Key.ofString name) = some t ∧ t.content = .data v w

/-- Whether scripts of a realm find its global object under `globalThis`. -/
def NamesItself (h : Heap) (realm : Ref) : Prop :=
  h.Shows realm "globalThis" (.object (h.globalAt realm))

/-- Whether a heap has all the cells of another one, as they were. -/
def Extends (h h' : Heap) : Prop :=
  ∀ (r : Ref) (c : Cell), h.cells[r]? = some c → h'.cells[r]? = some c

variable {h h' h'' : Heap} {realm : Ref} {s : Scope} {o : Object}

theorem Extends.trans (hh : h.Extends h') (hh' : h'.Extends h'') : h.Extends h'' :=
  fun r c hc => hh' r c (hh r c hc)

theorem extends_add (h : Heap) (c : Cell) : h.Extends (h.add c).1 := by
  intro r c' hc
  obtain ⟨hr, rfl⟩ := Array.getElem?_eq_some_iff.mp hc
  rw [add]
  dsimp only
  rw [Array.getElem?_push_lt hr]

theorem realm_of_getElem? {m : Realm} (hm : h.cells[realm]? = some (.realm m)) :
    h.realm realm = m := by
  rw [Heap.realm, hm]

theorem Houses.realm_mono (ho : h.Houses realm s o) (hh : h.Extends h') :
    h'.realm realm = h.realm realm := by
  obtain ⟨m, hm⟩ := ho.isRealm
  rw [realm_of_getElem? hm, realm_of_getElem? (hh _ _ hm)]

theorem Houses.mono (ho : h.Houses realm s o) (hh : h.Extends h') : h'.Houses realm s o := by
  obtain ⟨m, hm⟩ := ho.isRealm
  have hrealm := ho.realm_mono hh
  refine ⟨⟨m, hh _ _ hm⟩, ?_, ?_, ho.leads, ho.plain⟩
  · rw [hrealm]
    exact hh _ _ ho.scope
  · rw [globalAt, hrealm]
    exact hh _ _ ho.global

theorem Houses.globalAt_mono (ho : h.Houses realm s o) (hh : h.Extends h') :
    h'.globalAt realm = h.globalAt realm := by
  rw [globalAt, globalAt, ho.realm_mono hh]

theorem Shows.mono {name : String} {v : Value} (hs : h.Shows realm name v)
    (hh : h.Extends h') : h'.Shows realm name v := by
  obtain ⟨s, o, t, w, hhouses, hrest⟩ := hs
  exact ⟨s, o, t, w, hhouses.mono hh, hrest⟩

theorem NamesItself.mono (hs : h.NamesItself realm) (hh : h.Extends h') :
    h'.NamesItself realm := by
  obtain ⟨s, o, -, -, ho, -⟩ := id hs
  rw [NamesItself, ho.globalAt_mono hh]
  exact Shows.mono hs hh

theorem Houses.object_eq (ho : h.Houses realm s o) : h.object (h.globalAt realm) = o := by
  rw [object, ho.global]

theorem Houses.scope_eq (ho : h.Houses realm s o) : h.scope (h.realm realm).scope = s := by
  rw [Heap.scope, ho.scope]

/-- The properties of an ordinary object are what it shows. -/
theorem ownSlot?_of_plain {r : Ref} (ho : h.cells[r]? = some (.object o)) (hp : o.nature = .plain)
    (k : Key) : h.ownSlot? r k = o.slot? k := by
  have hobject : h.object r = o := by rw [object, ho]
  have htied : o.tiedTo? k = none := by
    unfold Object.tiedTo?
    rw [hp]
  rw [ownSlot?, hobject, htied]
  exact Option.map_id_apply

end Heap

/-! ## A new realm -/

namespace Realm

/-- No built-in function takes the cell of the global object, -/
theorem cell?_ne_globalObject {b : Builtin} (hb : b ∈ Builtin.all) :
    b.cell? ≠ some .globalObject := by
  have hall : (Builtin.all.all fun b => b.cell? != some .globalObject) = true := by decide +kernel
  exact bne_iff_ne.mp (List.all_eq_true.mp hall b hb)

/-- and none that is a property of it has the name `globalThis`. -/
theorem key_ne_globalThis {b : Builtin} (hb : b ∈ Builtin.all) (howner : b.owner = .globalObject) :
    b.key ≠ Key.ofString "globalThis" := by
  have hall : (Builtin.all.all fun b =>
      b.owner != .globalObject || b.key != Key.ofString "globalThis") = true := by decide +kernel
  have hb' := List.all_eq_true.mp hall b hb
  rw [howner] at hb'
  exact bne_iff_ne.mp hb'

theorem mem_all_of_placed {base : Ref} {p : Builtin × Ref} (hp : p ∈ placed base) :
    p.1 ∈ Builtin.all := by
  simp only [placed, Builtin.unnamed, List.mem_append, List.mem_map, List.mem_filter] at hp
  obtain ⟨b, ⟨hb, -⟩, rfl⟩ | ⟨⟨b, i⟩, hb, rfl⟩ := hp
  · exact hb
  · exact (List.mem_filter.mp (List.fst_mem_of_mem_zipIdx hb)).1

/-- The links between constructors and prototypes have other names. -/
theorem key_of_mem_links {base : Ref} {ps : List (Builtin × Ref)} {i : Intrinsic} {p : Key × Slot}
    (hp : p ∈ links ps base i) :
    p.1 = Key.ofString "prototype" ∨ p.1 = Key.ofString "constructor" := by
  obtain ⟨⟨b, r⟩, -, hb⟩ := List.mem_filterMap.mp hp
  dsimp only at hb
  split at hb
  · split at hb
    · exact .inl (Option.some.inj hb ▸ rfl)
    · split at hb
      · exact .inr (Option.some.inj hb ▸ rfl)
      · cases hb
  · cases hb

/-- The global object of a new realm is an ordinary object, and its `globalThis` is itself. -/
theorem intrinsicObject_globalObject (base realm : Ref) :
    ∃ o, intrinsicObject base realm (placed base) .globalObject = o ∧ o.nature = .plain
      ∧ o.extensible = true ∧ o.slot? (Key.ofString "globalThis") =
        some (Slot.hidden (.object (Intrinsic.globalObject.at' base))) := by
  have hown : (placed base).find? (fun p => p.1.cell? == some .globalObject) = none := by
    refine List.find?_eq_none.mpr fun p hp => ?_
    rw [beq_iff_eq]
    exact cell?_ne_globalObject (mem_all_of_placed hp)
  refine ⟨_, rfl, ?_, ?_, ?_⟩
  · rw [intrinsicObject, hown]
    rfl
  · rw [intrinsicObject, hown]
  · have hmethods : ∀ p ∈ methodsOf .globalObject (placed base),
        p.1.key ≠ Key.ofString "globalThis" := by
      intro p hp
      obtain ⟨hplaced, howner⟩ := List.mem_filter.mp hp
      exact key_ne_globalThis (mem_all_of_placed hplaced)
        (eq_of_beq (Bool.and_eq_true_iff.mp howner).1)
    have hfields : ∀ p ∈ (Intrinsic.globalObject.fields base).tail
        ++ links (placed base) base .globalObject, p.1 ≠ Key.ofString "globalThis" := by
      intro p hp
      rcases List.mem_append.mp hp with hp | hp
      · have hkeys : ((Intrinsic.globalObject.fields base).tail.map (·.1)).all
            (· != Key.ofString "globalThis") = true := by
          show ["Infinity", "NaN", "undefined", "JSON", "Math", "Reflect"].all
            (fun name => Key.ofString name != Key.ofString "globalThis") = true
          decide +kernel
        exact bne_iff_ne.mp (List.all_eq_true.mp hkeys p.1 (List.mem_map_of_mem hp))
      · rcases key_of_mem_links hp with h | h <;> rw [h] <;> decide +kernel
    rw [intrinsicObject, hown]
    refine (Object.slot?_of_isUnit_eq_false (Object.isUnit_of_plain rfl _)).trans ?_
    dsimp only
    refine (Props.find?_foldl_insert (fun p : Builtin × Ref => p.1.key) _ hmethods _).trans ?_
    refine (Props.find?_foldl_insert (fun p : Key × Slot => p.1) (fun _ p => p.2)
      hfields _).trans ?_
    rw [Props.find?_insert, if_pos rfl]

/-- Where the global object is among the cells of a realm, -/
theorem getElem?_globalObject (base : Ref) : ∃ realm,
    (cells base)[Intrinsic.globalObject.ctorIdx]? =
      some (.object (intrinsicObject base realm (placed base) .globalObject)) := by
  refine ⟨base + Intrinsic.count + Builtin.unnamed.length + 1, ?_⟩
  have hlt : Intrinsic.globalObject.ctorIdx < Intrinsic.all.length := by
    simp only [Intrinsic.all, List.length_map, List.length_range]
    decide
  have hall : Intrinsic.all[Intrinsic.globalObject.ctorIdx]? = some .globalObject := by
    decide
  rw [cells, Array.getElem?_append_left (by simp; omega), List.getElem?_toArray,
    List.getElem?_append_left (by simpa using hlt), List.getElem?_map, hall]
  rfl

/-- and where its scope is. -/
theorem getElem?_scope (base : Ref) :
    (cells base)[Intrinsic.count + Builtin.unnamed.length]? =
      some (.scope ⟨#[], none, none,
        some (base + Intrinsic.count + Builtin.unnamed.length + 1)⟩) := by
  rw [cells, Array.getElem?_append_right (by simp [Intrinsic.all])]
  simp [Intrinsic.all]

end Realm

namespace Heap

theorem getElem?_addRealm (h : Heap) {i : Nat} {c : Cell}
    (hc : (Realm.cells h.cells.size)[i]? = some c) :
    h.addRealm.1.cells[h.cells.size + i]? = some c := by
  rw [addRealm]
  dsimp only
  rw [Array.getElem?_append_right (Nat.le_add_right _ _), Nat.add_sub_cancel_left, hc]

theorem addRealm_snd (h : Heap) :
    h.addRealm.2 = h.cells.size + (Intrinsic.count + Builtin.unnamed.length + 1) := by
  show (h.cells ++ Realm.cells h.cells.size).size - 1 = _
  rw [Array.size_append, Realm.size_cells]
  omega

/-- A new realm has the first cells behind the heap for its objects. -/
theorem getElem?_addRealm_snd (h : Heap) : h.addRealm.1.cells[h.addRealm.2]? =
    some (.realm ⟨h.cells.size, h.cells.size + Intrinsic.count + Builtin.unnamed.length,
      Intrinsic.count + Builtin.unnamed.length⟩) := by
  rw [addRealm_snd]
  exact h.getElem?_addRealm (Realm.getElem?_cells h.cells.size)

theorem globalAt_addRealm (h : Heap) :
    h.addRealm.1.globalAt h.addRealm.2 = Intrinsic.globalObject.at' h.cells.size := by
  rw [globalAt, realm_of_getElem? h.getElem?_addRealm_snd]
  rfl

/-- **In a new realm** nothing is declared, and `globalThis` is the global object. -/
theorem houses_addRealm (h : Heap) : ∃ s o, h.addRealm.1.Houses h.addRealm.2 s o
    ∧ s.bindings = #[] ∧ o.extensible = true
    ∧ o.slot? (Key.ofString "globalThis") =
      some (Slot.hidden (.object (h.addRealm.1.globalAt h.addRealm.2))) := by
  obtain ⟨realm, hglobal⟩ := Realm.getElem?_globalObject h.cells.size
  obtain ⟨o, ho, hplain, hextensible, hslot⟩ :=
    Realm.intrinsicObject_globalObject h.cells.size realm
  rw [ho] at hglobal
  have hself : h.cells.size + Intrinsic.count + Builtin.unnamed.length + 1 = h.addRealm.2 := by
    rw [addRealm_snd, ← Nat.add_assoc, ← Nat.add_assoc]
  have hscope : h.addRealm.1.cells[h.cells.size + Intrinsic.count + Builtin.unnamed.length]? =
      some (.scope ⟨#[], none, none, some h.addRealm.2⟩) := by
    rw [Nat.add_assoc, h.getElem?_addRealm (Realm.getElem?_scope h.cells.size), hself]
  refine ⟨⟨#[], none, none, some h.addRealm.2⟩, o,
    ⟨⟨_, h.getElem?_addRealm_snd⟩, ?_, ?_, rfl, hplain⟩, rfl, hextensible, ?_⟩
  · rw [realm_of_getElem? h.getElem?_addRealm_snd]
    exact hscope
  · rw [globalAt_addRealm]
    exact h.getElem?_addRealm hglobal
  · rw [globalAt_addRealm]
    exact hslot

theorem namesItself_addRealm (h : Heap) : h.addRealm.1.NamesItself h.addRealm.2 := by
  obtain ⟨s, o, ho, hbindings, -, hslot⟩ := h.houses_addRealm
  have hfree : s.find? "globalThis" = none := by
    rw [Scope.find?, hbindings]
    rfl
  exact ⟨s, o, _, true, ho, hfree, hslot, rfl⟩

end Heap

/-! ## What becomes of a realm -/

namespace Heap

/-- Whether a realm is complete. -/
def HasGlobal (h : Heap) (realm : Ref) : Prop := ∃ s o, h.Houses realm s o

/-- Whether every complete realm stays complete, with its global object where it was. -/
def KeepsRealms (h h' : Heap) : Prop :=
  ∀ realm, h.HasGlobal realm → h'.HasGlobal realm ∧ h'.globalAt realm = h.globalAt realm

variable {h h' h'' : Heap} {realm : Ref}

theorem HasGlobal.globalAt_lt (hr : h.HasGlobal realm) : h.globalAt realm < h.cells.size := by
  obtain ⟨s, o, ho⟩ := hr
  exact (Array.getElem?_eq_some_iff.mp ho.global).1

theorem KeepsRealms.refl (h : Heap) : h.KeepsRealms h := fun _ hr => ⟨hr, rfl⟩

theorem KeepsRealms.trans (hh : h.KeepsRealms h') (hh' : h'.KeepsRealms h'') :
    h.KeepsRealms h'' := by
  intro realm hr
  obtain ⟨hr', hat⟩ := hh realm hr
  exact ⟨(hh' realm hr').1, (hh' realm hr').2.trans hat⟩

theorem Extends.keepsRealms (hh : h.Extends h') : h.KeepsRealms h' := by
  rintro realm ⟨s, o, ho⟩
  exact ⟨⟨s, o, ho.mono hh⟩, ho.globalAt_mono hh⟩

/-- The scope that leads to a realm leads there after every edit. -/
theorem leads_apply (e : Edit) {r : Ref} {s : Scope} (hs : h.cells[r]? = some (.scope s)) :
    ∃ s', (h.apply e).1.cells[r]? = some (.scope s') ∧ s'.global = s.global := by
  have hadd : ∀ c, (h.add c).1.cells[r]? = some (.scope s) := fun c => h.extends_add c r _ hs
  have hobject : ∀ q f, (h.updateObject q f).cells[r]? = some (.scope s) := by
    intro q f
    rw [updateObject]
    dsimp only
    rw [Array.getElem?_modify, hs]
    split <;> rfl
  have hscope : ∀ q (f : Scope → Scope), (∀ s, (f s).global = s.global) →
      ∃ s', (h.updateScope q f).cells[r]? = some (.scope s') ∧ s'.global = s.global := by
    intro q f hf
    rw [updateScope]
    dsimp only
    rw [Array.getElem?_modify, hs]
    split
    · exact ⟨f s, rfl, hf s⟩
    · exact ⟨s, rfl, rfl⟩
  cases e with
  | newObject nature proto props => exact ⟨s, hadd _, rfl⟩
  | newScope s' => exact ⟨s, hadd _, rfl⟩
  | newTally => exact ⟨s, hadd _, rfl⟩
  | newSymbol => exact ⟨s, hs, rfl⟩
  | putSlot q k t => exact ⟨s, hobject _ _, rfl⟩
  | dropSlot q k => exact ⟨s, hobject _ _, rfl⟩
  | setProto q p => exact ⟨s, hobject _ _, rfl⟩
  | closeObject q => exact ⟨s, hobject _ _, rfl⟩
  | setNature q n => exact ⟨s, hobject _ _, rfl⟩
  | bind q b =>
    refine hscope q _ fun s => ?_
    rw [Scope.bind]
    split <;> rfl
  | store q name v => exact hscope q _ fun _ => rfl
  | setThis q v => exact hscope q _ fun _ => rfl
  | tick q =>
    refine ⟨s, ?_, rfl⟩
    rw [apply]
    split
    · next n hn =>
      have hne : q ≠ r := by
        rintro rfl
        rw [hn] at hs
        cases hs
      dsimp only
      rw [Array.getElem?_setIfInBounds_ne hne, hs]
    · exact hs

/-- **No edit separates a realm from its global object.** -/
theorem keepsRealms_apply (h : Heap) (e : Edit) : h.KeepsRealms (h.apply e).1 := by
  rintro realm ⟨s, o, ho⟩
  obtain ⟨m, hm⟩ := ho.isRealm
  have hm' := (h.evolves_apply e).realm hm
  have hrealm : (h.apply e).1.realm realm = h.realm realm := by
    rw [realm_of_getElem? hm, realm_of_getElem? hm']
  have hat : (h.apply e).1.globalAt realm = h.globalAt realm := by
    rw [globalAt, globalAt, hrealm]
  obtain ⟨s', hs', hleads⟩ := h.leads_apply e ho.scope
  obtain ⟨c, hc, hevolves⟩ := (h.evolves_apply e).cell _ _ ho.global
  cases hevolves with
  | @object _ o' hnature _ =>
    rw [ho.plain] at hnature
    have hplain : o'.nature = .plain := hnature.eq_of_fixed Nature.canBecome_plain
    exact ⟨⟨s', o', ⟨m, hm'⟩, hrealm ▸ hs', hat ▸ hc, hleads.trans ho.leads, hplain⟩, hat⟩

theorem extends_addRealm (h : Heap) : h.Extends h.addRealm.1 := by
  intro r c hc
  obtain ⟨hr, rfl⟩ := Array.getElem?_eq_some_iff.mp hc
  rw [addRealm]
  dsimp only
  rw [Array.getElem?_append_left hr, hc]

end Heap

end ScriptBoundary.Script

namespace ScriptBoundary.Boundary

open Script (Heap Ref)

variable {w w' : World}

/-- Whether every instance has a global object of its own, also when it has been destroyed. -/
structure World.Apart (w : World) : Prop where
  hasGlobal : ∀ i x, w.instance? i = some x → w.heap.HasGlobal x.realm
  distinct : ∀ i j x y, w.instance? i = some x → w.instance? j = some y →
    w.heap.globalAt x.realm = w.heap.globalAt y.realm → i = j

/-- What keeps the realms of the instances keeps them apart. -/
theorem World.Apart.of_keepsRealms (h : w.Apart) (hk : w.heap.KeepsRealms w'.heap)
    (hrealm : ∀ i, (w'.instance? i).map (·.realm) = (w.instance? i).map (·.realm)) : w'.Apart := by
  refine ⟨fun i x hx => ?_, fun i j x y hx hy hat => ?_⟩
  · obtain ⟨x', hx', hxr⟩ := World.exists_realm (hrealm i) hx
    rw [← hxr]
    exact (hk _ (h.hasGlobal i x' hx')).1
  · obtain ⟨x', hx', hxr⟩ := World.exists_realm (hrealm i) hx
    obtain ⟨y', hy', hyr⟩ := World.exists_realm (hrealm j) hy
    rw [← hxr, ← hyr, (hk _ (h.hasGlobal i x' hx')).2, (hk _ (h.hasGlobal j y' hy')).2] at hat
    exact h.distinct i j x' y' hx' hy' hat

/-- A new instance has its realm behind everything else. -/
theorem World.Apart.newInstance (h : w.Apart) (limits : Script.Limits) :
    (w.newInstance limits).2.Apart := by
  have hheap := World.heap_newInstance w limits
  have hext := w.heap.extends_addRealm
  obtain ⟨s, o, hnew, -⟩ := w.heap.houses_addRealm
  have hrealm : ∀ i x, (w.newInstance limits).2.instance? i = some x →
      i = w.instances.size ∧ x.realm = w.heap.addRealm.2
        ∨ ∃ x', w.instance? i = some x' ∧ x'.realm = x.realm := by
    intro i x hx
    have hset : ((w.newInstance limits).2.instance? i).map (·.realm) = if i = w.instances.size
        then some w.heap.addRealm.2 else (w.instance? i).map (·.realm) :=
      congrFun (congrArg Setting.realm (World.setting_newInstance w limits)) i
    rw [hx] at hset
    split at hset
    · next hi => exact .inl ⟨hi, Option.some.inj hset⟩
    · obtain ⟨x', hx', hxr⟩ := Option.map_eq_some_iff.mp hset.symm
      exact .inr ⟨x', hx', hxr⟩
  have hbehind : ∀ i x, w.instance? i = some x → w.heap.addRealm.1.globalAt x.realm ≠
      w.heap.addRealm.1.globalAt w.heap.addRealm.2 := by
    intro i x hx
    rw [(hext.keepsRealms _ (h.hasGlobal i x hx)).2, Heap.globalAt_addRealm]
    exact Nat.ne_of_lt (Nat.lt_of_lt_of_le (h.hasGlobal i x hx).globalAt_lt (Nat.le_add_right _ _))
  refine ⟨fun i x hx => ?_, fun i j x y hx hy hat => ?_⟩
  · rw [hheap]
    rcases hrealm i x hx with ⟨-, hxr⟩ | ⟨x', hx', hxr⟩
    · exact hxr ▸ ⟨s, o, hnew⟩
    · exact hxr ▸ (hext.keepsRealms _ (h.hasGlobal i x' hx')).1
  · rw [hheap] at hat
    rcases hrealm i x hx with ⟨hi, hxr⟩ | ⟨x', hx', hxr⟩ <;>
      rcases hrealm j y hy with ⟨hj, hyr⟩ | ⟨y', hy', hyr⟩
    · rw [hi, hj]
    · rw [hxr, ← hyr] at hat
      exact absurd hat.symm (hbehind j y' hy')
    · rw [← hxr, hyr] at hat
      exact absurd hat (hbehind i x' hx')
    · rw [← hxr, ← hyr, (hext.keepsRealms _ (h.hasGlobal i x' hx')).2,
        (hext.keepsRealms _ (h.hasGlobal j y' hy')).2] at hat
      exact h.distinct i j x' y' hx' hy' hat

theorem Scene.apart_start (p : Platform) : (Scene.start p).world.Apart := by
  refine ⟨fun i x hx => ?_, fun i j x y hx => ?_⟩ <;>
    simp [Scene.start, World.blank, World.instance?] at hx

/-- **What one move does to realms**: it makes an instance, or it leaves every instance in the realm
that it was in, and every realm with its global object. -/
theorem Scene.realms_step {c d : Scene} {m : Move} (hm : c.step m = some d) :
    (∃ limits, d.world = (c.world.newInstance limits).2)
      ∨ c.world.heap.KeepsRealms d.world.heap ∧
        ∀ i, (d.world.instance? i).map (·.realm) = (c.world.instance? i).map (·.realm) := by
  have hsame : d.world.setting = c.world.setting → c.world.heap.KeepsRealms d.world.heap ∧
      ∀ i, (d.world.instance? i).map (·.realm) = (c.world.instance? i).map (·.realm) :=
    fun hs => ⟨World.heap_congr hs ▸ .refl _, World.realm_congr hs⟩
  rcases Scene.setting_step hm with ⟨x, -, hx⟩ | ⟨-, hs⟩
  · obtain ⟨e, -, hs⟩ | ⟨limits, -, hw⟩ | ⟨i, realm, cb, -, halive, hw⟩ | ⟨-, hs⟩ :=
      Change.setting_cases hx
    · refine .inr ⟨?_, fun i => congrFun (congrArg Setting.realm hs) i⟩
      rw [show d.world.heap = _ from congrArg Setting.heap hs]
      exact c.world.heap.keepsRealms_apply e
    · exact .inl ⟨limits, hw⟩
    · obtain ⟨y, hy⟩ := Option.isSome_iff_exists.mp (World.hasInstance_of_isAlive halive)
      have hs := World.setting_register hy realm cb
      rw [hw]
      refine .inr ⟨?_, fun i => congrFun (congrArg Setting.realm hs) i⟩
      rw [show (c.world.register i realm cb).2.heap = _ from congrArg Setting.heap hs]
      exact (c.world.heap.extends_add _).keepsRealms
    · exact .inr (hsame hs)
  · exact .inr (hsame hs)

/-- **One move keeps instances apart.** -/
theorem Scene.apart_step {c d : Scene} {m : Move} (h : c.world.Apart) (hm : c.step m = some d) :
    d.world.Apart := by
  rcases Scene.realms_step hm with ⟨limits, hw⟩ | ⟨hk, hrealm⟩
  · rw [hw]
    exact h.newInstance limits
  · exact h.of_keepsRealms hk hrealm

/-- **Every instance has a global object of its own**, in every scene that moves lead to. -/
theorem Scene.apart_run {p : Platform} {ms : List Move} {c : Scene}
    (h : (Scene.start p).run ms = some c) : c.world.Apart :=
  Scene.run_induction (P := fun _ c => c.world.Apart) (Scene.apart_start p)
    (fun hd hm => Scene.apart_step hd hm) h

/-! ## As long as an instance is there -/

/-- Whether the instances of a world are in another one too, in the realms that they were in. -/
structure World.Lasts (w w' : World) : Prop where
  heap : w.heap.KeepsRealms w'.heap
  realm : ∀ i x, w.instance? i = some x → ∃ y, w'.instance? i = some y ∧ y.realm = x.realm

theorem Scene.lasts_step {c d : Scene} {m : Move} (hm : c.step m = some d) :
    c.world.Lasts d.world := by
  rcases Scene.realms_step hm with ⟨limits, hw⟩ | ⟨hk, hrealm⟩
  · rw [hw]
    refine ⟨?_, fun i x hx => ?_⟩
    · rw [World.heap_newInstance]
      exact c.world.heap.extends_addRealm.keepsRealms
    · have hold : i ≠ c.world.instances.size := Nat.ne_of_lt (Array.getElem?_eq_some_iff.mp hx).1
      have hrealm : ((c.world.newInstance limits).2.instance? i).map (·.realm) = _ :=
        congrFun (congrArg Setting.realm (World.setting_newInstance c.world limits)) i
      dsimp only at hrealm
      rw [if_neg hold, hx] at hrealm
      exact Option.map_eq_some_iff.mp hrealm
  · refine ⟨hk, fun i x hx => ?_⟩
    obtain ⟨y, hy, hyr⟩ := World.exists_realm (hrealm i).symm hx
    exact ⟨y, hy, hyr⟩

/-- **An instance stays in its realm**, and the realm keeps its global object. -/
theorem Scene.lasts_run {c d : Scene} {ms : List Move} (h : c.run ms = some d) :
    c.world.Lasts d.world := by
  refine Scene.run_induction (P := fun _ d => c.world.Lasts d.world)
    ⟨.refl _, fun _ x hx => ⟨x, hx, rfl⟩⟩ (fun hd hm => ?_) h
  have hstep := Scene.lasts_step hm
  refine ⟨hd.heap.trans hstep.heap, fun i x hx => ?_⟩
  obtain ⟨y, hy, hyr⟩ := hd.realm i x hx
  obtain ⟨z, hz, hzr⟩ := hstep.realm i y hy
  exact ⟨z, hz, hzr.trans hyr⟩

end ScriptBoundary.Boundary
