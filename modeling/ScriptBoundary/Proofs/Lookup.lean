import ScriptBoundary.Proofs.Enclosure.Ties
import ScriptBoundary.Proofs.GlobalNames
import ScriptBoundary.Proofs.Prototypes

/-!
# Finding, writing and removing properties

What is found under a key is the first property of that key on the way up a chain of prototypes.
`Heap.write` and `Heap.erase` are what assignment and deletion leave, as far as they change
anything, and what is said of them is what is said of any store: one reads back what was written,
and under other keys one finds what was there before.

Two sorts of object make this less than obvious. A string object shows its units as properties
without having them in its table, and the units come first. The arguments of a sloppy call share
elements with parameters: an element is read from the variable and written to it. So another key
would change as well if two elements shared a variable, but no two do (`Heap.Apart`). `Heap.IsStore`
lists what is relied on, and plain objects have all of it (`Heap.IsPlain.isStore`).

## Main results

* `Heap.exists_ownSlot?_write`, `Heap.ownSlot?_write_of_ne`: read after write, here and elsewhere
* `Heap.ownSlot?_erase_self`, `Heap.ownSlot?_erase_of_ne`: the same for a removal
* `Heap.IsPlain.isStore`: which objects are stores
* `Heap.IsStore.found_write_of_ne`, `Heap.IsStore.found_mono`: what is found elsewhere, and later
* `Heap.IsStore.write`, `Heap.IsStore.erase`, `Heap.IsStore.mono`: a store stays one
-/

namespace ScriptBoundary.Script

theorem Props.find?_erase (ps : Props) (k k' : Key) :
    (ps.erase k).find? k' = if k' = k then none else ps.find? k' := by
  rw [find?, find?, erase, ← Array.find?_toList, ← Array.find?_toList, Array.toList_filter,
    List.find?_filter]
  split
  · next h => simp [h]
  · next h =>
    congr 1
    refine List.find?_congr fun p _ => ?_
    by_cases hp : p.1 = k'
    · simp [hp, h]
    · simp [hp]

theorem Scope.find?_store (s : Scope) (name name' : String) (v : Value) :
    (s.store name v).find? name' = if name' = name
      then (s.find? name').map fun b => { b with value := some v } else s.find? name' := by
  rw [find?, find?, store, ← Array.find?_toList, ← Array.find?_toList, Array.toList_map,
    List.find?_map]
  have hname : ((fun b : Binding => b.name == name') ∘ fun b =>
      if b.name == name then { b with value := some v } else b) = fun b => b.name == name' := by
    funext b
    rw [Function.comp_apply]
    split <;> rfl
  rw [hname]
  cases hfound : s.bindings.toList.find? fun b => b.name == name' with
  | none => split <;> rfl
  | some b =>
    obtain rfl : b.name = name' := eq_of_beq (List.find?_some hfound :)
    simp only [Option.map_some, beq_iff_eq]
    split <;> rfl

namespace Object

variable {o : Object} {k k' : Key}

/-- An object without the property of a key. -/
def without (o : Object) (k : Key) : Object :=
  { o with props := o.props.erase k, nature := o.nature.untied k }

theorem tiedTo?_put (o : Object) (k k' : Key) (s : Slot) : (o.put k s).tiedTo? k' = o.tiedTo? k' :=
  rfl

theorem tiedTo?_without (o : Object) (k k' : Key) :
    (o.without k).tiedTo? k' = if k' = k then none else o.tiedTo? k' := o.tiedTo?_untied k k'

theorem isOrdinary_without (o : Object) (k : Key) : (o.without k).isOrdinary = o.isOrdinary := by
  unfold isOrdinary without Nature.untied
  cases o.nature <;> cases k <;> rfl

theorem unit?_without (o : Object) (k k' : Key) : (o.without k).unit? k' = o.unit? k' := by
  unfold unit? without Nature.untied
  cases o.nature <;> cases k <;> rfl

/-- Under other keys an object shows what it showed when a property is put into it, -/
theorem slot?_put_of_ne (h : k' ≠ k) (s : Slot) : (o.put k s).slot? k' = o.slot? k' := by
  have hunit : (o.put k s).unit? k' = o.unit? k' := rfl
  rw [slot?, hunit, put, Props.find?_insert, if_neg h, slot?]

/-- and when one is taken out. -/
theorem slot?_without_of_ne (h : k' ≠ k) : (o.without k).slot? k' = o.slot? k' := by
  rw [slot?, unit?_without, without, Props.find?_erase, if_neg h, slot?]

/-- Under this one it shows nothing then, unless it is that of a unit. -/
theorem slot?_without_self (h : o.isUnit k = false) : (o.without k).slot? k = none := by
  rw [slot?, unit?_without, unit?_eq_none_iff.mpr h, without, Props.find?_erase, if_pos rfl]
  rfl

/-- A unit shows as a property that cannot be written. -/
theorem slot?_of_isUnit (h : o.isUnit k = true) :
    ∃ u, o.slot? k = some ⟨.data (.text u) false, true, false⟩ := by
  rw [← isSome_unit?] at h
  obtain ⟨s, hs⟩ := Option.isSome_iff_exists.mp h
  rw [slot?, hs]
  unfold unit? at hs
  split at hs
  · obtain ⟨u, -, rfl⟩ := Option.map_eq_some_iff.mp hs
    exact ⟨u, rfl⟩
  · cases hs

end Object

namespace Heap

variable {h h' : Heap} {r q : Ref} {k k' : Key} {v : Value} {o : Object} {s : Slot}
  {levels : List Ref}

/-! ## One object -/

/-- The value of a variable, if it has been given one. -/
def stored? (h : Heap) (p : Ref × String) : Option Value :=
  ((h.scope p.1).find? p.2).bind (·.value)

/-- A property as it is seen by who reads it: an element that is tied to a variable has the value of
the variable. -/
def seen (h : Heap) (p : Option (Ref × String)) (s : Slot) : Slot :=
  match p, s.content with
  | some p, .data v w => { s with content := .data ((h.stored? p).getD v) w }
  | _, _ => s

theorem ownSlot?_eq (h : Heap) (r : Ref) (k : Key) :
    h.ownSlot? r k = ((h.object r).slot? k).map (h.seen ((h.object r).tiedTo? k)) := by
  rw [ownSlot?]
  refine Option.map_congr fun s _ => ?_
  unfold seen stored?
  rcases (h.object r).tiedTo? k with _ | ⟨scope, name⟩ <;> cases s.content <;> rfl

theorem scope_store (name : String) : (h.apply (.store r name v)).1.scope q =
    if q = r then (h.scope q).store name v else h.scope q := by
  rw [apply, updateScope, scope, scope]
  dsimp only
  rw [Array.getElem?_modify]
  by_cases hq : q = r
  · subst hq
    rw [if_pos rfl, if_pos rfl]
    have hnone : noScope = noScope.store name v := by rw [Scope.store, noScope, Array.map_empty]
    rcases h.cells[q]? with _ | _ | _ | _ | _
    case some.scope s => rfl
    all_goals exact hnone
  · rw [if_neg (Ne.symm hq), if_neg hq]

/-- Storing in one variable leaves the others alone, -/
theorem stored?_store_of_ne {p p' : Ref × String} (hne : p' ≠ p) :
    (h.apply (.store p.1 p.2 v)).1.stored? p' = h.stored? p' := by
  rw [stored?, scope_store, stored?]
  split
  · next hscope =>
    rw [Scope.find?_store, if_neg fun hname => hne (Prod.ext hscope hname)]
  · rfl

/-- and what is read from that one is what was stored, if anything is. -/
theorem getD_stored?_store (h : Heap) (p : Ref × String) (v : Value) :
    ((h.apply (.store p.1 p.2 v)).1.stored? p).getD v = v := by
  rw [stored?, scope_store, if_pos rfl, Scope.find?_store, if_pos rfl]
  cases (h.scope p.1).find? p.2 <;> rfl

/-- An own property is what it was if the object shows the same, tied to the same variable, and the
variable has not changed. -/
theorem ownSlot?_congr (hslot : (h'.object q).slot? k = (h.object q).slot? k)
    (htied : (h'.object q).tiedTo? k = (h.object q).tiedTo? k)
    (hstored : ∀ p, (h.object q).tiedTo? k = some p → h'.stored? p = h.stored? p) :
    h'.ownSlot? q k = h.ownSlot? q k := by
  rw [ownSlot?_eq, ownSlot?_eq, hslot, htied]
  refine Option.map_congr fun s _ => ?_
  unfold seen
  cases hp : (h.object q).tiedTo? k with
  | none => rfl
  | some p => cases s.content <;> simp only [hstored p hp]

/-- The property that an assignment leaves. -/
def written (h : Heap) (r : Ref) (k : Key) (v : Value) : Slot :=
  match h.ownSlot? r k with
  | some s => ({ value := some v } : Descriptor).layOver s
  | none => Slot.plain v

/-- **What an assignment leaves**: the property has the value, and so has the variable that it is
tied to. -/
def write (h : Heap) (r : Ref) (k : Key) (v : Value) : Heap :=
  let h₁ := (h.apply (.putSlot r k (h.written r k v))).1
  match (h.object r).tiedTo? k with
  | some p => (h₁.apply (.store p.1 p.2 v)).1
  | none => h₁

/-- **What a deletion leaves.** -/
def erase (h : Heap) (r : Ref) (k : Key) : Heap := h.updateObject r (·.without k)

/-- Whether an object takes a value under a key: it has a property that can be written, or it has
none, can get one, and no prototype has one that cannot be written. -/
def admits (h : Heap) (r : Ref) (inherited : Option Slot) (k : Key) : Bool :=
  match h.ownSlot? r k with
  | some s => s.isWritable
  | none => (h.object r).extensible && inherited.all Slot.isWritable

/-- A unit cannot be written or removed. -/
theorem isUnit_of_ownSlot?
    (hfree : ∀ s, h.ownSlot? r k = some s → s.isWritable = true ∨ s.configurable = true) :
    (h.object r).isUnit k = false := by
  by_contra hunit
  rw [Bool.not_eq_false] at hunit
  obtain ⟨u, hu⟩ := Object.slot?_of_isUnit hunit
  have htied : (h.object r).tiedTo? k = none := by
    unfold Object.isUnit at hunit
    unfold Object.tiedTo?
    split at hunit
    · next hn => rw [hn]
    · cases hunit
  have hown := ownSlot?_eq h r k
  rw [hu, htied] at hown
  rcases hfree _ hown with hw | hc
  · cases hw
  · cases hc

theorem isUnit_of_admits {inherited : Option Slot} (ha : h.admits r inherited k = true) :
    (h.object r).isUnit k = false := by
  refine isUnit_of_ownSlot? fun s hown => .inl ?_
  rw [admits, hown] at ha
  exact ha

theorem written_content (hs : ∀ s, h.ownSlot? r k = some s → s.isWritable = true) :
    ∃ w, (h.written r k v).content = .data v w := by
  rw [written]
  cases hown : h.ownSlot? r k with
  | none => exact ⟨true, rfl⟩
  | some s =>
    have hw := hs s hown
    obtain ⟨content, enumerable, configurable⟩ := s
    cases content with
    | data u w => exact ⟨w, rfl⟩
    | accessor g t => cases hw

theorem object_write_of_ne (hq : q ≠ r) : (h.write r k v).object q = h.object q := by
  have hput : (h.apply (.putSlot r k (h.written r k v))).1.object q = h.object q :=
    object_updateObject_of_ne hq
  unfold write
  split
  · exact (object_updateScope _).trans hput
  · exact hput

theorem object_write (ho : h.cells[r]? = some (.object o)) :
    (h.write r k v).object r = o.put k (h.written r k v) := by
  have hput : (h.apply (.putSlot r k (h.written r k v))).1.object r = o.put k (h.written r k v) :=
    object_updateObject ho _
  unfold write
  split
  · exact (object_updateScope _).trans hput
  · exact hput

/-- A variable that the key is not tied to is what it was. -/
theorem stored?_write {p : Ref × String} (hp : (h.object r).tiedTo? k ≠ some p) :
    (h.write r k v).stored? p = h.stored? p := by
  have hput : (h.apply (.putSlot r k (h.written r k v))).1.stored? p = h.stored? p := by
    rw [stored?, stored?]
    exact congrArg (fun s : Scope => (s.find? p.2).bind (·.value)) (scope_updateObject _)
  unfold write
  split
  · next p' hp' =>
    refine (stored?_store_of_ne fun heq => hp ?_).trans hput
    rw [hp', heq]
  · exact hput

theorem size_write (h : Heap) (r : Ref) (k : Key) (v : Value) :
    (h.write r k v).cells.size = h.cells.size := by
  unfold write
  split
  · exact Array.size_modify.trans Array.size_modify
  · exact Array.size_modify

theorem evolves_write (h : Heap) (r : Ref) (k : Key) (v : Value) : h.Evolves (h.write r k v) := by
  unfold write
  split
  · exact (h.evolves_apply _).trans (evolves_apply _ _)
  · exact h.evolves_apply _

theorem evolves_erase (h : Heap) (r : Ref) (k : Key) : h.Evolves (h.erase r k) := by
  refine h.evolves_updateObject r fun o => ⟨?_, rfl⟩
  show o.nature.Evolves (o.nature.untied k)
  unfold Nature.untied
  split
  · next hn =>
    rw [hn]
    exact .inr rfl
  · exact .refl _

/-- **Read after write.** -/
theorem exists_ownSlot?_write (ho : h.cells[r]? = some (.object o))
    (hs : ∀ s, h.ownSlot? r k = some s → s.isWritable = true) :
    ∃ s, (h.write r k v).ownSlot? r k = some s ∧ s.value? = some v := by
  obtain ⟨w, hw⟩ := written_content (v := v) hs
  have hobject := object_eq_of_getElem? ho
  have hunit := isUnit_of_ownSlot? fun s hown => .inl (hs s hown)
  rw [hobject] at hunit
  rw [ownSlot?_eq, object_write ho, Object.slot?_put hunit, if_pos rfl, Object.tiedTo?_put,
    Option.map_some]
  refine ⟨_, rfl, ?_⟩
  unfold seen Slot.value?
  cases hp : o.tiedTo? k with
  | none => rw [hw]
  | some p =>
    rw [hw]
    unfold write
    rw [hobject, hp]
    exact congrArg some (getD_stored?_store _ p v)

/-- **Read elsewhere after write**: everything is as it was, unless it shares the variable. -/
theorem ownSlot?_write_of_ne (ho : h.cells[r]? = some (.object o)) (hne : q = r → k' ≠ k)
    (hshared : ∀ p, (h.object r).tiedTo? k = some p → (h.object q).tiedTo? k' ≠ some p) :
    (h.write r k v).ownSlot? q k' = h.ownSlot? q k' := by
  have hstored : ∀ p, (h.object q).tiedTo? k' = some p →
      (h.write r k v).stored? p = h.stored? p :=
    fun p hp => stored?_write fun heq => hshared p heq hp
  by_cases hq : q = r
  · subst hq
    have hobject := object_eq_of_getElem? ho
    refine ownSlot?_congr ?_ ?_ hstored
    · rw [object_write ho, Object.slot?_put_of_ne (hne rfl), hobject]
    · rw [object_write ho, Object.tiedTo?_put, hobject]
  · exact ownSlot?_congr (by rw [object_write_of_ne hq]) (by rw [object_write_of_ne hq]) hstored

/-- **What was removed is gone.** -/
theorem ownSlot?_erase_self (ho : h.cells[r]? = some (.object o)) (hunit : o.isUnit k = false) :
    (h.erase r k).ownSlot? r k = none := by
  rw [ownSlot?_eq, erase, object_updateObject ho, Object.slot?_without_self hunit]
  rfl

/-- **Everything else is as it was.** -/
theorem ownSlot?_erase_of_ne (ho : h.cells[r]? = some (.object o)) (hne : q = r → k' ≠ k) :
    (h.erase r k).ownSlot? q k' = h.ownSlot? q k' := by
  have hstored : ∀ p, (h.object q).tiedTo? k' = some p →
      (h.erase r k).stored? p = h.stored? p := fun p _ => by
    rw [stored?, stored?, erase, scope_updateObject]
  by_cases hq : q = r
  · subst hq
    have hobject := object_eq_of_getElem? ho
    refine ownSlot?_congr ?_ ?_ hstored
    · rw [erase, object_updateObject ho, Object.slot?_without_of_ne (hne rfl), hobject]
    · rw [erase, object_updateObject ho, Object.tiedTo?_without, if_neg (hne rfl), hobject]
  · have hobject : (h.erase r k).object q = h.object q := object_updateObject_of_ne hq
    exact ownSlot?_congr (by rw [hobject]) (by rw [hobject]) hstored

/-! ## New objects -/

/-- Whether a heap comes of another one by adding objects. -/
structure Grows (h h' : Heap) : Prop where
  cells : h.Extends h'
  size : h.cells.size ≤ h'.cells.size
  scope : ∀ q, h'.scope q = h.scope q

namespace Grows

theorem refl (h : Heap) : h.Grows h := ⟨fun _ _ => id, Nat.le_refl _, fun _ => rfl⟩

theorem trans {h'' : Heap} (hh : h.Grows h') (hh' : h'.Grows h'') : h.Grows h'' :=
  ⟨hh.cells.trans hh'.cells, Nat.le_trans hh.size hh'.size,
    fun q => (hh'.scope q).trans (hh.scope q)⟩

theorem add (h : Heap) (o : Object) : h.Grows (h.add (.object o)).1 := by
  refine ⟨h.extends_add _, Nat.le_of_lt ((h.evolves_add _).size.lt_of_ne ?_), fun q => ?_⟩
  · rw [Heap.add, Array.size_push]
    exact (Nat.succ_ne_self _).symm
  · rw [Heap.scope, Heap.add, Heap.scope]
    dsimp only
    rw [Array.getElem?_push]
    by_cases hq : q = h.cells.size
    · rw [if_pos hq, hq, Array.getElem?_eq_none (Nat.le_refl _)]
    · rw [if_neg hq]

theorem evolves (hh : h.Grows h') : h.Evolves h' :=
  ⟨hh.size, fun q c hc => ⟨c, hh.cells q c hc, .refl c⟩⟩

theorem object (hh : h.Grows h') (hq : q < h.cells.size) : h'.object q = h.object q := by
  obtain ⟨c, hc⟩ := getElem?_isSome hq
  rw [Heap.object, Heap.object, hc, hh.cells q c hc]

theorem ownSlot? (hh : h.Grows h') (hq : q < h.cells.size) (k : Key) :
    h'.ownSlot? q k = h.ownSlot? q k := by
  have hobject := hh.object hq
  refine ownSlot?_congr (by rw [hobject]) (by rw [hobject]) fun p _ => ?_
  rw [stored?, stored?, hh.scope]

end Grows

/-! ## Along a chain -/

/-- **What is found** under a key on the way up a chain: the nearest property. -/
def found (h : Heap) (levels : List Ref) (k : Key) : Option Slot :=
  levels.findSome? (h.ownSlot? · k)

theorem found_cons (r : Ref) (levels : List Ref) (k : Key) :
    h.found (r :: levels) k = (h.ownSlot? r k).or (h.found levels k) := by
  rw [found, List.findSome?_cons]
  cases h.ownSlot? r k <;> rfl

theorem found_congr (hsame : ∀ q ∈ levels, h'.ownSlot? q k = h.ownSlot? q k) :
    h'.found levels k = h.found levels k := by
  induction levels with
  | nil => rfl
  | cons r levels ih =>
    rw [found_cons, found_cons, hsame r List.mem_cons_self,
      ih fun q hq => hsame q (List.mem_cons_of_mem _ hq)]

theorem ProtoChain.congr (hc : h.ProtoChain r levels)
    (hsame : ∀ q ∈ levels, (h'.object q).parent? = (h.object q).parent?) :
    h'.ProtoChain r levels := by
  induction hc with
  | last hr => exact .last ((hsame _ List.mem_cons_self).trans hr)
  | next hr hp ih =>
    exact .next ((hsame _ List.mem_cons_self).trans hr)
      (ih fun q hq => hsame q (List.mem_cons_of_mem _ hq))

/-- **A plain object with its prototypes**: it is no array, whose length depends on its elements,
and none of them is a proxy. -/
structure IsPlain (h : Heap) (r : Ref) (levels : List Ref) : Prop where
  chain : h.ProtoChain r (r :: levels)
  ordinary : ∀ q ∈ r :: levels, (h.object q).isOrdinary = true
  notArray : (h.object r).nature ≠ .array

/-- A plain object of which the laws of a store can be expected. -/
structure IsStore (h : Heap) (r : Ref) (levels : List Ref) : Prop extends h.IsPlain r levels where
  objects : ∀ q ∈ r :: levels, h.IsObject q
  /-- What an element of the object shares with a variable is shared by no other element. -/
  apart : ∀ q ∈ r :: levels, ∀ k k' p, (h.object r).tiedTo? k = some p →
    (h.object q).tiedTo? k' = some p → q = r ∧ k' = k

/-- In a closed heap the prototypes are objects that are there. -/
theorem ProtoChain.isObject (hc : h.ProtoChain r levels) (hh : h.Closed) (hr : h.IsObject r) :
    ∀ q ∈ levels, h.IsObject q := by
  induction hc with
  | last => exact List.forall_mem_singleton.mpr hr
  | @next r p levels hparent _ ih =>
    have hp : h.IsObject p := (hh.object r).proto p (by
      unfold Object.parent? at hparent
      split at hparent
      · exact hparent
      · cases hparent)
    exact List.forall_mem_cons.mpr ⟨hr, ih hp⟩

/-- **A plain object is a store**, where nothing leads to where there is no object and no two
elements share a variable. -/
theorem IsPlain.isStore (hp : h.IsPlain r levels) (hr : h.IsObject r) (hh : h.Closed)
    (ha : h.Apart) : h.IsStore r levels where
  toIsPlain := hp
  objects := hp.chain.isObject hh hr
  apart q _ k k' p htied htied' := ha.alone q r k' k p htied' htied

namespace IsStore

theorem exists_object (hs : h.IsStore r levels) : ∃ o, h.cells[r]? = some (.object o) :=
  hs.objects r List.mem_cons_self

/-- What changes no object but the one at the front, and there only the properties, leaves a
store. -/
theorem congr (hs : h.IsStore r levels) (hh : h.Evolves h')
    (hsame : ∀ q ∈ r :: levels, q ≠ r → h'.object q = h.object q)
    (hparent : (h'.object r).parent? = (h.object r).parent?)
    (hordinary : (h'.object r).isOrdinary = (h.object r).isOrdinary)
    (harray : (h'.object r).nature = .array → (h.object r).nature = .array)
    (htied : ∀ k p, (h'.object r).tiedTo? k = some p → (h.object r).tiedTo? k = some p) :
    h'.IsStore r levels where
  chain := hs.chain.congr fun q hq => by
    by_cases hqr : q = r
    · rw [hqr, hparent]
    · rw [hsame q hq hqr]
  ordinary q hq := by
    by_cases hqr : q = r
    · rw [hqr, hordinary]
      exact hs.ordinary r List.mem_cons_self
    · rw [hsame q hq hqr]
      exact hs.ordinary q hq
  notArray harr := hs.notArray (harray harr)
  objects q hq := hh.isObject q (hs.objects q hq)
  apart q hq k k' p hk hk' := by
    refine hs.apart q hq k k' p (htied k p hk) ?_
    by_cases hqr : q = r
    · subst hqr
      exact htied k' p hk'
    · rwa [hsame q hq hqr] at hk'

/-- An assignment leaves a store. -/
theorem write (hs : h.IsStore r levels) (k : Key) (v : Value) :
    (h.write r k v).IsStore r levels := by
  obtain ⟨o, ho⟩ := hs.exists_object
  have hobject := object_eq_of_getElem? ho
  have hwritten : (h.write r k v).object r = o.put k (h.written r k v) := object_write ho
  refine hs.congr (h.evolves_write r k v) (fun q _ hq => object_write_of_ne hq) ?_ ?_ ?_ ?_ <;>
    rw [hwritten, hobject]
  · rfl
  · rfl
  · exact id
  · exact fun _ _ => id

/-- A deletion leaves a store. -/
theorem erase (hs : h.IsStore r levels) (k : Key) : (h.erase r k).IsStore r levels := by
  obtain ⟨o, ho⟩ := hs.exists_object
  have hobject := object_eq_of_getElem? ho
  have herased : (h.erase r k).object r = o.without k := object_updateObject ho _
  refine hs.congr (h.evolves_erase r k) (fun q _ hq => object_updateObject_of_ne hq) ?_ ?_ ?_ ?_
    <;> rw [herased, hobject]
  · rw [Object.parent?, Object.parent?, Object.isOrdinary_without]
    rfl
  · exact Object.isOrdinary_without o k
  · rw [Object.without]
    unfold Nature.untied
    dsimp only
    split
    · exact nofun
    · exact id
  · intro k' p hp
    rw [Object.tiedTo?_without] at hp
    split at hp
    · cases hp
    · exact hp

/-- New objects leave a store alone. -/
theorem mono (hs : h.IsStore r levels) (hh : h.Grows h') : h'.IsStore r levels := by
  have hobject : ∀ q ∈ r :: levels, h'.object q = h.object q := fun q hq =>
    hh.object (hs.objects q hq).lt
  have hr := hobject r List.mem_cons_self
  refine hs.congr hh.evolves (fun q hq _ => hobject q hq) ?_ ?_ ?_ ?_ <;> rw [hr]
  · exact id
  · exact fun _ _ => id

theorem found_mono (hs : h.IsStore r levels) (hh : h.Grows h') (k : Key) :
    h'.found (r :: levels) k = h.found (r :: levels) k :=
  found_congr fun q hq => hh.ownSlot? (hs.objects q hq).lt k

/-- New objects do not change what an object admits. -/
theorem admits_mono (hs : h.IsStore r levels) (hh : h.Grows h') (k : Key) :
    h'.admits r (h'.found levels k) k = h.admits r (h.found levels k) k := by
  have hr := (hs.objects r List.mem_cons_self).lt
  have hfound : h'.found levels k = h.found levels k :=
    found_congr fun q hq => hh.ownSlot? (hs.objects q (List.mem_cons_of_mem _ hq)).lt k
  rw [admits, admits, hh.ownSlot? hr, hh.object hr, hfound]

/-- What is found elsewhere after a write is what was found before. -/
theorem found_write_of_ne (hs : h.IsStore r levels) (hne : k' ≠ k) (v : Value) :
    (h.write r k v).found (r :: levels) k' = h.found (r :: levels) k' := by
  obtain ⟨o, ho⟩ := hs.exists_object
  exact found_congr fun q hq => ownSlot?_write_of_ne ho (fun _ => hne) fun p hp hp' =>
    hne (hs.apart q hq k k' p hp hp').2

/-- So it is after a removal. -/
theorem found_erase_of_ne (hs : h.IsStore r levels) (hne : k' ≠ k) :
    (h.erase r k).found (r :: levels) k' = h.found (r :: levels) k' := by
  obtain ⟨o, ho⟩ := hs.exists_object
  exact found_congr fun _ _ => ownSlot?_erase_of_ne ho fun _ => hne

end IsStore

end Heap

end ScriptBoundary.Script
