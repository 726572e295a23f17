import ScriptBoundary.Proofs.Enclosure.Basic
import ScriptBoundary.Proofs.Realms

/-!
# Heaps that lead to objects only

A script stays inside every set of cells that nothing in the heap leads out of. The smallest such
set that matters is the set of the objects that the heap has: a heap is `Closed` if whatever is
found in it is an object that is there. The set grows with the heap, but every step adds to it
before it needs the larger one, so it is enough that being inside is monotone in the set.

An empty heap is not closed. A realm that is not there is read as one whose built-in objects begin
at the first address, and only the first realm puts objects there. This is why a heap is closed from
its first realm on, and not before.

## Main results

* `Heap.Within.apply`: an edit inside leaves a heap inside
* `Heap.Closed.apply`, `Heap.Closed.add`: a closed heap stays closed
* `Heap.closed_addRealm`: a realm closes an empty heap, and keeps a closed one closed
-/

namespace ScriptBoundary.Script

variable {K K' : Ref → Prop}

/-! ## Larger sets -/

section Mono

variable (hK : ∀ r, K r → K' r)

include hK

theorem Value.Within.mono {v : Value} (hv : v.Within K) : v.Within K' := by
  cases v with
  | object r => exact hK r hv
  | _ => trivial

theorem ValuesWithin.mono {vs : List Value} (hvs : ValuesWithin K vs) : ValuesWithin K' vs :=
  fun v hv => (hvs v hv).mono hK

theorem ValueWithin?.mono {v : Option Value} (hv : ValueWithin? K v) : ValueWithin? K' v :=
  fun w hw => (hv w hw).mono hK

theorem Completion.Within.mono {c : Completion Value} (hc : c.Within K (Value.Within K)) :
    c.Within K' (Value.Within K') := by
  cases c with
  | limit l => trivial
  | _ => exact Value.Within.mono hK hc

theorem Slot.Within.mono {s : Slot} (hs : s.Within K) : s.Within K' := by
  obtain ⟨content, enumerable, configurable⟩ := s
  cases content with
  | data v => exact Value.Within.mono hK hs
  | accessor g t => exact ⟨hs.1.mono hK, hs.2.mono hK⟩

theorem Props.Within.mono {ps : Props} (hps : ps.Within K) : ps.Within K' :=
  fun p hp => (hps p hp).mono hK

theorem Nature.Within.mono {n : Nature} (hn : n.Within K) : n.Within K' := by
  cases n with
  | bound => exact ⟨hK _ hn.1, hn.2.1.mono hK, hn.2.2.mono hK⟩
  | proxy => exact fun p hp => ⟨hK _ (hn p hp).1, hK _ (hn p hp).2⟩
  | map => exact fun e he p hp => ⟨(hn e he p hp).1.mono hK, (hn e he p hp).2.mono hK⟩
  | set => exact fun e he v hv => (hn e he v hv).mono hK
  | listIterator => exact Value.Within.mono hK hn
  | _ => trivial

theorem Object.Within.mono {o : Object} (ho : o.Within K) : o.Within K' :=
  ⟨ho.nature.mono hK, fun p hp => hK p (ho.proto p hp), ho.props.mono hK⟩

theorem Scope.Within.mono {s : Scope} (hs : s.Within K) : s.Within K' :=
  ⟨fun b hb => ValueWithin?.mono hK (hs.bindings b hb),
    fun c hc => ⟨(hs.call c hc).this.mono hK, (hs.call c hc).newTarget.mono hK⟩⟩

theorem Heap.Within.mono {h : Heap} (hh : h.Within K) : h.Within K' :=
  ⟨fun r => (hh.object r).mono hK, fun r => (hh.scope r).mono hK, fun r i => hK _ (hh.realm r i)⟩

end Mono

/-! ## Heaps by their cells -/

/-- What is found in a cell is inside. The built-in objects of a realm are counted from its base. -/
def Cell.Within (K : Ref → Prop) : Cell → Prop
  | .object o => o.Within K
  | .scope s => s.Within K
  | .realm m => ∀ i : Intrinsic, K (m.base + i.ctorIdx)
  | .tally _ => True

theorem noObject_within : Heap.noObject.Within K := ⟨trivial, (fun _ hp => nomatch hp), .empty⟩

/-- A scope without variables, wherever it leads. -/
theorem emptyScope_within (outer global : Option Ref) :
    Scope.Within K ⟨#[], outer, none, global⟩ :=
  ⟨(fun _ hb => nomatch Array.not_mem_empty _ hb), fun _ hc => nomatch hc⟩

namespace Heap

variable {h : Heap}

/-- **A heap is inside cell by cell**, and where no realm is, the first cells are objects. -/
theorem within_iff :
    h.Within K ↔ (∀ c ∈ h.cells, c.Within K) ∧ ∀ i : Intrinsic, K (0 + i.ctorIdx) := by
  constructor
  · refine fun hh => ⟨fun c hc => ?_, fun i => ?_⟩
    · obtain ⟨r, hr⟩ := Array.mem_iff_getElem?.mp hc
      cases c with
      | object o =>
        have hat := hh.object r
        rwa [object, hr] at hat
      | scope s =>
        have hat := hh.scope r
        rwa [Heap.scope, hr] at hat
      | realm m =>
        have hat := hh.realm r
        rwa [Heap.realm, hr] at hat
      | tally n => trivial
    · have hat := hh.realm h.cells.size i
      rwa [Heap.realm, Array.getElem?_eq_none (Nat.le_refl _)] at hat
  · rintro ⟨hcells, hnone⟩
    refine ⟨fun r => ?_, fun r => ?_, fun r => ?_⟩
    · rw [object]
      split
      · next o ho => exact hcells _ (Array.mem_of_getElem? ho)
      · exact noObject_within
    · rw [Heap.scope]
      split
      · next s hs => exact hcells _ (Array.mem_of_getElem? hs)
      · exact emptyScope_within none none
    · rw [Heap.realm]
      split
      · next m hm => exact hcells _ (Array.mem_of_getElem? hm)
      · exact hnone

/-- Where every cell is inside or was there before, the heap is inside. -/
theorem Within.of_cells {h' : Heap} (hh : h.Within K)
    (hcells : ∀ c ∈ h'.cells, c ∈ h.cells ∨ c.Within K) : h'.Within K := by
  obtain ⟨hold, hnone⟩ := within_iff.mp hh
  exact within_iff.mpr ⟨fun c hc => (hcells c hc).elim (hold c) id, hnone⟩

/-! ## Edits -/

/-- A heap with one more cell. -/
theorem Within.add (hh : h.Within K) {c : Cell} (hc : c.Within K) : (h.add c).1.Within K :=
  hh.of_cells fun _ hd => (Array.mem_push.mp hd).imp_right (by rintro rfl; exact hc)

/-- A heap with a cell that was changed. -/
theorem Within.modify (hh : h.Within K) (r : Ref) {f : Cell → Cell}
    (hf : ∀ c : Cell, c.Within K → (f c).Within K) :
    Within K { h with cells := h.cells.modify r f } := by
  refine hh.of_cells fun c hc => ?_
  obtain ⟨q, hq⟩ := Array.mem_iff_getElem?.mp hc
  rw [Array.getElem?_modify] at hq
  split at hq
  · obtain ⟨d, hd, rfl⟩ := Option.map_eq_some_iff.mp hq
    exact .inr (hf d ((within_iff.mp hh).1 d (Array.mem_of_getElem? hd)))
  · exact .inl (Array.mem_of_getElem? hq)

theorem Within.updateObject (hh : h.Within K) (r : Ref) {f : Object → Object}
    (hf : ∀ o : Object, o.Within K → (f o).Within K) : (h.updateObject r f).Within K :=
  hh.modify r fun c hc => by
    cases c with
    | object o => exact hf o hc
    | _ => exact hc

theorem Within.updateScope (hh : h.Within K) (r : Ref) {f : Scope → Scope}
    (hf : ∀ s : Scope, s.Within K → (f s).Within K) : (h.updateScope r f).Within K :=
  hh.modify r fun c hc => by
    cases c with
    | scope s => exact hf s hc
    | _ => exact hc

end Heap

namespace Scope.Within

variable {s : Scope}

theorem bind (hs : s.Within K) {b : Binding} (hb : b.Within K) : (s.bind b).Within K := by
  rw [Scope.bind]
  split
  · exact ⟨forall_mem_setIfInBounds hs.bindings hb, hs.call⟩
  · exact ⟨Array.forall_mem_push.mpr ⟨hb, hs.bindings⟩, hs.call⟩

theorem store (hs : s.Within K) (name : String) {v : Value} (hv : v.Within K) :
    (s.store name v).Within K := by
  refine ⟨fun b hb => ?_, hs.call⟩
  obtain ⟨c, hc, rfl⟩ := Array.mem_map.mp hb
  split
  · exact ValueWithin?.present hv
  · exact hs.bindings c hc

end Scope.Within

namespace Heap

variable {h : Heap}

/-- **An edit inside** leaves a heap inside. -/
theorem Within.apply (hh : h.Within K) {e : Edit} (he : e.Within K) : (h.apply e).1.Within K := by
  cases e with
  | newObject nature proto props => exact hh.add (c := .object _) ⟨he.1, he.2.1, he.2.2⟩
  | newScope s => exact hh.add (c := .scope s) he
  | newTally => exact hh.add (c := .tally 0) trivial
  | newSymbol => exact ⟨hh.object, hh.scope, hh.realm⟩
  | putSlot r k s =>
    exact hh.updateObject r fun o ho => ⟨ho.nature, ho.proto, ho.props.insert he⟩
  | dropSlot r k => exact hh.updateObject r fun o ho => ⟨ho.nature, ho.proto, ho.props.erase⟩
  | setProto r p => exact hh.updateObject r fun o ho => ⟨ho.nature, he, ho.props⟩
  | closeObject r => exact hh.updateObject r fun o ho => ⟨ho.nature, ho.proto, ho.props⟩
  | setNature r n =>
    refine hh.updateObject r fun o ho => ?_
    split
    · exact ⟨he, ho.proto, ho.props⟩
    · exact ho
  | bind r b => exact hh.updateScope r fun s hs => hs.bind he
  | store r name v => exact hh.updateScope r fun s hs => hs.store name he
  | setThis r v =>
    refine hh.updateScope r fun s hs => ⟨hs.bindings, fun c hc => ?_⟩
    obtain ⟨d, hd, rfl⟩ := Option.map_eq_some_iff.mp hc
    exact ⟨.present he, (hs.call d hd).newTarget⟩
  | tick r =>
    rw [Heap.apply]
    split
    · refine hh.of_cells fun c hc => ?_
      exact (Array.mem_or_eq_of_mem_setIfInBounds hc).imp_right (by rintro rfl; trivial)
    · exact hh

/-! ## Closed heaps -/

/-- Whether there is an object at an address. -/
def IsObject (h : Heap) (r : Ref) : Prop := ∃ o, h.cells[r]? = some (.object o)

/-- **Whether whatever is found in a heap is an object that is there.** -/
def Closed (h : Heap) : Prop := h.Within h.IsObject

variable {h' : Heap}

theorem Evolves.isObject (hh : h.Evolves h') (r : Ref) (hr : h.IsObject r) : h'.IsObject r := by
  obtain ⟨o, ho⟩ := hr
  obtain ⟨c, hc, he⟩ := hh.cell r _ ho
  cases he with
  | object => exact ⟨_, hc⟩

theorem IsObject.lt {r : Ref} (hr : h.IsObject r) : r < h.cells.size := by
  obtain ⟨o, ho⟩ := hr
  exact (Array.getElem?_eq_some_iff.mp ho).1

/-- A closed heap has objects. -/
theorem Closed.size_pos (hh : h.Closed) : 0 < h.cells.size :=
  Nat.zero_lt_of_lt (IsObject.lt (hh.realm 0 .objectPrototype))

theorem isObject_add (h : Heap) (o : Object) : (h.add (.object o)).1.IsObject h.cells.size :=
  ⟨o, Array.getElem?_push_size⟩

/-- An edit that makes an object gives its address. -/
theorem isObject_apply {e : Edit} (he : e.makesObject = true) :
    (h.apply e).1.IsObject (h.apply e).2 := by
  cases e with
  | newObject => exact isObject_add h _
  | _ => cases he

/-- **A closed heap stays closed** when a script changes it, -/
theorem Closed.apply (hh : h.Closed) {e : Edit} (he : e.Within h.IsObject) :
    (h.apply e).1.Closed :=
  (Within.apply hh he).mono (h.evolves_apply e).isObject

/-- and when an object is added to it. -/
theorem Closed.add (hh : h.Closed) {o : Object} (ho : o.Within h.IsObject) :
    (h.add (.object o)).1.Closed :=
  (Within.add hh (c := .object o) ho).mono (h.evolves_add _).isObject

end Heap

/-! ## A new realm -/

namespace Realm

/-- How many objects a realm has. -/
abbrev objects : Nat := Intrinsic.count + Builtin.unnamed.length

variable {base : Ref} (hK : ∀ j < objects, K (base + j))

include hK

theorem within_at (i : Intrinsic) : K (i.at' base) := by
  have hlt : i.ctorIdx < Intrinsic.count := by cases i <;> decide
  exact hK _ (Nat.lt_of_lt_of_le hlt (Nat.le_add_right _ _))

theorem within_placed : ∀ p ∈ placed base, K p.2 := by
  intro p hp
  simp only [placed, List.mem_append, List.mem_map] at hp
  obtain ⟨b, hb, rfl⟩ | ⟨⟨b, i⟩, hb, rfl⟩ := hp
  · obtain ⟨i, hi⟩ := Option.isSome_iff_exists.mp (List.mem_filter.mp hb).2
    rw [cellOf, hi]
    exact within_at hK i
  · have hi : i < Builtin.unnamed.length := List.snd_lt_of_mem_zipIdx hb
    rw [cellOf]
    split
    · exact within_at hK _
    · dsimp only
      rw [Nat.add_assoc]
      exact hK _ (Nat.add_lt_add_left hi _)

theorem within_fields (i : Intrinsic) : ∀ p ∈ i.fields base, p.2.Within K := by
  have hat := within_at hK
  cases i with
  | symbolConstructor =>
    intro p hp
    obtain ⟨q, -, rfl⟩ := List.mem_map.mp hp
    trivial
  | _ =>
    simp [Intrinsic.fields, Intrinsic.errorFields, Intrinsic.tag, Intrinsic.constant, Slot.Within,
      Content.Within, Slot.hidden, Slot.fixed, Slot.readOnly, Value.Within, Value.ofString, hat]

theorem within_links (i : Intrinsic) : ∀ p ∈ links (placed base) base i, p.2.Within K := by
  intro p hp
  obtain ⟨⟨b, r⟩, hb, hlink⟩ := List.mem_filterMap.mp hp
  have hr : K r := within_placed hK _ hb
  dsimp only at hlink
  split at hlink
  · split at hlink
    · cases hlink
      exact within_at hK _
    · split at hlink
      · cases hlink
        exact hr
      · cases hlink
  · cases hlink

omit hK in
/-- The property of its owner that a built-in function is. -/
theorem within_ownerSlot {present : Option Slot} (hp : ∀ s ∈ present, s.Within K) (b : Builtin)
    {r : Ref} (hr : K r) : (ownerSlot present b r).Within K := by
  have hpair : ∀ (g t : Value) (e c : Bool), g.Within K → t.Within K →
      (ownerSlot (some ⟨.accessor g t, e, c⟩) b r).Within K := by
    intro g t e c hg ht
    rw [ownerSlot]
    split
    · exact ⟨hr, ht⟩
    · exact ⟨hg, hr⟩
    · exact hr
  -- What is no accessor counts as one without functions.
  obtain _ | ⟨⟨v, w⟩ | ⟨g, t⟩, e, c⟩ := present
  · exact hpair .undefined .undefined false false trivial trivial
  · exact hpair .undefined .undefined false false trivial trivial
  · exact hpair g t e c (hp _ rfl).1 (hp _ rfl).2

theorem within_functionObject (realm : Ref) (b : Builtin) (parent : Intrinsic) :
    (functionObject base realm b parent).Within K := by
  refine ⟨trivial, fun p hp => Option.some.inj hp ▸ within_at hK parent, .ofList fun p hp => ?_⟩
  simp only [functionProps, List.mem_cons, List.not_mem_nil, or_false] at hp
  rcases hp with rfl | rfl <;> trivial

theorem within_intrinsicObject (realm : Ref) (i : Intrinsic) :
    (intrinsicObject base realm (placed base) i).Within K := by
  have hown : ∀ own : Object, own.Within K → ∀ parent : Option Intrinsic, Object.Within K
      { own with
        proto := parent.map (·.at' base)
        props := (methodsOf i (placed base)).foldl
          (fun (ps : Props) (p : Builtin × Ref) =>
            ps.insert p.1.key (ownerSlot (ps.find? p.1.key) p.1 p.2))
          ((i.fields base ++ links (placed base) base i).foldl
            (fun ps (p : Key × Slot) => ps.insert p.1 p.2) own.props) } := by
    intro own hobject parent
    refine ⟨hobject.nature, fun q hq => ?_, ?_⟩
    · obtain ⟨j, -, rfl⟩ := Option.map_eq_some_iff.mp hq
      exact within_at hK j
    · refine List.foldlRecOn _ _ (List.foldlRecOn _ _ hobject.props fun ps hps p hp => ?_)
        fun ps hps p hp => ?_
      · refine hps.insert ?_
        rcases List.mem_append.mp hp with hp | hp
        · exact within_fields hK i p hp
        · exact within_links hK i p hp
      · exact hps.insert (within_ownerSlot hps.find? p.1
          (within_placed hK p (List.mem_filter.mp hp).1))
  have hnature : i.nature.Within K := by cases i <;> trivial
  rw [intrinsicObject]
  dsimp only
  split
  · exact hown _ (within_functionObject hK realm _ _) _
  · exact hown ⟨i.nature, none, true, ∅, none⟩ ⟨hnature, noObject_within.proto, .empty⟩ _

/-- **A new realm leads to its own objects only.** -/
theorem within_cells : ∀ c ∈ cells base, c.Within K := by
  intro c hc
  simp only [cells, Array.mem_append, List.mem_toArray, List.mem_append, List.mem_map,
    List.mem_cons, List.not_mem_nil, or_false] at hc
  rcases hc with (⟨i, -, rfl⟩ | ⟨b, -, rfl⟩) | rfl | rfl
  · exact within_intrinsicObject hK _ i
  · exact within_functionObject hK _ b _
  · exact emptyScope_within _ _
  · exact within_at hK

end Realm

namespace Heap

variable {h : Heap}

/-- The first cells of a new realm are its objects. -/
theorem isObject_addRealm (h : Heap) {j : Nat} (hj : j < Realm.objects) :
    h.addRealm.1.IsObject (h.cells.size + j) := by
  obtain ⟨o, ho⟩ : ∃ o, (Realm.cells h.cells.size)[j]? = some (.object o) := by
    have hlt : j < Intrinsic.all.length + Builtin.unnamed.length := by
      simpa [Intrinsic.all] using hj
    rw [Realm.cells, Array.getElem?_append_left (by simpa using hlt), List.getElem?_toArray,
      List.getElem?_append]
    split
    · next hnamed =>
      rw [List.getElem?_map, List.getElem?_eq_getElem (by simpa using hnamed)]
      exact ⟨_, rfl⟩
    · next hother =>
      rw [List.length_map] at hother ⊢
      rw [List.getElem?_map, List.getElem?_eq_getElem (by omega)]
      exact ⟨_, rfl⟩
  exact ⟨o, h.getElem?_addRealm ho⟩

/-- **A realm closes an empty heap**, and keeps a closed one closed. -/
theorem closed_addRealm (hh : 0 < h.cells.size → h.Closed) : h.addRealm.1.Closed := by
  have hnew : ∀ j < Realm.objects, h.addRealm.1.IsObject (h.cells.size + j) :=
    fun j hj => h.isObject_addRealm hj
  refine within_iff.mpr ⟨fun c hc => ?_, fun i => ?_⟩
  · rcases Array.mem_append.mp hc with hc | hc
    · have hclosed := (hh (Array.size_pos_of_mem hc)).mono (Boundary.evolves_addRealm h).isObject
      exact (within_iff.mp hclosed).1 c hc
    · exact Realm.within_cells hnew c hc
  · rcases Nat.eq_zero_or_pos h.cells.size with hempty | hpos
    · have hfirst := Realm.within_at hnew i
      rwa [Intrinsic.at', hempty] at hfirst
    · have hclosed := (hh hpos).mono (Boundary.evolves_addRealm h).isObject
      exact (within_iff.mp hclosed).2 i

end Heap

end ScriptBoundary.Script
