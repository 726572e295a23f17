import ScriptBoundary.Proofs.Growth
import ScriptBoundary.Proofs.KeyOrder

/-!
# Names along a chain of prototypes

Which names a loop over names meets is decided level by level. A level shows its enumerable names,
except that a name is hidden if a nearer level has it too; and there it need not be enumerable. So
what a level shows depends on all names of the nearer levels, not on what they have shown. That is
why `Heap.forInNames` is stated with `Heap.enumerableNames` for the one and `Heap.ownNames` for the
other.

`Heap.namesBeyond` is the same list as a walk up the chain computes it, with the levels that lie
behind it as an argument. That no name comes twice is shown for the walk: a name of a level is among
the names of that level, and none of those is shown further up.

A chain is finite or runs into a circle. `Heap.ProtoChain` is the finite sort, and since an object
has one prototype only, no object is met twice on it. That bounds its length by the size of the
heap.

## Main results

* `Heap.mem_enumerableNames`, `Heap.mem_ownNames`: which names a level has
* `Heap.nodup_forInNames`: no name comes twice
* `Heap.ProtoChain.length_le`: a chain is no longer than the heap, but for a level missing in it
-/

namespace ScriptBoundary.Script

/-- Keys with the same name are the same, so distinct keys have distinct names. -/
theorem Key.nodup_filterMap_text? {ks : List Key} (h : ks.Nodup) : (ks.filterMap text?).Nodup :=
  h.filterMap fun _ _ _ h₁ h₂ =>
    (text?_eq_some_iff.mp h₁).trans (text?_eq_some_iff.mp h₂).symm

namespace Heap

variable {h : Heap} {r p : Ref} {levels : List Ref}

/-- The own property names of an object, in the order of its keys. -/
def ownNames (h : Heap) (r : Ref) : List Text := (h.object r).keys.filterMap Key.text?

/-- Whether an object shows an enumerable property of its own under a key. -/
def showsEnumerable (h : Heap) (r : Ref) (k : Key) : Bool := (h.ownSlot? r k).any Slot.enumerable

/-- The names of the own properties that are enumerable, in the order of the keys. -/
def enumerableNames (h : Heap) (r : Ref) : List Text :=
  ((h.object r).keys.filter (h.showsEnumerable r)).filterMap Key.text?

/-- The names that a loop over names meets on its way up a chain of objects: on each level those
of the enumerable names that no nearer level has as the name of a property, be it enumerable or
not. -/
def forInNames (h : Heap) (levels : List Ref) : List Text :=
  levels.zipIdx.flatMap fun (r, n) =>
    (h.enumerableNames r).filter fun t => (levels.take n).all fun q => !(h.ownNames q).contains t

/-- An object with its prototypes, the nearest first, up to one that has none. -/
inductive ProtoChain (h : Heap) : Ref → List Ref → Prop where
  | last {r : Ref} (hr : (h.object r).parent? = none) : ProtoChain h r [r]
  | next {r p : Ref} {levels : List Ref} (hr : (h.object r).parent? = some p)
      (hp : ProtoChain h p levels) : ProtoChain h r (r :: levels)

/-! ## Names -/

/-- An object has the names under which it shows a property of its own. -/
theorem mem_ownNames {t : Text} : t ∈ h.ownNames r ↔ (h.ownSlot? r (Key.ofText t)).isSome := by
  rw [ownNames, List.mem_filterMap, ← mem_keys_iff]
  constructor
  · rintro ⟨k, hk, ht⟩
    exact Key.text?_eq_some_iff.mp ht ▸ hk
  · exact fun hk => ⟨_, hk, Key.text?_ofText t⟩

/-- **A name is listed** if there is an enumerable property under it. -/
theorem mem_enumerableNames {t : Text} :
    t ∈ h.enumerableNames r ↔ h.showsEnumerable r (Key.ofText t) = true := by
  rw [enumerableNames, List.mem_filterMap]
  constructor
  · rintro ⟨k, hk, ht⟩
    exact Key.text?_eq_some_iff.mp ht ▸ (List.mem_filter.mp hk).2
  · refine fun ht => ⟨_, List.mem_filter.mpr ⟨mem_keys_iff.mpr ?_, ht⟩, Key.text?_ofText t⟩
    rw [showsEnumerable] at ht
    cases hslot : h.ownSlot? r (Key.ofText t) with
    | none => rw [hslot] at ht; cases ht
    | some s => rfl

theorem mem_ownNames_of_enumerable {t : Text} (ht : t ∈ h.enumerableNames r) :
    t ∈ h.ownNames r := by
  obtain ⟨k, hk, hkt⟩ := List.mem_filterMap.mp ht
  exact List.mem_filterMap.mpr ⟨k, List.mem_of_mem_filter hk, hkt⟩

/-- No name is listed twice for one object. -/
theorem nodup_enumerableNames (h : Heap) (r : Ref) : (h.enumerableNames r).Nodup :=
  Key.nodup_filterMap_text? ((h.object r).nodup_keys.filter _)

/-! ## Levels -/

/-- What the levels of a chain add to the names when other levels are nearer. -/
def namesBeyond (h : Heap) (nearer : List Ref) : List Ref → List Text
  | [] => []
  | r :: levels =>
    (h.enumerableNames r).filter (fun t => !(nearer.flatMap h.ownNames).contains t)
      ++ namesBeyond h (nearer ++ [r]) levels

theorem contains_flatMap (nearer : List Ref) (t : Text) :
    (!(nearer.flatMap h.ownNames).contains t) = nearer.all fun q => !(h.ownNames q).contains t := by
  rw [Bool.eq_iff_iff]
  simp

theorem namesBeyond_eq (nearer levels : List Ref) : h.namesBeyond nearer levels =
    (levels.zipIdx nearer.length).flatMap fun (r, n) => (h.enumerableNames r).filter fun t =>
      ((nearer ++ levels).take n).all fun q => !(h.ownNames q).contains t := by
  induction levels generalizing nearer with
  | nil => rfl
  | cons r levels ih =>
    rw [namesBeyond, ih, List.zipIdx_cons, List.flatMap_cons, List.length_append,
      List.length_singleton, List.append_assoc, List.singleton_append]
    congr 1
    refine List.filter_congr fun t _ => ?_
    rw [contains_flatMap, List.take_left']
    rfl

theorem forInNames_eq (levels : List Ref) : h.forInNames levels = h.namesBeyond [] levels :=
  (namesBeyond_eq [] levels).symm

theorem not_mem_ownNames_of_mem_namesBeyond {nearer levels : List Ref} {t : Text}
    (ht : t ∈ h.namesBeyond nearer levels) : ∀ q ∈ nearer, t ∉ h.ownNames q := by
  induction levels generalizing nearer with
  | nil => cases ht
  | cons r levels ih =>
    rcases List.mem_append.mp ht with ht | ht
    · have hnew := (List.mem_filter.mp ht).2
      rw [contains_flatMap, List.all_eq_true] at hnew
      exact fun q hq hmem => by simpa [hmem] using hnew q hq
    · exact fun q hq => ih ht q (List.mem_append_left _ hq)

theorem nodup_namesBeyond (h : Heap) (nearer levels : List Ref) :
    (h.namesBeyond nearer levels).Nodup := by
  induction levels generalizing nearer with
  | nil => exact .nil
  | cons r levels ih =>
    refine List.nodup_append.mpr
      ⟨(h.nodup_enumerableNames r).filter _, ih _, fun t₁ h₁ t₂ h₂ heq => ?_⟩
    have hown := mem_ownNames_of_enumerable (List.mem_of_mem_filter h₁)
    exact not_mem_ownNames_of_mem_namesBeyond h₂ r (List.mem_append_right _ List.mem_cons_self)
      (heq ▸ hown)

theorem nodup_forInNames (h : Heap) (levels : List Ref) : (h.forInNames levels).Nodup := by
  rw [forInNames_eq]
  exact h.nodup_namesBeyond [] levels

/-! ## The length of a chain -/

namespace ProtoChain

theorem head_eq (hc : h.ProtoChain r levels) : ∃ rest, levels = r :: rest := by
  cases hc with
  | last hr => exact ⟨[], rfl⟩
  | next hr hp => exact ⟨_, rfl⟩

/-- There is one chain from an object. -/
theorem unique {levels' : List Ref} (hc : h.ProtoChain r levels) (hc' : h.ProtoChain r levels') :
    levels = levels' := by
  induction hc generalizing levels' with
  | last hr =>
    cases hc' with
    | last => rfl
    | next hr' => rw [hr] at hr'; cases hr'
  | next hr hp ih =>
    cases hc' with
    | last hr' => rw [hr] at hr'; cases hr'
    | next hr' hp' =>
      obtain rfl := Option.some.inj (hr.symm.trans hr')
      rw [ih hp']

/-- From each of its levels on, a chain is the chain of that level. -/
theorem from_level (hc : h.ProtoChain r levels) {q : Ref} (hq : q ∈ levels) :
    ∃ rest, h.ProtoChain q rest ∧ rest <:+ levels := by
  induction hc with
  | last hr =>
    obtain rfl := List.mem_singleton.mp hq
    exact ⟨_, .last hr, List.suffix_refl _⟩
  | next hr hp ih =>
    rcases List.mem_cons.mp hq with rfl | hq
    · exact ⟨_, .next hr hp, List.suffix_refl _⟩
    · obtain ⟨rest, hrest, hsuffix⟩ := ih hq
      exact ⟨rest, hrest, hsuffix.trans (List.suffix_cons _ _)⟩

/-- No object is met twice, or the chain would go on for ever. -/
theorem nodup (hc : h.ProtoChain r levels) : levels.Nodup := by
  induction hc with
  | last hr => exact List.nodup_singleton _
  | @next r p levels hr hp ih =>
    refine List.nodup_cons.mpr ⟨fun hmem => ?_, ih⟩
    obtain ⟨rest, hrest, hsuffix⟩ := hp.from_level hmem
    have hlen := hsuffix.length_le
    rw [hrest.unique (.next hr hp), List.length_cons] at hlen
    exact Nat.not_succ_le_self _ hlen

/-- All of a chain but its last level is in the heap. -/
theorem lt_of_mem_dropLast (hc : h.ProtoChain r levels) :
    ∀ q ∈ levels.dropLast, q < h.cells.size := by
  induction hc with
  | last hr => exact fun q hq => absurd hq List.not_mem_nil
  | @next r p levels hr hp ih =>
    obtain ⟨rest, rfl⟩ := hp.head_eq
    rw [List.dropLast_cons_of_ne_nil (List.cons_ne_nil _ _)]
    refine List.forall_mem_cons.mpr ⟨?_, ih⟩
    by_contra hge
    rw [object_of_le (Nat.le_of_not_lt hge)] at hr
    cases hr

/-- **A chain is not longer than the heap**, but for one level that may be missing in it. -/
theorem length_le (hc : h.ProtoChain r levels) : levels.length ≤ h.cells.size + 1 := by
  have hsub : levels.dropLast ⊆ List.range h.cells.size :=
    fun q hq => List.mem_range.mpr (hc.lt_of_mem_dropLast q hq)
  have hle := (hc.nodup.sublist (List.dropLast_sublist _)).length_le_of_subset hsub
  rw [List.length_dropLast, List.length_range] at hle
  omega

end ProtoChain

/-- Whether objects are a whole chain of prototypes, all of them ordinary. -/
def isOrdinaryChain (h : Heap) : List Ref → Bool
  | [] => false
  | [r] => (h.object r).isOrdinary && (h.object r).parent? == none
  | r :: p :: levels =>
    (h.object r).isOrdinary && (h.object r).parent? == some p && isOrdinaryChain h (p :: levels)

theorem protoChain_of_isOrdinaryChain (hc : h.isOrdinaryChain (r :: levels) = true) :
    h.ProtoChain r (r :: levels) ∧ ∀ q ∈ r :: levels, (h.object q).isOrdinary = true := by
  induction levels generalizing r with
  | nil =>
    obtain ⟨ho, hr⟩ := Bool.and_eq_true_iff.mp hc
    exact ⟨.last (eq_of_beq hr), List.forall_mem_singleton.mpr ho⟩
  | cons p levels ih =>
    obtain ⟨hhead, hrest⟩ := Bool.and_eq_true_iff.mp hc
    obtain ⟨ho, hr⟩ := Bool.and_eq_true_iff.mp hhead
    obtain ⟨hchain, hordinary⟩ := ih hrest
    exact ⟨.next (eq_of_beq hr) hchain, List.forall_mem_cons.mpr ⟨ho, hordinary⟩⟩

end Heap

end ScriptBoundary.Script
