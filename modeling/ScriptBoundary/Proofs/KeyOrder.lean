import Mathlib
import ScriptBoundary.Script.Property

/-!
# The own keys of an object

`Object.keys` lists the keys an object has of its own, and enumeration relies on three things about
it: no key is listed twice, the listed keys are those under which a property is found, and they come
in a fixed order. None of this takes a proof about scripts. That a table has no key twice is part of
its type, and so is that a name is not the numeral of an index; the rest is what sorting does.

A string object is the one whose keys are not all in its table: its units come first, and an entry
of the table that a unit hides is not listed again.

## Main results

* `Object.nodup_keys`: no key is listed twice
* `Heap.mem_keys_iff`: the listed keys are those under which there is a property
* `Object.pairwise_keys`, `Object.names_keys`: ascending indices, then the names in the order in
  which they were added, then the symbols
-/

namespace ScriptBoundary.Script

/-- Whether a key may stand before another one in a list of own keys. Two names may stand either
way, and so may two symbols. -/
def Key.MayPrecede : Key → Key → Prop
  | .index i, .index j => i < j
  | .index _, _ => True
  | .name .., .index _ => False
  | .name .., _ => True
  | .symbol _, .symbol _ => True
  | .symbol _, _ => False

namespace Props

variable {ps : Props} {k : Key}

/-! ## The keys of a table -/

theorem find?_isSome : (ps.find? k).isSome ↔ k ∈ ps.keys := by
  rw [find?, Option.isSome_map, Array.find?_isSome, keys, List.mem_map]
  constructor
  · rintro ⟨p, hp, hk⟩
    exact ⟨p, Array.mem_toList_iff.mpr hp, eq_of_beq hk⟩
  · rintro ⟨p, hp, rfl⟩
    exact ⟨p, Array.mem_toList_iff.mp hp, beq_self_eq_true _⟩

theorem perm_indices (ps : Props) : ps.indices.Perm (ps.keys.filterMap Key.index?) :=
  List.mergeSort_perm _ _

theorem mem_indices {i : ArrayIndex} : i ∈ ps.indices ↔ Key.index i ∈ ps.keys := by
  rw [ps.perm_indices.mem_iff, List.mem_filterMap]
  constructor
  · rintro ⟨k, hk, hi⟩
    cases k with
    | index j => exact Option.some.inj hi ▸ hk
    | name t h => cases hi
    | symbol s => cases hi
  · exact fun h => ⟨_, h, rfl⟩

theorem nodup_indices (ps : Props) : ps.indices.Nodup := by
  refine ps.perm_indices.nodup_iff.mpr (ps.distinct.filterMap fun k₁ k₂ i h₁ h₂ => ?_)
  cases k₁ <;> cases k₂ <;> simp_all [Key.index?]

/-- The indices ascend. -/
theorem pairwise_indices (ps : Props) : ps.indices.Pairwise (· < ·) := by
  have htrans : ∀ i j k : ArrayIndex,
      decide (i ≤ j) = true → decide (j ≤ k) = true → decide (i ≤ k) = true := by
    simp only [decide_eq_true_eq]
    exact fun _ _ _ => le_trans
  have htotal : ∀ i j : ArrayIndex, (decide (i ≤ j) || decide (j ≤ i)) = true := by
    simp only [Bool.or_eq_true, decide_eq_true_eq]
    exact le_total
  have hsorted : ps.indices.Pairwise fun i j => decide (i ≤ j) = true :=
    List.pairwise_mergeSort htrans htotal _
  exact hsorted.imp₂ (fun i j hle hne => lt_of_le_of_ne (of_decide_eq_true hle) hne)
    ps.nodup_indices

theorem mem_orderedKeys : k ∈ ps.orderedKeys ↔ k ∈ ps.keys := by
  rw [orderedKeys, List.mem_append, List.mem_append, List.mem_map, List.mem_filter, List.mem_filter]
  cases k with
  | index i => simp [mem_indices, Key.isName, Key.isSymbol]
  | name t h => simp [Key.isName, Key.isSymbol]
  | symbol s => simp [Key.isName, Key.isSymbol]

/-- Indices come first and ascend, and symbols come last. -/
theorem pairwise_orderedKeys (ps : Props) : ps.orderedKeys.Pairwise Key.MayPrecede := by
  have hnames : (ps.keys.filter Key.isName).Pairwise Key.MayPrecede :=
    List.pairwise_of_forall_mem_list fun k₁ h₁ k₂ h₂ => by
      cases k₁ <;> cases k₂ <;> simp_all [Key.isName, Key.MayPrecede]
  have hsymbols : (ps.keys.filter Key.isSymbol).Pairwise Key.MayPrecede :=
    List.pairwise_of_forall_mem_list fun k₁ h₁ k₂ h₂ => by
      cases k₁ <;> cases k₂ <;> simp_all [Key.isSymbol, Key.MayPrecede]
  rw [orderedKeys, List.pairwise_append, List.pairwise_append]
  refine ⟨⟨List.pairwise_map.mpr ps.pairwise_indices, hnames, fun k₁ h₁ k₂ h₂ => ?_⟩, hsymbols,
    fun k₁ h₁ k₂ h₂ => ?_⟩
  · obtain ⟨i, -, rfl⟩ := List.mem_map.mp h₁
    cases k₂ <;> simp_all [Key.isName, Key.MayPrecede]
  · cases k₁ <;> cases k₂ <;> simp_all [Key.isName, Key.isSymbol, Key.MayPrecede]

theorem nodup_orderedKeys (ps : Props) : ps.orderedKeys.Nodup := by
  rw [orderedKeys, List.nodup_append, List.nodup_append]
  refine ⟨⟨ps.nodup_indices.map fun _ _ h => Key.index.inj h, ps.distinct.filter _,
    fun k₁ h₁ k₂ h₂ heq => ?_⟩, ps.distinct.filter _, fun k₁ h₁ k₂ h₂ heq => ?_⟩
  · obtain ⟨i, -, rfl⟩ := List.mem_map.mp h₁
    subst heq
    simp [Key.isName] at h₂
  · subst heq
    cases k₁ <;> simp [Key.isName, Key.isSymbol] at h₁ h₂

theorem names_orderedKeys (ps : Props) :
    ps.orderedKeys.filter Key.isName = ps.keys.filter Key.isName := by
  have hindices : (ps.indices.map Key.index).filter Key.isName = [] :=
    List.filter_eq_nil_iff.mpr fun k hk => by
      obtain ⟨i, -, rfl⟩ := List.mem_map.mp hk
      exact Bool.false_ne_true
  have hsymbols : (ps.keys.filter Key.isSymbol).filter Key.isName = [] :=
    List.filter_eq_nil_iff.mpr fun k hk => by
      cases k <;> simp_all [Key.isName, Key.isSymbol]
  rw [orderedKeys, List.filter_append, List.filter_append, hindices, hsymbols, List.filter_filter,
    List.nil_append, List.append_nil]
  simp only [Bool.and_self]

end Props

/-! ## The keys of an object -/

theorem mem_unitIndices {t : Text} {i : ArrayIndex} : i ∈ unitIndices t ↔ i.val < t.size := by
  rw [unitIndices, List.mem_filterMap]
  constructor
  · rintro ⟨n, hn, hi⟩
    rw [ArrayIndex.ofNat?, Option.dite_none_right_eq_some] at hi
    obtain ⟨_, hi⟩ := hi
    exact Option.some.inj hi ▸ List.mem_range.mp hn
  · exact fun h => ⟨i.val, List.mem_range.mpr h, dif_pos i.isLt⟩

theorem pairwise_unitIndices (t : Text) : (unitIndices t).Pairwise (· < ·) := by
  refine List.pairwise_filterMap.mpr (List.pairwise_lt_range.imp fun {m n} hlt i hi j hj => ?_)
  rw [ArrayIndex.ofNat?, Option.dite_none_right_eq_some] at hi hj
  obtain ⟨_, hi⟩ := hi
  obtain ⟨_, hj⟩ := hj
  rw [← Option.some.inj hi, ← Option.some.inj hj]
  exact hlt

namespace Object

variable {o : Object} {t : Text} {k : Key}

theorem isUnit_index (h : o.nature = .stringBox t) (i : ArrayIndex) :
    o.isUnit (.index i) = decide (i.val < t.size) := by
  unfold isUnit
  rw [h]

theorem keys_stringBox (h : o.nature = .stringBox t) :
    o.keys = (unitIndices t).map Key.index ++ o.props.orderedKeys.filter fun k => !o.isUnit k := by
  unfold keys
  rw [h]

theorem keys_of_ne_stringBox (h : ∀ t, o.nature ≠ .stringBox t) :
    o.keys = o.props.orderedKeys := by
  unfold keys
  split
  · next t ht => exact absurd ht (h t)
  · rfl

/-- A property is in the table, or a unit shows as one. -/
theorem isSome_slot?_iff : (o.slot? k).isSome ↔ k ∈ o.props.keys ∨ o.isUnit k = true := by
  rw [slot?, Option.isSome_or, isSome_unit?, Bool.or_eq_true, Props.find?_isSome, or_comm]

theorem mem_keys : k ∈ o.keys ↔ (o.slot? k).isSome := by
  rw [isSome_slot?_iff]
  by_cases hbox : ∃ t, o.nature = .stringBox t
  · obtain ⟨t, ht⟩ := hbox
    rw [keys_stringBox ht, List.mem_append, List.mem_map, List.mem_filter, Props.mem_orderedKeys]
    cases k with
    | index i =>
      simp [mem_unitIndices, isUnit_index ht]
      by_cases hi : i.val < t.size
      · simp [hi]
      · simp [hi, Nat.le_of_not_lt hi]
    | name u h => simp [isUnit]
    | symbol s => simp [isUnit]
  · have hne : ∀ t, o.nature ≠ .stringBox t := fun t ht => hbox ⟨t, ht⟩
    have hunit : o.isUnit k ≠ true := by
      unfold isUnit
      split
      · next t i ht => exact absurd ht (hne t)
      · exact Bool.false_ne_true
    rw [keys_of_ne_stringBox hne, Props.mem_orderedKeys, or_iff_left hunit]

/-- **The order of own keys**: indices that ascend, then names, then symbols. -/
theorem pairwise_keys (o : Object) : o.keys.Pairwise Key.MayPrecede := by
  unfold keys
  split
  · next t ht =>
    refine List.pairwise_append.mpr ⟨List.pairwise_map.mpr (pairwise_unitIndices t),
      o.props.pairwise_orderedKeys.filter _, fun k₁ h₁ k₂ h₂ => ?_⟩
    obtain ⟨i, hi, rfl⟩ := List.mem_map.mp h₁
    cases k₂ with
    | index j =>
      -- An index that is left in the table is behind the last unit.
      have hj := (List.mem_filter.mp h₂).2
      rw [isUnit_index ht, Bool.not_eq_true', decide_eq_false_iff_not, Nat.not_lt] at hj
      exact Nat.lt_of_lt_of_le (mem_unitIndices.mp hi) hj
    | name u h => trivial
    | symbol s => trivial
  · exact o.props.pairwise_orderedKeys

/-- **No key** is listed twice. -/
theorem nodup_keys (o : Object) : o.keys.Nodup := by
  unfold keys
  split
  · next t ht =>
    have hunits : (unitIndices t).Nodup := (pairwise_unitIndices t).imp fun h => ne_of_lt h
    refine List.nodup_append.mpr ⟨hunits.map fun _ _ h => Key.index.inj h,
      o.props.nodup_orderedKeys.filter _, fun k₁ h₁ k₂ h₂ heq => ?_⟩
    obtain ⟨i, hi, rfl⟩ := List.mem_map.mp h₁
    have hunit := (List.mem_filter.mp (heq ▸ h₂)).2
    rw [isUnit_index ht, decide_eq_true (mem_unitIndices.mp hi)] at hunit
    cases hunit
  · exact o.props.nodup_orderedKeys

/-- **The names** are listed in the order in which they were added. -/
theorem names_keys (o : Object) : o.keys.filter Key.isName = o.props.keys.filter Key.isName := by
  unfold keys
  split
  · next t ht =>
    have hunits : ((unitIndices t).map Key.index).filter Key.isName = [] :=
      List.filter_eq_nil_iff.mpr fun k hk => by
        obtain ⟨i, -, rfl⟩ := List.mem_map.mp hk
        exact Bool.false_ne_true
    have hkept : ∀ k ∈ o.props.orderedKeys,
        (Key.isName k && !o.isUnit k) = Key.isName k := fun k _ => by
      cases k <;> simp [isUnit, Key.isName]
    rw [List.filter_append, hunits, List.filter_filter, List.filter_congr hkept,
      Props.names_orderedKeys]
    rfl
  · exact o.props.names_orderedKeys

end Object

/-- **The own keys** are those under which an object shows a property of its own. -/
theorem Heap.mem_keys_iff {h : Heap} {r : Ref} {k : Key} :
    k ∈ (h.object r).keys ↔ (h.ownSlot? r k).isSome := by
  rw [Object.mem_keys, ownSlot?, Option.isSome_map]

end ScriptBoundary.Script
