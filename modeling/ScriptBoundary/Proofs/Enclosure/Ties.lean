import Mathlib.Data.List.Find
import Mathlib.Order.Basic
import ScriptBoundary.Proofs.Enclosure.Closed

/-!
# Elements that share variables

The arguments object of a sloppy call shares its elements with the parameters of the call: such an
element is tied to a variable, is read from it and written to it. If two elements were tied to one
variable, to write one of them would change the other, whatever its key. That does not happen. A
call makes its scope and then its arguments object, which ties one element to each name. Nothing
else ties an element, and all that becomes of a tie later on is that it goes.

None of this is seen in a single step. An edit that makes an arguments object could name any scope,
and it is only the step before it that tells that the scope is new. So the two are taken together,
which is why `Program.Inherits` has a clause for them (`share`), and what scripts do is judged by
the heaps that they come to: a program `KeepsApart` if the elements are apart after each edit of it,
whatever the host leaves behind in between, as long as it keeps them apart as well.

## Main definitions

* `Heap.Apart`: no two elements share a variable
* `Program.KeepsApart`: a program goes from such heaps to such heaps

## Main results

* `Heap.Apart.apply`, `Heap.Apart.untie`, `Heap.Apart.share`: what an edit leaves
* `Comp.Stays.keepsApart`: scripts keep elements apart
-/

namespace ScriptBoundary.Script

/-- An object of the inside of which a key is not tied to a parameter any more. -/
def Nature.untied (n : Nature) (k : Key) : Nature :=
  match n, k with
  | .arguments tied, .index i => .arguments (tied.filter fun t => t.1 != i)
  | n, _ => n

namespace Object

variable {o : Object} {k k' : Key} {p : Ref × String}

/-- Only this key is untied. -/
theorem tiedTo?_untied (o : Object) (k k' : Key) :
    ({ o with nature := o.nature.untied k } : Object).tiedTo? k' =
      if k' = k then none else o.tiedTo? k' := by
  unfold tiedTo? Nature.untied
  cases o.nature with
  | arguments tied =>
    cases k' with
    | index j =>
      cases k with
      | index i =>
        dsimp only
        rw [List.find?_filter]
        by_cases hij : j = i
        · subst hij
          rw [if_pos rfl, Option.map_eq_none_iff, List.find?_eq_none]
          intro t _ ht
          simp at ht
        · rw [if_neg fun h => hij (Key.index.inj h)]
          congr 1
          refine List.find?_congr fun t _ => ?_
          by_cases ht : t.1 = j
          · simp [ht, hij]
          · simp [ht]
      | _ => exact (if_neg nofun).symm
    | _ => cases k <;> exact (ite_self _).symm
  | _ => cases k <;> exact (ite_self _).symm

/-- What is tied stands in the list of an arguments object. -/
theorem exists_tied (h : o.tiedTo? k = some p) :
    ∃ i, k = .index i ∧ (i, p) ∈ o.nature.tied := by
  unfold tiedTo? at h
  split at h
  · next tied i hn =>
    obtain ⟨t, ht, rfl⟩ := Option.map_eq_some_iff.mp h
    have hti : t.1 = i := eq_of_beq (List.find?_some ht :)
    exact ⟨i, rfl, hn ▸ hti ▸ List.mem_of_find?_eq_some ht⟩
  · cases h

theorem tiedTo?_of_tied_eq_nil (h : o.nature.tied = []) : o.tiedTo? k = none := by
  rw [Option.eq_none_iff_forall_ne_some]
  intro p hp
  obtain ⟨i, -, hi⟩ := exists_tied hp
  rw [h] at hi
  cases hi

end Object

namespace Heap

/-- **Whether no two elements share a variable.** What they are tied to is in scopes that are
there. -/
structure Apart (h : Heap) : Prop where
  present : ∀ r k p, (h.object r).tiedTo? k = some p → p.1 < h.cells.size
  alone : ∀ q r k k' p, (h.object q).tiedTo? k = some p → (h.object r).tiedTo? k' = some p →
    q = r ∧ k = k'

variable {h h' : Heap} {r : Ref}

theorem apart_empty : Heap.empty.Apart where
  present _ _ _ hp := by cases hp
  alone _ _ _ _ _ hp _ := by cases hp

namespace Apart

/-- Where nothing is tied that was not tied before, elements stay apart. -/
theorem of_ties (hh : h.Apart) (hsize : h.cells.size ≤ h'.cells.size)
    (hties : ∀ r k p, (h'.object r).tiedTo? k = some p → (h.object r).tiedTo? k = some p) :
    h'.Apart where
  present r k p hp := Nat.lt_of_lt_of_le (hh.present r k p (hties r k p hp)) hsize
  alone q r k k' p hp hp' := hh.alone q r k k' p (hties q k p hp) (hties r k' p hp')

/-- A new cell that ties nothing. -/
theorem add (hh : h.Apart) {c : Cell} (hc : ∀ o, c = .object o → o.nature.tied = []) :
    (h.add c).1.Apart := by
  refine hh.of_ties (h.evolves_add c).size fun r k p hp => ?_
  rw [object_add] at hp
  split at hp
  · cases c with
    | object o =>
      rw [Object.tiedTo?_of_tied_eq_nil (hc o rfl)] at hp
      cases hp
    | _ => cases hp
  · exact hp

/-- An object that is changed without tying anything. -/
theorem updateObject (hh : h.Apart) {f : Object → Object}
    (hf : ∀ o, h.cells[r]? = some (.object o) →
      ∀ k p, (f o).tiedTo? k = some p → o.tiedTo? k = some p) :
    (h.updateObject r f).Apart := by
  refine hh.of_ties Array.size_modify.ge fun q k p hp => ?_
  by_cases hq : q = r
  · subst hq
    by_cases ho : ∃ o, h.cells[q]? = some (.object o)
    · obtain ⟨o, ho⟩ := ho
      rw [object_updateObject ho] at hp
      rw [object_eq_of_getElem? ho]
      exact hf o ho k p hp
    · have hnone : (h.updateObject q f).object q = noObject := by
        rw [object, Heap.updateObject]
        dsimp only
        rw [Array.getElem?_modify, if_pos rfl]
        rcases hc : h.cells[q]? with _ | ⟨o⟩ | _ | _ | _
        case some.object => exact absurd ⟨o, hc⟩ ho
        all_goals rfl
      rw [hnone] at hp
      cases hp
  · rwa [object_updateObject_of_ne hq] at hp

theorem updateScope (hh : h.Apart) (f : Scope → Scope) : (h.updateScope r f).Apart :=
  hh.of_ties Array.size_modify.ge fun q k p hp => by rwa [object_updateScope] at hp

theorem tick (hh : h.Apart) : (h.apply (.tick r)).1.Apart := by
  refine hh.of_ties (h.evolves_tick r).size fun q k p hp => ?_
  rw [Heap.apply] at hp
  split at hp
  · next n hn =>
    have hobject : ({ h with cells := h.cells.setIfInBounds r (.tally (n + 1)) } : Heap).object q =
        h.object q := by
      rw [object, object]
      dsimp only
      rw [Array.getElem?_setIfInBounds]
      by_cases hq : r = q
      · subst hq
        rw [if_pos rfl, if_pos (Array.getElem?_eq_some_iff.mp hn).1, hn]
      · rw [if_neg hq]
    rwa [hobject] at hp
  · exact hp

/-- **An edit that ties nothing** leaves elements apart. -/
theorem apply (hh : h.Apart) {e : Edit} (he : e.tied = []) : (h.apply e).1.Apart := by
  cases e with
  | newObject nature proto props => exact hh.add fun o ho => Cell.object.inj ho ▸ he
  | newScope s => exact hh.add fun o ho => by cases ho
  | newTally => exact hh.add fun o ho => by cases ho
  | newSymbol => exact ⟨hh.present, hh.alone⟩
  | putSlot | dropSlot | setProto | closeObject => exact hh.updateObject fun _ _ _ _ hp => hp
  | setNature r n =>
    refine hh.updateObject fun o _ k p hp => ?_
    split at hp
    · rw [Object.tiedTo?_of_tied_eq_nil (show n.tied = [] from he)] at hp
      cases hp
    · exact hp
  | bind | store | setThis => exact hh.updateScope _
  | tick r => exact hh.tick

/-- An element ceases to be tied. -/
theorem untie (hh : h.Apart) {k : Key} :
    (h.apply (.setNature r ((h.object r).nature.untied k))).1.Apart := by
  refine hh.updateObject fun o ho k' p hp => ?_
  rw [object_eq_of_getElem? ho] at hp
  split at hp
  · rw [Object.tiedTo?_untied] at hp
    split at hp
    · cases hp
    · exact hp
  · exact hp

end Apart

end Heap

/-! ## A new realm -/

namespace Realm

/-- No built-in object ties anything. -/
theorem tied_of_mem_cells {base : Ref} {o : Object} (h : Cell.object o ∈ cells base) :
    o.nature.tied = [] := by
  have hnamed : ∀ realm placed i, (intrinsicObject base realm placed i).nature.tied = [] := by
    intro realm placed i
    rw [intrinsicObject]
    dsimp only
    split
    · rfl
    · cases i <;> rfl
  simp only [cells, Array.mem_append, List.mem_toArray, List.mem_append, List.mem_map] at h
  rcases h with (⟨i, -, hi⟩ | ⟨b, -, hb⟩) | h
  · rw [← Cell.object.inj hi]
    exact hnamed _ _ _
  · rw [← Cell.object.inj hb]
    rfl
  · simp at h

end Realm

theorem Heap.Apart.addRealm {h : Heap} (hh : h.Apart) : h.addRealm.1.Apart := by
  refine hh.of_ties (Boundary.evolves_addRealm h).size fun r k p hp => ?_
  rcases Nat.lt_or_ge r h.cells.size with hr | hr
  · have hold : h.addRealm.1.object r = h.object r := by
      obtain ⟨c, hc⟩ := getElem?_isSome hr
      rw [Heap.object, Heap.object, hc, h.extends_addRealm r c hc]
    exact hold ▸ hp
  · have hnew : h.addRealm.1.cells[r]? = (Realm.cells h.cells.size)[r - h.cells.size]? :=
      Array.getElem?_append_right hr
    rw [Heap.object, hnew] at hp
    split at hp
    · next o ho =>
      rw [Object.tiedTo?_of_tied_eq_nil (Realm.tied_of_mem_cells (Array.mem_of_getElem? ho))] at hp
      cases hp
    · cases hp

/-! ## A call -/

section Params

variable {scope : Ref} {count : Nat} {names : List String} {i j : ArrayIndex} {p : Ref × String}

/-- What is tied to a parameter stands at the last place of its name. -/
theorem exists_param (hi : (i, p) ∈ tiedParams scope count names) :
    ∃ a, ArrayIndex.ofNat? a = some i ∧ p.1 = scope ∧ (p.2, a) ∈ names.zipIdx
      ∧ ∀ b, (p.2, b) ∈ names.zipIdx → b ≤ a := by
  obtain ⟨⟨n, a⟩, hlast, hmade⟩ := List.mem_filterMap.mp hi
  obtain ⟨i', hi', heq⟩ := Option.map_eq_some_iff.mp hmade
  obtain ⟨rfl, rfl⟩ := Prod.mk.inj heq
  obtain ⟨hmem, hcond⟩ := List.mem_filter.mp hlast
  refine ⟨a, hi', rfl, hmem, fun b hb => ?_⟩
  have hnone := (Bool.and_eq_true_iff.mp hcond).2
  rw [Bool.not_eq_true', List.any_eq_false] at hnone
  have hno := hnone (n, b) hb
  simpa using hno

/-- **Each name is tied once.** -/
theorem eq_of_mem_tiedParams (hi : (i, p) ∈ tiedParams scope count names)
    (hj : (j, p) ∈ tiedParams scope count names) : i = j := by
  obtain ⟨a, ha, -, hmem, hlast⟩ := exists_param hi
  obtain ⟨b, hb, -, hmem', hlast'⟩ := exists_param hj
  obtain rfl : a = b := Nat.le_antisymm (hlast' a hmem) (hlast b hmem')
  exact Option.some.inj (ha.symm.trans hb)

end Params

namespace Closure

variable {c : Closure} {scope : Ref} {args : List Value} {i j : ArrayIndex} {p : Ref × String}

/-- What an arguments object shares is in the scope of its call. -/
theorem scope_of_mem_tied (hi : (i, p) ∈ c.tied scope args) : p.1 = scope := by
  unfold tied at hi
  split at hi
  · obtain ⟨a, -, hscope, -⟩ := exists_param hi
    exact hscope
  · cases hi

theorem eq_of_mem_tied (hi : (i, p) ∈ c.tied scope args) (hj : (j, p) ∈ c.tied scope args) :
    i = j := by
  unfold tied at hi hj
  split at hi
  · next hshares =>
    rw [if_pos hshares] at hj
    exact eq_of_mem_tiedParams hi hj
  · cases hi

end Closure

namespace Heap.Apart

variable {h : Heap}

/-- A new object of which each element is tied to another variable of a scope that no element has
been tied to. -/
theorem addTied (hh : h.Apart) {o : Object} {scope : Ref} (hscope : scope < h.cells.size)
    (hfree : ∀ r k p, (h.object r).tiedTo? k = some p → p.1 ≠ scope)
    (hto : ∀ i p, (i, p) ∈ o.nature.tied → p.1 = scope)
    (hone : ∀ i j p, (i, p) ∈ o.nature.tied → (j, p) ∈ o.nature.tied → i = j) :
    (h.add (.object o)).1.Apart := by
  have hobject : ∀ r, (h.add (.object o)).1.object r =
      if r = h.cells.size then o else h.object r := object_add h (.object o)
  have hnew : ∀ k p, o.tiedTo? k = some p → p.1 = scope := fun k p hp => by
    obtain ⟨i, -, hi⟩ := Object.exists_tied hp
    exact hto i p hi
  have hsize := (h.evolves_add (.object o)).size
  constructor
  case present =>
    intro r k p hp
    rw [hobject] at hp
    split at hp
    · rw [hnew k p hp]
      exact Nat.lt_of_lt_of_le hscope hsize
    · exact Nat.lt_of_lt_of_le (hh.present r k p hp) hsize
  case alone =>
    intro q r k k' p hp hp'
    rw [hobject] at hp hp'
    split at hp <;> split at hp'
    · next hq hr =>
      obtain ⟨i, rfl, hi⟩ := Object.exists_tied hp
      obtain ⟨j, rfl, hj⟩ := Object.exists_tied hp'
      exact ⟨hq.trans hr.symm, congrArg Key.index (hone i j p hi hj)⟩
    · exact absurd (hnew k p hp) (hfree r k' p hp')
    · exact absurd (hnew k' p hp') (hfree q k p hp)
    · exact hh.alone q r k k' p hp hp'

/-- **A call ties elements of a new object** to variables of a new scope. -/
theorem share (hh : h.Apart) (s : Scope) (c : Closure) (args : List Value) (proto : Option Ref)
    (props : Props) : ((h.apply (.newScope s)).1.apply
      (.newObject (.arguments (c.tied h.cells.size args)) proto props)).1.Apart := by
  have hscope : (h.apply (.newScope s)).1.Apart := hh.apply rfl
  have hsize : h.cells.size < (h.apply (.newScope s)).1.cells.size :=
    (Array.size_push (Cell.scope s)).symm ▸ Nat.lt_succ_self _
  refine hscope.addTied hsize (fun r k p hp => ?_) (fun i p hi => c.scope_of_mem_tied hi)
    fun i j p hi hj => c.eq_of_mem_tied hi hj
  have hold : (h.object r).tiedTo? k = some p := by
    rw [Heap.apply, object_add] at hp
    split at hp
    · cases hp
    · exact hp
  exact (hh.present r k p hold).ne

end Heap.Apart

/-! ## Scripts -/

/-- **A program that keeps elements apart**, from a heap on, whatever the host leaves behind, as
long as that has them apart as well. -/
def Program.KeepsApart : Program → Heap → Prop
  | .done _, _ => True
  | .look next, h => (next h).KeepsApart h
  | .edit e next, h => (h.apply e).1.Apart ∧ (next (h.apply e).2).KeepsApart (h.apply e).1
  | .call _ next, _ => ∀ (a : Completion Value) (h : Heap), h.Apart → (next a).KeepsApart h
  | .exhausted, _ => True

theorem Program.inherits_keepsApart : Program.Inherits (fun _ => True)
    fun p : Unit → Program => ∀ h : Heap, h.Apart → (p ()).KeepsApart h where
  look _ ih h hh := ih h h.within_everywhere h hh
  edit e _ _ he ih h hh := ⟨hh.apply he, ih _ (fun _ => trivial) _ (hh.apply he)⟩
  call _ _ _ ih _ _ a := ih a a.within_everywhere
  exhausted _ _ := trivial
  untie r k act next ih h hh := by
    show (Program.look _).KeepsApart h
    dsimp only [Program.KeepsApart]
    cases hn : (h.object r).nature with
    | arguments tied =>
      cases k with
      | index i =>
        have huntied := hh.untie (r := r) (k := .index i)
        rw [hn] at huntied
        exact ⟨huntied, ih _ huntied⟩
      | _ => exact ih h hh
    | _ => exact ih h hh
  share s c callee args act next _ _ _ ih h hh :=
    ⟨hh.apply rfl, hh.share s c args _ _, ih _ _ trivial _ (hh.share s c args _ _)⟩

/-- **Scripts keep elements apart.** -/
theorem Comp.Stays.keepsApart {m : Comp Value} {Q : Value → Prop} (hm : m.Stays (fun _ => True) Q)
    (act : Activation) {h : Heap} (hh : h.Apart) : (m.start act).KeepsApart h :=
  hm Unit _ Program.inherits_keepsApart act (fun _ => .done) (fun _ _ _ _ => trivial) h hh

end ScriptBoundary.Script
