import ScriptBoundary.Proofs.Evaluation
import ScriptBoundary.Proofs.Prototypes

/-!
# Listing the names of an object

A request for the names of an object walks up its prototypes, asks each of them twice, and answers
with an array. If a question fails, what was gathered is thrown away, and the array is empty. So
there are two things to know: what the walk gathers where no question fails, and that a failure on
any level, however far up, reaches the request.

An ordinary object answers without a change to the heap. On a chain of ordinary objects the heap is
therefore the same all along, and the walk computes `Heap.namesBeyond`: what it has seen stands for
the levels that lie behind it. The number of steps it is given is enough, because a chain is no
longer than the heap.

A proxy runs traps, which may do anything. But it stays a proxy, and no trap of it says where the
walk goes on, so only the last level of a walk that is still up to the objects can fail, and the
levels before it are ordinary. A walk that fails is described by `FailsFrom` without that knowledge,
with whatever the questions do to the state; `FailsFrom.leads` puts the two together.

## Main results

* `Operation.gives_namesFrom`: what the walk gathers on a chain of ordinary objects
* `FailsFrom.leads`: a level that fails makes the walk fail
* `names_are_listed_whole`: all names that a loop over names meets, each once, or none
-/

namespace ScriptBoundary.Script

open Script.Comp

/-! ## Arrays of texts -/

namespace Props

variable {length : Slot} {elements : List Slot}

theorem find?_listing_length : (listing length elements).find? Key.length = some length := by
  rw [find?, listing, List.find?_toArray,
    List.find?_cons_of_pos (by exact beq_self_eq_true Key.length)]
  rfl

/-- The element with a number is found under that number. -/
theorem find?_elements (elements : List Slot) (start n : Nat) :
    ((elements.zipIdx start).map fun (s, i) => (Key.ofNat i, s)).find?
      (fun p => p.1 == Key.ofNat (start + n)) = elements[n]?.map (Key.ofNat (start + n), ·) := by
  induction elements generalizing start n with
  | nil => rfl
  | cons e elements ih =>
    rw [List.zipIdx_cons, List.map_cons]
    cases n with
    | zero => exact List.find?_cons_of_pos (beq_self_eq_true _)
    | succ n =>
      have hne : (Key.ofNat start == Key.ofNat (start + (n + 1))) = false :=
        beq_false_of_ne fun h => by have := Key.ofNat_injective h; omega
      rw [List.find?_cons_of_neg (by simp [hne]), List.getElem?_cons_succ,
        show start + (n + 1) = start + 1 + n by omega]
      exact ih (start + 1) n

theorem find?_listing_element (n : Nat) :
    (listing length elements).find? (Key.ofNat n) = elements[n]? := by
  have hne : (Key.length == Key.ofNat n) = false := beq_false_of_ne (Key.ofNat_ne_length n).symm
  have hfound := find?_elements elements 0 n
  rw [Nat.zero_add] at hfound
  rw [find?, listing, List.find?_toArray, List.find?_cons_of_neg (by simp [hne]), hfound,
    Option.map_map]
  exact Option.map_id'

end Props

namespace Heap

variable {h : Heap} {realm r : Ref} {names : List Text}

/-- An array of a realm with given elements. -/
def addArray (h : Heap) (realm : Ref) (items : List Value) : Heap × Nat :=
  h.apply (.newObject .array (some ((h.realm realm).base + Intrinsic.arrayPrototype.ctorIdx))
    (.listing ⟨.data (Value.ofNat items.length) true, false, false⟩ (items.map Slot.plain)))

/-- Whether an object is an array whose elements are certain texts. -/
structure ListsTexts (h : Heap) (r : Ref) (names : List Text) : Prop where
  nature : (h.object r).nature = .array
  length : h.ownSlot? r Key.length = some ⟨.data (Value.ofNat names.length) true, false, false⟩
  element : ∀ n, h.ownSlot? r (Key.ofNat n) = names[n]?.map fun t => Slot.plain (.text t)

theorem ownSlot?_of_array (ha : (h.object r).nature = .array) (k : Key) :
    h.ownSlot? r k = (h.object r).props.find? k := by
  have htied : (h.object r).tiedTo? k = none := by
    unfold Object.tiedTo?
    rw [ha]
  have hslot : (h.object r).slot? k = (h.object r).props.find? k :=
    Object.slot?_of_isUnit_eq_false (by unfold Object.isUnit; rw [ha])
  rw [ownSlot?, hslot, htied]
  exact Option.map_id'

theorem listsTexts_addArray (h : Heap) (realm : Ref) (names : List Text) :
    (h.addArray realm (names.map .text)).1.ListsTexts (h.addArray realm (names.map .text)).2
      names := by
  have hobject : (h.addArray realm (names.map .text)).1.object
      (h.addArray realm (names.map .text)).2 = ⟨.array, _, true, .listing
        ⟨.data (Value.ofNat (names.map Value.text).length) true, false, false⟩
        ((names.map Value.text).map Slot.plain), none⟩ := (object_add h _ _).trans (if_pos rfl)
  have hnature : ((h.addArray realm (names.map .text)).1.object
      (h.addArray realm (names.map .text)).2).nature = .array := congrArg Object.nature hobject
  refine ⟨hnature, ?_, fun n => ?_⟩
  · rw [ownSlot?_of_array hnature, hobject, Props.find?_listing_length, List.length_map]
  · rw [ownSlot?_of_array hnature, hobject, Props.find?_listing_element, List.map_map,
      List.getElem?_map]
    rfl

end Heap

theorem gives_newArray {act : Activation} {h : Heap} (items : List Value) :
    (newArray items).Gives act h (h.addArray act.realm items).2 (h.addArray act.realm items).1 :=
  (gives_intrinsic _).bind (gives_perform _)

/-! ## Asking an ordinary object -/

section Asking

variable {act : Activation} {h : Heap} {r : Ref} {α : Type}

theorem gives_ownKeys (hr : (h.object r).isOrdinary = true) :
    (machine.ownKeys r).Gives act h (h.object r).keys h := by
  obtain ⟨m, hm⟩ := Boundary.exists_machine_step
  rw [Machine.ownKeys, hm]
  exact gives_onProxy hr ((gives_inspect _).bind (gives_pure _))

theorem gives_getOwn (hr : (h.object r).isOrdinary = true) (k : Key) :
    (machine.getOwn r k).Gives act h (h.ownSlot? r k) h := by
  obtain ⟨m, hm⟩ := Boundary.exists_machine_step
  rw [Machine.getOwn, hm]
  exact gives_onProxy hr (gives_inspect _)

namespace Builtin

/-- The keys of an object that are not symbols, with their names. -/
def named (r : Ref) (ks : List Key) : List (Ref × Key × Text) :=
  ks.filterMap fun k => k.text?.map fun t => (r, k, t)

theorem map_named (r : Ref) (ks : List Key) :
    (named r ks).map (·.2.2) = ks.filterMap Key.text? := by
  rw [named, List.map_filterMap]
  refine List.filterMap_congr fun k _ => ?_
  cases k.text? <;> rfl

theorem filter_named (p : Key → Bool) (r : Ref) (ks : List Key) :
    (named r ks).filter (fun x => p x.2.1) = named r (ks.filter p) := by
  rw [named, named, List.filter_filterMap, List.filterMap_filter]
  refine List.filterMap_congr fun k _ => ?_
  cases ht : k.text? <;> cases hp : p k <;> simp [hp]

theorem gives_ownNames (hr : (h.object r).isOrdinary = true) :
    (ownNames machine (.object r) false).Gives act h (named r (h.object r).keys) h :=
  (gives_pure r).bind ((gives_ownKeys hr).bind (gives_pure _))

theorem gives_ownNames_enumerable (hr : (h.object r).isOrdinary = true) :
    (ownNames machine (.object r) true).Gives act h
      (named r ((h.object r).keys.filter (h.showsEnumerable r))) h := by
  rw [← filter_named]
  refine (gives_pure r).bind ((gives_ownKeys hr).bind (gives_foldList_filter ?_ []))
  intro x hx out
  obtain ⟨k, -, hk⟩ := List.mem_filterMap.mp hx
  obtain ⟨t, -, rfl⟩ := Option.map_eq_some_iff.mp hk
  refine (gives_getOwn hr k).bind ?_
  dsimp only
  rw [Heap.showsEnumerable]
  cases h.ownSlot? r k <;> exact gives_pure _

end Builtin

end Asking

/-! ## Objects that stand for values -/

/-- Where something runs that keeps values alive. -/
def Activation.keeping (act : Activation) (vs : List Value) : Activation :=
  { act with held := vs.flatMap Value.links ++ act.held }

/-- **A value that is not undefined or null** is an object, or is wrapped in a new one. -/
theorem exists_gives_toObject {act : Activation} {h : Heap} {v : Value} (hv : v.isNullish = false) :
    ∃ r h', (toObject v).Gives act h r h' ∧ h'.cells.size ≤ h.cells.size + 1 := by
  have hbox : ∀ (n : Nature) (i : Intrinsic) (props : Props), ∃ r h',
      (intrinsic i >>= fun p => newObject n (some p) props : Comp Ref).Gives act h r h'
        ∧ h'.cells.size ≤ h.cells.size + 1 := fun n i props =>
    ⟨_, _, (gives_intrinsic i).bind (gives_newObject n _ props), Nat.le_of_eq (Array.size_push _)⟩
  cases v with
  | undefined => cases hv
  | null => cases hv
  | object r => exact ⟨r, h, gives_pure r, Nat.le_succ _⟩
  | _ => exact hbox _ _ _

/-- What cannot be asked without a trap will never be: a proxy stays one. -/
theorem Heap.Evolves.isOrdinary {h h' : Heap} {r : Ref} (hh : h.Evolves h')
    (hr : (h'.object r).isOrdinary = true) : (h.object r).isOrdinary = true := by
  by_cases hlt : r < h.cells.size
  · have hnature := hh.nature hlt
    rw [Object.isOrdinary] at hr ⊢
    split
    · next hproxy =>
      rw [hproxy] at hnature
      rw [hnature.eq_of_fixed fun m => by cases m <;> rfl] at hr
      cases hr
    · rfl
  · rw [object_of_le (Nat.le_of_not_lt hlt)]
    rfl

/-- Whether an object is a proxy that has been revoked. -/
def Nature.isRevoked : Nature → Bool
  | .proxy none _ _ => true
  | _ => false

theorem Nature.eq_of_isRevoked {n : Nature} (h : n.isRevoked = true) :
    ∃ callable isConstructor, n = .proxy none callable isConstructor := by
  cases n with
  | proxy parts callable isConstructor =>
    cases parts with
    | none => exact ⟨callable, isConstructor, rfl⟩
    | some _ => cases h
  | _ => cases h

end ScriptBoundary.Script

namespace ScriptBoundary.Boundary

open Script (Activation Comp Completion Failure Heap Ref)

/-! ## The walk -/

namespace Operation

open Script.Comp

variable {act : Activation} {h : Heap} {r : Ref} {levels : List Ref} {fuel : Nat}

/-- There is a step for each level that is left. -/
theorem exists_fuel (h : (r :: levels).length ≤ fuel) :
    ∃ rest, fuel = rest + 1 ∧ levels.length ≤ rest :=
  ⟨fuel - 1, (Nat.sub_add_cancel (Nat.le_trans (Nat.le_add_left 1 _) h)).symm,
    Nat.le_sub_one_of_lt h⟩

/-- An ordinary object shows the prototype that it was given. -/
theorem proto_eq_parent? {o : Script.Object} (ho : o.isOrdinary = true) : o.proto = o.parent? := by
  rw [Script.Object.parent?, if_pos ho]

/-- Without the prototypes, the walk ends at the first level. -/
theorem gives_namesFrom_own (hr : (h.object r).isOrdinary = true) :
    (namesFrom false (fuel + 1) r []).Gives act h (h.enumerableNames r) h := by
  refine (Script.Builtin.gives_ownNames_enumerable hr).bind ?_
  have hall : ∀ ts : List Text, ts.filter (fun t => !([] : List Text).contains t) = ts :=
    fun ts => List.filter_eq_self.mpr fun _ _ => rfl
  rw [Script.Builtin.map_named, hall]
  exact gives_pure _

/-- **The walk up a chain of ordinary objects.** What it has seen are the names of the levels that
lie behind it. -/
theorem gives_namesFrom (hc : h.ProtoChain r levels)
    (ho : ∀ q ∈ levels, (h.object q).isOrdinary = true) (nearer : List Ref)
    (hfuel : levels.length ≤ fuel) : (namesFrom true fuel r (nearer.flatMap h.ownNames)).Gives act h
      (h.namesBeyond nearer levels) h := by
  induction hc generalizing nearer fuel with
  | @last r hr =>
    obtain ⟨fuel, rfl, -⟩ := exists_fuel hfuel
    have hordinary := ho r List.mem_cons_self
    refine (Script.Builtin.gives_ownNames_enumerable hordinary).bind
      ((Script.Builtin.gives_ownNames hordinary).bind ((gives_inspect _).bind ?_))
    rw [proto_eq_parent? hordinary, hr, Script.Builtin.map_named, Heap.namesBeyond,
      Heap.namesBeyond, List.append_nil]
    exact gives_pure _
  | @next r p levels hr hp ih =>
    obtain ⟨fuel, rfl, hlen⟩ := exists_fuel hfuel
    have hordinary := ho r List.mem_cons_self
    have hseen : (nearer ++ [r]).flatMap h.ownNames = nearer.flatMap h.ownNames
        ++ (Script.Builtin.named r (h.object r).keys).map (·.2.2) := by
      rw [List.flatMap_append, List.flatMap_singleton, Script.Builtin.map_named]
      rfl
    have hrest := ih (fun q hq => ho q (List.mem_cons_of_mem _ hq)) (nearer ++ [r]) hlen
    rw [hseen] at hrest
    refine (Script.Builtin.gives_ownNames_enumerable hordinary).bind
      ((Script.Builtin.gives_ownNames hordinary).bind ((gives_inspect _).bind ?_))
    rw [proto_eq_parent? hordinary, hr, Script.Builtin.map_named, Heap.namesBeyond]
    exact hrest.bind (gives_pure _)

end Operation

/-! ## Levels that fail -/

section Failing

variable {σ : Type} {host : Host σ} {n : Nat} {act : Activation} {inherited : Bool} {r : Ref}
  {s t u : State σ} {f : Failure} {v : Script.Value}

/-- Whether the walk from an object on meets a level whose own keys cannot be had. A level is asked
twice: for the names that are enumerable, and for all of them if the walk goes on. -/
inductive FailsFrom (host : Host σ) (n : Nat) (act : Activation) (inherited : Bool) :
    Ref → State σ → Failure → State σ → Prop where
  /-- The level cannot say which names are enumerable. -/
  | enumerable {r : Ref} {s t : State σ} {f : Failure}
      (hf : (Script.Builtin.ownNames Script.machine (.object r) true).Leads host n act s
        f.completion t) : FailsFrom host n act inherited r s f t
  /-- The level cannot say which names there are. -/
  | all {r : Ref} {s u t : State σ} {f : Failure} {es : List (Ref × Script.Key × Text)}
      (hi : inherited = true)
      (he : (Script.Builtin.ownNames Script.machine (.object r) true).Leads host n act s
        (.value es) u)
      (hf : (Script.Builtin.ownNames Script.machine (.object r) false).Leads host n act u
        f.completion t) : FailsFrom host n act inherited r s f t
  /-- It is a level further up. -/
  | above {r p : Ref} {s u v t : State σ} {f : Failure} {es ks : List (Ref × Script.Key × Text)}
      (hi : inherited = true)
      (he : (Script.Builtin.ownNames Script.machine (.object r) true).Leads host n act s
        (.value es) u)
      (hk : (Script.Builtin.ownNames Script.machine (.object r) false).Leads host n act u
        (.value ks) v)
      (hp : (v.world.heap.object r).parent? = some p)
      (hf : FailsFrom host n act inherited p v f t) : FailsFrom host n act inherited r s f t

/-- An ordinary object has its own keys at hand. -/
theorem not_leads_failure (hr : (s.world.heap.object r).isOrdinary = true) (enumerable : Bool) :
    ¬(Script.Builtin.ownNames Script.machine (.object r) enumerable).Leads host n act s
      f.completion t := by
  intro hf
  cases enumerable with
  | false =>
    obtain ⟨hc, -⟩ := hf.unique (Script.Builtin.gives_ownNames hr).leads_same
    cases f <;> cases hc
  | true =>
    obtain ⟨hc, -⟩ := hf.unique (Script.Builtin.gives_ownNames_enumerable hr).leads_same
    cases f <;> cases hc

theorem parent?_of_not_isOrdinary (hh : s.world.heap.Evolves t.world.heap)
    (hr : (s.world.heap.object r).isOrdinary = false) :
    (t.world.heap.object r).parent? = none := by
  refine if_neg fun ht => ?_
  rw [hh.isOrdinary ht] at hr
  cases hr

/-- **The walk fails with the level.** The levels before it are ordinary and change nothing, so it
lies on the chain as it was at the start, and the walk gets there. -/
theorem FailsFrom.leads (hf : FailsFrom host n act inherited r s f t) :
    ∃ levels, s.world.heap.ProtoChain r levels ∧ ∀ fuel seen, levels.length ≤ fuel →
      (Operation.namesFrom inherited fuel r seen).Leads host n act s f.completion t := by
  have hproxy : ∀ {r : Ref} {s : State σ}, (s.world.heap.object r).isOrdinary ≠ true →
      s.world.heap.ProtoChain r [r] := fun h => .last
    (parent?_of_not_isOrdinary (.refl _) (Bool.eq_false_iff.mpr h))
  induction hf with
  | @enumerable r s t f hf =>
    refine ⟨[r], hproxy fun hr => not_leads_failure hr true hf, fun fuel seen hfuel => ?_⟩
    obtain ⟨fuel, rfl, -⟩ := Operation.exists_fuel hfuel
    exact hf.fail _
  | @all r s u t f es hi he hf =>
    refine ⟨[r], hproxy fun hr => ?_, fun fuel seen hfuel => ?_⟩
    · obtain ⟨-, rfl⟩ := he.unique (Script.Builtin.gives_ownNames_enumerable hr).leads_same
      exact not_leads_failure hr false hf
    · obtain ⟨fuel, rfl, -⟩ := Operation.exists_fuel hfuel
      subst hi
      exact he.bind (hf.fail _)
  | @above r p s u v t f es ks hi he hk hp hf ih =>
    obtain ⟨levels, hc, hleads⟩ := ih
    have hr : (s.world.heap.object r).isOrdinary = true := by
      by_contra hr
      rw [parent?_of_not_isOrdinary (he.evolves.trans hk.evolves) (Bool.eq_false_iff.mpr hr)] at hp
      cases hp
    obtain ⟨-, rfl⟩ := he.unique (Script.Builtin.gives_ownNames_enumerable hr).leads_same
    obtain ⟨-, rfl⟩ := hk.unique (Script.Builtin.gives_ownNames hr).leads_same
    refine ⟨r :: levels, .next hp hc, fun fuel seen hfuel => ?_⟩
    obtain ⟨fuel, rfl, hrest⟩ := Operation.exists_fuel hfuel
    subst hi
    refine he.bind (hk.bind ((Comp.gives_inspect _).leads_same.bind ?_))
    rw [Operation.proto_eq_parent? hr, hp]
    exact (hleads fuel _ hrest).fail _

/-- **A revoked proxy** cannot say what its own keys are. -/
theorem exists_leads_ownNames_revoked (hr : (s.world.heap.object r).nature.isRevoked = true)
    (enumerable : Bool) : ∃ f t, (Script.Builtin.ownNames Script.machine (.object r)
      enumerable).Leads host n act s (Failure.completion f) t := by
  obtain ⟨callable, isConstructor, hnature⟩ := Script.Nature.eq_of_isRevoked hr
  obtain ⟨m, hm⟩ := exists_machine_step
  have hkeys : ∃ f t, (Script.machine.ownKeys r).Leads host n act s (Failure.completion f) t := by
    obtain ⟨e, t, hthrown⟩ := Comp.leads_throwType "Proxy target and handler are empty"
    refine ⟨.thrown e, t, ?_⟩
    rw [Script.Machine.ownKeys, hm]
    refine (Comp.gives_inspect _).leads_same.bind ?_
    rw [hnature]
    exact Comp.Leads.fail (f := .thrown e) hthrown _
  obtain ⟨f, t, hf⟩ := hkeys
  exact ⟨f, t, (Comp.gives_pure r).leads_same.bind (hf.fail _)⟩

/-- Whether a value stands for a certain object: for itself, or for one it has been wrapped in. -/
def Opens (host : Host σ) (n : Nat) (act : Activation) (v : Script.Value) (s : State σ) (r : Ref)
    (t : State σ) : Prop :=
  (Script.toObject v).Leads host n (act.keeping [v]) s (.value r) t

theorem exists_opens (hv : v.isNullish = false) : ∃ r t, Opens host n act v s r t := by
  obtain ⟨r, h', hgives, -⟩ := Script.exists_gives_toObject hv
  exact ⟨r, _, hgives.leads rfl⟩

/-- An object stands for itself. -/
theorem opens_object (q : Ref) : Opens host n act (.object q) s q s :=
  (Comp.gives_pure q).leads_same

/-- Nothing stands for undefined and null, and wrapping a value takes one object at most. -/
theorem Opens.size_le (ho : Opens host n act v s r t) :
    t.world.heap.cells.size ≤ s.world.heap.cells.size + 1 := by
  have hraised : ∀ message, ¬(Comp.throwType message : Comp Ref).Leads host n (act.keeping [v]) s
      (.value r) t := fun message hleads => by
    obtain ⟨e, u, hthrown⟩ := Comp.leads_throwType message
    cases (hleads.unique hthrown).1
  cases hv : v.isNullish with
  | true =>
    cases v with
    | undefined => exact absurd ho (hraised _)
    | null => exact absurd ho (hraised _)
    | _ => cases hv
  | false =>
    obtain ⟨q, h', hgives, hsize⟩ := Script.exists_gives_toObject hv
    obtain ⟨-, rfl⟩ := ho.unique (hgives.leads rfl)
    exact hsize

namespace Operation

theorem leads_names {c : Completion (List Text)} (ho : Opens host n act v s r t)
    (hw : (namesFrom inherited (s.world.heap.cells.size + 2) r []).Leads host n (act.keeping [v]) t
      c u) : (names v inherited).Leads host n act s c u :=
  (Comp.gives_inspect _).leads_same.bind (ho.bind hw)

theorem leads_keys {ts : List Text} (hn : (names v inherited).Leads host n act s (.value ts) t) :
    (keys v inherited).Leads host n act s
      (.value (.object (t.world.heap.addArray act.realm (ts.map .text)).2))
      (t.withHeap (t.world.heap.addArray act.realm (ts.map .text)).1) :=
  hn.bind (((Script.gives_newArray _).bind (Comp.gives_pure (Script.Value.object _))).leads rfl)

theorem leads_names_own (ho : Opens host n act v s r t)
    (hr : (t.world.heap.object r).isOrdinary = true) :
    (names v false).Leads host n act s (.value (t.world.heap.enumerableNames r)) t :=
  leads_names ho (gives_namesFrom_own hr).leads_same

theorem leads_names_inherited {levels : List Ref} (ho : Opens host n act v s r t)
    (hc : t.world.heap.ProtoChain r levels)
    (hr : ∀ q ∈ levels, (t.world.heap.object q).isOrdinary = true) :
    (names v true).Leads host n act s (.value (t.world.heap.forInNames levels)) t := by
  have hlen : levels.length ≤ s.world.heap.cells.size + 2 :=
    Nat.le_trans hc.length_le (Nat.succ_le_succ ho.size_le)
  rw [Heap.forInNames_eq]
  exact leads_names ho (gives_namesFrom hc hr [] hlen).leads_same

theorem leads_names_failure (ho : Opens host n act v s r t)
    (hf : FailsFrom host n (act.keeping [v]) inherited r t f u) :
    (names v inherited).Leads host n act s f.completion u := by
  obtain ⟨levels, hc, hleads⟩ := hf.leads
  exact leads_names ho (hleads _ [] (Nat.le_trans hc.length_le (Nat.succ_le_succ ho.size_le)))

end Operation

end Failing

/-! ## Requests -/

/-- The state in which an operation on an instance does its work. -/
def State.occupied {σ : Type} (s : State σ) (i : InstanceId) : State σ :=
  { s with world := s.world.occupy i }

/-- Whether a request for the names of an object is answered with certain names, in a new array. -/
def ListedAs {σ : Type} (host : Host σ) (n : Nat) (s : State σ) (i : InstanceId) (object : Handle)
    (inherited : Bool) (ts : List Text) : Prop :=
  ∃ h a t, answer (invokeAt host n) (.keys i object inherited) s = .ok (h, t)
    ∧ t.world.referent h = .object a ∧ s.world.heap.cells.size ≤ a ∧ t.world.heap.ListsTexts a ts

section Answers

variable {σ : Type} {host : Host σ} {n : Nat} {act : Activation} {inherited : Bool} {s t : State σ}
  {f : Failure} {i : InstanceId} {object : Handle} {w : World}

theorem State.heap_occupied (s : State σ) (i : InstanceId) :
    (s.occupied i).world.heap = s.world.heap := (World.SameStore.occupy s.world i).heap

/-- A handle that is made for an array at the end of a request. -/
theorem listedAs_of_newHandle {a : Ref} {ts : List Text} {own : Bool}
    (hanswer : answer (invokeAt host n) (.keys i object inherited) s =
      .ok ((w.newHandle i (.object a)).1,
        { t with world := (w.newHandle i (.object a)).2.relinquish own i }))
    (ha : s.world.heap.cells.size ≤ a) (hl : w.heap.ListsTexts a ts) :
    ListedAs host n s i object inherited ts := by
  have hstore := World.SameStore.relinquish (w.newHandle i (.object a)).2 own i
  refine ⟨_, a, _, hanswer, (hstore.referent _).trans (World.referent_newHandle_new w i _), ha, ?_⟩
  rw [hstore.heap, World.heap_congr (World.setting_newHandle w i _)]
  exact hl

/-- The handle that is handed out when the names have been listed, or could not be. -/
def handOutNames (i : InstanceId) (act : Activation) : Completion Script.Value → Run σ Handle
  | .value names => Run.alter (·.newHandle i names)
  | failure => do
    Run.update fun w => w.note (.namesLost (w.heap.describeFailure failure))
    Run.alter (·.newArray i act.realm)

/-- A request for names runs its script in the context found for it. -/
theorem answer_keys (hact : s.world.context? i = some act) {c : Completion Script.Value}
    (hk : (Operation.keys (s.world.referent object) inherited).Leads host n act (s.occupied i)
      c t) : answer (invokeAt host n) (.keys i object inherited) s =
        match handOutNames i act c t with
        | .ok (h, t) => .ok (h, { t with world := t.world.relinquish (s.world.usesOwn i) i })
        | .error e => .error e := by
  have hreferent : (s.occupied i).world.referent object = s.world.referent object :=
    (World.SameStore.occupy s.world i).referent object
  refine (answer_eq_inContext (r := .keys i object inherited) rfl rfl).trans
    ((inContext_of_context hact _).trans ?_)
  rw [Run.bind_apply, Run.view_apply]
  dsimp only
  rw [State.occupied] at hreferent hk
  rw [hreferent, Run.bind_apply, hk.runIn_eq]
  cases c <;> rfl

theorem size_le_of_leads {α : Type} {m : Comp α} {c : Completion α}
    (hm : m.Leads host n act (s.occupied i) c t) :
    s.world.heap.cells.size ≤ t.world.heap.cells.size :=
  s.heap_occupied i ▸ hm.evolves.size

/-- The names are listed in a new array. -/
theorem listedAs_of_leads {ts : List Text} (hact : s.world.context? i = some act)
    (hn : (Operation.names (s.world.referent object) inherited).Leads host n act (s.occupied i)
      (.value ts) t) : ListedAs host n s i object inherited ts :=
  listedAs_of_newHandle (answer_keys hact (Operation.leads_keys hn)) (size_le_of_leads hn)
    (Heap.listsTexts_addArray _ _ ts)

/-- **All or nothing**: where names are missing, the array is empty. -/
theorem listedAs_nil_of_leads (hact : s.world.context? i = some act)
    (hn : (Operation.names (s.world.referent object) inherited).Leads host n act (s.occupied i)
      f.completion t) : ListedAs host n s i object inherited [] := by
  have hanswer := answer_keys hact (hn.fail _)
  have hsize := size_le_of_leads hn
  have hempty := Heap.listsTexts_addArray t.world.heap act.realm []
  cases f <;> exact listedAs_of_newHandle hanswer hsize hempty

end Answers

/-! ## In every state -/

/-- How the names of what a handle refers to are listed, by an operation that gets a context. -/
structure ListsNames {σ : Type} (host : Host σ) (n : Nat) (s : State σ) (i : InstanceId)
    (act : Activation) (object : Handle) : Prop where
  /-- The names are those of the object that the handle refers to, or of one around a primitive. -/
  opens : (s.world.referent object).isNullish = false →
    ∃ r t, Opens host n act (s.world.referent object) (s.occupied i) r t
      ∧ ∀ q, s.world.referent object = .object q → r = q ∧ t = s.occupied i
  /-- Its own enumerable names are listed in the order of its keys. -/
  own : ∀ r t, Opens host n act (s.world.referent object) (s.occupied i) r t →
    (t.world.heap.object r).isOrdinary = true →
    ListedAs host n s i object false (t.world.heap.enumerableNames r)
  /-- With those of its prototypes, if they are ordinary objects and however many there are, the
  listed names are the ones that a loop over names meets. -/
  inherited : ∀ r t levels, Opens host n act (s.world.referent object) (s.occupied i) r t →
    t.world.heap.ProtoChain r levels →
    (∀ q ∈ levels, (t.world.heap.object q).isOrdinary = true) →
    ListedAs host n s i object true (t.world.heap.forInNames levels)
  /-- The names of a level are the texts under which it has a property, enumerable if it is asked
  for those, -/
  exact : ∀ (h : Heap) (r : Ref) (t : Text),
    (t ∈ h.ownNames r ↔ (h.ownSlot? r (Script.Key.ofText t)).isSome)
      ∧ (t ∈ h.enumerableNames r ↔
        (h.ownSlot? r (Script.Key.ofText t)).any Script.Slot.enumerable)
  /-- and its keys come in one order: indices that ascend, then names as they were added. -/
  order : ∀ (h : Heap) (r : Ref), (h.object r).keys.Pairwise Script.Key.MayPrecede
    ∧ (h.object r).keys.filter Script.Key.isName = (h.object r).props.keys.filter Script.Key.isName
  /-- No name is listed twice. -/
  once : ∀ (h : Heap) (r : Ref) (levels : List Ref),
    (h.enumerableNames r).Nodup ∧ (h.forInNames levels).Nodup
  /-- Where a level cannot say what its own keys are, be it at the bottom or further up, no name is
  listed at all, and the failure goes no further. -/
  nothing : ∀ inherited r t f u, Opens host n act (s.world.referent object) (s.occupied i) r t →
    FailsFrom host n (act.keeping [s.world.referent object]) inherited r t f u →
    ListedAs host n s i object inherited []

/-- **Listing names is a loop over names, all or nothing.** -/
theorem names_are_listed_whole {σ : Type} (host : Host σ) (n : Nat) (s : State σ) (i : InstanceId)
    (act : Activation) (object : Handle) (hact : s.world.context? i = some act) :
    ListsNames host n s i act object where
  opens hv := by
    obtain ⟨r, t, ho⟩ := exists_opens hv
    refine ⟨r, t, ho, fun q hq => ?_⟩
    rw [hq] at ho
    obtain ⟨hr, ht⟩ := ho.unique (opens_object q)
    exact ⟨Completion.value.inj hr, ht⟩
  own r t ho hr := listedAs_of_leads hact (Operation.leads_names_own ho hr)
  inherited r t levels ho hc hr :=
    listedAs_of_leads hact (Operation.leads_names_inherited ho hc hr)
  exact h r t := ⟨Heap.mem_ownNames, Heap.mem_enumerableNames⟩
  order h r := ⟨(h.object r).pairwise_keys, (h.object r).names_keys⟩
  once h r levels := ⟨h.nodup_enumerableNames r, h.nodup_forInNames levels⟩
  nothing inherited r t f u ho hf :=
    listedAs_nil_of_leads hact (Operation.leads_names_failure ho hf)

/-- A chain of three objects, on which a name of the last one is hidden by a property of the second
that is not enumerable, and an object whose prototype is a revoked proxy. Both have a handle. -/
def shadowing : List Move :=
  let free : Script.Slot := .plain .undefined
  [.change (.newInstance default),
    .change (.edit (.newObject .plain none (.ofList [("h", free), ("v", free)]))),
    .change (.edit (.newObject .plain (some 258) (.ofList [("h", .hidden .undefined)]))),
    .change (.edit (.newObject .plain (some 259) (.ofList [("b", free), ("1", free)]))),
    .change (.edit (.newObject (.proxy none false false) none ∅)),
    .change (.edit (.newObject .plain (some 261) (.ofList [("a", free)]))),
    .change (.newHandle 0 (.object 260)), .change (.newHandle 0 (.object 262))]

/-- The names of the first one are listed as the chain has them, and of the second one none are,
not even its own. -/
theorem listed_and_lost : ∃ c act, (Scene.start .ready).run shadowing = some c
    ∧ c.world.context? 0 = some act
    ∧ ∀ (host : Host Unit) (n : Nat),
      ListedAs host n ⟨c.world, ()⟩ 0 ⟨0⟩ true [("1" : Text), "b", "v"]
        ∧ ListedAs host n ⟨c.world, ()⟩ 0 ⟨1⟩ true [] := by
  obtain ⟨c, act, hc, hact, hfirst, hsecond⟩ : ∃ c act,
      (Scene.start .ready).run shadowing = some c ∧ c.world.context? 0 = some act
        ∧ c.world.referent ⟨0⟩ = .object 260 ∧ c.world.referent ⟨1⟩ = .object 262 :=
    ⟨_, _, rfl, rfl, rfl, rfl⟩
  have hrun : ((Scene.start .ready).run shadowing).any (fun c =>
      c.world.heap.isOrdinaryChain [260, 259, 258]
        && c.world.heap.forInNames [260, 259, 258] == [("1" : Text), "b", "v"]
        && (c.world.heap.object 262).isOrdinary
        && (c.world.heap.object 262).parent? == some 261
        && (c.world.heap.object 261).nature.isRevoked) = true := by
    decide +kernel
  rw [hc, Option.any_some] at hrun
  simp only [Bool.and_eq_true, beq_iff_eq] at hrun
  obtain ⟨⟨⟨⟨hchain, hnames⟩, hordinary⟩, hparent⟩, hrevoked⟩ := hrun
  refine ⟨c, act, hc, hact, fun host n => ⟨?_, ?_⟩⟩
  · have hlists := names_are_listed_whole host n ⟨c.world, ()⟩ 0 act ⟨0⟩ hact
    obtain ⟨r, t, hopens, hself⟩ := hlists.opens (by rw [hfirst]; rfl)
    obtain ⟨rfl, rfl⟩ := hself 260 hfirst
    rw [← State.heap_occupied ⟨c.world, ()⟩ 0] at hchain hnames
    obtain ⟨hup, hlevels⟩ := Heap.protoChain_of_isOrdinaryChain hchain
    exact hnames ▸ hlists.inherited _ _ _ hopens hup hlevels
  · have hlists := names_are_listed_whole host n ⟨c.world, ()⟩ 0 act ⟨1⟩ hact
    obtain ⟨r, t, hopens, hself⟩ := hlists.opens (by rw [hsecond]; rfl)
    obtain ⟨rfl, rfl⟩ := hself 262 hsecond
    rw [← State.heap_occupied ⟨c.world, ()⟩ 0] at hordinary hparent hrevoked
    obtain ⟨f, u, hlost⟩ := exists_leads_ownNames_revoked hrevoked true
    exact hlists.nothing true _ _ f u hopens (.above rfl
      (Script.Builtin.gives_ownNames_enumerable hordinary).leads_same
      (Script.Builtin.gives_ownNames hordinary).leads_same hparent (.enumerable hlost))

end ScriptBoundary.Boundary
