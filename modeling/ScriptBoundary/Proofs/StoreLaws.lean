import ScriptBoundary.Proofs.Reached
import ScriptBoundary.Proofs.Storing

/-!
# The laws of a store

A host reads, asks, assigns and removes properties through a handle. Keys are host values of five
sorts, and all of them come to one space of property keys (`World.keyOf?`). For a plain object the
four operations obey the laws of a store, whatever the key and the value: assigning never fails, a
write that is refused is ignored, and a removal that is refused is a `TypeError` that changes
nothing.

There is one exception, and it is not about the key that is worked on. A property may be an
accessor, and its getter is free to read another property of the object. So what `get` answers for
such a key can change although nothing was done to it. What is found under it is the same property
all the same.

That an object is plain is all that is asked of it (`State.Offers`). What else the laws depend on,
that its prototypes are there and that its elements share no variable with others, is so in every
state in which the host has the turn (`State.Offers.stores`).

## Main results

* `State.Stores.tells`: reading and asking
* `State.Stores.answer_set`, `State.Stores.answer_remove`: assigning and removing
* `plain_objects_are_stores`: the laws
-/

namespace ScriptBoundary.Script.Comp

variable {α σ : Type} {m : Comp α} {act : Activation} {h h' : Heap} {a : α} {vs : List Value}

open Boundary (Host State)

theorem Gives.keeping (hm : m.Gives (act.keeping vs) h a h') : (keeping vs m).Gives act h a h' :=
  ⟨hm.steps⟩

theorem Leads.keeping {host : Host σ} {n : Nat} {s t : State σ} {c : Completion α}
    (hm : m.Leads host n (act.keeping vs) s c t) : (Comp.keeping vs m).Leads host n act s c t := hm

end ScriptBoundary.Script.Comp

namespace ScriptBoundary.Boundary

open Script (Activation Comp Completion ErrorClass Heap Key Ref Slot)

variable {σ : Type}

/-! ## The computations -/

namespace Operation

open Script

variable (act : Activation) {h : Heap} {r : Ref} {k : Key} {levels : List Ref}
  {key value x : Script.Value}

theorem gives_get (hk : key.primitiveKey? = some k) (hs : h.IsStore r levels)
    (hd : levels.length + 2 ≤ machineDepth)
    (hx : Slot.reading (h.found (r :: levels) k) = some x) :
    (get (.object r) key).Gives act h x h := by
  refine .keeping ?_
  rw [toKey_of_primitiveKey? machine hk]
  exact (Comp.gives_pure k).bind ((Comp.gives_pure r).bind
    (Script.gives_get hs.chain hs.ordinary hx _ (Nat.le_of_succ_le hd)))

theorem gives_has (hk : key.primitiveKey? = some k) (hs : h.IsStore r levels)
    (hd : levels.length + 2 ≤ machineDepth) :
    (has (.object r) key).Gives act h (.boolean (h.found (r :: levels) k).isSome) h := by
  refine .keeping ?_
  rw [toKey_of_primitiveKey? machine hk]
  exact (Comp.gives_pure k).bind ((Comp.gives_pure r).bind
    ((Script.gives_has hs.chain hs.ordinary (Nat.le_of_succ_le hd)).bind (Comp.gives_pure _)))

theorem gives_set (hk : key.primitiveKey? = some k) (hs : h.IsStore r levels)
    (hd : levels.length + 2 ≤ machineDepth)
    (hdata : ∀ s, h.found (r :: levels) k = some s → s.isAccessor = false) :
    (set (.object r) key value).Gives act h .undefined (h.assigned r levels k value) := by
  refine .keeping ?_
  rw [toKey_of_primitiveKey? machine hk]
  exact (Comp.gives_pure k).bind ((Comp.gives_pure r).bind
    ((Script.gives_set hs hdata hd).bind (Comp.gives_pure _)))

/-- Removing what is not there, or what may go. -/
theorem gives_remove (hk : key.primitiveKey? = some k) (hs : h.IsStore r levels)
    (hd : levels.length + 2 ≤ machineDepth)
    (hfree : (h.ownSlot? r k).all Slot.configurable = true) :
    (remove (.object r) key).Gives act h (.boolean true) (h.removed r k) := by
  have hdelete : (machine (.delete r k)).Gives (act.keeping [.object r, key]) _ _ _ :=
    Script.gives_delete hs (Nat.le_trans (Nat.le_add_left 1 _) hd)
  rw [hfree] at hdelete
  refine .keeping ?_
  rw [toKey_of_primitiveKey? machine hk]
  exact (Comp.gives_pure k).bind ((Comp.gives_pure r).bind
    ((hdelete.bind (Comp.gives_pure true)).bind (Comp.gives_pure _)))

/-- Removing what is fixed. -/
theorem leads_remove (host : Host σ) (n : Nat) {s : State σ} (hk : key.primitiveKey? = some k)
    (hs : s.world.heap.IsStore r levels) (hd : levels.length + 2 ≤ machineDepth)
    (hfixed : (s.world.heap.ownSlot? r k).all Slot.configurable = false) :
    ∃ e h', s.world.heap.Raises act.realm .typeError e h' ∧
      (remove (.object r) key).Leads host n act s (.thrown e) (s.withHeap h') := by
  have hdelete : (machine (.delete r k)).Gives (act.keeping [.object r, key]) _ _ _ :=
    Script.gives_delete hs (Nat.le_trans (Nat.le_add_left 1 _) hd)
  have hkept : s.world.heap.removed r k = s.world.heap := by
    rw [Heap.removed]
    cases hown : s.world.heap.ownSlot? r k with
    | none => rfl
    | some p =>
      rw [hown, Option.all_some] at hfixed
      rw [Option.any_some, hfixed, if_neg Bool.false_ne_true]
  rw [hfixed, hkept] at hdelete
  obtain ⟨e, h', hgives, hraises⟩ := Script.exists_gives_newError (act.keeping [.object r, key])
    s.world.heap .typeError ("cannot delete non-configurable property: " ++ k.show')
  have hthrow : (machine.deleteOrThrow r k).Leads host n (act.keeping [.object r, key]) s
      (.thrown e) (s.withHeap h') :=
    hdelete.leads_same.bind (((hgives.leads rfl).bind ⟨[], fun _ => .refl _ _⟩).fail
      (f := .thrown e) _)
  refine ⟨e, h', hraises, .keeping ?_⟩
  rw [toKey_of_primitiveKey? machine hk]
  exact ((Comp.gives_pure k).leads_same).bind (((Comp.gives_pure r).leads_same).bind
    (hthrow.fail (f := .thrown e) _))

end Operation

/-! ## Keys and values of the host -/

namespace World

variable {w w' : World} {i : InstanceId} {u v : Value} {k : Key} {o : Handle}

/-- The property key that a value of the host names: a string, a number, a boolean, null or
undefined. -/
def keyOf? (w : World) : Value → Option Key
  | .null => Script.Value.null.primitiveKey?
  | .undefined => Script.Value.undefined.primitiveKey?
  | .boolean b => (Script.Value.boolean b).primitiveKey?
  | .number x => (Script.Value.number x).primitiveKey?
  | .date _ => none
  | .composite _ hd =>
    match w.referent hd with
    | .text t => some (Key.ofText t)
    | _ => none

theorem SameStore.keyOf? (h : w.SameStore w') (u : Value) : w'.keyOf? u = w.keyOf? u := by
  cases u with
  | composite kind hd =>
    rw [World.keyOf?, World.keyOf?, h.referent]
  | _ => rfl

/-- A key becomes a primitive, and leaves the heap alone. -/
theorem primitiveKey?_decode (hk : w.keyOf? u = some k) (realm : Ref) :
    (w.decode realm u).1.primitiveKey? = some k ∧ (w.decode realm u).2.heap = w.heap := by
  cases u with
  | date ms => cases hk
  | composite kind hd =>
    rw [keyOf?] at hk
    refine ⟨?_, heap_congr (setting_releaseHandle w hd)⟩
    rw [decode]
    dsimp only
    split at hk
    · next t ht =>
      rw [ht]
      exact hk
    · cases hk
  | _ => exact ⟨hk, rfl⟩

/-- Taking a value adds objects and changes nothing. -/
theorem grows_decode (w : World) (realm : Ref) (u : Value) :
    w.heap.Grows (w.decode realm u).2.heap := by
  cases u with
  | date ms => exact .add _ _
  | composite kind hd =>
    have hheap : (w.releaseHandle hd).heap = w.heap := heap_congr (setting_releaseHandle w hd)
    rw [decode]
    dsimp only
    rw [hheap]
    exact .refl _
  | _ => exact .refl _

theorem SameStore.means (h : w.SameStore w') {heap : Heap} {x : Script.Value} :
    w'.Means u heap x ↔ w.Means u heap x := by
  cases u with
  | date ms => rw [Means, Means, h.heap]
  | composite kind hd => rw [Means, Means, h.referent]
  | _ => exact Iff.rfl

/-- A value means the same in a heap in which new objects are what they were. -/
theorem Means.mono {heap heap' : Heap} {x : Script.Value} (hx : w.Means u heap x)
    (hsize : heap.cells.size ≤ heap'.cells.size)
    (hsame : ∀ q, w.heap.cells.size ≤ q → heap'.object q = heap.object q) :
    w.Means u heap' x := by
  cases u with
  | date ms =>
    obtain ⟨q, hq, hnew, hlt, hnature⟩ := hx
    exact ⟨q, hq, hnew, Nat.lt_of_lt_of_le hlt hsize, (hsame q hnew).symm ▸ hnature⟩
  | _ => exact hx

end World

/-! ## Operations that come to an end by themselves -/

namespace Errand

variable {s : State σ} {e : Errand} {act : Activation} {h : Heap} {v : Script.Value}

/-- The world in which an operation has run, and left another heap. -/
def ran (e : Errand) (act : Activation) (s : State σ) (h : Heap) : World :=
  { (e.opening act s).world with heap := h }

/-- What an operation hands out. -/
def hands (e : Errand) (act : Activation) (s : State σ) (h : Heap) (v : Script.Value) : Value :=
  ((e.ran act s h).encode e.owner v).1

/-- The state that it leaves. -/
def leaves (e : Errand) (act : Activation) (s : State σ) (h : Heap) (v : Script.Value) :
    State σ :=
  let world := ((e.ran act s h).encode e.owner v).2
  { s with world := world.relinquish (s.world.usesOwn e.owner) e.owner }

theorem heap_leaves (e : Errand) (act : Activation) (s : State σ) (h : Heap)
    (v : Script.Value) : (e.leaves act s h v).world.heap = h :=
  (World.SameStore.relinquish _ _ _).heap.trans (World.heap_congr (World.setting_encode _ _ _))

/-- Handles that the operation is not passed are what they were. -/
theorem cell?_leaves {o : Handle} {c : HandleCell} (hc : s.world.cell? o = some c)
    (ho : o ∉ Purse.handlesOf e.args) : (e.leaves act s h v).world.cell? o = some c := by
  have hran : (e.ran act s h).purse.cell? o = some c := by
    have htaken : (e.ran act s h).purse = s.world.purse.takeAll e.args := by
      have hopening := congrArg Holding.purse (e.holding_opening act s)
      exact hopening
    rw [htaken, Purse.cell?_takeAll_of_not_mem ho, World.cell?_purse]
    exact hc
  have hlt : o.id < (e.ran act s h).purse.cells.size :=
    Purse.lt_of_cell? (by rw [hran]; exact Option.some_ne_none c)
  rw [leaves, (World.SameStore.relinquish _ _ _).cell?, ← World.cell?_purse,
    (World.yields_encode _ _ _).cell? hlt]
  exact hran

/-- What is handed out is what the script has given. -/
theorem presents_hands (e : Errand) (act : Activation) (s : State σ) (h : Heap)
    (v : Script.Value) :
    (e.leaves act s h v).world.Presents e.owner v (e.hands act s h v) := by
  refine (World.presents_encode (e.ran act s h) e.owner v).congr ?_ fun hd c hc => ?_
  · exact (World.SameStore.relinquish _ _ _).heap
  · exact ((World.SameStore.relinquish _ _ _).cell? hd).trans hc

/-- The next operation gets a context. -/
theorem context?_leaves (hact : s.world.context? e.owner = some act) :
    ((e.leaves act s h v).world.context? e.owner).isSome := by
  have hcalls : ((e.ran act s h).encode e.owner v).2.calls = (s.world.occupy e.owner).calls :=
    (World.calls_encode _ _ _).trans (World.calls_decodeAll _ _ _)
  refine World.context?_relinquish ?_ ?_
  · rw [World.isAlive_congr hcalls, (World.SameStore.occupy _ _).isAlive]
    exact (World.context?_isSome_iff.mp (hact ▸ rfl)).1
  · rw [World.lentBy_congr hcalls, World.occupy]
    split
    · exact World.lentBy_borrow _ _ _
    · rfl

end Errand

section Answering

variable (host : Host σ) (n : Nat) {s : State σ} {e : Errand} {act : Activation} {h : Heap}
  {v : Script.Value} {r : Request}

/-- **An operation whose script gives a value** hands it out. -/
theorem answer_of_gives (he : r.errand? s.world = some e)
    (hact : s.world.context? e.owner = some act)
    (hgives : (e.body ((s.world.occupy e.owner).decodeAll act.realm e.args).1).Gives act
      (e.opening act s).world.heap v h) :
    ∃ a, r.outcome? a = some (.ok (e.hands act s h v)) ∧
      answer (invokeAt host n) r s = .ok (a, e.leaves act s h v) :=
  answer_errand he hact (Comp.Leads.runIn_eq (hgives.leads rfl)) rfl

/-- One whose script throws hands out an exception. -/
theorem answer_of_leads (he : r.errand? s.world = some e)
    (hact : s.world.context? e.owner = some act)
    (hleads : (e.body ((s.world.occupy e.owner).decodeAll act.realm e.args).1).Leads host n act
      (e.opening act s) (.thrown v) ((e.opening act s).withHeap h)) :
    ∃ a, r.outcome? a = some (.exception (e.hands act s h v)) ∧
      answer (invokeAt host n) r s = .ok (a, e.leaves act s h v) :=
  answer_errand he hact hleads.runIn_eq rfl

end Answering

/-! ## A handle of a plain object -/

/-- A state in which the host has a handle of a plain object and can work on it. The last condition
says that a script gets more levels of nesting than the object has prototypes. -/
structure State.Offers (s : State σ) (i : InstanceId) (o : Handle) (r : Ref) (levels : List Ref) :
    Prop where
  context : (s.world.context? i).isSome
  handle : s.world.referent o = .object r
  plain : s.world.heap.IsPlain r levels
  short : levels.length + 2 ≤ Script.machineDepth

/-- Such a state with all that the laws depend on. -/
structure State.Stores (s : State σ) (i : InstanceId) (o : Handle) (r : Ref) (levels : List Ref) :
    Prop extends s.Offers i o r levels where
  store : s.world.heap.IsStore r levels

/-- **In a state in which the host has the turn, plain objects are stores.** -/
theorem State.Offers.stores {host : Host σ} {n : Nat} {s : State σ} {i : InstanceId} {o : Handle}
    {r : Ref} {levels : List Ref} (hs : s.Offers i o r levels) (h : Reached host n s) :
    s.Stores i o r levels := by
  obtain ⟨act, hact⟩ := Option.isSome_iff_exists.mp hs.context
  have hclosed := h.orderly.closed_of_instance (World.exists_instance_of_context hact)
  have hobject : s.world.heap.IsObject r := by
    have hreferent := h.orderly.referent_within o
    rwa [hs.handle] at hreferent
  exact ⟨hs, hs.plain.isStore hobject hclosed h.orderly.apart⟩

/-- What the host is told of a property key: whether there is a property, and what it reads as,
unless a getter is to be called. -/
structure State.Tells (host : Host σ) (n : Nat) (s : State σ) (i : InstanceId) (o : Handle)
    (k : Key) (p : Option Slot) : Prop where
  has : ∀ u, s.world.keyOf? u = some k → ∃ t, answer (invokeAt host n) (.has i o u) s =
    .ok (.ok (.boolean p.isSome), t)
  get : ∀ u x, s.world.keyOf? u = some k → Slot.reading p = some x →
    ∃ out t, answer (invokeAt host n) (.get i o u) s = .ok (.ok out, t)
      ∧ t.world.Presents i x out ∧ t.world.heap = s.world.heap

namespace State.Stores

variable {host : Host σ} {n : Nat} {s : State σ} {i : InstanceId} {o : Handle} {r : Ref}
  {levels : List Ref} {k : Key} {act : Activation}

theorem exists_cell (hs : s.Stores i o r levels) :
    ∃ c, s.world.cell? o = some c ∧ c.value = .object r := by
  have href := hs.handle
  rw [World.referent] at href
  cases hc : s.world.cell? o with
  | none =>
    rw [hc] at href
    cases href
  | some c =>
    rw [hc] at href
    exact ⟨c, rfl, href⟩

/-- **What lasts** when an operation that is not passed the handle has left a store. -/
theorem leaves (hs : s.Stores i o r levels) {e : Errand} {h : Heap} (he : e.owner = i)
    (hact : s.world.context? i = some act) (ho : o ∉ Purse.handlesOf e.args)
    (hstore : h.IsStore r levels) (v : Script.Value) :
    (e.leaves act s h v).Stores i o r levels := by
  subst he
  obtain ⟨c, hc, hvalue⟩ := hs.exists_cell
  have hleft : (e.leaves act s h v).world.heap.IsStore r levels := by
    rw [Errand.heap_leaves]
    exact hstore
  refine ⟨⟨Errand.context?_leaves hact, ?_, hleft.toIsPlain, hs.short⟩, hleft⟩
  rw [World.referent, Errand.cell?_leaves hc ho]
  exact hvalue

/-- **Reading and asking** tell what is found. -/
theorem tells (hs : s.Stores i o r levels) (k : Key) :
    s.Tells host n i o k (s.world.heap.found (r :: levels) k) := by
  obtain ⟨act, hact⟩ := Option.isSome_iff_exists.mp hs.context
  have hsame := World.SameStore.occupy s.world i
  -- Taking the key leaves the heap as it is.
  have hopening : ∀ u, s.world.keyOf? u = some k →
      ((s.world.occupy i).decode act.realm u).1.primitiveKey? = some k
        ∧ ((s.world.occupy i).decode act.realm u).2.heap = s.world.heap := fun u hu => by
    obtain ⟨hkey, hheap⟩ := World.primitiveKey?_decode ((hsame.keyOf? u).trans hu) act.realm
    exact ⟨hkey, hheap.trans hsame.heap⟩
  constructor
  case has =>
    intro u hu
    obtain ⟨hkey, hheap⟩ := hopening u hu
    let e : Errand := ⟨i, [u], fun vs =>
      Operation.has (s.world.referent o) (vs.getD 0 .undefined)⟩
    have hgives : (e.body ((s.world.occupy i).decodeAll act.realm e.args).1).Gives act
        (e.opening act s).world.heap (.boolean (s.world.heap.found (r :: levels) k).isSome)
        s.world.heap := by
      have hh : (e.opening act s).world.heap = s.world.heap := hheap
      have hscript := Operation.gives_has act hkey hs.store hs.short
      rw [← hs.handle] at hscript
      rw [hh]
      exact hscript
    obtain ⟨a, ha, hanswer⟩ :=
      answer_of_gives host n (r := .has i o u) (e := e) rfl hact hgives
    obtain rfl := Option.some.inj ha
    exact ⟨_, hanswer⟩
  case get =>
    intro u x hu hx
    obtain ⟨hkey, hheap⟩ := hopening u hu
    let e : Errand := ⟨i, [u], fun vs =>
      Operation.get (s.world.referent o) (vs.getD 0 .undefined)⟩
    have hgives : (e.body ((s.world.occupy i).decodeAll act.realm e.args).1).Gives act
        (e.opening act s).world.heap x s.world.heap := by
      have hh : (e.opening act s).world.heap = s.world.heap := hheap
      have hscript := Operation.gives_get act hkey hs.store hs.short hx
      rw [← hs.handle] at hscript
      rw [hh]
      exact hscript
    obtain ⟨a, ha, hanswer⟩ :=
      answer_of_gives host n (r := .get i o u) (e := e) rfl hact hgives
    obtain rfl := Option.some.inj ha
    exact ⟨_, _, hanswer, Errand.presents_hands e act s _ x, Errand.heap_leaves e act s _ x⟩

/-- **Assigning** always ends with undefined, and leaves what the object admits. -/
theorem answer_set (host : Host σ) (n : Nat) (hs : s.Stores i o r levels)
    (hact : s.world.context? i = some act) {u v : Value} (hk : s.world.keyOf? u = some k)
    (ho : o ∉ Purse.handlesOf [u, v]) (hn : (Purse.handlesOf [u, v]).Nodup)
    (hdata : ∀ p, s.world.heap.found (r :: levels) k = some p → p.isAccessor = false) :
    ∃ x h t, answer (invokeAt host n) (.set i o u v) s = .ok (.ok .undefined, t)
      ∧ s.world.Means v h x ∧ s.world.heap.Grows h ∧ t.world.heap = h.assigned r levels k x
      ∧ t.Stores i o r levels := by
  have hsame := World.SameStore.occupy s.world i
  let e : Errand := ⟨i, [u, v], fun vs =>
    Operation.set (s.world.referent o) (vs.getD 0 .undefined) (vs.getD 1 .undefined)⟩
  obtain ⟨hkey, hheap⟩ := World.primitiveKey?_decode ((hsame.keyOf? u).trans hk) act.realm
  have hgrows : s.world.heap.Grows (e.opening act s).world.heap :=
    hheap.trans hsame.heap ▸ World.grows_decode _ _ _
  have hmeans := World.meansAll_decodeAll (s.world.occupy i) act.realm hn
  obtain ⟨-, hx⟩ := List.forall₂_cons.mp hmeans
  obtain ⟨hx, -⟩ := List.forall₂_cons.mp hx
  have hstore := hs.store.mono hgrows
  let value := (((s.world.occupy i).decode act.realm u).2.decode act.realm v).1
  have hgives : (Operation.set _ _ value).Gives act _ _ _ := Operation.gives_set act hkey hstore
    hs.short fun p hp => hdata p (hs.store.found_mono hgrows k ▸ hp)
  obtain ⟨a, ha, hanswer⟩ := answer_of_gives host n (r := .set i o u v) (e := e)
    rfl hact (hs.handle ▸ hgives)
  obtain rfl := Option.some.inj ha
  refine ⟨_, _, _, hanswer, hsame.means.mp hx, hgrows, Errand.heap_leaves _ _ _ _ _, ?_⟩
  exact hs.leaves rfl hact ho (hstore.assigned k _) _

/-- **Removing** what may go, or is not there. -/
theorem answer_remove (host : Host σ) (n : Nat) (hs : s.Stores i o r levels)
    (hact : s.world.context? i = some act) {u : Value} (hk : s.world.keyOf? u = some k)
    (ho : o ∉ Purse.handlesOf [u])
    (hfree : (s.world.heap.ownSlot? r k).all Slot.configurable = true) :
    ∃ t, answer (invokeAt host n) (.remove i o u) s = .ok (.ok (.boolean true), t)
      ∧ t.world.heap = s.world.heap.removed r k ∧ t.Stores i o r levels := by
  have hsame := World.SameStore.occupy s.world i
  let e : Errand := ⟨i, [u], fun vs =>
    Operation.remove (s.world.referent o) (vs.getD 0 .undefined)⟩
  obtain ⟨hkey, hheap⟩ := World.primitiveKey?_decode ((hsame.keyOf? u).trans hk) act.realm
  have hh : (e.opening act s).world.heap = s.world.heap := hheap.trans hsame.heap
  have hgives := Operation.gives_remove act hkey hs.store hs.short hfree
  rw [← hs.handle, ← hh] at hgives
  obtain ⟨a, ha, hanswer⟩ := answer_of_gives host n (r := .remove i o u) (e := e)
    rfl hact hgives
  obtain rfl := Option.some.inj ha
  rw [hh] at hanswer
  exact ⟨_, hanswer, Errand.heap_leaves _ _ _ _ _, hs.leaves rfl hact ho (hs.store.removed k) _⟩

/-- **Removing what is fixed** is a `TypeError` and changes nothing. -/
theorem answer_remove_fixed (host : Host σ) (n : Nat) (hs : s.Stores i o r levels)
    (hact : s.world.context? i = some act) {u : Value} (hk : s.world.keyOf? u = some k)
    (ho : o ∉ Purse.handlesOf [u])
    (hfixed : (s.world.heap.ownSlot? r k).all Slot.configurable = false) :
    ∃ error out t, answer (invokeAt host n) (.remove i o u) s = .ok (.exception out, t)
      ∧ t.world.Presents i error out
      ∧ s.world.heap.Raises act.realm .typeError error t.world.heap
      ∧ t.Stores i o r levels := by
  have hsame := World.SameStore.occupy s.world i
  let e : Errand := ⟨i, [u], fun vs =>
    Operation.remove (s.world.referent o) (vs.getD 0 .undefined)⟩
  obtain ⟨hkey, hheap⟩ := World.primitiveKey?_decode ((hsame.keyOf? u).trans hk) act.realm
  have hh : (e.opening act s).world.heap = s.world.heap := hheap.trans hsame.heap
  obtain ⟨error, h, hraises, hleads⟩ := Operation.leads_remove act host n
    (s := e.opening act s) hkey (hh ▸ hs.store) hs.short (hh ▸ hfixed)
  rw [hh] at hraises
  obtain ⟨a, ha, hanswer⟩ := answer_of_leads host n (r := .remove i o u) (e := e) rfl hact
    (hs.handle ▸ hleads)
  obtain rfl := Option.some.inj ha
  have hleft : (e.leaves act s h error).world.heap = h := Errand.heap_leaves _ _ _ _ _
  exact ⟨error, _, _, hanswer, Errand.presents_hands e act s h error, hleft.symm ▸ hraises,
    hs.leaves rfl hact ho (hs.store.mono hraises.grows) _⟩

end State.Stores

/-! ## The laws -/

section Laws

variable {host : Host σ} {n : Nat} {s t : State σ} {i : InstanceId} {o : Handle} {r : Ref}
  {levels : List Ref} {k : Key} {v : Value}

/-- Whether every other key has been left alone: the same is found under it, and the host is told
the same. What a getter that is found there answers is another matter. -/
def LeavesOthers (host : Host σ) (n : Nat) (s t : State σ) (i : InstanceId) (o : Handle) (r : Ref)
    (levels : List Ref) (k : Key) : Prop :=
  ∀ k', k' ≠ k → t.world.heap.found (r :: levels) k' = s.world.heap.found (r :: levels) k'
    ∧ ∃ p, s.Tells host n i o k' p ∧ t.Tells host n i o k' p

/-- Whether a value is read back under a key: there is a property, and `get` gives the value as it
is when it has been taken and handed out again. -/
def ReadsBack (host : Host σ) (n : Nat) (s t : State σ) (i : InstanceId) (o : Handle) (k : Key)
    (v : Value) : Prop :=
  ∀ u, t.world.keyOf? u = some k →
    (∃ t', answer (invokeAt host n) (.has i o u) t = .ok (.ok (.boolean true), t'))
    ∧ ∃ out t', answer (invokeAt host n) (.get i o u) t = .ok (.ok out, t')
      ∧ s.world.Normal v t'.world i out

/-- The laws of a store for an object that the host has a handle of. -/
structure ObeysStoreLaws (host : Host σ) (n : Nat) (s : State σ) (i : InstanceId) (o : Handle)
    (r : Ref) (levels : List Ref) : Prop where
  /-- The host is told what is found on the way up the prototypes. -/
  tells : ∀ k, s.Tells host n i o k (s.world.heap.found (r :: levels) k)
  /-- Assigning succeeds. If the object admits it, the value is read back; if not, nothing has
  changed. The object goes on being a store. -/
  set : ∀ u v k, s.world.keyOf? u = some k → o ∉ Purse.handlesOf [u, v] →
    (Purse.handlesOf [u, v]).Nodup →
    (∀ p, s.world.heap.found (r :: levels) k = some p → p.isAccessor = false) →
    ∃ t, answer (invokeAt host n) (.set i o u v) s = .ok (.ok .undefined, t)
      ∧ t.Offers i o r levels ∧ LeavesOthers host n s t i o r levels k
      ∧ (s.world.heap.admits r (s.world.heap.found levels k) k = true →
          ReadsBack host n s t i o k v)
      ∧ (s.world.heap.admits r (s.world.heap.found levels k) k = false →
          s.world.heap.Grows t.world.heap)
  /-- Removing a property that may go, or that is not there, succeeds, and it is gone. -/
  remove : ∀ u k, s.world.keyOf? u = some k → o ∉ Purse.handlesOf [u] →
    (s.world.heap.ownSlot? r k).all Slot.configurable = true →
    ∃ t, answer (invokeAt host n) (.remove i o u) s = .ok (.ok (.boolean true), t)
      ∧ t.Offers i o r levels ∧ LeavesOthers host n s t i o r levels k
      ∧ t.world.heap.ownSlot? r k = none
  /-- Removing one that is fixed is a `TypeError` of the realm, and nothing has changed. -/
  fixed : ∀ u k act, s.world.keyOf? u = some k → o ∉ Purse.handlesOf [u] →
    s.world.context? i = some act → (s.world.heap.ownSlot? r k).all Slot.configurable = false →
    ∃ error out t, answer (invokeAt host n) (.remove i o u) s = .ok (.exception out, t)
      ∧ t.Offers i o r levels ∧ LeavesOthers host n s t i o r levels k
      ∧ t.world.Presents i error out
      ∧ s.world.heap.Raises act.realm .typeError error t.world.heap

/-- Where the same is found, the host is told the same. -/
theorem leavesOthers_of_found (hs : s.Stores i o r levels) (ht : t.Stores i o r levels)
    (hfound : ∀ k', k' ≠ k → t.world.heap.found (r :: levels) k' =
      s.world.heap.found (r :: levels) k') : LeavesOthers host n s t i o r levels k :=
  fun k' hne => ⟨hfound k' hne, _, hs.tells k', hfound k' hne ▸ ht.tells k'⟩

/-- What is found under the key reads as what the value meant. -/
theorem readsBack_of_found (ht : t.Stores i o r levels) {p : Slot} {x : Script.Value}
    (hp : t.world.heap.found (r :: levels) k = some p) (hx : p.value? = some x)
    (hmeans : s.world.Means v t.world.heap x) : ReadsBack host n s t i o k v := by
  intro u hu
  have htells : t.Tells host n i o k _ := ht.tells k
  rw [hp] at htells
  obtain ⟨out, t', hget, hpresents, hheap⟩ := htells.get u x hu (Slot.reading_of_value? hx)
  refine ⟨htells.has u hu, out, t', hget, World.normal_of_means ?_ hpresents⟩
  rw [hheap]
  exact hmeans

theorem State.Stores.obeys (hs : s.Stores i o r levels) :
    ObeysStoreLaws host n s i o r levels where
  tells := hs.tells
  set := by
    intro u v k hk ho hn hdata
    obtain ⟨act, hact⟩ := Option.isSome_iff_exists.mp hs.context
    obtain ⟨x, h, t, hanswer, hmeans, hgrows, hheap, ht⟩ :=
      hs.answer_set host n hact hk ho hn hdata
    have hstore := hs.store.mono hgrows
    have hadmits := hs.store.admits_mono hgrows k
    refine ⟨t, hanswer, ht.toOffers, leavesOthers_of_found hs ht fun k' hne => ?_, fun ha => ?_,
      fun ha => ?_⟩
    · rw [hheap, hstore.found_assigned_of_ne hne, hs.store.found_mono hgrows]
    · obtain ⟨p, hp, hx⟩ := hstore.found_assigned (hadmits.trans ha) x
      refine readsBack_of_found ht (hheap ▸ hp) hx ?_
      rw [hheap]
      refine hmeans.mono (Heap.size_assigned h r levels k x).ge fun q hq => ?_
      have hr := (hs.store.objects r List.mem_cons_self).lt
      exact Heap.object_assigned_of_ne fun heq => Nat.not_lt_of_le hq (heq ▸ hr)
    · rw [hheap, Heap.assigned, hadmits, ha, if_neg Bool.false_ne_true]
      exact hgrows
  remove := by
    intro u k hk ho hfree
    obtain ⟨act, hact⟩ := Option.isSome_iff_exists.mp hs.context
    obtain ⟨t, hanswer, hheap, ht⟩ :=
      hs.answer_remove host n hact hk ho hfree
    refine ⟨t, hanswer, ht.toOffers, leavesOthers_of_found hs ht fun k' hne => ?_, ?_⟩
    · rw [hheap, hs.store.found_removed_of_ne hne]
    · rw [hheap, hs.store.ownSlot?_removed hfree]
  fixed := by
    intro u k act hk ho hact hfixed
    obtain ⟨error, out, t, hanswer, hpresents, hraises, ht⟩ :=
      hs.answer_remove_fixed host n hact hk ho hfixed
    exact ⟨error, out, t, hanswer, ht.toOffers,
      leavesOthers_of_found hs ht fun k' _ => hs.store.found_mono hraises.grows k', hpresents,
      hraises⟩

end Laws

/-- **Plain objects are stores**, for every key and every value, in every state in which the host
has the turn. -/
theorem plain_objects_are_stores {σ : Type} (host : Host σ) (n : Nat) {s : State σ}
    {i : InstanceId} {o : Handle} {r : Ref} {levels : List Ref} (h : Reached host n s)
    (hs : s.Offers i o r levels) : ObeysStoreLaws host n s i o r levels := (hs.stores h).obeys

/-- A host without callbacks. -/
def Host.silent : Host Unit where
  native _ _ _ _ := pure (.ok .undefined)
  wrapper _ _ _ this _ := pure ⟨this, 0⟩

/-- A host program that makes an object with a property `a`, and with a property `b` whose getter
reads `a`. It asks for handles of the names as well. -/
def Act.makeSelfReader : Act Unit (Handle × Handle) := do
  let i ← Act.request (.newInstance ⟨9, 9, 99⟩)
  let _ ← Act.request (.eval i "({a: false, get b() { return this.a; }})".toUTF8.toList)
  let a ← Act.request (.createString i "a".toUTF8.toList)
  let b ← Act.request (.createString i "b".toUTF8.toList)
  return (a, b)

/-- It leaves the object with the host. What is found under `a` is a data property that can be
written, and what is found under `b` is the accessor. -/
theorem run_makeSelfReader : ∃ q s, Act.makeSelfReader.run (answer (invokeAt Host.silent 0))
      ⟨(Scene.start .ready).world, ()⟩ = .ok (q, s)
    ∧ s.Offers 0 ⟨0⟩ 259 [0]
    ∧ (s.world.heap.found [259, 0] "a").any Slot.isWritable = true
    ∧ (s.world.heap.found [259, 0] "b").any Slot.isAccessor = true := by
  have hrun : (Act.makeSelfReader.run (answer (invokeAt Host.silent 0))
      ⟨(Scene.start .ready).world, ()⟩).toOption.any (fun q =>
        (q.2.world.context? 0).isSome && (q.2.world.referent ⟨0⟩).ref? == some 259
          && q.2.world.heap.isOrdinaryChain [259, 0]
          && Kind.ofNature (q.2.world.heap.object 259).nature != .array
          && (q.2.world.heap.found [259, 0] "a").any Slot.isWritable
          && (q.2.world.heap.found [259, 0] "b").any Slot.isAccessor) = true := by
    decide +kernel
  cases hr : Act.makeSelfReader.run (answer (invokeAt Host.silent 0))
      ⟨(Scene.start .ready).world, ()⟩ with
  | error e =>
    rw [hr] at hrun
    cases hrun
  | ok q =>
    rw [hr] at hrun
    simp only [Except.toOption, Option.any_some, Bool.and_eq_true, beq_iff_eq, bne_iff_ne] at hrun
    obtain ⟨⟨⟨⟨⟨hcontext, href⟩, hchain⟩, harray⟩, hdata⟩, haccessor⟩ := hrun
    obtain ⟨hup, hordinary⟩ := Heap.protoChain_of_isOrdinaryChain hchain
    have hplain : q.2.world.heap.IsPlain 259 [0] :=
      ⟨hup, hordinary, fun hn => harray (congrArg Kind.ofNature hn)⟩
    have hobject := Script.Value.mem_links.mp (Option.mem_toList.mpr href)
    exact ⟨q.1, q.2, rfl, ⟨hcontext, hobject, hplain, by decide +kernel⟩, hdata, haccessor⟩

/-- The object obeys the laws, which say that its getter stays where it is. -/
theorem self_reader_obeys : ∃ q s, Act.makeSelfReader.run (answer (invokeAt Host.silent 0))
      ⟨(Scene.start .ready).world, ()⟩ = .ok (q, s)
    ∧ Reached Host.silent 0 s ∧ s.Offers 0 ⟨0⟩ 259 [0]
    ∧ ObeysStoreLaws Host.silent 0 s 0 ⟨0⟩ 259 [0] := by
  obtain ⟨q, s, hr, hoffers, -⟩ := run_makeSelfReader
  have hreached : Reached Host.silent 0 s := (Reached.start .ready 0 ()).run hr
  exact ⟨q, s, hr, hreached, hoffers, plain_objects_are_stores Host.silent 0 hreached hoffers⟩

/-- The truth value that an operation gives. -/
def Outcome.asBoolean? (o : Outcome) : Option Bool :=
  match o with
  | ⟨.boolean b, false⟩ => some b
  | _ => none

/-- A host program that reads `b`, assigns `a` and reads `b` again. -/
def Act.readsTwice : Act Unit (Option Bool × Option Bool) := do
  let b ← Act.request (.clone ⟨2⟩)
  let before ← Act.request (.get 0 ⟨0⟩ (.composite .string b))
  let _ ← Act.request (.set 0 ⟨0⟩ (.composite .string ⟨1⟩) (.boolean true))
  let after ← Act.request (.get 0 ⟨0⟩ (.composite .string ⟨2⟩))
  return (before.asBoolean?, after.asBoolean?)

/-- **A getter sees what is written elsewhere**: `a` is a data property of a plain object and is
assigned, and `b` reads differently. -/
theorem getters_see_writes : ∃ q s, Act.makeSelfReader.run (answer (invokeAt Host.silent 0))
      ⟨(Scene.start .ready).world, ()⟩ = .ok (q, s)
    ∧ s.Offers 0 ⟨0⟩ 259 [0]
    ∧ (s.world.heap.found [259, 0] "a").any Slot.isWritable = true
    ∧ (Act.readsTwice.run (answer (invokeAt Host.silent 0)) s).toOption.map (·.1) =
      some (some false, some true) := by
  have hrun : (Act.makeSelfReader.run (answer (invokeAt Host.silent 0))
      ⟨(Scene.start .ready).world, ()⟩).toOption.all (fun q =>
        (Act.readsTwice.run (answer (invokeAt Host.silent 0)) q.2).toOption.map (·.1) ==
          some (some false, some true)) = true := by
    decide +kernel
  obtain ⟨q, s, hr, hoffers, hdata, -⟩ := run_makeSelfReader
  rw [hr] at hrun
  exact ⟨q, s, hr, hoffers, hdata, eq_of_beq hrun⟩

end ScriptBoundary.Boundary
