import Mathlib.Data.Nat.Pairing
import ScriptBoundary.Boundary.Codec
import ScriptBoundary.Boundary.Objects

/-!
# A world without foreign callbacks

A host that passes words and pointers registers context pointers; any other host registers code. In
the world this makes no difference but one: what stands in the tables of the instances. `asNative`
replaces every callback by a native one whose name tells which callback it stands for, so that a
world and its replacement can be compared: they have the same heap, handles, ledgers, slots, numbers
of registrations and calls in progress.

Two more things are left out on the way, since only foreign callbacks and raw values lead to them:
which pair of functions was told of the end of a callback, and the events that are noted about raw
values and about callbacks that nobody was told of.

Each function on worlds does the same in both, and there is one lemma for each that says so. None
of them looks at a callback except to drop it.
-/

namespace ScriptBoundary.Boundary

open Script (Activation Anchor Limits Ref)

namespace Callback

/-- The name of the native callback that stands for a callback. -/
def name : Callback → Nat
  | .native n => 2 * n
  | .foreign i context => 2 * Nat.pair i context.toNat + 1

/-- The callback that a name stands for. -/
def ofName (n : Nat) : Callback :=
  if n % 2 = 0 then .native (n / 2)
  else .foreign (Nat.unpair (n / 2)).1 (UInt64.ofNat (Nat.unpair (n / 2)).2)

theorem ofName_name (c : Callback) : ofName c.name = c := by
  cases c with
  | native n =>
    have heven : 2 * n % 2 = 0 := by omega
    have hhalf : 2 * n / 2 = n := by omega
    rw [name, ofName, if_pos heven, hhalf]
  | foreign i context =>
    have hodd : ¬(2 * Nat.pair i context.toNat + 1) % 2 = 0 := by omega
    have hhalf : (2 * Nat.pair i context.toNat + 1) / 2 = Nat.pair i context.toNat := by omega
    rw [name, ofName, if_neg hodd, hhalf, Nat.unpair_pair, UInt64.ofNat_toNat]

/-- The native callback that stands for a callback. -/
def asNative (c : Callback) : Callback := .native c.name

end Callback

def Registration.asNative (r : Registration) : Registration :=
  { r with callback := r.callback.asNative }

def CallbackTable.asNative (t : CallbackTable) : CallbackTable :=
  { t with entries := t.entries.map fun e => (e.1, e.2.asNative) }

def Instance.asNative (x : Instance) : Instance := { x with table := x.table.asNative }

/-- Nobody is told of the end of a native callback. -/
def Dropped.asNative (d : Dropped) : Dropped := ⟨d.anchor, d.callback.asNative, none⟩

/-- Whether an event is about raw values or foreign callbacks. -/
def Event.isForeign : Event → Bool
  | .malformed _ | .unclaimed _ => true
  | _ => false

/-- A world with native callbacks in place of all others. -/
def World.asNative (w : World) : World :=
  { w with
    instances := w.instances.map Instance.asNative
    orphans := w.orphans.map fun o => (o.1, o.2.asNative)
    dropped := w.dropped.map Dropped.asNative
    log := w.log.filter fun e => !e.isForeign }

namespace CallbackTable

variable (t : CallbackTable)

theorem lookup_asNative (id : Nat) : t.asNative.lookup id = (t.lookup id).map (·.asNative) := by
  simp only [lookup, asNative, List.find?_map, Option.map_map]
  rfl

@[simp] theorem live_asNative : t.asNative.live = t.live := List.length_map _

theorem asNative_register (r : Registration) :
    (t.register r).asNative = t.asNative.register r.asNative := by
  simp [asNative, register]

theorem asNative_retire (id : Nat) : (t.retire id).asNative = t.asNative.retire id := by
  simp only [asNative, retire, List.filter_map]
  rfl

end CallbackTable

namespace World

variable {w : World} {i : InstanceId}

/-! ## What is the same in both -/

@[simp] theorem heap_asNative (w : World) : w.asNative.heap = w.heap := rfl

@[simp] theorem lifecycle_asNative (w : World) : w.asNative.lifecycle = w.lifecycle := rfl

@[simp] theorem cell?_asNative (w : World) (h : Handle) : w.asNative.cell? h = w.cell? h := rfl

@[simp] theorem referent_asNative (w : World) (h : Handle) :
    w.asNative.referent h = w.referent h := rfl

@[simp] theorem isArray_asNative (w : World) (h : Handle) :
    w.asNative.isArray h = w.isArray h := rfl

@[simp] theorem arrayLength_asNative (w : World) (h : Handle) :
    w.asNative.arrayLength h = w.arrayLength h := rfl

@[simp] theorem isRunning_asNative (w : World) (a : Anchor) :
    w.asNative.isRunning a = w.isRunning a := rfl

theorem instance?_asNative (w : World) (i : InstanceId) :
    w.asNative.instance? i = (w.instance? i).map (·.asNative) :=
  Array.getElem?_map

theorem live?_asNative (w : World) (i : InstanceId) :
    w.asNative.live? i = (w.live? i).map (·.asNative) := by
  rw [live?, instance?_asNative, live?, Option.filter_map]
  rfl

theorem isBusy_asNative (w : World) (i : InstanceId) : w.asNative.isBusy i = w.isBusy i := by
  rw [isBusy, isBusy, instance?_asNative]
  cases w.instance? i <;> rfl

theorem slot_asNative (w : World) (i : InstanceId) (slot : UInt32) :
    w.asNative.slot i slot = w.slot i slot := by
  rw [World.slot, World.slot, instance?_asNative]
  cases w.instance? i <;> rfl

theorem callbackOf_asNative (w : World) (a : Anchor) :
    w.asNative.callbackOf a = (w.callbackOf a).map (·.asNative) := by
  rw [callbackOf, callbackOf, live?_asNative]
  cases w.live? a.owner with
  | none => rfl
  | some x =>
    show ((x.table.asNative.lookup a.id).map _) = _
    rw [CallbackTable.lookup_asNative, Option.map_map]
    show _ = ((x.table.lookup a.id).map _).map _
    rw [Option.map_map]
    rfl

/-! ## What is done in both -/

/-- A change of an instance that does the same to its replacement. -/
theorem asNative_updateInstance {f g : Instance → Instance}
    (hf : ∀ x, (f x).asNative = g x.asNative) :
    (w.updateInstance i f).asNative = w.asNative.updateInstance i g := by
  have hinstances : (w.instances.modify i f).map Instance.asNative =
      (w.instances.map Instance.asNative).modify i g := by
    refine Array.ext_getElem? fun j => ?_
    rw [Array.getElem?_map, Array.getElem?_modify, Array.getElem?_modify, Array.getElem?_map]
    split
    · simp [Option.map_map, Function.comp_def, hf]
    · rfl
  simp only [asNative, updateInstance, hinstances]

/-- One that has nothing to do with the table. -/
theorem asNative_updateInstance_same {f : Instance → Instance}
    (hf : ∀ x, (f x).asNative = f x.asNative) :
    (w.updateInstance i f).asNative = w.asNative.updateInstance i f :=
  asNative_updateInstance hf

theorem asNative_note {e : Event} (h : e.isForeign = false) (w : World) :
    (w.note e).asNative = w.asNative.note e := by
  simp [asNative, note, h]

theorem asNative_note_foreign {e : Event} (h : e.isForeign = true) (w : World) :
    (w.note e).asNative = w.asNative := by
  simp [asNative, note, h]

/-- An instance that has no callbacks is its own replacement. -/
theorem asNative_enlist {x : Instance} (hx : x.asNative = x) (w : World) (heap : Script.Heap)
    (platform : Platform) :
    { w with heap, platform, instances := w.instances.push x : World }.asNative =
      { w.asNative with heap, platform, instances := w.asNative.instances.push x } := by
  simp [asNative, hx]

theorem newInstance_asNative (w : World) (limits : Limits) :
    w.asNative.newInstance limits =
      ((w.newInstance limits).1, (w.newInstance limits).2.asNative) := by
  by_cases hf : (w.platform.gate != .opened) = true
  · have hf' : (w.asNative.platform.gate != .opened) = true := hf
    simp only [newInstance, if_pos hf, if_pos hf']
    refine Prod.ext Array.size_map ?_
    rw [asNative_note rfl, asNative_enlist rfl, asNative_note rfl]
    rfl
  · have hf' : ¬(w.asNative.platform.gate != .opened) = true := hf
    simp only [newInstance, if_neg hf, if_neg hf']
    refine Prod.ext Array.size_map ?_
    rw [asNative_note rfl, asNative_enlist rfl]
    rfl

theorem asNative_borrow (w : World) (i : InstanceId) :
    (w.borrow i).asNative = w.asNative.borrow i :=
  asNative_updateInstance_same fun _ => rfl

theorem asNative_giveBack (w : World) (i : InstanceId) :
    (w.giveBack i).asNative = w.asNative.giveBack i :=
  asNative_updateInstance_same fun _ => rfl

theorem asNative_setSlot (w : World) (i : InstanceId) (slot : UInt32) (data : UInt64) :
    (w.setSlot i slot data).asNative = w.asNative.setSlot i slot data :=
  asNative_updateInstance_same fun _ => rfl

theorem asNative_updateLedger (w : World) (i : InstanceId) (f : Ledger → Ledger) :
    (w.updateLedger i f).asNative = w.asNative.updateLedger i f :=
  asNative_updateInstance_same fun _ => rfl

theorem newHandle_asNative (w : World) (i : InstanceId) (v : Script.Value) :
    w.asNative.newHandle i v = ((w.newHandle i v).1, (w.newHandle i v).2.asNative) :=
  Prod.ext rfl (asNative_updateLedger
    { w with handles := w.handles.push (some ⟨v, i⟩) } i Ledger.create).symm

theorem cloneHandle_asNative (w : World) (h : Handle) :
    w.asNative.cloneHandle h = ((w.cloneHandle h).1, (w.cloneHandle h).2.asNative) := by
  rw [cloneHandle, cloneHandle, cell?_asNative]
  cases w.cell? h with
  | none => rfl
  | some c =>
    exact Prod.ext rfl (asNative_updateLedger
      { w with handles := w.handles.push (some c) } c.owner Ledger.clone).symm

theorem asNative_releaseHandle (w : World) (h : Handle) :
    (w.releaseHandle h).asNative = w.asNative.releaseHandle h := by
  rw [releaseHandle, releaseHandle, cell?_asNative]
  cases w.cell? h with
  | none => rfl
  | some c =>
    exact asNative_updateLedger
      { w with handles := w.handles.setIfInBounds h.id none } c.owner Ledger.release

theorem asNative_enter (w : World) (v : Invocation) :
    (w.enter v).asNative = w.asNative.enter v :=
  asNative_updateInstance_same (w := { w with inFlight := v :: w.inFlight }) fun _ => rfl

/-- Dropping a callback drops the one that stands for it. -/
theorem asNative_dropCallback (w : World) (a : Anchor) (c : Callback) :
    (w.dropCallback a c).asNative = w.asNative.dropCallback a c.asNative := by
  cases c with
  | native n => simp [asNative, dropCallback, Dropped.asNative, Callback.asNative]
  | foreign j context =>
    rw [dropCallback]
    dsimp only
    split
    · rw [asNative_note_foreign rfl]
      simp [asNative, dropCallback, Dropped.asNative, Callback.asNative]
    · simp [asNative, dropCallback, Dropped.asNative, Callback.asNative]

theorem asNative_retire (w : World) (a : Anchor) (c : Callback) :
    (w.retire a c).asNative = w.asNative.retire a c.asNative := by
  have htable : (w.updateTable a.owner fun t => t.retire a.id).asNative =
      w.asNative.updateTable a.owner fun t => t.retire a.id :=
    asNative_updateInstance fun x =>
      congrArg (fun t => { x with table := t }) (x.table.asNative_retire a.id)
  rw [retire, retire, ← htable, isRunning_asNative]
  split
  · rfl
  · rw [asNative_dropCallback]

theorem asNative_finalize (w : World) (a : Anchor) :
    (w.finalize a).asNative = w.asNative.finalize a := by
  rw [finalize, finalize, callbackOf_asNative]
  cases w.callbackOf a with
  | none => rfl
  | some c =>
    dsimp only [Option.map_some]
    rw [asNative_retire, asNative_note rfl]

theorem asNative_finalizeAll (w : World) (i : InstanceId) :
    (w.finalizeAll i).asNative = w.asNative.finalizeAll i := by
  have hfold : ∀ (es : List (Nat × Registration)) (w : World),
      (es.foldl (fun w e => w.retire ⟨i, e.1⟩ e.2.callback) w).asNative =
        (es.map fun e => (e.1, e.2.asNative)).foldl
          (fun w e => w.retire ⟨i, e.1⟩ e.2.callback) w.asNative := by
    intro es
    induction es with
    | nil => exact fun w => rfl
    | cons e es ih =>
      intro w
      rw [List.foldl_cons, ih, asNative_retire]
      rfl
  rw [finalizeAll, finalizeAll, instance?_asNative]
  cases w.instance? i with
  | none => rfl
  | some x => exact hfold _ w

theorem asNative_shut (w : World) (i : InstanceId) : (w.shut i).asNative = w.asNative.shut i := by
  rw [shut, shut, ← asNative_finalizeAll]
  exact asNative_updateInstance fun _ => rfl

theorem lookup_orphans_asNative (w : World) (a : Anchor) :
    w.asNative.orphans.lookup a = (w.orphans.lookup a).map (·.asNative) := by
  show (w.orphans.map fun o => (o.1, o.2.asNative)).lookup a = _
  induction w.orphans with
  | nil => rfl
  | cons o os ih =>
    rw [List.map_cons, List.lookup_cons, List.lookup_cons, ih]
    cases a == o.1 <;> rfl

theorem asNative_dropOrphan (w : World) (a : Anchor) :
    (w.dropOrphan a).asNative = w.asNative.dropOrphan a := by
  rw [dropOrphan, dropOrphan, isRunning_asNative, lookup_orphans_asNative]
  split
  · rfl
  · cases w.orphans.lookup a with
    | none => rfl
    | some c =>
      dsimp only [Option.map_some]
      rw [asNative_dropCallback]
      simp only [asNative, List.filter_map]
      rfl

theorem asNative_leave (w : World) (a : Anchor) (before : Option Activation) :
    (w.leave a before).asNative = w.asNative.leave a before := by
  rw [leave, leave, asNative_dropOrphan,
    asNative_updateInstance_same (f := fun x => { x with lent := before }) fun _ => rfl]
  rfl

/-! ## Collection -/

theorem roots_asNative (w : World) : w.asNative.roots = w.roots := by
  have hlive : (w.instances.map Instance.asNative).toList.filter (·.isLive) =
      (w.instances.toList.filter (·.isLive)).map Instance.asNative := by
    rw [Array.toList_map, List.filter_map]
    rfl
  have hrealms : (((w.instances.map Instance.asNative).toList.filter (·.isLive)).map (·.realm)) =
      (w.instances.toList.filter (·.isLive)).map (·.realm) := by
    rw [hlive, List.map_map]
    rfl
  simp only [roots, asNative, hrealms]

theorem unmarked_asNative (w : World) (met : Array Bool) :
    w.asNative.unmarked met = w.unmarked met := by
  simp only [unmarked, asNative, Array.toList_map, List.zipIdx_map, List.flatMap_map]
  congr 1
  funext xi
  simp only [Instance.asNative, CallbackTable.asNative, Prod.map, List.filter_map, List.map_map]
  rfl

theorem asNative_collect (w : World) : w.collect.asNative = w.asNative.collect := by
  have hfold : ∀ (as : List Anchor) (w : World),
      (as.foldl finalize w).asNative = as.foldl finalize w.asNative := by
    intro as
    induction as with
    | nil => exact fun w => rfl
    | cons a as ih =>
      intro w
      rw [List.foldl_cons, ih, asNative_finalize]
      rfl
  rw [collect, collect, hfold, unmarked_asNative, roots_asNative, heap_asNative]

theorem asNative_collectFor (w : World) (i : InstanceId) :
    (w.collectFor i).asNative = w.asNative.collectFor i := by
  rw [collectFor, collectFor, instance?_asNative]
  cases w.instance? i with
  | none => rfl
  | some x =>
    dsimp only [Option.map_some]
    rw [asNative_note rfl, asNative_collect, ← asNative_collect, instance?_asNative, Option.map_map]
    rfl

theorem asNative_destroy (w : World) (i : InstanceId) :
    (w.destroy i).asNative = w.asNative.destroy i := by
  have hbytes : ∀ u : World, ((u.asNative.instance? i).map (·.table.externalBytes)).getD 0 =
      ((u.instance? i).map (·.table.externalBytes)).getD 0 := by
    intro u
    rw [instance?_asNative, Option.map_map]
    rfl
  have hlive : ∀ u : World, ((u.asNative.instance? i).map (·.ledger.live)).getD 0 =
      ((u.instance? i).map (·.ledger.live)).getD 0 := by
    intro u
    rw [instance?_asNative, Option.map_map]
    rfl
  rw [destroy, destroy, live?_asNative]
  cases w.live? i with
  | none => rfl
  | some x =>
    dsimp only [Option.map_some]
    have hcount : x.asNative.table.live = x.table.live := x.table.live_asNative
    rw [asNative_note rfl, asNative_collect, ← asNative_finalizeAll, hbytes, hcount,
      ← asNative_shut]
    generalize ((((w.finalizeAll i).instance? i).map (·.table.externalBytes)).getD 0) = leaked
    have hnote : (if leaked = 0 then w.shut i
          else (w.shut i).note (.outstanding x.number leaked)).asNative =
        if leaked = 0 then (w.shut i).asNative
          else (w.shut i).asNative.note (.outstanding x.asNative.number leaked) := by
      split
      · rfl
      · exact asNative_note rfl _
    rw [← hnote, ← asNative_collect, hlive]
    rfl

/-! ## Objects and values -/

theorem newArray_asNative (w : World) (i : InstanceId) (realm : Ref) :
    w.asNative.newArray i realm = ((w.newArray i realm).1, (w.newArray i realm).2.asNative) :=
  newHandle_asNative { w with heap := _ } i _

theorem newObject_asNative (w : World) (i : InstanceId) (realm : Ref) :
    w.asNative.newObject i realm = ((w.newObject i realm).1, (w.newObject i realm).2.asNative) :=
  newHandle_asNative { w with heap := _ } i _

/-- The function object of the next registration of an instance, and the heap with it. -/
def nextFunction (w : World) (i : InstanceId) (x : Instance) (realm : Ref) : Script.Heap × Ref :=
  w.heap.addHostFunction realm
    ((w.heap.realm realm).base + Script.Intrinsic.functionPrototype.ctorIdx) hostFunctionProps
    ⟨i, x.table.nextId⟩

/-- The world in which a callback has been entered and its function object has no handle yet. -/
def entering (w : World) (i : InstanceId) (x : Instance) (realm : Ref) (c : Callback) : World :=
  ({ w with heap := (w.nextFunction i x realm).1 }.updateTable i fun t =>
    t.register ⟨c, (w.nextFunction i x realm).2⟩).note (.registered x.table.nextId)

theorem register_eq_entering {x : Instance} (hx : w.instance? i = some x) (realm : Ref)
    (c : Callback) : w.register i realm c =
      let made := (w.entering i x realm c).newHandle i (.object (w.nextFunction i x realm).2)
      (.composite .function made.1, made.2) := by
  rw [register, hx]
  rfl

theorem asNative_entering (w : World) (i : InstanceId) (x : Instance) (realm : Ref)
    (c : Callback) :
    (w.entering i x realm c).asNative = w.asNative.entering i x.asNative realm c.asNative := by
  rw [entering, asNative_note rfl]
  refine congrArg (World.note · _) ?_
  exact asNative_updateInstance (w := { w with heap := (w.nextFunction i x realm).1 }) fun y =>
    congrArg (fun t => { y with table := t })
      (y.table.asNative_register ⟨c, (w.nextFunction i x realm).2⟩)

/-- Registering a callback registers the one that stands for it, under the same number. -/
theorem register_asNative (w : World) (i : InstanceId) (realm : Ref) (c : Callback) :
    w.asNative.register i realm c.asNative =
      ((w.register i realm c).1, (w.register i realm c).2.asNative) := by
  have hinstance := instance?_asNative w i
  cases hx : w.instance? i with
  | none =>
    rw [hx] at hinstance
    rw [register, hinstance, register, hx]
    rfl
  | some x =>
    rw [hx] at hinstance
    rw [register_eq_entering hinstance, register_eq_entering hx, ← asNative_entering,
      newHandle_asNative]
    rfl

theorem encode_asNative (w : World) (i : InstanceId) (v : Script.Value) :
    w.asNative.encode i v = ((w.encode i v).1, (w.encode i v).2.asNative) := by
  rw [encode, encode, heap_asNative]
  split
  · rfl
  · rw [newHandle_asNative]

theorem encodeAll_asNative (w : World) (i : InstanceId) (vs : List Script.Value) :
    w.asNative.encodeAll i vs = ((w.encodeAll i vs).1, (w.encodeAll i vs).2.asNative) := by
  induction vs generalizing w with
  | nil => rfl
  | cons v vs ih =>
    rw [encodeAll, encode_asNative]
    dsimp only
    rw [ih]
    rfl

theorem decode_asNative (w : World) (realm : Ref) (u : Value) :
    w.asNative.decode realm u = ((w.decode realm u).1, (w.decode realm u).2.asNative) := by
  cases u with
  | composite kind h => exact Prod.ext rfl (asNative_releaseHandle w h).symm
  | _ => rfl

theorem decodeAll_asNative (w : World) (realm : Ref) (us : List Value) :
    w.asNative.decodeAll realm us =
      ((w.decodeAll realm us).1, (w.decodeAll realm us).2.asNative) := by
  induction us generalizing w with
  | nil => rfl
  | cons u us ih =>
    rw [decodeAll, decode_asNative]
    dsimp only
    rw [ih]
    rfl

end World

end ScriptBoundary.Boundary
