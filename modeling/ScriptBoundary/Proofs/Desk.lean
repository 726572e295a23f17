import ScriptBoundary.Boundary.Objects
import ScriptBoundary.Boundary.Codec

/-!
# Callbacks and contexts, apart from the rest of the world

Most of what happens to a world leaves its callbacks and its contexts alone: a script edits the
heap, a handle is made or given back, something is logged. `World.calls` is the part of a world
that all of this leaves alone: of every instance a `Desk` (whether it is alive, its callback table,
what it has lent out, whether its own context is in use), and of the whole world the invocations in
flight and what became of retired callbacks.

Each function on worlds that keeps `calls` has one lemma here that says so. A property stated in
terms of `calls` then needs no proof for any of them, however many fields a world has.
-/

namespace ScriptBoundary.Boundary

open Script (Activation Anchor Limits Ref)

/-- What an instance knows of its callbacks and its contexts. -/
structure Desk where
  isLive : Bool
  table : CallbackTable
  lent : Option Activation
  borrowed : Bool

def Instance.desk (x : Instance) : Desk := ⟨x.isLive, x.table, x.lent, x.borrowed⟩

/-- The part of a world that is about callbacks and contexts. -/
structure Calls where
  desk : InstanceId → Option Desk
  inFlight : List Invocation
  orphans : List (Anchor × Callback)
  dropped : Array Dropped

namespace World

variable {w : World} {i j : InstanceId}

def desk (w : World) (i : InstanceId) : Option Desk := (w.instance? i).map Instance.desk

def calls (w : World) : Calls := ⟨w.desk, w.inFlight, w.orphans, w.dropped⟩

/-- The callback table of an instance; the empty table where there is no instance. -/
def table (w : World) (i : InstanceId) : CallbackTable := ((w.desk i).map (·.table)).getD .empty

def isAlive (w : World) (i : InstanceId) : Bool := ((w.desk i).map (·.isLive)).getD false

/-- The context an instance has lent to a running callback. -/
def lentBy (w : World) (i : InstanceId) : Option Activation := (w.desk i).bind (·.lent)

/-- Whether an operation is using the instance's own context. -/
def isBorrowed (w : World) (i : InstanceId) : Bool := ((w.desk i).map (·.borrowed)).getD false

theorem live?_eq_some_iff {x : Instance} :
    w.live? i = some x ↔ w.instance? i = some x ∧ x.isLive = true := by
  simp [live?, Option.filter_eq_some_iff]

theorem isAlive_eq_isSome_live? : w.isAlive i = (w.live? i).isSome := by
  rw [isAlive, desk, live?]
  cases w.instance? i with
  | none => rfl
  | some x => cases h : x.isLive <;> simp [h, Instance.desk]

theorem isAlive_of_live? {x : Instance} (h : w.live? i = some x) : w.isAlive i = true := by
  rw [isAlive_eq_isSome_live?, h]
  rfl

/-- An instance that is alive is there. -/
theorem hasInstance_of_isAlive (h : w.isAlive i = true) : (w.instance? i).isSome := by
  rw [isAlive_eq_isSome_live?] at h
  obtain ⟨x, hx⟩ := Option.isSome_iff_exists.mp h
  rw [(live?_eq_some_iff.mp hx).1]
  rfl

theorem lentBy_of_live? {x : Instance} (h : w.live? i = some x) : w.lentBy i = x.lent := by
  simp [lentBy, desk, (live?_eq_some_iff.mp h).1, Instance.desk]

theorem isBorrowed_of_live? {x : Instance} (h : w.live? i = some x) :
    w.isBorrowed i = x.borrowed := by
  simp [isBorrowed, desk, (live?_eq_some_iff.mp h).1, Instance.desk]

theorem instance?_bind_lent (w : World) (i : InstanceId) :
    (w.instance? i).bind (·.lent) = w.lentBy i := by
  rw [lentBy, desk]
  cases w.instance? i <;> rfl

theorem callbackOf_eq (w : World) (a : Anchor) :
    w.callbackOf a =
      if w.isAlive a.owner then ((w.table a.owner).lookup a.id).map (·.callback) else none := by
  rw [callbackOf, live?, isAlive, table, desk]
  cases w.instance? a.owner with
  | none => rfl
  | some x => cases h : x.isLive <;> simp [h, Instance.desk, Option.filter]

theorem table_congr {w' : World} (h : w'.calls = w.calls) (i : InstanceId) :
    w'.table i = w.table i := by
  have hd : w'.desk = w.desk := congrArg Calls.desk h
  rw [table, table, hd]

theorem isAlive_congr {w' : World} (h : w'.calls = w.calls) (i : InstanceId) :
    w'.isAlive i = w.isAlive i := by
  have hd : w'.desk = w.desk := congrArg Calls.desk h
  rw [isAlive, isAlive, hd]

theorem lentBy_congr {w' : World} (h : w'.calls = w.calls) (i : InstanceId) :
    w'.lentBy i = w.lentBy i := by
  have hd : w'.desk = w.desk := congrArg Calls.desk h
  rw [lentBy, lentBy, hd]

theorem isBorrowed_congr {w' : World} (h : w'.calls = w.calls) (i : InstanceId) :
    w'.isBorrowed i = w.isBorrowed i := by
  have hd : w'.desk = w.desk := congrArg Calls.desk h
  rw [isBorrowed, isBorrowed, hd]

/-- What an anchor stands for is a matter of the desks. -/
theorem callbackOf_congr {w' : World} (h : w'.calls = w.calls) (a : Anchor) :
    w'.callbackOf a = w.callbackOf a := by
  rw [callbackOf_eq, callbackOf_eq, table_congr h, isAlive_congr h]

/-- A callback is found on a live instance only. -/
theorem isAlive_of_callbackOf {a : Anchor} (h : (w.callbackOf a).isSome) :
    w.isAlive a.owner = true := by
  refine Decidable.byContradiction fun hdead => ?_
  rw [callbackOf_eq, if_neg hdead] at h
  cases h

theorem hasInstance_of_callbackOf {a : Anchor} (h : (w.callbackOf a).isSome) :
    (w.instance? a.owner).isSome :=
  hasInstance_of_isAlive (isAlive_of_callbackOf h)

/-! ## Changing one instance -/

theorem instance?_updateInstance (w : World) (i j : InstanceId) (f : Instance → Instance) :
    (w.updateInstance i f).instance? j =
      if i = j then (w.instance? j).map f else w.instance? j := by
  simp only [updateInstance, instance?]
  exact Array.getElem?_modify

/-- A change of an instance is a change of its desk. -/
theorem desk_updateInstance {f : Instance → Instance} {g : Desk → Desk}
    (h : ∀ x, (f x).desk = g x.desk) (j : InstanceId) :
    (w.updateInstance i f).desk j = if i = j then (w.desk j).map g else w.desk j := by
  simp only [desk]
  rw [instance?_updateInstance]
  split
  · simp [Option.map_map, Function.comp_def, h]
  · rfl

/-- A change that keeps every desk keeps all there is to know of calls. -/
theorem calls_updateInstance {f : Instance → Instance} (h : ∀ x, (f x).desk = x.desk) :
    (w.updateInstance i f).calls = w.calls := by
  have hd : (w.updateInstance i f).desk = w.desk := by
    funext j
    rw [desk_updateInstance (g := id) h]
    simp
  simp only [calls, hd]
  rfl

theorem lentBy_updateInstance {f : Instance → Instance} (hf : ∀ x, (f x).lent = x.lent)
    (j : InstanceId) : (w.updateInstance i f).lentBy j = w.lentBy j := by
  rw [← instance?_bind_lent, ← instance?_bind_lent, instance?_updateInstance]
  split
  · cases w.instance? j with
    | none => rfl
    | some x => exact hf x
  · rfl

theorem isBorrowed_updateInstance {f : Instance → Instance}
    (hf : ∀ x, (f x).borrowed = x.borrowed) (j : InstanceId) :
    (w.updateInstance i f).isBorrowed j = w.isBorrowed j := by
  rw [isBorrowed, isBorrowed, desk, desk, instance?_updateInstance]
  split
  · cases w.instance? j with
    | none => rfl
    | some x => exact hf x
  · rfl

/-- Lending out a context, or taking one back. -/
theorem lentBy_lend (h : w.desk i ≠ none) (l : Option Activation) (j : InstanceId) :
    (w.updateInstance i fun x => { x with lent := l }).lentBy j =
      if i = j then l else w.lentBy j := by
  rw [lentBy, desk_updateInstance (g := fun d => { d with lent := l }) fun _ => rfl]
  split
  · next hij =>
    subst hij
    obtain ⟨d, hd⟩ := Option.ne_none_iff_exists'.mp h
    rw [hd]
    rfl
  · rfl

theorem isBorrowed_borrow (h : w.desk i ≠ none) (j : InstanceId) :
    (w.borrow i).isBorrowed j = (decide (i = j) || w.isBorrowed j) := by
  rw [isBorrowed, borrow, desk_updateInstance (g := fun d => { d with borrowed := true })
    fun _ => rfl]
  by_cases hij : i = j
  · subst hij
    obtain ⟨d, hd⟩ := Option.ne_none_iff_exists'.mp h
    simp [hd]
  · simp [hij, isBorrowed]

theorem isBorrowed_giveBack (w : World) (i j : InstanceId) :
    (w.giveBack i).isBorrowed j = (!decide (i = j) && w.isBorrowed j) := by
  rw [isBorrowed, giveBack, desk_updateInstance (g := fun d => { d with borrowed := false })
    fun _ => rfl]
  by_cases hij : i = j
  · subst hij
    cases hd : w.desk i <;> simp
  · simp [hij, isBorrowed]

/-! ## What keeps callbacks and contexts -/

@[simp] theorem calls_note (w : World) (e : Event) : (w.note e).calls = w.calls := rfl

@[simp] theorem calls_setSlot (w : World) (i : InstanceId) (slot : UInt32) (data : UInt64) :
    (w.setSlot i slot data).calls = w.calls :=
  calls_updateInstance fun _ => rfl

@[simp] theorem calls_updateLedger (w : World) (i : InstanceId) (f : Ledger → Ledger) :
    (w.updateLedger i f).calls = w.calls :=
  calls_updateInstance fun _ => rfl

@[simp] theorem calls_newHandle (w : World) (i : InstanceId) (v : Script.Value) :
    (w.newHandle i v).2.calls = w.calls :=
  (calls_updateLedger _ _ _).trans rfl

@[simp] theorem calls_cloneHandle (w : World) (h : Handle) :
    (w.cloneHandle h).2.calls = w.calls := by
  rw [cloneHandle]
  split
  · rfl
  · exact (calls_updateLedger _ _ _).trans rfl

@[simp] theorem calls_releaseHandle (w : World) (h : Handle) :
    (w.releaseHandle h).calls = w.calls := by
  rw [releaseHandle]
  split
  · rfl
  · exact (calls_updateLedger _ _ _).trans rfl

@[simp] theorem calls_encode (w : World) (i : InstanceId) (v : Script.Value) :
    (w.encode i v).2.calls = w.calls := by
  rw [encode]
  split
  · rfl
  · exact calls_newHandle _ _ _

@[simp] theorem calls_encodeAll (w : World) (i : InstanceId) (vs : List Script.Value) :
    (w.encodeAll i vs).2.calls = w.calls := by
  induction vs generalizing w with
  | nil => rfl
  | cons v vs ih => exact (ih _).trans (calls_encode _ _ _)

/-! ## What does not -/

theorem desk_size (w : World) : w.desk w.instances.size = none := by
  simp [desk, instance?]

theorem desk_newInstance (w : World) (limits : Limits) (j : InstanceId) :
    (w.newInstance limits).2.desk j =
      if j = w.instances.size then some ⟨true, .empty, none, false⟩ else w.desk j := by
  rw [newInstance]
  dsimp only
  by_cases hj : j = w.instances.size
  · rw [if_pos hj]
    split <;> simp [desk, instance?, note, hj, Instance.desk]
  · rw [if_neg hj]
    split <;> simp [desk, instance?, note, Array.getElem?_push, hj]

/-- Entering a callback in the table. The function object and the handle are no part of it. -/
theorem calls_register {x : Instance} (h : w.instance? i = some x) (realm : Ref) (c : Callback) :
    (w.register i realm c).2.calls =
      (w.updateTable i fun t => t.register ⟨c, w.heap.cells.size⟩).calls := by
  rw [register]
  rw [h]
  simp only [calls_newHandle, calls_note]
  rfl

end World

end ScriptBoundary.Boundary
