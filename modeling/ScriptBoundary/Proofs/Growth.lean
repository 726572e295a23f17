import ScriptBoundary.Proofs.Registry

/-!
# What becomes of the heap

Scripts change the heap as they like, but within limits: a cell stays where it is and stays what
it is. An object may get other properties and another prototype; it never loses its anchor or gets
one, and what it is beyond its properties may change but not in sort. A date can be set to another
time and a map can get another entry, but no map becomes a date. `Heap.Evolves` is the order that
every edit, every change and so every run respects.

What a value becomes at the boundary depends on the sort of the object alone, so this is why a value
that was encoded once has the same kind ever after.

`World.setting` is what scripts stand on: the heap, and where each instance has its realm. Handles,
ledgers, tables and contexts are no part of it, so that each function on worlds that only deals with
those has one lemma here that says that it keeps the setting.

## Main results

* `Script.Heap.evolves_apply`: an edit keeps cells what they are
* `Change.setting_cases`: which changes touch the setting, and how
* `Scene.evolvesHeap_run`: so does every sequence of moves
-/

namespace ScriptBoundary.Script

namespace Nature

variable {n n' n'' : Nature}

/-- Whether the inside of an object can turn into another in the course of time. -/
def Evolves (n n' : Nature) : Prop := n' = n ∨ n.canBecome n' = true

theorem Evolves.refl (n : Nature) : n.Evolves n := .inl rfl

theorem canBecome_trans (h : n.canBecome n' = true) (h' : n'.canBecome n'' = true) :
    n.canBecome n'' = true := by
  cases n <;> cases n' <;> simp only [canBecome, Bool.false_eq_true] at h <;>
    cases n'' <;> simp_all [canBecome]

theorem Evolves.trans (h : n.Evolves n') (h' : n'.Evolves n'') : n.Evolves n'' := by
  rcases h with rfl | h
  · exact h'
  · rcases h' with rfl | h'
    · exact .inr h
    · exact .inr (canBecome_trans h h')

/-- What cannot become anything else stays what it is. -/
theorem Evolves.eq_of_fixed (h : n.Evolves n') (hfixed : ∀ m, n.canBecome m = false) : n' = n := by
  refine h.resolve_right fun hbecome => ?_
  rw [hfixed] at hbecome
  cases hbecome

theorem canBecome_plain (m : Nature) : Nature.plain.canBecome m = false := rfl

theorem canBecome_hostFunction (realm : Ref) (m : Nature) :
    (Nature.hostFunction realm).canBecome m = false := rfl

end Nature

/-- What can become of a cell. -/
inductive Cell.Evolves : Cell → Cell → Prop where
  | object {o o' : Object} (hn : o.nature.Evolves o'.nature) (ha : o'.anchor = o.anchor) :
    Cell.Evolves (.object o) (.object o')
  | scope {s s' : Scope} : Cell.Evolves (.scope s) (.scope s')
  | realm {m : Realm} : Cell.Evolves (.realm m) (.realm m)
  | tally {n n' : Nat} : Cell.Evolves (.tally n) (.tally n')

theorem Cell.Evolves.refl (c : Cell) : c.Evolves c := by
  cases c with
  | object o => exact .object (.refl _) rfl
  | scope s => exact .scope
  | realm m => exact .realm
  | tally n => exact .tally

theorem Cell.Evolves.trans {c c' c'' : Cell} (h : c.Evolves c') (h' : c'.Evolves c'') :
    c.Evolves c'' := by
  cases h with
  | object hn ha =>
    cases h' with
    | object hn' ha' => exact .object (hn.trans hn') (ha'.trans ha)
  | scope => cases h' with | scope => exact .scope
  | realm => cases h' with | realm => exact .realm
  | tally => cases h' with | tally => exact .tally

namespace Heap

/-- Whether one heap can become another: cells are added, and those there are stay what they
are. -/
structure Evolves (h h' : Heap) : Prop where
  size : h.cells.size ≤ h'.cells.size
  cell : ∀ (r : Ref) (c : Cell), h.cells[r]? = some c → ∃ c', h'.cells[r]? = some c' ∧ c.Evolves c'

variable {h h' h'' : Heap} {r : Ref}

theorem Evolves.refl (h : Heap) : h.Evolves h :=
  ⟨Nat.le_refl _, fun _ c hc => ⟨c, hc, .refl c⟩⟩

theorem Evolves.trans (hh : h.Evolves h') (hh' : h'.Evolves h'') : h.Evolves h'' := by
  refine ⟨Nat.le_trans hh.size hh'.size, fun r c hc => ?_⟩
  obtain ⟨c', hc', he⟩ := hh.cell r c hc
  obtain ⟨c'', hc'', he'⟩ := hh'.cell r c' hc'
  exact ⟨c'', hc'', he.trans he'⟩

/-- Whether there is a cell at an address. -/
theorem getElem?_isSome (hr : r < h.cells.size) : ∃ c, h.cells[r]? = some c :=
  ⟨h.cells[r], Array.getElem?_eq_getElem hr⟩

theorem object_of_le (hr : h.cells.size ≤ r) : h.object r = noObject := by
  rw [object, Array.getElem?_eq_none hr]

/-- An object that is there stays an object of its sort. Where a cell is no object, it never becomes
one. -/
theorem Evolves.nature (hh : h.Evolves h') (hr : r < h.cells.size) :
    (h.object r).nature.Evolves (h'.object r).nature := by
  obtain ⟨c, hc⟩ := getElem?_isSome hr
  obtain ⟨c', hc', he⟩ := hh.cell r c hc
  rw [object, object, hc, hc']
  cases he with
  | object hn ha => exact hn
  | _ => exact .refl _

theorem Evolves.anchor (hh : h.Evolves h') (hr : r < h.cells.size) :
    (h'.object r).anchor = (h.object r).anchor := by
  obtain ⟨c, hc⟩ := getElem?_isSome hr
  obtain ⟨c', hc', he⟩ := hh.cell r c hc
  rw [object, object, hc, hc']
  cases he with
  | object hn ha => exact ha
  | _ => rfl

theorem Evolves.realm (hh : h.Evolves h') {m : Realm} (hc : h.cells[r]? = some (.realm m)) :
    h'.cells[r]? = some (.realm m) := by
  obtain ⟨c', hc', he⟩ := hh.cell r _ hc
  cases he with
  | realm => exact hc'

/-! ## Edits -/

theorem evolves_add (h : Heap) (c : Cell) : h.Evolves (h.add c).1 := by
  refine ⟨by simp [add], fun r d hd => ⟨d, ?_, .refl d⟩⟩
  obtain ⟨hr, rfl⟩ := Array.getElem?_eq_some_iff.mp hd
  rw [add]
  dsimp only
  rw [Array.getElem?_push_lt hr]

/-- Changing cells one by one keeps them what they are, if each change does. -/
theorem evolves_modify (h : Heap) (r : Ref) {f : Cell → Cell} (hf : ∀ c : Cell, c.Evolves (f c)) :
    h.Evolves { h with cells := h.cells.modify r f } := by
  refine ⟨by simp, fun q c hc => ?_⟩
  dsimp only
  rw [Array.getElem?_modify, hc]
  split
  · exact ⟨f c, rfl, hf c⟩
  · exact ⟨c, rfl, .refl c⟩

theorem evolves_updateObject (h : Heap) (r : Ref) {f : Object → Object}
    (hf : ∀ o, o.nature.Evolves (f o).nature ∧ (f o).anchor = o.anchor) :
    h.Evolves (h.updateObject r f) := by
  refine evolves_modify h r fun c => ?_
  cases c with
  | object o => exact .object (hf o).1 (hf o).2
  | _ => exact .refl _

theorem evolves_updateScope (h : Heap) (r : Ref) (f : Scope → Scope) :
    h.Evolves (h.updateScope r f) := by
  refine evolves_modify h r fun c => ?_
  cases c with
  | scope s => exact .scope
  | _ => exact .refl _

theorem evolves_setNature (h : Heap) (r : Ref) (n : Nature) :
    h.Evolves (h.apply (.setNature r n)).1 := by
  refine evolves_updateObject h r fun o => ?_
  split
  · next hn => exact ⟨.inr hn, rfl⟩
  · exact ⟨.refl _, rfl⟩

theorem evolves_tick (h : Heap) (r : Ref) : h.Evolves (h.apply (.tick r)).1 := by
  rw [apply]
  split
  · next n hn =>
    refine ⟨by simp, fun q c hc => ?_⟩
    dsimp only
    rw [Array.getElem?_setIfInBounds]
    split
    · next hq =>
      subst hq
      obtain rfl : Cell.tally n = c := Option.some.inj (hn.symm.trans hc)
      rw [if_pos (Array.getElem?_eq_some_iff.mp hc).1]
      exact ⟨_, rfl, .tally⟩
    · exact ⟨c, hc, .refl c⟩
  · exact .refl h

/-- **An edit keeps cells what they are.** -/
theorem evolves_apply (h : Heap) (e : Edit) : h.Evolves (h.apply e).1 := by
  cases e with
  | newObject nature proto props => exact evolves_add h _
  | newScope s => exact evolves_add h _
  | newTally => exact evolves_add h _
  | newSymbol => exact ⟨Nat.le_refl _, fun _ c hc => ⟨c, hc, .refl c⟩⟩
  | putSlot r k s => exact evolves_updateObject h r fun _ => ⟨.refl _, rfl⟩
  | dropSlot r k => exact evolves_updateObject h r fun _ => ⟨.refl _, rfl⟩
  | setProto r p => exact evolves_updateObject h r fun _ => ⟨.refl _, rfl⟩
  | closeObject r => exact evolves_updateObject h r fun _ => ⟨.refl _, rfl⟩
  | setNature r n => exact evolves_setNature h r n
  | bind r b => exact evolves_updateScope h r _
  | store r name v => exact evolves_updateScope h r _
  | setThis r v => exact evolves_updateScope h r _
  | tick r => exact evolves_tick h r

/-! ## Objects and scopes afterwards -/

theorem object_eq_of_getElem? {o : Object} (ho : h.cells[r]? = some (.object o)) :
    h.object r = o := by
  rw [object, ho]

theorem object_add (h : Heap) (c : Cell) (r : Ref) : (h.add c).1.object r =
    if r = h.cells.size then (match c with | .object o => o | _ => noObject) else h.object r := by
  rw [object, add]
  dsimp only
  rw [Array.getElem?_push]
  by_cases hr : r = h.cells.size
  · rw [if_pos hr, if_pos hr]
    cases c <;> rfl
  · rw [if_neg hr, if_neg hr]
    rfl

theorem object_updateObject_of_ne {q : Ref} {f : Object → Object} (hq : q ≠ r) :
    (h.updateObject r f).object q = h.object q := by
  rw [object, updateObject, object]
  dsimp only
  rw [Array.getElem?_modify, if_neg (Ne.symm hq)]

theorem object_updateObject {o : Object} (ho : h.cells[r]? = some (.object o))
    (f : Object → Object) : (h.updateObject r f).object r = f o := by
  rw [object, updateObject]
  dsimp only
  rw [Array.getElem?_modify, if_pos rfl, ho]
  rfl

theorem scope_updateObject {q : Ref} (f : Object → Object) :
    (h.updateObject r f).scope q = h.scope q := by
  rw [scope, updateObject, scope]
  dsimp only
  rw [Array.getElem?_modify]
  by_cases hq : r = q
  · subst hq
    rw [if_pos rfl]
    rcases h.cells[r]? with _ | _ | _ | _ | _ <;> rfl
  · rw [if_neg hq]

theorem object_updateScope {q : Ref} (f : Scope → Scope) :
    (h.updateScope r f).object q = h.object q := by
  rw [object, updateScope, object]
  dsimp only
  rw [Array.getElem?_modify]
  by_cases hq : r = q
  · subst hq
    rw [if_pos rfl]
    rcases h.cells[r]? with _ | _ | _ | _ | _ <;> rfl
  · rw [if_neg hq]

/-! ## Anchors -/

/-- The cells that are added behind an address hold no anchor. -/
theorem anchor_of_evolves (hh : h.Evolves h')
    (hnew : ∀ r, h.cells.size ≤ r → (h'.object r).anchor = none) (r : Ref) :
    (h'.object r).anchor = (h.object r).anchor := by
  rcases Nat.lt_or_ge r h.cells.size with hr | hr
  · exact hh.anchor hr
  · rw [hnew r hr, object_of_le hr]
    rfl

/-- An added cell without an anchor adds no anchor. -/
theorem anchor_add (h : Heap) {c : Cell} (hc : ∀ o, c = .object o → o.anchor = none) (r : Ref) :
    ((h.add c).1.object r).anchor = (h.object r).anchor := by
  refine anchor_of_evolves (evolves_add h c) (fun r hr => ?_) r
  rw [object_add]
  split
  · cases c with
    | object o => exact hc o rfl
    | _ => rfl
  · rw [object_of_le hr]
    rfl

/-- **No edit gives an object an anchor**, or takes one away. -/
theorem anchor_apply (h : Heap) (e : Edit) (r : Ref) :
    ((h.apply e).1.object r).anchor = (h.object r).anchor := by
  have hsame : (h.apply e).1.cells.size = h.cells.size →
      ((h.apply e).1.object r).anchor = (h.object r).anchor := by
    intro hsize
    refine anchor_of_evolves (evolves_apply h e) (fun q hq => ?_) r
    rw [object_of_le (by rw [hsize]; exact hq)]
    rfl
  cases e with
  | newObject nature proto props =>
    refine anchor_add h (fun o ho => ?_) r
    obtain rfl := Cell.object.inj ho
    rfl
  | newScope s => exact anchor_add h (fun o ho => by cases ho) r
  | newTally => exact anchor_add h (fun o ho => by cases ho) r
  | newSymbol => rfl
  | tick q =>
    refine hsame ?_
    rw [apply]
    split
    · simp
    · rfl
  | _ => exact hsame (by simp [apply, updateObject, updateScope])

end Heap

end ScriptBoundary.Script

namespace ScriptBoundary.Boundary

open Script (Activation Anchor Heap Limits Ref)

/-- What scripts stand on: the heap, and where the instances have their realms. -/
structure Setting where
  heap : Heap
  realm : InstanceId → Option Ref

namespace World

variable {w : World} {i : InstanceId}

def setting (w : World) : Setting := ⟨w.heap, fun i => (w.instance? i).map (·.realm)⟩

theorem heap_congr {w' : World} (h : w'.setting = w.setting) : w'.heap = w.heap :=
  congrArg Setting.heap h

theorem realm_congr {w' : World} (h : w'.setting = w.setting) (i : InstanceId) :
    (w'.instance? i).map (·.realm) = (w.instance? i).map (·.realm) :=
  congrFun (congrArg Setting.realm h) i

/-! ## What keeps the setting -/

theorem setting_updateInstance {f : Instance → Instance} (hf : ∀ x, (f x).realm = x.realm) :
    (w.updateInstance i f).setting = w.setting := by
  rw [setting, setting]
  congr 1
  funext j
  rw [instance?_updateInstance]
  split
  · cases w.instance? j with
    | none => rfl
    | some x => exact congrArg some (hf x)
  · rfl

@[simp] theorem setting_note (w : World) (e : Event) : (w.note e).setting = w.setting := rfl

@[simp] theorem setting_setSlot (w : World) (i : InstanceId) (slot : UInt32) (data : UInt64) :
    (w.setSlot i slot data).setting = w.setting :=
  setting_updateInstance fun _ => rfl

@[simp] theorem setting_updateLedger (w : World) (i : InstanceId) (f : Ledger → Ledger) :
    (w.updateLedger i f).setting = w.setting :=
  setting_updateInstance fun _ => rfl

@[simp] theorem setting_updateTable (w : World) (i : InstanceId)
    (f : CallbackTable → CallbackTable) : (w.updateTable i f).setting = w.setting :=
  setting_updateInstance fun _ => rfl

@[simp] theorem setting_borrow (w : World) (i : InstanceId) : (w.borrow i).setting = w.setting :=
  setting_updateInstance fun _ => rfl

@[simp] theorem setting_giveBack (w : World) (i : InstanceId) :
    (w.giveBack i).setting = w.setting :=
  setting_updateInstance fun _ => rfl

@[simp] theorem setting_newHandle (w : World) (i : InstanceId) (v : Script.Value) :
    (w.newHandle i v).2.setting = w.setting :=
  (setting_updateLedger _ _ _).trans rfl

@[simp] theorem setting_cloneHandle (w : World) (h : Handle) :
    (w.cloneHandle h).2.setting = w.setting := by
  rw [cloneHandle]
  split
  · rfl
  · exact (setting_updateLedger _ _ _).trans rfl

@[simp] theorem setting_releaseHandle (w : World) (h : Handle) :
    (w.releaseHandle h).setting = w.setting := by
  rw [releaseHandle]
  split
  · rfl
  · exact (setting_updateLedger _ _ _).trans rfl

@[simp] theorem setting_encode (w : World) (i : InstanceId) (v : Script.Value) :
    (w.encode i v).2.setting = w.setting := by
  rw [encode]
  split
  · rfl
  · exact setting_newHandle _ _ _

@[simp] theorem setting_encodeAll (w : World) (i : InstanceId) (vs : List Script.Value) :
    (w.encodeAll i vs).2.setting = w.setting := by
  induction vs generalizing w with
  | nil => rfl
  | cons v vs ih => exact (ih _).trans (setting_encode _ _ _)

@[simp] theorem setting_enter (w : World) (v : Invocation) : (w.enter v).setting = w.setting :=
  setting_updateInstance (w := { w with inFlight := v :: w.inFlight }) fun _ => rfl

@[simp] theorem setting_dropCallback (w : World) (a : Anchor) (c : Callback) :
    (w.dropCallback a c).setting = w.setting := by
  cases c with
  | native name => rfl
  | foreign target context =>
    rw [dropCallback]
    dsimp only
    split <;> rfl

@[simp] theorem setting_leave (w : World) (a : Anchor) (before : Option Activation) :
    (w.leave a before).setting = w.setting := by
  have hlend : ({ w with inFlight := w.inFlight.tail }.updateInstance a.owner fun x =>
      { x with lent := before }).setting = w.setting :=
    setting_updateInstance (w := { w with inFlight := w.inFlight.tail }) fun _ => rfl
  rw [leave, dropOrphan]
  split
  · exact hlend
  · split
    · exact hlend
    · exact (setting_dropCallback _ _ _).trans hlend

@[simp] theorem setting_retire (w : World) (a : Anchor) (c : Callback) :
    (w.retire a c).setting = w.setting := by
  cases h : w.isRunning a with
  | true =>
    rw [retire_of_running h]
    exact (setting_updateTable w a.owner fun t => t.retire a.id).trans rfl
  | false => rw [retire_of_idle h, setting_dropCallback, setting_updateTable]

@[simp] theorem setting_finalize (w : World) (a : Anchor) :
    (w.finalize a).setting = w.setting := by
  rw [finalize]
  split
  · rfl
  · rw [setting_retire, setting_note]

@[simp] theorem setting_close (w : World) (i : InstanceId) : (w.close i).setting = w.setting :=
  setting_updateInstance fun _ => rfl

@[simp] theorem setting_finalizeAll (w : World) (i : InstanceId) :
    (w.finalizeAll i).setting = w.setting := by
  rw [finalizeAll]
  cases w.instance? i with
  | none => rfl
  | some x =>
    dsimp only
    induction x.table.entries generalizing w with
    | nil => rfl
    | cons e es ih => exact (ih _).trans (setting_retire _ _ _)

@[simp] theorem setting_shut (w : World) (i : InstanceId) : (w.shut i).setting = w.setting := by
  rw [shut, setting_close, setting_finalizeAll]

/-! ## What does not -/

/-- The function object of a callback that is being registered. -/
def functionOf (w : World) (i : InstanceId) (realm : Ref) : Script.Object :=
  ⟨.hostFunction realm,
    some ((w.heap.realm realm).base + Script.Intrinsic.functionPrototype.ctorIdx), true,
    hostFunctionProps, some ⟨i, (w.table i).nextId⟩⟩

/-- Registering a callback adds its function object to the heap, and nothing else. -/
theorem setting_register {x : Instance} (hx : w.instance? i = some x) (realm : Ref)
    (c : Callback) : (w.register i realm c).2.setting =
      { w.setting with heap := (w.heap.add (.object (w.functionOf i realm))).1 } := by
  have htable : (w.table i).nextId = x.table.nextId := by
    rw [table, desk, hx]
    rfl
  rw [register, hx]
  simp only [setting_newHandle, setting_note, setting_updateTable]
  rw [functionOf, htable]
  rfl

theorem heap_newInstance (w : World) (limits : Limits) :
    (w.newInstance limits).2.heap = w.heap.addRealm.1 := by
  rw [newInstance]
  dsimp only
  split <;> simp [note]

/-- A new instance brings a realm of its own. -/
theorem setting_newInstance (w : World) (limits : Limits) : (w.newInstance limits).2.setting =
    ⟨w.heap.addRealm.1, fun j =>
      if j = w.instances.size then some w.heap.addRealm.2 else (w.instance? j).map (·.realm)⟩ := by
  rw [setting, heap_newInstance]
  congr 1
  funext j
  rw [newInstance]
  dsimp only
  by_cases hj : j = w.instances.size
  · rw [if_pos hj]
    split <;> simp [instance?, note, hj]
  · rw [if_neg hj]
    split <;> simp [instance?, note, Array.getElem?_push, hj]

end World

/-- **What a change does to the setting.** Scripts edit the heap, an instance brings a realm, and a
registration brings a function object. Nothing else touches it. -/
theorem Change.setting_cases {w w' : World} {x : Change} (hx : x.apply w = some w') :
    (∃ e, x = .edit e ∧ w'.setting = { w.setting with heap := (w.heap.apply e).1 })
    ∨ (∃ limits, x = .newInstance limits ∧ w' = (w.newInstance limits).2)
    ∨ (∃ i realm c, x = .register i realm c ∧ w.isAlive i = true
        ∧ w' = (w.register i realm c).2)
    ∨ (∀ i realm c, x ≠ .register i realm c) ∧ w'.setting = w.setting := by
  cases x with
  | edit e =>
    cases hx
    exact .inl ⟨e, rfl, rfl⟩
  | newInstance limits =>
    obtain rfl : (w.newInstance limits).2 = w' := Option.some.inj hx
    exact .inr (.inl ⟨limits, rfl, rfl⟩)
  | register i realm c =>
    obtain ⟨i', realm', c', heq, halive, rfl⟩ | hr := Change.register_or hx
    · exact .inr (.inr (.inl ⟨i', realm', c', heq, halive, rfl⟩))
    · exact absurd rfl (hr i realm c)
  | note e =>
    cases hx
    exact .inr (.inr (.inr ⟨by simp, rfl⟩))
  | install pair =>
    cases hx
    exact .inr (.inr (.inr ⟨by simp, rfl⟩))
  | setSlot i slot data =>
    cases hx
    exact .inr (.inr (.inr ⟨by simp, World.setting_setSlot ..⟩))
  | newHandle i v =>
    simp only [Change.apply] at hx
    split at hx
    · cases hx
      exact .inr (.inr (.inr ⟨by simp, World.setting_newHandle ..⟩))
    · cases hx
  | cloneHandle h =>
    cases hx
    exact .inr (.inr (.inr ⟨by simp, World.setting_cloneHandle ..⟩))
  | releaseHandle h =>
    cases hx
    exact .inr (.inr (.inr ⟨by simp, World.setting_releaseHandle ..⟩))
  | finalize a =>
    cases hx
    exact .inr (.inr (.inr ⟨by simp, World.setting_finalize ..⟩))
  | shut i =>
    simp only [Change.apply] at hx
    split at hx
    · cases hx
      exact .inr (.inr (.inr ⟨by simp, World.setting_shut ..⟩))
    · cases hx

/-- Only a change of the world changes the setting. -/
theorem Scene.setting_step {c d : Scene} {m : Move} (hm : c.step m = some d) :
    (∃ x, m = .change x ∧ x.apply c.world = some d.world)
      ∨ (∀ x, m ≠ .change x) ∧ d.world.setting = c.world.setting := by
  cases Scene.stepped hm with
  | change hx => exact .inl ⟨_, rfl, hx⟩
  | beginLent hst hx hl => exact .inr ⟨by simp, rfl⟩
  | beginOwn hst hx hl hb => exact .inr ⟨by simp, World.setting_borrow _ _⟩
  | finishLent => exact .inr ⟨by simp, rfl⟩
  | finishOwn => exact .inr ⟨by simp, World.setting_giveBack _ _⟩
  | enter hst hcb => exact .inr ⟨by simp, World.setting_enter _ _⟩
  | leave => exact .inr ⟨by simp, World.setting_leave _ _ _⟩

/-! ## The heap in the course of a run -/

theorem evolves_addRealm (h : Heap) : h.Evolves h.addRealm.1 := by
  refine ⟨by simp [Heap.addRealm], fun r c hc => ⟨c, ?_, .refl c⟩⟩
  obtain ⟨hr, rfl⟩ := Array.getElem?_eq_some_iff.mp hc
  rw [Heap.addRealm]
  dsimp only
  rw [Array.getElem?_append_left hr, hc]

theorem Change.evolvesHeap {w w' : World} {x : Change} (hx : x.apply w = some w') :
    w.heap.Evolves w'.heap := by
  obtain ⟨e, -, hs⟩ | ⟨limits, -, rfl⟩ | ⟨i, realm, c, -, halive, rfl⟩ | ⟨-, hs⟩ :=
    Change.setting_cases hx
  · rw [show w'.heap = _ from congrArg Setting.heap hs]
    exact Heap.evolves_apply _ _
  · rw [World.heap_newInstance]
    exact evolves_addRealm _
  · obtain ⟨y, hy⟩ := Option.isSome_iff_exists.mp (World.hasInstance_of_isAlive halive)
    rw [show (w.register i realm c).2.heap = _ from
      congrArg Setting.heap (World.setting_register hy realm c)]
    exact Heap.evolves_add _ _
  · rw [World.heap_congr hs]
    exact .refl _

theorem Scene.evolvesHeap_step {c d : Scene} {m : Move} (hm : c.step m = some d) :
    c.world.heap.Evolves d.world.heap := by
  rcases Scene.setting_step hm with ⟨x, -, hx⟩ | ⟨-, hs⟩
  · exact Change.evolvesHeap hx
  · rw [World.heap_congr hs]
    exact .refl _

/-- **Cells stay what they are** in every sequence of moves. -/
theorem Scene.evolvesHeap_run {c d : Scene} {ms : List Move} (h : c.run ms = some d) :
    c.world.heap.Evolves d.world.heap :=
  Scene.run_induction (P := fun _ d => c.world.heap.Evolves d.world.heap) (.refl _)
    (fun hd hm => hd.trans (Scene.evolvesHeap_step hm)) h

end ScriptBoundary.Boundary
