import ScriptBoundary.Proofs.Move
import ScriptBoundary.Proofs.Purse

/-!
# The handles of a world

Every function on worlds either does to the purse what one of the functions on purses does, or keeps
it. The lemmas here say which, so that nothing after them opens a world to find out who owns what.

## Main results

* `World.purse_decodeAll`, `World.yields_encodeAll`: what the codec takes and what it hands out
* `Scene.evolves_run`: no sequence of moves brings a handle back
-/

namespace ScriptBoundary.Boundary

open Script (Activation Anchor Limits Ref)

/-- What becomes a value of its own has no handle. -/
theorem Form.handle?_of_inline {h : Script.Heap} {x : Script.Value} {u : Value}
    (hu : Form.of h x = .inline u) : u.handle? = none := by
  cases x with
  | object r =>
    simp only [Form.of] at hu
    split at hu
    · cases hu
      rfl
    · cases hu
  | text t => cases hu
  | _ =>
    cases hu
    rfl

namespace World

variable {w : World} {i : InstanceId}

def purse (w : World) : Purse := ⟨w.handles, fun i => (w.instance? i).map (·.ledger)⟩

@[simp] theorem cell?_purse (w : World) (h : Handle) : w.purse.cell? h = w.cell? h := rfl

/-- A change of an instance is a posting on its account. -/
theorem purse_updateInstance {f : Instance → Instance} {g : Ledger → Ledger}
    (hf : ∀ x, (f x).ledger = g x.ledger) : (w.updateInstance i f).purse = w.purse.post i g := by
  have hl : (fun j => ((w.updateInstance i f).instance? j).map (·.ledger)) =
      fun j => if i = j then ((w.instance? j).map (·.ledger)).map g
        else (w.instance? j).map (·.ledger) := by
    funext j
    rw [instance?_updateInstance]
    split
    · simp [Option.map_map, Function.comp_def, hf]
    · rfl
  rw [purse, hl]
  rfl

/-- A change of an instance that leaves its ledger alone leaves the purse alone. -/
theorem purse_updateInstance_of_eq {f : Instance → Instance} (hf : ∀ x, (f x).ledger = x.ledger) :
    (w.updateInstance i f).purse = w.purse := by
  have hpost : w.purse.post i id = w.purse := by
    rw [Purse.post]
    simp
  rw [purse_updateInstance (g := id) hf, hpost]

@[simp] theorem purse_note (w : World) (e : Event) : (w.note e).purse = w.purse := rfl

@[simp] theorem purse_setSlot (w : World) (i : InstanceId) (slot : UInt32) (data : UInt64) :
    (w.setSlot i slot data).purse = w.purse :=
  purse_updateInstance_of_eq fun _ => rfl

@[simp] theorem purse_borrow (w : World) (i : InstanceId) : (w.borrow i).purse = w.purse :=
  purse_updateInstance_of_eq fun _ => rfl

@[simp] theorem purse_giveBack (w : World) (i : InstanceId) : (w.giveBack i).purse = w.purse :=
  purse_updateInstance_of_eq fun _ => rfl

@[simp] theorem purse_enter (w : World) (v : Invocation) : (w.enter v).purse = w.purse :=
  purse_updateInstance_of_eq (w := { w with inFlight := v :: w.inFlight }) fun _ => rfl

@[simp] theorem purse_dropCallback (w : World) (a : Anchor) (c : Callback) :
    (w.dropCallback a c).purse = w.purse := by
  cases c with
  | native name => rfl
  | foreign target context =>
    rw [dropCallback]
    dsimp only
    split <;> rfl

@[simp] theorem purse_dropOrphan (w : World) (a : Anchor) :
    (w.dropOrphan a).purse = w.purse := by
  rw [dropOrphan]
  split
  · rfl
  · split
    · rfl
    · exact purse_dropCallback _ _ _

@[simp] theorem purse_leave (w : World) (a : Anchor) (before : Option Activation) :
    (w.leave a before).purse = w.purse := by
  rw [leave, purse_dropOrphan]
  exact purse_updateInstance_of_eq (w := { w with inFlight := w.inFlight.tail }) fun _ => rfl

@[simp] theorem purse_retire (w : World) (a : Anchor) (c : Callback) :
    (w.retire a c).purse = w.purse := by
  have htable : (w.updateTable a.owner fun t => t.retire a.id).purse = w.purse :=
    purse_updateInstance_of_eq fun _ => rfl
  rw [retire]
  split
  · exact htable
  · rw [purse_dropCallback]
    exact htable

@[simp] theorem purse_finalize (w : World) (a : Anchor) : (w.finalize a).purse = w.purse := by
  rw [finalize]
  split
  · rfl
  · exact purse_retire _ _ _

@[simp] theorem purse_close (w : World) (i : InstanceId) : (w.close i).purse = w.purse :=
  purse_updateInstance_of_eq (f := fun x => { x with table := x.table.dispose.1, isLive := false })
    fun _ => rfl

@[simp] theorem purse_shut (w : World) (i : InstanceId) : (w.shut i).purse = w.purse := by
  have hfold : ∀ (es : List (Nat × Registration)) (w : World),
      (es.foldl (fun w e => w.retire ⟨i, e.1⟩ e.2.callback) w).purse = w.purse := by
    intro es
    induction es with
    | nil => exact fun w => rfl
    | cons e es ih => exact fun w => (ih _).trans (purse_retire _ _ _)
  have hall : (w.finalizeAll i).purse = w.purse := by
    rw [finalizeAll]
    split
    · rfl
    · exact hfold _ w
  exact (purse_close _ i).trans hall

theorem purse_newHandle (w : World) (i : InstanceId) (v : Script.Value) :
    (w.newHandle i v).2.purse = w.purse.make i v :=
  purse_updateInstance (w := { w with handles := w.handles.push (some ⟨v, i⟩) })
    (g := Ledger.create) fun _ => rfl

theorem purse_cloneHandle (w : World) (h : Handle) :
    (w.cloneHandle h).2.purse = w.purse.copy h := by
  rw [cloneHandle, Purse.copy, cell?_purse]
  cases w.cell? h with
  | none => rfl
  | some c =>
    exact purse_updateInstance (w := { w with handles := w.handles.push (some c) })
      (g := Ledger.clone) fun _ => rfl

theorem purse_releaseHandle (w : World) (h : Handle) :
    (w.releaseHandle h).purse = w.purse.take h := by
  rw [releaseHandle, Purse.take, cell?_purse]
  cases w.cell? h with
  | none => rfl
  | some c =>
    exact purse_updateInstance (w := { w with handles := w.handles.setIfInBounds h.id none })
      (g := Ledger.release) fun _ => rfl

theorem purse_decode (w : World) (realm : Ref) (u : Value) :
    (w.decode realm u).2.purse = w.purse.takeValue u := by
  cases u with
  | composite kind h => exact purse_releaseHandle w h
  | _ => rfl

theorem purse_decodeAll (w : World) (realm : Ref) (us : List Value) :
    (w.decodeAll realm us).2.purse = w.purse.takeAll us := by
  induction us generalizing w with
  | nil => rfl
  | cons u us ih =>
    have hu : (w.decode realm u).2.purse = w.purse.takeValue u := purse_decode w realm u
    exact (ih _).trans (congrArg (fun p : Purse => p.takeAll us) hu)

theorem yields_newHandle (w : World) (i : InstanceId) (v : Script.Value) :
    w.purse.Yields i (some (w.newHandle i v).1) (w.newHandle i v).2.purse :=
  ⟨rfl, v, purse_newHandle w i v⟩

theorem yields_encode (w : World) (i : InstanceId) (v : Script.Value) :
    w.purse.Yields i (w.encode i v).1.handle? (w.encode i v).2.purse := by
  rw [encode]
  split
  · next u hu =>
    rw [Form.handle?_of_inline hu]
    rfl
  · exact yields_newHandle w i v

theorem yields_encodeAll (w : World) (i : InstanceId) (vs : List Script.Value) :
    w.purse.YieldsAll i (w.encodeAll i vs).1 (w.encodeAll i vs).2.purse := by
  induction vs generalizing w with
  | nil => rfl
  | cons v vs ih => exact ⟨_, yields_encode w i v, ih _⟩

/-- Registering a callback makes one handle, to its function object. -/
theorem purse_register {x : Instance} (hx : w.instance? i = some x) (realm : Ref) (c : Callback) :
    (w.register i realm c).1 = .composite .function ⟨w.handles.size⟩
      ∧ ∃ v, (w.register i realm c).2.purse = w.purse.make i v := by
  rw [register, hx]
  have htable : ∀ (u : World) (f : CallbackTable → CallbackTable),
      (u.updateTable i f).purse = u.purse := fun u f =>
    purse_updateInstance_of_eq (f := fun x => { x with table := f x.table }) fun _ => rfl
  exact ⟨rfl, _, (purse_newHandle _ _ _).trans (congrArg (fun p : Purse => p.make i _)
    ((purse_note _ _).trans (htable _ _)))⟩

theorem yields_register {x : Instance} (hx : w.instance? i = some x) (realm : Ref) (c : Callback) :
    w.purse.Yields i (w.register i realm c).1.handle? (w.register i realm c).2.purse := by
  obtain ⟨hvalue, v, hv⟩ := purse_register hx realm c
  rw [hvalue]
  exact ⟨rfl, v, hv⟩

/-- A new instance brings an account of its own. -/
theorem purse_newInstance (w : World) (limits : Limits) : (w.newInstance limits).2.purse =
    { w.purse with
      ledger := fun j => if j = w.instances.size then some .empty else w.purse.ledger j } := by
  have hh : (w.newInstance limits).2.handles = w.handles := by
    rw [newInstance]
    dsimp only
    split <;> simp [note]
  rw [purse, hh]
  congr 1
  funext j
  rw [newInstance]
  dsimp only
  by_cases hj : j = w.instances.size
  · rw [if_pos hj]
    split <;> simp [instance?, note, hj]
  · rw [if_neg hj]
    split <;> simp [purse, instance?, note, Array.getElem?_push, hj]

theorem evolves_newInstance (w : World) (limits : Limits) :
    w.purse.Evolves (w.newInstance limits).2.purse := by
  rw [purse_newInstance]
  refine ⟨Nat.le_refl _, fun _ _ => .inl rfl, fun j hj => ?_⟩
  dsimp only
  split
  · rfl
  · exact hj

end World

/-! ## Moves -/

/-- **No move brings a handle back.** -/
theorem Change.evolves {w w' : World} {x : Change} (hx : x.apply w = some w') :
    w.purse.Evolves w'.purse := by
  cases x with
  | edit e =>
    cases hx
    exact .refl _
  | note e =>
    cases hx
    exact .refl _
  | install pair =>
    cases hx
    exact .refl _
  | setSlot i slot data =>
    cases hx
    rw [World.purse_setSlot]
    exact .refl _
  | newInstance limits =>
    obtain rfl : (w.newInstance limits).2 = w' := Option.some.inj hx
    exact World.evolves_newInstance w limits
  | newHandle i v =>
    simp only [Change.apply] at hx
    split at hx
    · cases hx
      rw [World.purse_newHandle]
      exact Purse.evolves_make _ _ _
    · cases hx
  | cloneHandle h =>
    cases hx
    rw [World.purse_cloneHandle]
    exact Purse.evolves_copy _ _
  | releaseHandle h =>
    cases hx
    rw [World.purse_releaseHandle]
    exact Purse.evolves_take _ _
  | register i realm c =>
    simp only [Change.apply] at hx
    split at hx
    · next halive =>
      obtain rfl := Option.some.inj hx
      obtain ⟨x, hlive⟩ := Option.isSome_iff_exists.mp (World.isAlive_eq_isSome_live? ▸ halive)
      obtain ⟨-, v, hv⟩ := World.purse_register (World.live?_eq_some_iff.mp hlive).1 realm c
      rw [hv]
      exact Purse.evolves_make _ _ _
    · cases hx
  | finalize a =>
    cases hx
    rw [World.purse_finalize]
    exact .refl _
  | shut i =>
    simp only [Change.apply] at hx
    split at hx
    · cases hx
      rw [World.purse_shut]
      exact .refl _
    · cases hx

/-- Only a change of the world changes the purse. -/
theorem Scene.purse_step {c d : Scene} {m : Move} (hm : c.step m = some d) :
    (∃ x, m = .change x ∧ x.apply c.world = some d.world) ∨ d.world.purse = c.world.purse := by
  cases Scene.stepped hm with
  | change hx => exact .inl ⟨_, rfl, hx⟩
  | beginLent hst hx hl => exact .inr rfl
  | beginOwn hst hx hl hb => exact .inr (World.purse_borrow _ _)
  | finishLent => exact .inr rfl
  | finishOwn => exact .inr (World.purse_giveBack _ _)
  | enter hst hcb => exact .inr (World.purse_enter _ _)
  | leave => exact .inr (World.purse_leave _ _ _)

theorem Scene.evolves_step {c d : Scene} {m : Move} (hm : c.step m = some d) :
    c.world.purse.Evolves d.world.purse := by
  rcases Scene.purse_step hm with ⟨x, -, hx⟩ | hd
  · exact Change.evolves hx
  · rw [hd]
    exact .refl _

theorem Scene.evolves_run {c d : Scene} {ms : List Move} (h : c.run ms = some d) :
    c.world.purse.Evolves d.world.purse := by
  induction ms generalizing c with
  | nil =>
    obtain rfl := Option.some.inj h
    exact .refl _
  | cons m ms ih =>
    obtain ⟨e, hm, h⟩ := Option.bind_eq_some_iff.mp h
    exact (Scene.evolves_step hm).trans (ih h)

end ScriptBoundary.Boundary
