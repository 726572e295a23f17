import ScriptBoundary.Proofs.HostMemory
import ScriptBoundary.Proofs.Procedure

/-!
# No table is borrowed twice

Whenever a method of a callback table borrows the entries, nobody else has borrowed them, whatever
has come in between the statements of whatever methods.

The argument is about statements and not about runs. A procedure is tidy (`Procedure.Tidy`) if it
borrows only where it has nothing borrowed, and has given everything back where it allocates, lets
go of a callback, calls the host or ends. These are the places where it is left, so of all the tasks
on top of the calls only the first one can have borrowed anything (`Bench.Tidy`). Then whatever
comes on top finds all tables free. All five methods are tidy, which takes no more than reading
them, and it is all that has to be read again when one of them changes.

That no borrow is refused would be worth little if the bench did not do what the interpreter does.
So every sequence of moves of a scene is a sequence of ticks of the bench, in which each
registration, each call, each report of the collector and each end of an instance is done statement
by statement (`Bench.leads_of_run`), and comes to the same world.

## Main results

* `Bench.Tidy.step`: what one tick keeps, and that it is not refused
* `Bench.leads_of_run`: the methods do what the functions on worlds do
* `tables_are_never_borrowed_twice`: what every sequence of ticks comes to
-/

namespace ScriptBoundary.Boundary

open Script (Anchor Ref)

/-! ## Tidy procedures -/

namespace Procedure

/-- Whether a procedure borrows only what is free, gives back what it has borrowed, and has nothing
borrowed wherever it is left; `held` says whether it has borrowed anything now. -/
def Tidy (held : Bool) : Procedure → Prop
  | .done => held = false
  | .number next => ∀ id, (next id).Tidy held
  | .allocate next => held = false ∧ next.Tidy false
  | .function _ _ next => held = false ∧ ∀ f, (next f).Tidy false
  | .borrow next => held = false ∧ ∀ es, (next es).Tidy true
  | .borrowMut _ next => held = false ∧ ∀ es, (next es).Tidy true
  | .giveBack next => held = true ∧ next.Tidy false
  | .reserve next => next.Tidy held
  | .settle next => next.Tidy held
  | .isAlive next => ∀ alive, (next alive).Tidy held
  | .note _ next => next.Tidy held
  | .letGo _ _ next => held = false ∧ next.Tidy false
  | .enter _ => held = false
  | .close next => held = false ∧ next.Tidy false

theorem tidy_registering (realm : Ref) (c : Callback) : (registering realm c).Tidy false :=
  fun _ => ⟨rfl, rfl, rfl, rfl, fun _ => ⟨rfl, fun _ => ⟨rfl, rfl⟩⟩⟩

theorem tidy_lookingUp (v : Invocation) : (lookingUp v).Tidy false := by
  refine ⟨rfl, fun es => ?_⟩
  dsimp only
  split
  · exact ⟨rfl, rfl⟩
  · intro alive
    cases alive with
    | false => exact ⟨rfl, rfl⟩
    | true => exact ⟨rfl, rfl, rfl⟩

theorem tidy_finalizing (a : Anchor) : (finalizing a).Tidy false := by
  refine ⟨rfl, fun es => ⟨rfl, ?_⟩⟩
  split
  · exact rfl
  · exact ⟨rfl, rfl⟩

theorem tidy_settlingAll (i : InstanceId) (es : List (Nat × Registration)) {next : Procedure}
    (h : next.Tidy false) : (settlingAll i es next).Tidy false := by
  induction es with
  | nil => exact h
  | cons e es ih => exact ⟨rfl, ih⟩

theorem tidy_tearingDown (i : InstanceId) : (tearingDown i).Tidy false :=
  ⟨rfl, fun es => ⟨rfl, tidy_settlingAll i es ⟨rfl, rfl, rfl⟩⟩⟩

theorem tidy_counting : counting.Tidy false := ⟨rfl, fun _ => ⟨rfl, rfl⟩⟩

/-- Whether the next statement is a borrow. -/
def borrows : Procedure → Bool
  | .borrow _ | .borrowMut .. => true
  | _ => false

theorem Tidy.not_held_of_borrows {held : Bool} {r : Procedure} (h : r.Tidy held)
    (hr : r.borrows = true) : held = false := by
  cases r with
  | borrow next => exact h.1
  | borrowMut change next => exact h.1
  | _ => cases hr

end Procedure

/-! ## Who has borrowed what -/

/-- Whether a task that is not on top has nothing borrowed and will be tidy. -/
def Task.IsTidy : Task → Prop
  | .method _ r => r.Tidy false
  | _ => True

namespace Bench

variable {b : Bench} {i : InstanceId}

/-- Whether all tables are free, or all but the one of an instance, which is borrowed once. -/
def Lent (guards : InstanceId → Guard) (i : InstanceId) : Bool → Prop
  | false => ∀ j, guards j = .free
  | true => (guards i).giveBack = .free ∧ ∀ j, j ≠ i → guards j = .free

/-- Whether nothing is borrowed but by the task on top, and all tasks are tidy. -/
def Tidy (b : Bench) : Prop :=
  match b.tasks with
  | .method i r :: rest => ∃ held, Lent b.guards i held ∧ r.Tidy held ∧ ∀ t ∈ rest, t.IsTidy
  | ts => (∀ j, b.guards j = .free) ∧ ∀ t ∈ ts, t.IsTidy

theorem tidy_start (p : Platform) : (start p).Tidy := ⟨fun _ => rfl, nofun⟩

/-- A bench with nothing borrowed is tidy if its tasks are. -/
theorem tidy_of_free (hg : ∀ j, b.guards j = .free) (ht : ∀ t ∈ b.tasks, t.IsTidy) : b.Tidy := by
  rw [Tidy]
  split
  · next i r rest heq =>
    have hall := heq ▸ ht
    exact ⟨false, hg, hall _ List.mem_cons_self, fun t h => hall t (List.mem_cons_of_mem _ h)⟩
  · exact ⟨hg, ht⟩

/-- A method on top of tidy tasks that has borrowed what there is borrowed. -/
theorem tidy_method {held : Bool} {r : Procedure} (hg : Lent b.guards i held) (hr : r.Tidy held)
    (ht : ∀ t ∈ b.tasks, t.IsTidy) : (b.push (.method i r)).Tidy :=
  ⟨held, hg, hr, ht⟩

/-- Where a pass can start or the host can be asked something, nothing is borrowed. -/
theorem Tidy.free_of_not_method (h : b.Tidy) (hb : ∀ i r rest, b.tasks ≠ .method i r :: rest) :
    (∀ j, b.guards j = .free) ∧ ∀ t ∈ b.tasks, t.IsTidy := by
  rw [Tidy] at h
  split at h
  · next i r rest heq => exact absurd heq (hb i r rest)
  · exact h

/-- A method on top that has nothing borrowed leaves all tables free. -/
theorem Tidy.free_of_method {r : Procedure} {rest : List Task} (h : b.Tidy)
    (hb : b.tasks = .method i r :: rest) (hr : ∀ held, r.Tidy held → held = false) :
    (∀ j, b.guards j = .free) ∧ ∀ t ∈ b.tasks, t.IsTidy := by
  rw [Tidy, hb] at h
  obtain ⟨held, hg, htidy, hrest⟩ := h
  obtain rfl := hr held htidy
  refine ⟨hg, fun t ht => ?_⟩
  rw [hb] at ht
  rcases List.mem_cons.mp ht with rfl | ht
  · exact htidy
  · exact hrest t ht

theorem Tidy.free_of_mayCollect (h : b.Tidy) (hb : b.mayCollect = true) :
    (∀ j, b.guards j = .free) ∧ ∀ t ∈ b.tasks, t.IsTidy := by
  rw [mayCollect] at hb
  split at hb
  · next heq => exact h.free_of_not_method (by rw [heq]; nofun)
  · next heq => exact h.free_of_method heq fun held htidy => htidy.1
  · cases hb

theorem Tidy.free_of_mayQuery (h : b.Tidy) (hb : b.mayQuery = true) :
    (∀ j, b.guards j = .free) ∧ ∀ t ∈ b.tasks, t.IsTidy := by
  rw [mayQuery] at hb
  split at hb
  · next heq => exact h.free_of_not_method (by rw [heq]; nofun)
  · next heq => exact h.free_of_not_method (by rw [heq]; nofun)
  · cases hb

/-! ## What one tick keeps -/

/-- What is borrowed when all is free is the only thing that is borrowed. -/
theorem lent_borrow {guards : InstanceId → Guard} (hg : ∀ j, guards j = .free) {g : Guard}
    (hback : g.giveBack = .free) (i : InstanceId) : Lent (Function.update guards i g) i true := by
  refine ⟨?_, fun j hj => ?_⟩
  · rw [Function.update_self]
    exact hback
  · rw [Function.update_of_ne hj]
    exact hg j

/-- When it is given back, all is free. -/
theorem lent_giveBack {guards : InstanceId → Guard} (hg : Lent guards i true) :
    Lent (Function.update guards i (guards i).giveBack) i false := by
  intro j
  by_cases hj : j = i
  · subst hj
    rw [Function.update_self]
    exact hg.1
  · rw [Function.update_of_ne hj]
    exact hg.2 j hj

/-- **One statement of a tidy method** is carried out, and what is left of the method is tidy. -/
theorem tidy_carryOut {held : Bool} {r : Procedure} (hg : Lent b.guards i held) (hr : r.Tidy held)
    (ht : ∀ t ∈ b.tasks, t.IsTidy) : ∃ b', b.carryOut i r = .ok b' ∧ b'.Tidy := by
  cases r with
  | done =>
    obtain rfl : held = false := hr
    exact ⟨_, rfl, tidy_of_free hg ht⟩
  | number next => exact ⟨_, rfl, tidy_method hg (hr _) ht⟩
  | allocate next =>
    obtain ⟨rfl, hr⟩ := hr
    exact ⟨_, rfl, tidy_method hg hr ht⟩
  | function realm id next =>
    obtain ⟨rfl, hr⟩ := hr
    exact ⟨_, rfl, tidy_method hg (hr _) ht⟩
  | borrow next =>
    obtain ⟨rfl, hr⟩ := hr
    have hfree : b.guards i = .free := hg i
    refine ⟨_, by rw [carryOut, hfree]; rfl, ?_⟩
    exact tidy_method (lent_borrow hg rfl i) (hr _) ht
  | borrowMut change next =>
    obtain ⟨rfl, hr⟩ := hr
    have hfree : b.guards i = .free := hg i
    refine ⟨_, by rw [carryOut, hfree]; rfl, ?_⟩
    exact tidy_method (lent_borrow hg rfl i) (hr _) ht
  | giveBack next =>
    obtain ⟨rfl, hr⟩ := hr
    exact ⟨_, rfl, tidy_method (lent_giveBack hg) hr ht⟩
  | reserve next => exact ⟨_, rfl, tidy_method hg hr ht⟩
  | settle next => exact ⟨_, rfl, tidy_method hg hr ht⟩
  | isAlive next => exact ⟨_, rfl, tidy_method hg (hr _) ht⟩
  | note e next => exact ⟨_, rfl, tidy_method hg hr ht⟩
  | letGo a c next =>
    obtain ⟨rfl, hr⟩ := hr
    refine ⟨_, rfl, ?_⟩
    have hrest : ∀ t ∈ Task.method i next :: b.tasks, t.IsTidy := List.forall_mem_cons.mpr ⟨hr, ht⟩
    split
    · exact tidy_of_free hg hrest
    · exact tidy_of_free hg (List.forall_mem_cons.mpr ⟨trivial, hrest⟩)
  | enter v =>
    obtain rfl : held = false := hr
    exact ⟨_, rfl, tidy_of_free hg ht⟩
  | close next =>
    obtain ⟨rfl, hr⟩ := hr
    exact ⟨_, rfl, tidy_method hg hr ht⟩

/-- **What is on top of a tidy bench goes on**, and leaves it tidy. -/
theorem Tidy.go (h : b.Tidy) (hb : b.tasks ≠ []) : ∃ b', b.go = .ok b' ∧ b'.Tidy := by
  obtain ⟨c, tasks, guards⟩ := b
  cases tasks with
  | nil => exact absurd rfl hb
  | cons t rest =>
    cases t with
    | method i r =>
      obtain ⟨held, hg, hr, hrest⟩ := h
      exact tidy_carryOut (b := ⟨c, rest, guards⟩) hg hr hrest
    | pass left =>
      obtain ⟨hg, ht⟩ := h
      have hrest := (List.forall_mem_cons.mp ht).2
      cases left with
      | nil => exact ⟨_, rfl, tidy_of_free hg hrest⟩
      | cons a as =>
        refine ⟨_, rfl, tidy_of_free hg ?_⟩
        exact List.forall_mem_cons.mpr
          ⟨Procedure.tidy_finalizing a, List.forall_mem_cons.mpr ⟨trivial, hrest⟩⟩
    | destructor =>
      obtain ⟨hg, ht⟩ := h
      exact ⟨_, rfl, tidy_of_free hg (List.forall_mem_cons.mp ht).2⟩

/-- A task is begun on top of tidy ones where nothing is borrowed. -/
theorem tidy_push (h : (∀ j, b.guards j = .free) ∧ ∀ t ∈ b.tasks, t.IsTidy) {t : Task}
    (ht : t.IsTidy) : (b.push t).Tidy :=
  tidy_of_free h.1 (List.forall_mem_cons.mpr ⟨ht, h.2⟩)

/-- **What one tick keeps**: a bench that is tidy stays so, and no borrow is refused. -/
theorem Tidy.step (h : b.Tidy) (t : Tick) :
    (∃ b', b.step t = .ok b' ∧ b'.Tidy) ∨ b.step t = .error .impossible := by
  have hnil : b.tasks.isEmpty = true → (∀ j, b.guards j = .free) ∧ ∀ t ∈ b.tasks, t.IsTidy := by
    intro hempty
    refine h.free_of_not_method ?_
    rw [List.isEmpty_iff.mp hempty]
    nofun
  cases t with
  | move m =>
    simp only [Bench.step]
    split
    · next hm =>
      split
      · exact .inr rfl
      · have hfree := hnil (Bool.and_eq_true_iff.mp hm).1
        exact .inl ⟨_, rfl, tidy_of_free hfree.1 hfree.2⟩
    · exact .inr rfl
  | register i realm c =>
    simp only [Bench.step]
    split
    · next hi =>
      have hfree := hnil (Bool.and_eq_true_iff.mp hi).1
      exact .inl ⟨_, rfl, tidy_push hfree (Procedure.tidy_registering realm c)⟩
    · exact .inr rfl
  | call v =>
    simp only [Bench.step]
    split
    · next hv =>
      have hfree := hnil (Bool.and_eq_true_iff.mp hv).1
      exact .inl ⟨_, rfl, tidy_push hfree (Procedure.tidy_lookingUp v)⟩
    · exact .inr rfl
  | shut i =>
    simp only [Bench.step]
    split
    · next hi =>
      have hfree := hnil (Bool.and_eq_true_iff.mp hi).1
      exact .inl ⟨_, rfl, tidy_push hfree (Procedure.tidy_tearingDown i)⟩
    · exact .inr rfl
  | collect as =>
    simp only [Bench.step]
    split
    · next hc => exact .inl ⟨_, rfl, tidy_push (h.free_of_mayCollect hc) trivial⟩
    · exact .inr rfl
  | destruct =>
    simp only [Bench.step]
    split
    · next hd => exact .inl ⟨_, rfl, tidy_push (hnil hd) trivial⟩
    · exact .inr rfl
  | query i =>
    simp only [Bench.step]
    split
    · next hq => exact .inl ⟨_, rfl, tidy_push (h.free_of_mayQuery hq) Procedure.tidy_counting⟩
    · exact .inr rfl
  | go =>
    by_cases hb : b.tasks = []
    · refine .inr ?_
      rw [Bench.step, Bench.go, hb]
    · exact .inl (h.go hb)

/-- **What every sequence of ticks keeps.** -/
theorem Tidy.run (h : b.Tidy) (ts : List Tick) :
    (∃ b', b.run ts = .ok b' ∧ b'.Tidy) ∨ b.run ts = .error .impossible := by
  induction ts generalizing b with
  | nil => exact .inl ⟨b, rfl, h⟩
  | cons t ts ih =>
    rw [Bench.run]
    obtain ⟨b', hb', htidy⟩ | hno := h.step t
    · rw [hb']
      exact ih htidy
    · rw [hno]
      exact .inr rfl

end Bench

/-! ## What the methods do to the world -/

namespace World

variable {w : World} {i : InstanceId}

theorem updateTable_updateTable (w : World) (i : InstanceId)
    (f g : CallbackTable → CallbackTable) :
    (w.updateTable i f).updateTable i g = w.updateTable i fun t => g (f t) := by
  simp only [updateTable, updateInstance]
  congr 1
  refine Array.ext_getElem? fun j => ?_
  simp only [Array.getElem?_modify]
  split
  · rw [Option.map_map]
    rfl
  · rfl

/-- Changes that do the same to the table of an instance do the same to the world. -/
theorem updateTable_congr {f g : CallbackTable → CallbackTable}
    (h : ∀ x, w.instance? i = some x → f x.table = g x.table) :
    w.updateTable i f = w.updateTable i g := by
  simp only [updateTable, updateInstance]
  congr 1
  refine Array.ext_getElem? fun j => ?_
  simp only [Array.getElem?_modify]
  split
  · next hij =>
    subst hij
    cases hx : w.instances[i]? with
    | none => rfl
    | some x => simp only [Option.map_some, h x hx]
  · rfl

theorem updateTable_id (w : World) (i : InstanceId) : w.updateTable i (fun t => t) = w := by
  have hinstances : w.instances.modify i (fun x => { x with table := x.table }) = w.instances := by
    refine Array.ext_getElem? fun j => ?_
    rw [Array.getElem?_modify]
    split
    · exact Option.map_id'
    · rfl
  rw [updateTable, updateInstance, hinstances]

theorem isSome_instance?_updateTable (w : World) (i j : InstanceId)
    (f : CallbackTable → CallbackTable) :
    ((w.updateTable i f).instance? j).isSome = (w.instance? j).isSome := by
  rw [updateTable, instance?_updateInstance]
  split
  · exact Option.isSome_map
  · rfl

/-- A registration is the function object, the entry, a line in the log and a handle. -/
theorem register_of_instance? {x : Instance} (hx : w.instance? i = some x) (realm : Ref)
    (cb : Callback) : (w.register i realm cb).2 =
      ((((w.makeFunction i realm x.table.nextId).2.updateTable i fun t =>
          t.register ⟨cb, (w.makeFunction i realm x.table.nextId).1⟩).note
        (.registered x.table.nextId)).newHandle i
          (.object (w.makeFunction i realm x.table.nextId).1)).2 := by
  simp only [register, hx, makeFunction]

theorem makeFunction_updateTable (w : World) (i j : InstanceId)
    (g : CallbackTable → CallbackTable) (realm : Ref) (id : Nat) :
    (w.updateTable i g).makeFunction j realm id =
      ((w.makeFunction j realm id).1, (w.makeFunction j realm id).2.updateTable i g) := by
  simp only [makeFunction, updateTable, updateInstance]

/-- **What a registration comes to** that is made statement by statement: the number is taken, then
the function object is made, then come the entry and its bytes. -/
theorem register_statements {x : Instance} (hx : w.instance? i = some x) (realm : Ref)
    (cb : Callback) {id : Nat} (hid : id = x.table.nextId) {w₁ w₂ w₃ w₄ : World} {f : Ref}
    (h₁ : w₁ = w.updateTable i fun t => { t with nextId := t.nextId + 1 })
    (hf : f = (w₁.makeFunction i realm id).1) (h₂ : w₂ = (w₁.makeFunction i realm id).2)
    (h₃ : w₃ = w₂.updateTable i fun t => { t with entries := t.entries ++ [(id, ⟨cb, f⟩)] })
    (h₄ : w₄ = w₃.updateTable i fun t =>
      { t with externalBytes := t.externalBytes + registrationBytes }) :
    (w.register i realm cb).2 = ((w₄.note (.registered id)).newHandle i (.object f)).2 := by
  subst hid h₁ hf h₂ h₃ h₄
  rw [makeFunction_updateTable, register_of_instance? hx, updateTable_updateTable,
    updateTable_updateTable]
  -- The number was that of the table as it was found, and the table still has it.
  have hentry : ((w.makeFunction i realm x.table.nextId).2.updateTable i fun t =>
        t.register ⟨cb, (w.makeFunction i realm x.table.nextId).1⟩) =
      (w.makeFunction i realm x.table.nextId).2.updateTable i fun t =>
        { t with
          entries := t.entries ++
            [(x.table.nextId, ⟨cb, (w.makeFunction i realm x.table.nextId).1⟩)]
          nextId := t.nextId + 1
          externalBytes := t.externalBytes + registrationBytes } := by
    refine updateTable_congr fun y hy => ?_
    obtain rfl : x = y := Option.some.inj (hx.symm.trans hy)
    rfl
  rw [hentry]

/-- Taking all entries out of the table of an instance. -/
def drain (w : World) (i : InstanceId) : World := w.updateTable i fun t => { t with entries := [] }

theorem letGo_updateTable (w : World) (i : InstanceId) (f : CallbackTable → CallbackTable)
    (a : Anchor) (c : Callback) :
    (w.updateTable i f).letGo a c = (w.letGo a c).updateTable i f := by
  have hdrop : (w.updateTable i f).dropCallback a c = (w.dropCallback a c).updateTable i f := by
    obtain ⟨heap, platform, instances, handles, inFlight, orphans, lifecycle, dropped, log⟩ := w
    cases c with
    | native name => rfl
    | foreign owner context => cases lifecycle <;> rfl
  have hrun : (w.updateTable i f).isRunning a = w.isRunning a := rfl
  rw [letGo, letGo, hrun]
  split
  · rfl
  · exact hdrop

/-- Settling a registration that was taken out with all others is retiring it, the others still to
be taken out. -/
theorem drain_retire (w : World) (i : InstanceId) (id : Nat) (c : Callback) :
    (((w.drain i).updateTable i fun t =>
      { t with
        finalized := t.finalized + 1
        externalBytes := t.externalBytes - registrationBytes }).letGo ⟨i, id⟩ c) =
      (w.retire ⟨i, id⟩ c).drain i := by
  rw [drain, updateTable_updateTable, drain]
  refine Eq.trans ?_ (letGo_updateTable (w.updateTable i fun t => t.retire id) i _ ⟨i, id⟩ c)
  rw [updateTable_updateTable]
  rfl

end World

namespace Bench

variable {b e g : Bench} {c d : Scene} {w : World} {st : List CallFrame} {i : InstanceId}
  {ts : List Task}

/-- A scene with nothing above its calls. -/
def idle (c : Scene) : Bench := ⟨c, [], fun _ => .free⟩

/-- Whether some ticks lead from one bench to another. -/
def Leads (b e : Bench) : Prop := ∃ ticks, b.run ticks = .ok e

theorem Leads.refl (b : Bench) : b.Leads b := ⟨[], rfl⟩

theorem Leads.tick {t : Tick} (h : b.step t = .ok e) (h' : e.Leads g) : b.Leads g := by
  obtain ⟨ticks, hrun⟩ := h'
  refine ⟨t :: ticks, ?_⟩
  rw [run, h]
  exact hrun

theorem Leads.trans (h : b.Leads e) (h' : e.Leads g) : b.Leads g := by
  obtain ⟨ticks, hrun⟩ := h
  induction ticks generalizing b with
  | nil =>
    cases hrun
    exact h'
  | cons t ticks ih =>
    rw [run] at hrun
    split at hrun
    · next b₁ hb₁ => exact .tick hb₁ (ih hrun)
    · cases hrun

theorem Leads.go (h : b.go = .ok e) (h' : e.Leads g) : b.Leads g := .tick (t := .go) h h'

theorem guards_restored (i : InstanceId) {g : Guard} (hg : g.giveBack = .free) :
    Function.update (Function.update (fun _ => Guard.free) i g) i
      (Function.update (fun _ => Guard.free) i g i).giveBack = fun _ => Guard.free := by
  rw [Function.update_self, Function.update_idem, hg]
  exact Function.update_eq_self i _

section Statements

variable {next : Procedure} {guards : InstanceId → Guard}

theorem Leads.done (h : Leads ⟨c, ts, guards⟩ b) :
    Leads ⟨c, .method i .done :: ts, guards⟩ b :=
  .go rfl h

theorem Leads.number {next : Nat → Procedure}
    (h : Leads ⟨⟨w.updateTable i fun t => { t with nextId := t.nextId + 1 }, st⟩,
      .method i (next (w.table i).nextId) :: ts, guards⟩ b) :
    Leads ⟨⟨w, st⟩, .method i (.number next) :: ts, guards⟩ b :=
  .go rfl h

theorem Leads.allocate (h : Leads ⟨c, .method i next :: ts, guards⟩ b) :
    Leads ⟨c, .method i (.allocate next) :: ts, guards⟩ b :=
  .go rfl h

theorem Leads.function {realm : Ref} {id : Nat} {next : Ref → Procedure}
    (h : Leads ⟨⟨(w.makeFunction i realm id).2, st⟩,
      .method i (next (w.makeFunction i realm id).1) :: ts, guards⟩ b) :
    Leads ⟨⟨w, st⟩, .method i (.function realm id next) :: ts, guards⟩ b :=
  .go rfl h

theorem Leads.reserve
    (h : Leads ⟨⟨w.updateTable i fun t =>
        { t with externalBytes := t.externalBytes + registrationBytes }, st⟩,
      .method i next :: ts, guards⟩ b) :
    Leads ⟨⟨w, st⟩, .method i (.reserve next) :: ts, guards⟩ b :=
  .go rfl h

theorem Leads.settle
    (h : Leads ⟨⟨w.updateTable i fun t =>
        { t with
          finalized := t.finalized + 1
          externalBytes := t.externalBytes - registrationBytes }, st⟩,
      .method i next :: ts, guards⟩ b) :
    Leads ⟨⟨w, st⟩, .method i (.settle next) :: ts, guards⟩ b :=
  .go rfl h

theorem Leads.isAlive {next : Bool → Procedure}
    (h : Leads ⟨⟨w, st⟩, .method i (next (w.isAlive i)) :: ts, guards⟩ b) :
    Leads ⟨⟨w, st⟩, .method i (.isAlive next) :: ts, guards⟩ b :=
  .go rfl h

theorem Leads.note {e : Event}
    (h : Leads ⟨⟨w.note e, st⟩, .method i next :: ts, guards⟩ b) :
    Leads ⟨⟨w, st⟩, .method i (.note e next) :: ts, guards⟩ b :=
  .go rfl h

theorem Leads.close (h : Leads ⟨⟨w.close i, st⟩, .method i next :: ts, guards⟩ b) :
    Leads ⟨⟨w, st⟩, .method i (.close next) :: ts, guards⟩ b :=
  .go rfl h

/-- A callback is let go of, and its destructor runs to its end if there is one to run. -/
theorem Leads.letGo {a : Anchor} {cb : Callback}
    (h : Leads ⟨⟨w.letGo a cb, st⟩, .method i next :: ts, guards⟩ b) :
    Leads ⟨⟨w, st⟩, .method i (.letGo a cb next) :: ts, guards⟩ b := by
  refine .go rfl ?_
  split
  · exact h
  · exact .go rfl h

/-- What was borrowed is given back, and all tables are free again. -/
theorem Leads.giveBack {g : Guard} (hg : g.giveBack = .free)
    (h : Leads ⟨c, .method i next :: ts, fun _ => .free⟩ b) :
    Leads ⟨c, .method i (.giveBack next) :: ts, Function.update (fun _ => .free) i g⟩ b := by
  refine .go rfl ?_
  simp only [push, guard, guards_restored i hg]
  exact h

theorem Leads.borrow {next : List (Nat × Registration) → Procedure}
    (h : Leads ⟨⟨w, st⟩, .method i (next (w.table i).entries) :: ts,
      Function.update (fun _ => .free) i (.shared 0)⟩ b) :
    Leads ⟨⟨w, st⟩, .method i (.borrow next) :: ts, fun _ => .free⟩ b :=
  .go rfl h

/-- Entries are changed and given back at once. -/
theorem Leads.borrowMut {f : List (Nat × Registration) → List (Nat × Registration)}
    {next : List (Nat × Registration) → Procedure}
    (h : Leads ⟨⟨w.updateTable i fun t => { t with entries := f t.entries }, st⟩,
      .method i (next (w.table i).entries) :: ts, fun _ => .free⟩ b) :
    Leads ⟨⟨w, st⟩, .method i (.borrowMut f fun es => .giveBack (next es)) :: ts,
      fun _ => .free⟩ b :=
  .go rfl (.giveBack rfl h)

end Statements

/-- A move that needs no method is a tick. -/
theorem leads_plain {m : Move} (hm : c.step m = some d) (hplain : m.isPlain = true) :
    Leads (idle c) (idle d) := by
  refine .tick (t := .move m) (e := idle d) ?_ (.refl _)
  simp only [step, idle, hplain, List.isEmpty_nil, Bool.and_self, if_true, hm]

theorem leads_newHandle (hi : (w.instance? i).isSome) (v : Script.Value) :
    Leads (idle ⟨w, st⟩) (idle ⟨(w.newHandle i v).2, st⟩) :=
  leads_plain (m := .change (.newHandle i v)) (by simp [Scene.step, Change.apply, hi]) rfl

/-- **A registration**, statement by statement. -/
theorem leads_register {x : Instance} (hx : w.live? i = some x) (realm : Ref) (cb : Callback) :
    Leads (idle ⟨w, st⟩) (idle ⟨(w.register i realm cb).2, st⟩) := by
  have halive : w.isAlive i = true := World.isAlive_of_live? hx
  have hthere := (World.live?_eq_some_iff.mp hx).1
  refine .tick (t := .register i realm cb)
    (e := ⟨⟨w, st⟩, [.method i (.registering realm cb)], fun _ => .free⟩) ?_ ?_
  · simp only [step, idle, halive, List.isEmpty_nil, Bool.and_self, if_true]
    rfl
  · refine .number (.allocate (.allocate (.allocate (.function (.borrowMut ?_)))))
    refine .reserve (.note (.done ?_))
    have hid : (w.table i).nextId = x.table.nextId :=
      congrArg (·.nextId) (World.table_of_instance? hthere)
    rw [World.register_statements hthere realm cb hid rfl rfl rfl rfl rfl]
    have hmade : ∀ u : World, (u.makeFunction i realm (w.table i).nextId).2.instance? i =
        u.instance? i := fun _ => rfl
    refine leads_newHandle ?_ _
    rw [show ∀ (u : World) e, (u.note e).instance? i = u.instance? i from fun _ _ => rfl,
      World.isSome_instance?_updateTable, World.isSome_instance?_updateTable, hmade,
      World.isSome_instance?_updateTable, hthere]
    rfl

/-- **A report of the collector**, statement by statement. -/
theorem leads_finalize {made : InstanceId → List Callback} (h : Account made w) (a : Anchor) :
    Leads (idle ⟨w, st⟩) (idle ⟨w.finalize a, st⟩) := by
  refine .tick (t := .collect [a]) rfl (.go rfl (.borrowMut ?_))
  have hend : ∀ u : World, Leads ⟨⟨u, st⟩, [.pass []], fun _ => .free⟩ (idle ⟨u, st⟩) :=
    fun u => .go rfl (.refl _)
  cases hfind : (w.table a.owner).entries.find? fun e => e.1 == a.id with
  | none =>
    have hgone : w.callbackOf a = none := by
      rw [World.callbackOf_eq, CallbackTable.lookup, hfind]
      split <;> rfl
    have hkept : (w.updateTable a.owner fun t =>
        { t with entries := t.entries.filter fun e => e.1 != a.id }) = w := by
      refine (World.updateTable_congr fun x hx => ?_).trans (World.updateTable_id w a.owner)
      rw [World.table_of_instance? hx] at hfind
      have hall : x.table.entries.filter (fun e => e.1 != a.id) = x.table.entries :=
        List.filter_eq_self.mpr fun e he => by
          simpa using List.find?_eq_none.mp hfind e he
      rw [hall]
    rw [World.finalize, hgone, hkept]
    exact .done (hend w)
  | some e =>
    have hid : e.1 = a.id := by simpa using List.find?_some hfind
    have hmem : (a.id, e.2) ∈ (w.table a.owner).entries := by
      rw [← hid]
      exact List.mem_of_find?_eq_some hfind
    have hretired : ((((w.updateTable a.owner fun t =>
          { t with entries := t.entries.filter fun e => e.1 != a.id }).note
        (.finalizing a.id)).updateTable a.owner fun t =>
          { t with
            finalized := t.finalized + 1
            externalBytes := t.externalBytes - registrationBytes }).letGo a e.2.callback) =
        (w.note (.finalizing a.id)).retire a e.2.callback := by
      have hnoted := World.updateTable_updateTable (w.note (.finalizing a.id)) a.owner
        (fun t => { t with entries := t.entries.filter fun e => e.1 != a.id })
        (fun t => { t with
          finalized := t.finalized + 1
          externalBytes := t.externalBytes - registrationBytes })
      exact congrArg (·.letGo a e.2.callback) hnoted
    rw [World.finalize_of_callbackOf (h.callbackOf_of_mem hmem), ← hretired]
    exact .note (.settle (.letGo (.done (hend _))))

/-- Registrations that were taken out are settled one after the other. -/
theorem Leads.settlingAll {next : Procedure} {es : List (Nat × Registration)}
    (h : Leads ⟨⟨(w.retireEach i es).drain i, st⟩, .method i next :: ts, fun _ => .free⟩ b) :
    Leads ⟨⟨w.drain i, st⟩, .method i (.settlingAll i es next) :: ts, fun _ => .free⟩ b := by
  induction es generalizing w with
  | nil => exact h
  | cons e es ih =>
    refine .settle (.letGo ?_)
    rw [World.drain_retire]
    exact ih h

/-- **The end of an instance**, statement by statement. -/
theorem leads_shut {made : InstanceId → List Callback} (h : Account made w)
    (halive : w.isAlive i = true) : Leads (idle ⟨w, st⟩) (idle ⟨w.shut i, st⟩) := by
  refine .tick (t := .shut i)
    (e := ⟨⟨w, st⟩, [.method i (.tearingDown i)], fun _ => .free⟩) ?_ (.borrowMut ?_)
  · simp only [step, idle, halive, List.isEmpty_nil, Bool.and_self, if_true]
    rfl
  · refine Leads.settlingAll (.close (.allocate (.done ?_)))
    have hempty : ((w.finalizeAll i).table i).entries = [] :=
      (World.finalizeAll_keeps (P := fun _ => True) trivial (h.ids_nodup i)
        fun _ _ _ _ _ => trivial).2
    have hdrained : (w.finalizeAll i).drain i = w.finalizeAll i := by
      refine (World.updateTable_congr fun x hx => ?_).trans (World.updateTable_id _ i)
      rw [World.table_of_instance? hx] at hempty
      rw [← hempty]
    rw [← World.finalizeAll_eq_retireEach, hdrained]
    exact .refl _

/-- **A call of the host**, statement by statement. -/
theorem leads_enter {v : Invocation} (hst : isHostTurn st = false)
    (hcb : (w.callbackOf v.anchor).isSome) :
    Leads (idle ⟨w, st⟩) (idle ⟨w.enter v, .callback v (w.lentBy v.anchor.owner) :: st⟩) := by
  have halive := World.isAlive_of_callbackOf hcb
  refine .tick (t := .call v)
    (e := ⟨⟨w, st⟩, [.method v.anchor.owner (.lookingUp v)], fun _ => .free⟩) ?_ (.borrow ?_)
  · simp only [step, idle, hst, List.isEmpty_nil, Bool.not_false, Bool.and_self, if_true]
    rfl
  · rw [World.callbackOf_eq, if_pos halive, CallbackTable.lookup, Option.isSome_map,
      Option.isSome_map] at hcb
    obtain ⟨e, he⟩ := Option.isSome_iff_exists.mp hcb
    rw [he]
    refine .isAlive (.giveBack rfl ?_)
    rw [halive]
    exact .allocate (.go rfl (.refl _))

/-- **One move of a scene** is made by ticks. -/
theorem leads_of_step {ms : List Move} (h : c.Sound ms) {m : Move} (hm : c.step m = some d) :
    Leads (idle c) (idle d) := by
  cases Scene.stepped hm with
  | @change w w' st x hx =>
    cases x with
    | register i realm cb =>
      obtain ⟨j, realm', cb', heq, halive, rfl⟩ | hno := Change.register_or hx
      · cases heq
        obtain ⟨x, hx⟩ := Option.isSome_iff_exists.mp (World.isAlive_eq_isSome_live? ▸ halive)
        exact leads_register hx realm cb
      · exact absurd rfl (hno i realm cb)
    | finalize a =>
      cases hx
      exact leads_finalize h.account a
    | shut i =>
      simp only [Change.apply] at hx
      split at hx
      · next halive =>
        cases hx
        exact leads_shut h.account halive
      · cases hx
    | _ => exact leads_plain hm rfl
  | enter hst hcb => exact leads_enter hst hcb
  | _ => exact leads_plain hm rfl

/-- **What moves lead to** is what ticks lead to. -/
theorem leads_of_run {p : Platform} {ms : List Move} (h : (Scene.start p).run ms = some c) :
    Leads (start p) (idle c) :=
  (Scene.run_induction (P := fun ms c => c.Sound ms ∧ Leads (start p) (idle c))
    ⟨Scene.sound_start p, .refl _⟩
    (fun hd hm => ⟨(hd.1.step hm).1, hd.2.trans (leads_of_step hd.1 hm)⟩) h).2

end Bench

/-! ## What methods can count on -/

/-- What the methods of callback tables can count on, whatever is going on. -/
structure Bench.Unchallenged (b : Bench) : Prop where
  /-- No borrow is refused, now or later. -/
  granted : ∀ ticks i, b.run ticks ≠ .error (.borrowed i) ∧ b.run ticks ≠ .error (.borrowedMut i)
  /-- A method that is about to borrow finds all tables free, its own and every other. -/
  apart : ∀ i r rest, b.tasks = .method i r :: rest → r.borrows = true → ∀ j, b.guards j = .free
  /-- So does a pass of the collector, and so does a destructor: -/
  within : ∀ t rest, b.tasks = t :: rest → (∀ i r, t ≠ .method i r) → ∀ j, b.guards j = .free
  /-- wherever a pass can start or somebody can ask for a count, nothing is borrowed. -/
  between : b.mayCollect = true ∨ b.mayQuery = true → ∀ j, b.guards j = .free
  /-- What has begun can go on. -/
  goesOn : b.tasks ≠ [] → ∃ b', b.step .go = .ok b'

theorem Bench.Tidy.unchallenged {b : Bench} (h : b.Tidy) : b.Unchallenged where
  granted ticks i := by
    obtain ⟨b', hb', -⟩ | hno := h.run ticks
    · rw [hb']
      exact ⟨nofun, nofun⟩
    · rw [hno]
      exact ⟨nofun, nofun⟩
  apart i r rest hb hr := (h.free_of_method hb fun held ht => ht.not_held_of_borrows hr).1
  within t rest hb ht := by
    refine (h.free_of_not_method fun i r rest' hb' => ?_).1
    rw [hb] at hb'
    exact ht i r (List.cons.inj hb').1
  between hb := by
    rcases hb with hb | hb
    · exact (h.free_of_mayCollect hb).1
    · exact (h.free_of_mayQuery hb).1
  goesOn hb := by
    obtain ⟨b', hb', -⟩ := h.go hb
    exact ⟨b', hb'⟩

/-- **No table is borrowed twice.** Whatever ticks have come, with passes and destructors between
the statements of the methods and with anything the host may do between the moves, every borrow is
granted, and finds nothing borrowed. What moves lead to is what ticks lead to, and what the
interpreter does, at any depth, is done by moves. -/
theorem tables_are_never_borrowed_twice (p : Platform) :
    (∀ ticks b, (Bench.start p).run ticks = .ok b → b.Unchallenged)
    ∧ (∀ ms c, (Scene.start p).run ms = some c → (Bench.start p).Leads (.idle c))
    ∧ ∀ c : Scene, c.Follows := by
  refine ⟨fun ticks b hb => ?_, fun ms c => Bench.leads_of_run, Scene.follows⟩
  obtain ⟨b', hb', htidy⟩ | hno := (Bench.tidy_start p).run ticks
  · obtain rfl : b = b' := Except.ok.inj (hb.symm.trans hb')
    exact htidy.unchallenged
  · rw [hb] at hno
    cases hno

/-- A pass starts in the middle of a second registration and finalizes the first, whose callback has
a destructor that asks for a count: five tasks on top of each other, and the count may borrow. -/
theorem count_within_a_registration :
    ∃ b b', (Bench.start .ready).run
        [.move (.change (.newInstance default)), .register 0 0 (.native 7),
          .go, .go, .go, .go, .go, .go, .go, .go, .go, .go, .register 0 0 (.native 8),
          .go, .collect [⟨0, 1⟩], .go, .go, .go, .go, .go, .go, .query 0] = .ok b
      ∧ b.tasks.length = 5 ∧ b.guards 0 = .free ∧ b.step .go = .ok b' ∧ b'.guards 0 = .shared 0
      ∧ ∃ c, (Scene.start .ready).run [.change (.newInstance default)] = some c
        ∧ (Bench.start .ready).Leads (.idle c) := by
  have hnever := tables_are_never_borrowed_twice .ready
  have hunchallenged := hnever.1
    [.move (.change (.newInstance default)), .register 0 0 (.native 7),
      .go, .go, .go, .go, .go, .go, .go, .go, .go, .go, .register 0 0 (.native 8),
      .go, .collect [⟨0, 1⟩], .go, .go, .go, .go, .go, .go, .query 0] _ rfl
  exact ⟨_, _, rfl, rfl, hunchallenged.apart _ _ _ rfl rfl 0, rfl, rfl, _, rfl,
    hnever.2.1 [.change (.newInstance default)] _ rfl⟩

/-- A method that allocates while it has borrowed the entries: a pass that starts there and reports
an anchor of the same table is refused. -/
example : Bench.run
    ⟨⟨(World.started.newInstance default).2, []⟩,
      [.method 0 (.borrowMut id fun _ => .allocate (.giveBack .done))], fun _ => .free⟩
    [.go, .collect [⟨0, 1⟩], .go, .go] = .error (.borrowedMut 0) := rfl

end ScriptBoundary.Boundary
