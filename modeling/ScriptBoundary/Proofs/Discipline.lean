import ScriptBoundary.Proofs.Account

/-!
# The discipline of contexts

Which context an operation runs in is decided by two fields of its instance, `lent` and `borrowed`,
and they are set and reset by whoever begins and ends. This file shows that they are nothing but a
view of the stack: `lent` is the activation in which the innermost callback of the instance was
called, and `borrowed` says whether an operation on the stack has borrowed the instance's own
context.

That the fields are right after something has *ended* is the hard part, because what an ending does
is decided by what was saved when it began. `Proper` is the invariant of the stack that makes it
work: the value that a callback has saved is the one the rest of the stack calls for, and an
operation that has borrowed a context has no other one below it.

## Main results

* `Scene.Disciplined.step`: what one move preserves
* `Scene.disciplined_run`: what every sequence of moves preserves
* `operationOn_iff`: without a callback of its instance around, every operation has borrowed the
  instance's own context
-/

namespace ScriptBoundary.Boundary

open Script (Activation Anchor Limits Ref)

/-! ## Reading the stack -/

/-- The activation in which the innermost callback of an instance was called. -/
def lentOf : List CallFrame → InstanceId → Option Activation
  | [], _ => none
  | .callback v _ :: rest, i => if v.anchor.owner = i then some v.activation else lentOf rest i
  | .operation .. :: rest, i => lentOf rest i

/-- Whether an operation on the stack has borrowed an instance's own context. -/
def borrowedOf : List CallFrame → InstanceId → Bool
  | [], _ => false
  | .operation j _ own :: rest, i => (own && decide (j = i)) || borrowedOf rest i
  | .callback .. :: rest, i => borrowedOf rest i

/-- Whether a callback that was registered on an instance is on the stack. -/
def CallbackOn (st : List CallFrame) (i : InstanceId) : Prop :=
  ∃ v before, .callback v before ∈ st ∧ v.anchor.owner = i

/-- Whether an operation on an instance is on the stack. -/
def OperationOn (st : List CallFrame) (i : InstanceId) : Prop :=
  ∃ act own, .operation i act own ∈ st

/-- A stack on which everything that was saved is right. -/
def Proper : List CallFrame → Prop
  | [] => True
  | .callback v before :: rest => before = lentOf rest v.anchor.owner ∧ Proper rest
  | .operation i act own :: rest =>
    (if own then lentOf rest i = none ∧ borrowedOf rest i = false
      else lentOf rest i = some act) ∧ Proper rest

section Stack

variable {st : List CallFrame} {i : InstanceId}

theorem lentOf_isSome : (lentOf st i).isSome = true ↔ CallbackOn st i := by
  induction st with
  | nil => simp [lentOf, CallbackOn]
  | cons f rest ih =>
    cases f with
    | operation j act own =>
      rw [lentOf, ih]
      simp [CallbackOn]
    | callback v before =>
      rw [lentOf]
      by_cases hv : v.anchor.owner = i
      · rw [if_pos hv]
        exact ⟨fun _ => ⟨v, before, List.mem_cons_self, hv⟩, fun _ => rfl⟩
      · rw [if_neg hv, ih]
        constructor
        · rintro ⟨u, b, hmem, hu⟩
          exact ⟨u, b, List.mem_cons_of_mem _ hmem, hu⟩
        · rintro ⟨u, b, hmem, hu⟩
          rcases List.mem_cons.mp hmem with heq | hmem
          · cases heq
            exact absurd hu hv
          · exact ⟨u, b, hmem, hu⟩

theorem lentOf_eq_none : lentOf st i = none ↔ ¬CallbackOn st i := by
  rw [← lentOf_isSome]
  cases lentOf st i <;> simp

theorem borrowedOf_iff : borrowedOf st i = true ↔ ∃ act, .operation i act true ∈ st := by
  induction st with
  | nil => simp [borrowedOf]
  | cons f rest ih =>
    cases f with
    | callback v before =>
      rw [borrowedOf, ih]
      simp
    | operation j act own =>
      rw [borrowedOf, Bool.or_eq_true, ih, Bool.and_eq_true, decide_eq_true_iff]
      constructor
      · rintro (⟨rfl, rfl⟩ | ⟨act', hmem⟩)
        · exact ⟨act, List.mem_cons_self⟩
        · exact ⟨act', List.mem_cons_of_mem _ hmem⟩
      · rintro ⟨act', hmem⟩
        rcases List.mem_cons.mp hmem with heq | hmem
        · cases heq
          exact .inl ⟨rfl, rfl⟩
        · exact .inr ⟨act', hmem⟩

/-- **Without a callback of its instance around**, every operation has borrowed the instance's own
context. -/
theorem operationOn_iff (h : Proper st) (hl : lentOf st i = none) :
    OperationOn st i ↔ borrowedOf st i = true := by
  rw [borrowedOf_iff]
  refine ⟨?_, fun ⟨act, hmem⟩ => ⟨act, true, hmem⟩⟩
  rintro ⟨act, own, hmem⟩
  induction st with
  | nil => cases hmem
  | cons f rest ih =>
    cases f with
    | callback v before =>
      have hl' : lentOf rest i = none := by
        rw [lentOf] at hl
        split at hl
        · cases hl
        · exact hl
      rcases List.mem_cons.mp hmem with heq | hmem
      · cases heq
      · obtain ⟨act', hmem'⟩ := ih h.2 hl' hmem
        exact ⟨act', List.mem_cons_of_mem _ hmem'⟩
    | operation j act' own' =>
      rcases List.mem_cons.mp hmem with heq | hmem
      · cases heq
        cases own with
        | true => exact ⟨act, List.mem_cons_self⟩
        | false =>
          have hlent : lentOf rest i = some act := h.1
          rw [lentOf, hlent] at hl
          cases hl
      · obtain ⟨act'', hmem'⟩ := ih h.2 hl hmem
        exact ⟨act'', List.mem_cons_of_mem _ hmem'⟩

end Stack

/-! ## The invariant -/

/-- The fields of the instances are what the stack says. -/
structure Scene.Disciplined (c : Scene) : Prop where
  lent : ∀ i, c.world.lentBy i = lentOf c.stack i
  cell : ∀ i, c.world.isBorrowed i = borrowedOf c.stack i
  proper : Proper c.stack

/-- A change lends nothing and borrows nothing. -/
theorem Account.change_contexts {made : InstanceId → List Callback} {w w' : World}
    (h : Account made w) {x : Change} (hx : x.apply w = some w') (i : InstanceId) :
    w'.lentBy i = w.lentBy i ∧ w'.isBorrowed i = w.isBorrowed i := by
  have htable : ∀ (u : World) (j : InstanceId) (f : CallbackTable → CallbackTable),
      (u.updateTable j f).lentBy i = u.lentBy i
        ∧ (u.updateTable j f).isBorrowed i = u.isBorrowed i := fun u j f =>
    ⟨World.lentBy_updateInstance (f := fun x => { x with table := f x.table }) (fun _ => rfl) i,
      World.isBorrowed_updateInstance (f := fun x => { x with table := f x.table })
        (fun _ => rfl) i⟩
  obtain ⟨j, realm, cb, rfl, halive, rfl⟩ | hr := Change.register_or hx
  · obtain ⟨f, hcalls⟩ := World.register_eq halive realm cb
    rw [World.lentBy_congr hcalls, World.isBorrowed_congr hcalls]
    exact htable _ _ _
  · refine (h.change_keeps (P := fun u => u.lentBy i = w.lentBy i ∧ u.isBorrowed i = w.isBorrowed i)
      ⟨rfl, rfl⟩ hx hr ?_ ?_ ?_ ?_).2
    · rintro u u' hcalls ⟨hl, hb⟩
      exact ⟨(World.lentBy_congr hcalls i).trans hl, (World.isBorrowed_congr hcalls i).trans hb⟩
    · rintro u limits - ⟨hl, hb⟩
      rw [← hl, ← hb, World.lentBy, World.lentBy, World.isBorrowed, World.isBorrowed,
        World.desk_newInstance]
      split
      · next hi =>
        rw [hi, World.desk_size]
        exact ⟨rfl, rfl⟩
      · exact ⟨rfl, rfl⟩
    · rintro u a cb - ⟨hl, hb⟩
      rw [← hl, ← hb, World.lentBy, World.isBorrowed, World.desk_retire]
      exact htable u a.owner fun t => t.retire a.id
    · rintro u j ⟨hl, hb⟩
      rw [← hl, ← hb]
      exact ⟨World.lentBy_updateInstance
          (f := fun x => { x with table := x.table.dispose.1, isLive := false }) (fun _ => rfl) i,
        World.isBorrowed_updateInstance
          (f := fun x => { x with table := x.table.dispose.1, isLive := false }) (fun _ => rfl) i⟩

theorem Scene.disciplined_start (p : Platform) : (Scene.start p).Disciplined :=
  ⟨fun _ => rfl, fun _ => rfl, trivial⟩

namespace Scene.Disciplined

variable {ms : List Move} {c d : Scene} {i : InstanceId} {w : World} {st : List CallFrame}

theorem change {made : InstanceId → List Callback} (h : c.Disciplined)
    (hacc : Account made c.world) {x : Change} {w : World} (hx : x.apply c.world = some w) :
    Scene.Disciplined ⟨w, c.stack⟩ :=
  ⟨fun i => (hacc.change_contexts hx i).1.trans (h.lent i),
    fun i => (hacc.change_contexts hx i).2.trans (h.cell i), h.proper⟩

/-- An operation that begins in a lent context is recorded with it. -/
theorem beginLent (h : Disciplined ⟨w, st⟩) {x : Instance} (hx : w.live? i = some x)
    {act : Activation} (hl : x.lent = some act) :
    Disciplined ⟨w, .operation i act false :: st⟩ := by
  refine ⟨h.lent, h.cell, ?_, h.proper⟩
  rw [if_neg Bool.false_ne_true, ← hl, ← World.lentBy_of_live? hx]
  exact (h.lent i).symm

/-- One that begins in its instance's own context is the only one that has borrowed it. -/
theorem beginOwn (h : Disciplined ⟨w, st⟩) {x : Instance} (hx : w.live? i = some x)
    (hl : x.lent = none) (hb : x.borrowed = false) (act : Activation) :
    Disciplined ⟨w.borrow i, .operation i act true :: st⟩ := by
  have hdesk : w.desk i ≠ none := by
    simp [World.desk, (World.live?_eq_some_iff.mp hx).1]
  have hlent : w.lentBy i = lentOf st i := h.lent i
  have hcell : w.isBorrowed i = borrowedOf st i := h.cell i
  refine ⟨fun j => ?_, fun j => ?_, ?_, h.proper⟩
  · exact (World.lentBy_updateInstance (f := fun x => { x with borrowed := true })
      (fun _ => rfl) j).trans (h.lent j)
  · rw [World.isBorrowed_borrow hdesk]
    exact congrArg (decide (i = j) || ·) (h.cell j)
  · rw [if_pos rfl, ← hlent, ← hcell, World.lentBy_of_live? hx, World.isBorrowed_of_live? hx]
    exact ⟨hl, hb⟩

/-- An operation that ends gives back what it has borrowed. Nobody else had borrowed it. -/
theorem finishOwn {act : Activation} (h : Disciplined ⟨w, .operation i act true :: st⟩) :
    Disciplined ⟨w.giveBack i, st⟩ := by
  have hfree : lentOf st i = none ∧ borrowedOf st i = false := h.proper.1
  refine ⟨fun j => ?_, fun j => ?_, h.proper.2⟩
  · exact (World.lentBy_updateInstance (f := fun x => { x with borrowed := false })
      (fun _ => rfl) j).trans (h.lent j)
  · have hcell : w.isBorrowed j = borrowedOf (.operation i act true :: st) j := h.cell j
    rw [World.isBorrowed_giveBack, hcell, borrowedOf]
    by_cases hij : i = j
    · subst hij
      simp [hfree.2]
    · simp [hij]

/-- A callback that is entered saves what was lent out before. -/
theorem enter (h : Disciplined ⟨w, st⟩) {v : Invocation} (hcb : (w.callbackOf v.anchor).isSome) :
    Disciplined ⟨w.enter v, .callback v (w.lentBy v.anchor.owner) :: st⟩ := by
  obtain ⟨cb, hcb⟩ := Option.isSome_iff_exists.mp hcb
  have hdesk := World.desk_ne_none_of_mem_entered (World.mem_entered_of_callbackOf hcb)
  refine ⟨fun j => ?_, fun j => ?_, h.lent _, h.proper⟩
  · have hset := World.lentBy_lend (w := { w with inFlight := v :: w.inFlight })
      hdesk (some v.activation) j
    exact hset.trans (congrArg (fun l => if v.anchor.owner = j then _ else l) (h.lent j))
  · exact (World.isBorrowed_updateInstance (w := { w with inFlight := v :: w.inFlight })
      (f := fun x => { x with lent := some v.activation }) (fun _ => rfl) j).trans (h.cell j)

/-- **A callback that returns restores what was lent out before.** -/
theorem leave {v : Invocation} {before : Option Activation}
    (h : Disciplined ⟨w, .callback v before :: st⟩) :
    Disciplined ⟨w.leave v.anchor before, st⟩ := by
  have hlent : ∀ j, w.lentBy j = lentOf (.callback v before :: st) j := h.lent
  have hdesk : w.desk v.anchor.owner ≠ none := by
    intro hnone
    have hset := hlent v.anchor.owner
    rw [lentOf, if_pos rfl, World.lentBy, hnone] at hset
    cases hset
  have hd := (World.leave_cases w v.anchor before).1
  refine ⟨fun j => ?_, fun j => ?_, h.proper.2⟩
  · rw [World.lentBy, hd]
    refine (World.lentBy_lend hdesk before j).trans ?_
    rw [hlent, lentOf, h.proper.1]
    by_cases hij : v.anchor.owner = j
    · rw [if_pos hij, hij]
    · rw [if_neg hij, if_neg hij]
  · rw [World.isBorrowed, hd]
    exact (World.isBorrowed_updateInstance (f := fun x => { x with lent := before })
      (fun _ => rfl) j).trans (h.cell j)

/-- **What one move preserves.** -/
theorem step (h : c.Disciplined) (hs : c.Sound ms) {m : Move} (hm : c.step m = some d) :
    d.Disciplined := by
  cases Scene.stepped hm with
  | change hx => exact h.change hs.account hx
  | beginLent _ hx hl => exact h.beginLent hx hl
  | beginOwn _ hx hl hb => exact h.beginOwn hx hl hb _
  | finishLent => exact ⟨h.lent, h.cell, h.proper.2⟩
  | finishOwn => exact h.finishOwn
  | enter _ hcb => exact h.enter hcb
  | leave => exact h.leave

end Scene.Disciplined

/-- **What every sequence of moves preserves.** -/
theorem Scene.disciplined_run {p : Platform} {ms : List Move} {c : Scene}
    (h : (Scene.start p).run ms = some c) : c.Disciplined := by
  have key : c.Sound ms ∧ c.Disciplined :=
    Scene.run_induction (P := fun ms c => c.Sound ms ∧ c.Disciplined)
      ⟨Scene.sound_start p, Scene.disciplined_start p⟩
      (fun hd hm => ⟨(hd.1.step hm).1, hd.2.step hd.1 hm⟩) h
  exact key.2

end ScriptBoundary.Boundary
