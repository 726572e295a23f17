import ScriptBoundary.Proofs.Move

/-!
# Where a callback is

A callback that was registered is in one of three places: in the table of its instance (`entered`),
among the orphans that wait for their last invocation to return, or among what was dropped
(`drops`). `World.sightings` counts all three, and so makes "it is in exactly one place" a number
that each function on worlds either keeps or does not.

The functions that move a callback from one place to another are all made of `retire`. An anchor
finalizer retires one entry and the end of an instance retires all of them in turn, so a property
that `retire` keeps is kept by both: `finalizeAll_keeps` is that induction, and `Change.keeps` uses
it to reduce every change of the world but a registration to four cases.
-/

namespace ScriptBoundary.Boundary

open Script (Activation Anchor Limits Ref)

namespace CallbackTable

/-- The numbers of the registrations. -/
def ids (t : CallbackTable) : List Nat := t.entries.map (·.1)

theorem ids_retire (t : CallbackTable) (id : Nat) :
    (t.retire id).ids = t.ids.filter fun n => n != id := by
  simp only [ids, retire, List.filter_map]
  rfl

/-- Whether one table can become another in the course of time: no number is given out again. -/
structure Ages (t t' : CallbackTable) : Prop where
  next : t.nextId ≤ t'.nextId
  ids : ∀ id ∈ t'.ids, id ∈ t.ids ∨ t.nextId ≤ id

theorem Ages.refl (t : CallbackTable) : t.Ages t := ⟨Nat.le_refl _, fun _ => .inl⟩

theorem Ages.trans {t t' t'' : CallbackTable} (h : t.Ages t') (h' : t'.Ages t'') : t.Ages t'' := by
  refine ⟨Nat.le_trans h.next h'.next, fun id hid => ?_⟩
  rcases h'.ids id hid with hid | hid
  · exact h.ids id hid
  · exact .inr (Nat.le_trans h.next hid)

theorem ages_retire (t : CallbackTable) (id : Nat) : t.Ages (t.retire id) := by
  refine ⟨Nat.le_refl _, fun n hn => .inl ?_⟩
  rw [ids_retire] at hn
  exact (List.mem_filter.mp hn).1

theorem ages_dispose (t : CallbackTable) : t.Ages t.dispose.1 :=
  ⟨Nat.le_refl _, fun _ => .inl⟩

theorem ages_register (t : CallbackTable) (r : Registration) : t.Ages (t.register r) := by
  refine ⟨Nat.le_succ _, fun n hn => ?_⟩
  simp only [ids, register, List.map_append, List.mem_append, List.map_cons, List.map_nil,
    List.mem_singleton] at hn
  rcases hn with hn | rfl
  · exact .inl hn
  · exact .inr (Nat.le_refl _)

/-- A registration is found under its number. -/
theorem lookup_of_mem {t : CallbackTable} (hn : t.ids.Nodup) {id : Nat} {r : Registration}
    (h : (id, r) ∈ t.entries) :
    t.lookup id = some r := by
  have hfirst : ∀ es : List (Nat × Registration), (es.map (·.1)).Nodup → (id, r) ∈ es →
      es.find? (fun e => e.1 == id) = some (id, r) := by
    intro es hes hmem
    induction es with
    | nil => cases hmem
    | cons e es ih =>
      obtain ⟨hnot, hes⟩ := List.nodup_cons.mp hes
      rcases List.mem_cons.mp hmem with rfl | hmem
      · simp
      · have hne : e.1 ≠ id := by
          rintro rfl
          exact hnot (List.mem_map_of_mem (f := (·.1)) hmem)
        rw [List.find?_cons_of_neg (by simpa using hne)]
        exact ih hes hmem
  rw [lookup, hfirst t.entries hn h]
  rfl

end CallbackTable

namespace World

variable {w : World} {i j : InstanceId} {a : Anchor} {c : Callback}

/-- The callbacks in the table of an instance, with their anchors. -/
def entered (w : World) (i : InstanceId) : List (Anchor × Callback) :=
  (w.table i).entries.map fun e => (⟨i, e.1⟩, e.2.callback)

/-- The callbacks that were dropped, oldest first, with the anchors they had. -/
def drops (w : World) : List (Anchor × Callback) :=
  w.dropped.toList.map fun d => (d.anchor, d.callback)

/-- How often a callback is found, all places taken together. -/
def sightings (w : World) (p : Anchor × Callback) : Nat :=
  (w.entered p.1.owner).count p + w.orphans.count p + w.drops.count p

theorem mem_entered : (a, c) ∈ w.entered i ↔
    a.owner = i ∧ ∃ r, (a.id, r) ∈ (w.table i).entries ∧ r.callback = c := by
  obtain ⟨owner, id⟩ := a
  simp only [entered, List.mem_map, Prod.mk.injEq, Prod.exists, Anchor.mk.injEq]
  constructor
  · rintro ⟨id', r, h, ⟨rfl, rfl⟩, rfl⟩
    exact ⟨rfl, r, h, rfl⟩
  · rintro ⟨rfl, r, h, rfl⟩
    exact ⟨id, r, h, ⟨rfl, rfl⟩, rfl⟩

theorem mem_entered_of_callbackOf (h : w.callbackOf a = some c) : (a, c) ∈ w.entered a.owner := by
  rw [callbackOf_eq] at h
  split at h
  · obtain ⟨r, hr, rfl⟩ := Option.map_eq_some_iff.mp h
    obtain ⟨e, he, rfl⟩ := Option.map_eq_some_iff.mp hr
    have hid : e.1 = a.id := by simpa using List.find?_some he
    refine mem_entered.mpr ⟨rfl, e.2, ?_, rfl⟩
    rw [← hid]
    exact List.mem_of_find?_eq_some he
  · cases h

theorem desk_ne_none_of_mem_entered (h : (a, c) ∈ w.entered i) : w.desk i ≠ none := by
  intro hd
  simp [entered, table, hd, CallbackTable.empty] at h

/-! ## Changing one instance -/

/-- A change of an instance is a change of its table. Where there is no instance there is no
change, so the table that stands for none has to stay as it is. -/
theorem table_updateInstance {f : Instance → Instance} {g : CallbackTable → CallbackTable}
    (hf : ∀ x, (f x).table = g x.table) (hi : w.desk i = none → g .empty = .empty)
    (j : InstanceId) :
    (w.updateInstance i f).table j = if i = j then g (w.table j) else w.table j := by
  simp only [table, desk] at *
  rw [instance?_updateInstance]
  split
  · next hij =>
    subst hij
    cases hx : w.instance? i with
    | none => simpa using (hi (by simp [hx])).symm
    | some x => simp [Instance.desk, hf]
  · rfl

theorem table_updateInstance_of_eq {f : Instance → Instance} (hf : ∀ x, (f x).table = x.table)
    (j : InstanceId) : (w.updateInstance i f).table j = w.table j := by
  rw [table_updateInstance (g := id) hf fun _ => rfl]
  simp

theorem isAlive_updateInstance_of_eq {f : Instance → Instance} (hf : ∀ x, (f x).isLive = x.isLive)
    (j : InstanceId) : (w.updateInstance i f).isAlive j = w.isAlive j := by
  simp only [isAlive, desk]
  rw [instance?_updateInstance]
  split
  · simp [Option.map_map, Function.comp_def, Instance.desk, hf]
  · rfl

/-! ## Dropping and retiring -/

@[simp] theorem desk_dropCallback (w : World) (a : Anchor) (c : Callback) :
    (w.dropCallback a c).desk = w.desk := by
  cases c with
  | native name => rfl
  | foreign target context =>
    rw [dropCallback]
    dsimp only
    split <;> rfl

@[simp] theorem inFlight_dropCallback (w : World) (a : Anchor) (c : Callback) :
    (w.dropCallback a c).inFlight = w.inFlight := by
  cases c with
  | native name => rfl
  | foreign target context =>
    rw [dropCallback]
    dsimp only
    split <;> rfl

@[simp] theorem orphans_dropCallback (w : World) (a : Anchor) (c : Callback) :
    (w.dropCallback a c).orphans = w.orphans := by
  cases c with
  | native name => rfl
  | foreign target context =>
    rw [dropCallback]
    dsimp only
    split <;> rfl

@[simp] theorem drops_dropCallback (w : World) (a : Anchor) (c : Callback) :
    (w.dropCallback a c).drops = w.drops ++ [(a, c)] := by
  cases c with
  | native name => simp [dropCallback, drops]
  | foreign target context =>
    rw [dropCallback]
    dsimp only
    split <;> simp [drops, note]

theorem retire_of_running (h : w.isRunning a = true) :
    w.retire a c =
      { w.updateTable a.owner fun t => t.retire a.id with orphans := (a, c) :: w.orphans } :=
  if_pos h

theorem retire_of_idle (h : w.isRunning a = false) :
    w.retire a c = (w.updateTable a.owner fun t => t.retire a.id).dropCallback a c := by
  have hidle : (w.updateTable a.owner fun t => t.retire a.id).isRunning a = false := h
  unfold retire
  dsimp only
  rw [hidle]
  rfl

@[simp] theorem desk_retire (w : World) (a : Anchor) (c : Callback) :
    (w.retire a c).desk = (w.updateTable a.owner fun t => t.retire a.id).desk := by
  cases h : w.isRunning a with
  | true =>
    rw [retire_of_running h]
    rfl
  | false => rw [retire_of_idle h, desk_dropCallback]

@[simp] theorem inFlight_retire (w : World) (a : Anchor) (c : Callback) :
    (w.retire a c).inFlight = w.inFlight := by
  cases h : w.isRunning a with
  | true =>
    rw [retire_of_running h]
    rfl
  | false =>
    rw [retire_of_idle h, inFlight_dropCallback]
    rfl

@[simp] theorem isAlive_retire (w : World) (a : Anchor) (c : Callback) (j : InstanceId) :
    (w.retire a c).isAlive j = w.isAlive j := by
  have h : (w.updateTable a.owner fun t => t.retire a.id).isAlive j = w.isAlive j :=
    isAlive_updateInstance_of_eq (f := fun x => { x with table := x.table.retire a.id })
      (fun _ => rfl) j
  rw [← h, isAlive, isAlive, desk_retire]

theorem table_retire (h : (a, c) ∈ w.entered a.owner) (j : InstanceId) :
    (w.retire a c).table j = if a.owner = j then (w.table j).retire a.id else w.table j := by
  rw [table]
  rw [desk_retire]
  exact table_updateInstance (g := fun t => t.retire a.id) (fun _ => rfl)
    (fun hd => absurd hd (desk_ne_none_of_mem_entered h)) j

/-- Retiring a callback takes it from the table and puts it in one of the other places. -/
theorem orphans_drops_retire (w : World) (a : Anchor) (c : Callback) :
    (w.isRunning a = true ∧ (w.retire a c).orphans = (a, c) :: w.orphans
      ∧ (w.retire a c).drops = w.drops)
    ∨ (w.isRunning a = false ∧ (w.retire a c).orphans = w.orphans
      ∧ (w.retire a c).drops = w.drops ++ [(a, c)]) := by
  cases h : w.isRunning a with
  | true =>
    rw [retire_of_running h]
    exact .inl ⟨rfl, rfl, rfl⟩
  | false =>
    rw [retire_of_idle h, orphans_dropCallback, drops_dropCallback]
    exact .inr ⟨rfl, rfl, rfl⟩

theorem entered_retire (h : (a, c) ∈ w.entered a.owner) (j : InstanceId) :
    (w.retire a c).entered j = (w.entered j).filter fun p => p.1 != a := by
  simp only [entered]
  rw [table_retire h]
  split
  · next hj =>
    subst hj
    rw [List.filter_map]
    have hp : ∀ e : Nat × Registration, (e.1 != a.id) = ((⟨a.owner, e.1⟩ : Anchor) != a) := by
      intro e
      obtain ⟨owner, id⟩ := a
      rw [Bool.eq_iff_iff]
      simp
    simp only [CallbackTable.retire, Function.comp_def, hp]
  · next hj =>
    refine (List.filter_eq_self.mpr fun p hp => ?_).symm
    obtain ⟨e, -, rfl⟩ := List.mem_map.mp hp
    have hne : (⟨j, e.1⟩ : Anchor) ≠ a := fun h => hj (h ▸ rfl)
    simpa using hne

/-- **Retiring loses nothing.** What leaves the table is found in another place. -/
theorem sightings_retire (h : (a, c) ∈ w.entered a.owner) (hone : w.sightings (a, c) = 1)
    (honly : ∀ c', (a, c') ∈ w.entered a.owner → c' = c) (p : Anchor × Callback) :
    (w.retire a c).sightings p = w.sightings p := by
  have hpos : 1 ≤ (w.entered a.owner).count (a, c) := List.count_pos_iff.mpr h
  have hentered : (w.entered p.1.owner).count p =
      ((w.retire a c).entered p.1.owner).count p + if p = (a, c) then 1 else 0 := by
    rw [entered_retire h]
    by_cases hp : p.1 = a
    · have hgone : ((w.entered p.1.owner).filter fun q => q.1 != a).count p = 0 := by
        rw [List.count_eq_zero]
        intro hmem
        simp [hp] at hmem
      obtain ⟨a', c'⟩ := p
      obtain rfl : a' = a := hp
      rw [hgone]
      by_cases hc : c' = c
      · subst hc
        simp only [sightings] at hone
        simp only [if_true]
        omega
      · rw [if_neg (by simpa using hc), List.count_eq_zero]
        exact fun hmem => hc (honly c' hmem)
    · rw [if_neg (fun h => hp (congrArg Prod.fst h)), List.count_filter (by simpa using hp),
        Nat.add_zero]
  have hmoved : (w.retire a c).orphans.count p + (w.retire a c).drops.count p =
      w.orphans.count p + w.drops.count p + if p = (a, c) then 1 else 0 := by
    obtain ⟨-, ho, hd⟩ | ⟨-, ho, hd⟩ := orphans_drops_retire w a c
    · rw [ho, hd, List.count_cons]
      simp only [beq_iff_eq, eq_comm (a := (a, c))]
      omega
    · rw [ho, hd, List.count_append, List.count_singleton]
      simp only [beq_iff_eq, eq_comm (a := (a, c))]
      omega
  simp only [sightings]
  omega

/-- A retirement moves one registration from the live ones to the finalized ones. -/
theorem census_retire (h : (a, c) ∈ w.entered a.owner) (hn : (w.table a.owner).ids.Nodup)
    (j : InstanceId) :
    ((w.retire a c).table j).live + ((w.retire a c).table j).finalized =
      (w.table j).live + (w.table j).finalized := by
  rw [table_retire h]
  split
  · next hj =>
    subst hj
    have hmem : a.id ∈ (w.table a.owner).ids := by
      obtain ⟨-, r, hr, -⟩ := mem_entered.mp h
      exact List.mem_map_of_mem hr
    have hlen : ∀ t : CallbackTable, t.live = t.ids.length := fun t => by simp [CallbackTable.ids,
      CallbackTable.live]
    have hpos := List.length_pos_of_mem hmem
    rw [hlen, hlen, CallbackTable.ids_retire, ← hn.erase_eq_filter, List.length_erase_of_mem hmem]
    simp only [CallbackTable.retire]
    omega
  · rfl

/-! ## New instances, new registrations and closed instances -/

@[simp] theorem table_newInstance (w : World) (limits : Limits) (j : InstanceId) :
    (w.newInstance limits).2.table j = w.table j := by
  simp only [table]
  rw [desk_newInstance]
  split
  · next hj =>
    rw [hj, desk_size]
    rfl
  · rfl

theorem newInstance_keeps (w : World) (limits : Limits) :
    (w.newInstance limits).2.inFlight = w.inFlight ∧ (w.newInstance limits).2.orphans = w.orphans
      ∧ (w.newInstance limits).2.dropped = w.dropped := by
  rw [newInstance]
  dsimp only
  split <;> simp [note]

theorem isAlive_newInstance (h : w.isAlive j = true) (limits : Limits) :
    (w.newInstance limits).2.isAlive j = true := by
  rw [isAlive] at *
  rw [desk_newInstance]
  split
  · rfl
  · exact h

/-- A registration is an entry in the table, under some function object. -/
theorem register_eq (h : w.isAlive i = true) (realm : Ref) (c : Callback) :
    ∃ f, (w.register i realm c).2.calls = (w.updateTable i fun t => t.register ⟨c, f⟩).calls := by
  rw [isAlive, desk] at h
  cases hx : w.instance? i with
  | none =>
    rw [hx] at h
    cases h
  | some x => exact ⟨_, calls_register hx realm c⟩

theorem table_enlisted (h : w.isAlive i = true) (r : Registration) (j : InstanceId) :
    (w.updateTable i fun t => t.register r).table j =
      if i = j then (w.table j).register r else w.table j := by
  refine table_updateInstance (g := fun t => t.register r) (fun _ => rfl) (fun hd => ?_) j
  rw [isAlive, hd] at h
  cases h

theorem entered_enlisted (h : w.isAlive i = true) (r : Registration) (j : InstanceId) :
    (w.updateTable i fun t => t.register r).entered j =
      w.entered j ++ if i = j then [(⟨i, (w.table i).nextId⟩, r.callback)] else [] := by
  rw [entered, entered, table_enlisted h]
  split
  · next hij =>
    subst hij
    simp [CallbackTable.register]
  · simp

theorem table_close (w : World) (i j : InstanceId) :
    (w.close i).table j = if i = j then (w.table j).dispose.1 else w.table j :=
  table_updateInstance (g := fun t => t.dispose.1)
    (f := fun x => { x with table := x.table.dispose.1, isLive := false })
    (fun _ => rfl) (fun _ => rfl) j

theorem isAlive_close (i : InstanceId) : (w.close i).isAlive i = false := by
  rw [isAlive, close, desk_updateInstance
    (g := fun d => { d with table := d.table.dispose.1, isLive := false }) fun _ => rfl, if_pos rfl]
  cases w.desk i <;> rfl

theorem isAlive_close_of_ne (h : i ≠ j) : (w.close i).isAlive j = w.isAlive j := by
  rw [isAlive, close, desk_updateInstance
    (g := fun d => { d with table := d.table.dispose.1, isLive := false }) fun _ => rfl, if_neg h]
  rfl

/-! ## Calls -/

@[simp] theorem table_enter (w : World) (v : Invocation) (j : InstanceId) :
    (w.enter v).table j = w.table j :=
  table_updateInstance_of_eq (w := { w with inFlight := v :: w.inFlight })
    (f := fun x => { x with lent := some v.activation }) (fun _ => rfl) j

@[simp] theorem isAlive_enter (w : World) (v : Invocation) (j : InstanceId) :
    (w.enter v).isAlive j = w.isAlive j :=
  isAlive_updateInstance_of_eq (w := { w with inFlight := v :: w.inFlight })
    (f := fun x => { x with lent := some v.activation }) (fun _ => rfl) j

@[simp] theorem table_borrow (w : World) (i j : InstanceId) : (w.borrow i).table j = w.table j :=
  table_updateInstance_of_eq (f := fun x => { x with borrowed := true }) (fun _ => rfl) j

@[simp] theorem isAlive_borrow (w : World) (i j : InstanceId) :
    (w.borrow i).isAlive j = w.isAlive j :=
  isAlive_updateInstance_of_eq (f := fun x => { x with borrowed := true }) (fun _ => rfl) j

@[simp] theorem table_giveBack (w : World) (i j : InstanceId) :
    (w.giveBack i).table j = w.table j :=
  table_updateInstance_of_eq (f := fun x => { x with borrowed := false }) (fun _ => rfl) j

@[simp] theorem isAlive_giveBack (w : World) (i j : InstanceId) :
    (w.giveBack i).isAlive j = w.isAlive j :=
  isAlive_updateInstance_of_eq (f := fun x => { x with borrowed := false }) (fun _ => rfl) j

/-- Whether a callback would still be running if the innermost invocation had returned. -/
def stillRunning (w : World) (a : Anchor) : Bool := w.inFlight.tail.any fun v => v.anchor == a

theorem isRunning_iff {v : Invocation} {rest : List Invocation} (h : w.inFlight = v :: rest)
    (b : Anchor) : w.isRunning b = true ↔ v.anchor = b ∨ w.stillRunning b = true := by
  rw [isRunning, stillRunning, h]
  simp

/-- A callback that waits for its drop gets it once no invocation of it is left, and nothing else
happens to the world. -/
theorem dropOrphan_cases (w : World) (a : Anchor) :
    (w.isRunning a = true ∧ w.dropOrphan a = w)
    ∨ (w.isRunning a = false ∧ (∀ c, (a, c) ∉ w.orphans) ∧ w.dropOrphan a = w)
    ∨ ∃ c, w.isRunning a = false ∧ (a, c) ∈ w.orphans
        ∧ w.dropOrphan a =
          { w with orphans := w.orphans.filter fun o => o.1 != a }.dropCallback a c := by
  cases hr : w.isRunning a with
  | true => exact .inl ⟨rfl, by rw [dropOrphan, if_pos hr]⟩
  | false =>
    have hdrop : ¬w.isRunning a = true := by simp [hr]
    rw [dropOrphan, if_neg hdrop]
    cases hl : w.orphans.lookup a with
    | none =>
      refine .inr (.inl ⟨rfl, fun c hc => ?_, rfl⟩)
      simpa using List.lookup_eq_none_iff.mp hl _ hc
    | some c =>
      obtain ⟨l₁, l₂, h, -⟩ := List.lookup_eq_some_iff.mp hl
      exact .inr (.inr ⟨c, rfl, by simp [h], rfl⟩)

/-- What a return does to the desks is to restore what was lent. What it does to the orphans is to
drop the one that waited for it, if there is one and it waits for nothing else. -/
theorem leave_cases (w : World) (a : Anchor) (before : Option Activation) :
    (w.leave a before).desk = (w.updateInstance a.owner fun x => { x with lent := before }).desk
    ∧ (w.leave a before).inFlight = w.inFlight.tail
    ∧ ((w.stillRunning a = true ∧ (w.leave a before).orphans = w.orphans
          ∧ (w.leave a before).drops = w.drops)
      ∨ (w.stillRunning a = false ∧ (∀ c, (a, c) ∉ w.orphans)
          ∧ (w.leave a before).orphans = w.orphans ∧ (w.leave a before).drops = w.drops)
      ∨ ∃ c, w.stillRunning a = false ∧ (a, c) ∈ w.orphans
          ∧ (w.leave a before).orphans = w.orphans.filter (fun o => o.1 != a)
          ∧ (w.leave a before).drops = w.drops ++ [(a, c)]) := by
  rw [leave]
  obtain ⟨hr, h⟩ | ⟨hr, hc, h⟩ | ⟨c, hr, hc, h⟩ := dropOrphan_cases
    ({ w with inFlight := w.inFlight.tail }.updateInstance a.owner fun x =>
      { x with lent := before }) a
  · rw [h]
    exact ⟨rfl, rfl, .inl ⟨hr, rfl, rfl⟩⟩
  · rw [h]
    exact ⟨rfl, rfl, .inr (.inl ⟨hr, hc, rfl, rfl⟩)⟩
  · rw [h, desk_dropCallback, inFlight_dropCallback, orphans_dropCallback, drops_dropCallback]
    exact ⟨rfl, rfl, .inr (.inr ⟨c, hr, hc, rfl, rfl⟩)⟩

@[simp] theorem table_leave (w : World) (a : Anchor) (before : Option Activation)
    (j : InstanceId) : (w.leave a before).table j = w.table j := by
  have h : (w.updateInstance a.owner fun x => { x with lent := before }).table j = w.table j :=
    table_updateInstance_of_eq (f := fun x => { x with lent := before }) (fun _ => rfl) j
  rw [← h, table, table, (leave_cases w a before).1]

@[simp] theorem isAlive_leave (w : World) (a : Anchor) (before : Option Activation)
    (j : InstanceId) : (w.leave a before).isAlive j = w.isAlive j := by
  have h : (w.updateInstance a.owner fun x => { x with lent := before }).isAlive j =
      w.isAlive j :=
    isAlive_updateInstance_of_eq (f := fun x => { x with lent := before }) (fun _ => rfl) j
  rw [← h, isAlive, isAlive, (leave_cases w a before).1]

/-! ## Retiring all there is -/

/-- **All entries are retired.** What holds before and survives each single retirement holds in
the end, and the table is empty then. -/
theorem finalizeAll_keeps {P : World → Prop} (hw : P w) (hn : (w.table i).ids.Nodup)
    (retire : ∀ w a c, (a, c) ∈ w.entered a.owner → P w → P (w.retire a c)) :
    P (w.finalizeAll i) ∧ ((w.finalizeAll i).table i).entries = [] := by
  rw [finalizeAll]
  cases hx : w.instance? i with
  | none => exact ⟨hw, by simp [table, desk, hx, CallbackTable.empty]⟩
  | some x =>
    have hes : (w.table i).entries = x.table.entries := by simp [table, desk, hx, Instance.desk]
    dsimp only
    -- The entries that are left are those the fold has not come to yet.
    generalize x.table.entries = es at hes
    clear hx
    induction es generalizing w with
    | nil => exact ⟨hw, hes⟩
    | cons e es ih =>
      have hmem : ((⟨i, e.1⟩ : Anchor), e.2.callback) ∈ w.entered i :=
        mem_entered.mpr ⟨rfl, e.2, by simp [hes], rfl⟩
      have htable := table_retire (a := ⟨i, e.1⟩) hmem i
      rw [if_pos rfl] at htable
      have hfresh : e.1 ∉ es.map (·.1) := by
        have hn' := hn
        rw [CallbackTable.ids, hes] at hn'
        exact (List.nodup_cons.mp hn').1
      refine ih (retire w _ _ hmem hw) ?_ ?_
      · rw [htable, CallbackTable.ids_retire]
        exact hn.filter _
      · rw [htable]
        simp only [CallbackTable.retire, hes, List.filter_cons, bne_self_eq_false,
          Bool.false_eq_true, if_false]
        refine List.filter_eq_self.mpr fun e' he' => ?_
        have hne : e'.1 ≠ e.1 := fun h => hfresh (h ▸ List.mem_map_of_mem he')
        simpa using hne

end World

/-- A change is a registration on an instance that is alive, or no registration at all. -/
theorem Change.register_or {w w' : World} {x : Change} (hx : x.apply w = some w') :
    (∃ i realm c, x = .register i realm c ∧ w.isAlive i = true ∧ w' = (w.register i realm c).2)
      ∨ ∀ i realm c, x ≠ .register i realm c := by
  cases x with
  | register i realm c =>
    simp only [Change.apply] at hx
    split at hx
    · next halive => exact .inl ⟨i, realm, c, rfl, halive, (Option.some.inj hx).symm⟩
    · cases hx
  | _ => exact .inr (by simp)

/-- **What a change keeps**, a registration apart: whatever survives a change that has nothing to
do with callbacks, a new instance, the retirement of one callback, and the closing of an instance
that has none left. -/
theorem Change.keeps {P : World → Prop} {w w' : World} {x : Change} (hw : P w)
    (hx : x.apply w = some w') (hr : ∀ i realm c, x ≠ .register i realm c)
    (nodup : ∀ w i, P w → (w.table i).ids.Nodup)
    (quiet : ∀ w w', w'.calls = w.calls → P w → P w')
    (newInstance : ∀ w limits, x = .newInstance limits → P w → P (w.newInstance limits).2)
    (retire : ∀ w a c, (a, c) ∈ w.entered a.owner → P w → P (w.retire a c))
    (close : ∀ w i, (w.table i).entries = [] → P w → P (w.close i)) : P w' := by
  cases x with
  | register i realm c => exact absurd rfl (hr i realm c)
  | newInstance limits =>
    obtain rfl : (w.newInstance limits).2 = w' := Option.some.inj hx
    exact newInstance w limits rfl hw
  | finalize a =>
    cases hx
    rw [World.finalize]
    split
    · exact hw
    · next c hc =>
      have hcalls : (w.note (.finalizing a.id)).calls = w.calls := rfl
      refine retire _ a c ?_ (quiet w _ hcalls hw)
      exact World.mem_entered_of_callbackOf ((World.callbackOf_congr hcalls a).trans hc)
  | shut i =>
    simp only [Change.apply] at hx
    split at hx
    · cases hx
      obtain ⟨hp, hempty⟩ := World.finalizeAll_keeps hw (nodup w i hw) retire
      exact close _ i hempty hp
    · cases hx
  | edit e =>
    cases hx
    exact quiet w _ rfl hw
  | note e =>
    cases hx
    exact quiet w _ rfl hw
  | install pair =>
    cases hx
    exact quiet w _ rfl hw
  | setSlot i slot data =>
    cases hx
    exact quiet w _ (World.calls_setSlot ..) hw
  | newHandle i v =>
    simp only [Change.apply] at hx
    split at hx
    · cases hx
      exact quiet w _ (World.calls_newHandle ..) hw
    · cases hx
  | cloneHandle h =>
    cases hx
    exact quiet w _ (World.calls_cloneHandle ..) hw
  | releaseHandle h =>
    cases hx
    exact quiet w _ (World.calls_releaseHandle ..) hw

end ScriptBoundary.Boundary
