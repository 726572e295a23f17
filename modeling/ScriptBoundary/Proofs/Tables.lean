import ScriptBoundary.Proofs.Lifecycle

/-!
# What every callback table keeps

A callback table changes in four ways: it is new and empty, a registration is entered, one is
retired, and the account of an instance that has ended is settled. What is kept in all four holds of
every table at any time (`CallbackTable.Keeps`), whatever else happens to the world.

The four come with what is known of a table when they happen. A registration gets a number greater
than all those in the table. Only what is in the table is retired, and it is there once. The account
is settled when the table is empty. None of that has to be kept again by whoever keeps something
else.

The first use of it is the order of the registrations: it is the order in which they were made.
Nothing has to be sorted for that, since numbers are given out in ascending order and new entries go
to the end.

## Main results

* `Scene.tables_run`: what every table keeps holds of all tables, after every sequence of moves
* `Scene.ordered_run`: tables are in the order of registration
-/

namespace ScriptBoundary.Boundary

open Script (Ref)

/-- A property that a new table has and no change of a table destroys. -/
structure CallbackTable.Keeps (P : CallbackTable → Prop) : Prop where
  empty : P .empty
  register : ∀ (t : CallbackTable) (r : Registration),
    (∀ id ∈ t.ids, id < t.nextId) → P t → P (t.register r)
  retire : ∀ (t : CallbackTable) (id : Nat), t.ids.Nodup → id ∈ t.ids → P t → P (t.retire id)
  dispose : ∀ t : CallbackTable, t.entries = [] → P t → P t.dispose.1

section Keeps

variable {P : CallbackTable → Prop} {made : InstanceId → List Callback} {w w' : World}
  {i : InstanceId}

/-- A number that is in a table was given out. -/
theorem Account.lt_of_mem_ids (h : Account made w) {id : Nat} (hid : id ∈ (w.table i).ids) :
    id < (w.table i).nextId := by
  obtain ⟨⟨id, r⟩, he, rfl⟩ := List.mem_map.mp hid
  have hreg : Registered made ⟨i, id⟩ r.callback :=
    h.registered_of_entered (i := i) (World.mem_entered.mpr ⟨rfl, r, he, rfl⟩)
  exact (h.lt_nextId hreg).2

/-- A registration is entered in one table and leaves the others as they are. -/
theorem Account.tables_register (hP : CallbackTable.Keeps P) (h : Account made w)
    (ht : ∀ j, P (w.table j)) (halive : w.isAlive i = true) (realm : Ref) (c : Callback)
    (j : InstanceId) : P ((w.register i realm c).2.table j) := by
  obtain ⟨f, hcalls⟩ := World.register_eq halive realm c
  rw [World.table_congr hcalls, World.table_enlisted halive]
  split
  · exact hP.register _ _ (fun id hid => h.lt_of_mem_ids hid) (ht j)
  · exact ht j

/-- A retirement concerns one table, which has the registration once. -/
theorem World.tables_retire (hP : CallbackTable.Keeps P) {a : Script.Anchor} {c : Callback}
    (hn : ∀ j, (w.table j).ids.Nodup) (ht : ∀ j, P (w.table j))
    (hmem : (a, c) ∈ w.entered a.owner) (j : InstanceId) : P ((w.retire a c).table j) := by
  rw [table_retire hmem]
  split
  · next hj =>
    subst hj
    obtain ⟨-, r, hr, -⟩ := mem_entered.mp hmem
    exact hP.retire _ _ (hn _) (List.mem_map_of_mem hr) (ht _)
  · exact ht j

/-- **What a change keeps** of every table. -/
theorem Account.tables_change (hP : CallbackTable.Keeps P) (h : Account made w)
    (ht : ∀ j, P (w.table j)) {x : Change} (hx : x.apply w = some w') (j : InstanceId) :
    P (w'.table j) := by
  obtain ⟨i, realm, c, rfl, halive, rfl⟩ | hr := Change.register_or hx
  · exact h.tables_register hP ht halive realm c j
  · refine (Change.keeps (P := fun u => (∀ j, (u.table j).ids.Nodup) ∧ ∀ j, P (u.table j))
      ⟨h.ids_nodup, ht⟩ hx hr (fun u i hu => hu.1 i) ?_ ?_ ?_ ?_).2 j
    · intro u u' hcalls hu
      simpa only [World.table_congr hcalls] using hu
    · intro u limits _ hu
      simpa only [World.table_newInstance] using hu
    · rintro u a c hmem ⟨hn, hu⟩
      refine ⟨fun k => ?_, fun k => World.tables_retire hP hn hu hmem k⟩
      rw [World.table_retire hmem]
      split
      · rw [CallbackTable.ids_retire]
        exact (hn k).filter _
      · exact hn k
    · rintro u i hempty ⟨hn, hu⟩
      refine ⟨fun k => ?_, fun k => ?_⟩
      · rw [World.table_close]
        split <;> exact hn k
      · rw [World.table_close]
        split
        · next hik => exact hik ▸ hP.dispose _ hempty (hu i)
        · exact hu k

/-- **What a move keeps** of every table. -/
theorem Scene.Sound.tables_step (hP : CallbackTable.Keeps P) {ms : List Move} {c d : Scene}
    {m : Move} (h : c.Sound ms) (ht : ∀ j, P (c.world.table j)) (hm : c.step m = some d)
    (j : InstanceId) : P (d.world.table j) := by
  cases Scene.stepped hm with
  | change hx => exact h.account.tables_change hP ht hx j
  | beginLent => exact ht j
  | beginOwn => simpa only [World.table_borrow] using ht j
  | finishLent => exact ht j
  | finishOwn => simpa only [World.table_giveBack] using ht j
  | enter => simpa only [World.table_enter] using ht j
  | leave => simpa only [World.table_leave] using ht j

/-- **What every sequence of moves keeps** of every table. -/
theorem Scene.tables_run (hP : CallbackTable.Keeps P) {p : Platform} {ms : List Move} {c : Scene}
    (h : (Scene.start p).run ms = some c) : ∀ j, P (c.world.table j) :=
  (Scene.run_induction (P := fun ms c => c.Sound ms ∧ ∀ j, P (c.world.table j))
    ⟨Scene.sound_start p, fun _ => hP.empty⟩
    (fun hd hm => ⟨(hd.1.step hm).1, fun j => hd.1.tables_step hP hd.2 hm j⟩) h).2

end Keeps

/-! ## The order of registrations -/

/-- A registration goes to the end of its table, and has a greater number than those before it. -/
theorem CallbackTable.keeps_ordered :
    CallbackTable.Keeps fun t => t.ids.Pairwise (· < ·) where
  empty := List.Pairwise.nil
  register t r hlt ht := by
    have hids : (t.register r).ids = t.ids ++ [t.nextId] := by
      simp [CallbackTable.ids, CallbackTable.register]
    rw [hids, List.pairwise_append]
    refine ⟨ht, List.pairwise_singleton _ _, fun id hid next hnext => ?_⟩
    rw [List.mem_singleton.mp hnext]
    exact hlt id hid
  retire t id _ _ ht := by
    rw [CallbackTable.ids_retire]
    exact ht.filter _
  dispose _ _ ht := ht

/-- **Tables are in the order of registration** after every sequence of moves. -/
theorem Scene.ordered_run {p : Platform} {ms : List Move} {c : Scene}
    (h : (Scene.start p).run ms = some c) (i : InstanceId) :
    (c.world.table i).ids.Pairwise (· < ·) :=
  Scene.tables_run CallbackTable.keeps_ordered h i

end ScriptBoundary.Boundary
