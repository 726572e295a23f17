import ScriptBoundary.Proofs.Lifecycle
import ScriptBoundary.Proofs.Marking
import ScriptBoundary.Proofs.Whereabouts
import ScriptBoundary.Proofs.Work

/-!
# What a pass of the collector does

A pass marks what is reachable and reports every anchor whose function object is not marked. Each
report retires one registration in the table of its own instance, so a pass is a fold of
retirements, and because no registration is reported twice the fold comes down to one filter on
each table (`CallbackTable.keep`).

`World.Reaches` says what keeps a function object alive: something that is held from outside the
heap leads to it. What is held is spelled out in `World.Holds`; that the global object of an
instance counts as held although the collector starts from the realm is one of the things that need
the realm to be in its place.

## Main results

* `Account.instance?_collect`: what is left of each instance
* `Account.collected`: what one pass does
* `collection_follows_reachability`: what a pass does, whoever starts it and wherever
-/

namespace ScriptBoundary.Script

/-- What is reachable from cells that are reachable themselves. -/
theorem Reachable.of_roots {h : Heap} {roots roots' : List Ref} {r : Ref}
    (hr : Reachable h roots' r) (hroots : ∀ q ∈ roots', q < h.cells.size → Reachable h roots q) :
    Reachable h roots r := by
  induction hr with
  | root hmem hlt => exact hroots _ hmem hlt
  | link _ hlink hlt ih => exact ih.link hlink hlt

/-- Each reachable cell is reachable from one of the roots alone. -/
theorem reachable_iff_exists {h : Heap} {roots : List Ref} {r : Ref} :
    Reachable h roots r ↔ ∃ q ∈ roots, Reachable h [q] r := by
  constructor
  · intro hr
    induction hr with
    | @root r hmem hlt => exact ⟨r, hmem, .root List.mem_cons_self hlt⟩
    | link _ hlink hlt ih =>
      obtain ⟨q, hq, hr⟩ := ih
      exact ⟨q, hq, hr.link hlink hlt⟩
  · rintro ⟨q, hq, hr⟩
    refine hr.of_roots fun q' hq' hlt => ?_
    obtain rfl := List.mem_singleton.mp hq'
    exact .root hq hlt

end ScriptBoundary.Script

namespace ScriptBoundary.Boundary

open Script (Anchor Reachable Ref)

/-! ## Tables -/

namespace CallbackTable

variable {t : CallbackTable} {p q : Nat × Registration → Bool} {id : Nat}

/-- What a table becomes when the registrations that do not pass a test are retired. -/
def keep (t : CallbackTable) (p : Nat × Registration → Bool) : CallbackTable :=
  { t with
    entries := t.entries.filter p
    finalized := t.finalized + t.entries.countP fun e => !p e
    externalBytes := t.externalBytes - registrationBytes * t.entries.countP fun e => !p e }

theorem keep_all (t : CallbackTable) : t.keep (fun _ => true) = t := by
  have hcount : (t.entries.countP fun _ => !true) = 0 := by simp
  have hfilter : t.entries.filter (fun _ => true) = t.entries :=
    List.filter_eq_self.mpr fun _ _ => rfl
  rw [keep, hcount, hfilter]
  rfl

/-- Only what a test says of the registrations that are there matters. -/
theorem keep_congr (h : ∀ e ∈ t.entries, p e = q e) : t.keep p = t.keep q := by
  have hcount : (t.entries.countP fun e => !p e) = t.entries.countP fun e => !q e :=
    List.countP_congr fun e he => by rw [h e he]
  rw [keep, keep, hcount, List.filter_congr h]

/-- Retiring in two turns. -/
theorem keep_keep (t : CallbackTable) (p q : Nat × Registration → Bool) :
    (t.keep p).keep q = t.keep fun e => q e && p e := by
  have hcount : ∀ es : List (Nat × Registration), (es.countP fun e => !(q e && p e)) =
      (es.countP fun e => !p e) + (es.filter p).countP fun e => !q e := by
    intro es
    rw [List.countP_filter]
    induction es with
    | nil => rfl
    | cons e es ih =>
      simp only [List.countP_cons, ih]
      cases p e <;> cases q e <;> simp <;> omega
  simp only [keep, List.filter_filter, hcount, Nat.mul_add, Nat.sub_sub, Nat.add_assoc]

/-- Retiring one registration keeps all others. -/
theorem retire_eq_keep (hn : t.ids.Nodup) (hid : id ∈ t.ids) :
    t.retire id = t.keep fun e => e.1 != id := by
  have hone : (t.entries.countP fun e => !(e.1 != id)) = 1 := by
    have hle := List.nodup_iff_count.mp hn id
    have hpos := List.count_pos_iff.mpr hid
    have hcount : t.ids.count id = t.entries.countP fun e => !(e.1 != id) := by
      rw [ids, List.count, List.countP_map]
      exact List.countP_congr fun e _ => by simp
    omega
  rw [keep, hone]
  rfl

/-- Retiring one registration does not matter to the others. -/
theorem lookup_retire {id' : Nat} (hne : id' ≠ id) : (t.retire id).lookup id' = t.lookup id' := by
  have hsame : (fun e : Nat × Registration => decide ((e.1 != id) = true ∧ (e.1 == id') = true)) =
      fun e => e.1 == id' := by
    funext e
    rw [Bool.eq_iff_iff]
    simp only [decide_eq_true_eq, bne_iff_ne, beq_iff_eq, and_iff_right_iff_imp]
    rintro rfl
    exact hne
  simp only [lookup, retire, List.find?_filter, hsame]

end CallbackTable

/-! ## One report -/

namespace World

variable {w w' : World} {a : Anchor} {c : Callback} {j : InstanceId}

/-- What is nobody's business but the scripts' and the host's: all of a world that is not about
instances, callbacks that are gone, and the log. -/
structure Spares (w w' : World) : Prop where
  heap : w'.heap = w.heap
  platform : w'.platform = w.platform
  handles : w'.handles = w.handles
  inFlight : w'.inFlight = w.inFlight
  lifecycle : w'.lifecycle = w.lifecycle

theorem Spares.refl (w : World) : w.Spares w := ⟨rfl, rfl, rfl, rfl, rfl⟩

theorem Spares.trans {w'' : World} (h : w.Spares w') (h' : w'.Spares w'') : w.Spares w'' :=
  ⟨h'.heap.trans h.heap, h'.platform.trans h.platform, h'.handles.trans h.handles,
    h'.inFlight.trans h.inFlight, h'.lifecycle.trans h.lifecycle⟩

theorem instance?_dropCallback (w : World) (a : Anchor) (c : Callback) (j : InstanceId) :
    (w.dropCallback a c).instance? j = w.instance? j := by
  cases c with
  | native name => rfl
  | foreign target context =>
    rw [dropCallback]
    dsimp only
    split <;> rfl

theorem spares_dropCallback (w : World) (a : Anchor) (c : Callback) :
    w.Spares (w.dropCallback a c) := by
  cases c with
  | native name => exact ⟨rfl, rfl, rfl, rfl, rfl⟩
  | foreign target context =>
    rw [dropCallback]
    dsimp only
    split <;> exact ⟨rfl, rfl, rfl, rfl, rfl⟩

theorem instance?_retire (w : World) (a : Anchor) (c : Callback) (j : InstanceId) :
    (w.retire a c).instance? j = if a.owner = j
      then (w.instance? j).map fun x => { x with table := x.table.retire a.id }
      else w.instance? j := by
  rw [← instance?_updateInstance w a.owner j fun x => { x with table := x.table.retire a.id }]
  cases h : w.isRunning a with
  | true =>
    rw [retire_of_running h]
    rfl
  | false =>
    rw [retire_of_idle h, instance?_dropCallback]
    rfl

theorem spares_retire (w : World) (a : Anchor) (c : Callback) : w.Spares (w.retire a c) := by
  cases h : w.isRunning a with
  | true =>
    rw [retire_of_running h]
    exact ⟨rfl, rfl, rfl, rfl, rfl⟩
  | false =>
    rw [retire_of_idle h]
    exact (show w.Spares (w.updateTable a.owner fun t => t.retire a.id) from
      ⟨rfl, rfl, rfl, rfl, rfl⟩).trans (spares_dropCallback _ a c)

/-- A report of an anchor that has a callback retires it. -/
theorem finalize_of_callbackOf (hc : w.callbackOf a = some c) :
    w.finalize a = (w.note (.finalizing a.id)).retire a c := by
  rw [finalize, hc]

theorem spares_finalize (w : World) (a : Anchor) : w.Spares (w.finalize a) := by
  rw [finalize]
  split
  · exact .refl w
  · exact (show w.Spares (w.note (.finalizing a.id)) from
      ⟨rfl, rfl, rfl, rfl, rfl⟩).trans (spares_retire _ a _)

theorem isAlive_finalize (w : World) (a : Anchor) (j : InstanceId) :
    (w.finalize a).isAlive j = w.isAlive j := by
  rw [finalize]
  split
  · rfl
  · rw [isAlive_retire]
    rfl

theorem table_finalize (hc : w.callbackOf a = some c) (j : InstanceId) :
    (w.finalize a).table j = if a.owner = j then (w.table j).retire a.id else w.table j := by
  have hnoted : (w.note (.finalizing a.id)).callbackOf a = some c :=
    (callbackOf_congr (calls_note _ _) a).trans hc
  rw [finalize_of_callbackOf hc]
  exact table_retire (mem_entered_of_callbackOf hnoted) j

/-- A report of one anchor does not matter to the others. -/
theorem callbackOf_finalize {b : Anchor} (hc : w.callbackOf a = some c) (hne : b ≠ a) :
    (w.finalize a).callbackOf b = w.callbackOf b := by
  have hlookup : ((w.finalize a).table b.owner).lookup b.id = (w.table b.owner).lookup b.id := by
    rw [table_finalize hc]
    split
    · next howner =>
      refine CallbackTable.lookup_retire fun hid => hne ?_
      obtain ⟨bo, bi⟩ := b
      obtain ⟨ao, ai⟩ := a
      obtain rfl : ao = bo := howner
      obtain rfl : bi = ai := hid
      rfl
    · rfl
  rw [callbackOf_eq, callbackOf_eq, isAlive_finalize, hlookup]

theorem ids_finalize_nodup (hn : ∀ j, (w.table j).ids.Nodup) (hc : w.callbackOf a = some c) :
    ∀ j, ((w.finalize a).table j).ids.Nodup := by
  intro j
  rw [table_finalize hc]
  split
  · rw [CallbackTable.ids_retire]
    exact (hn j).filter _
  · exact hn j

/-- What was retired is found among the orphans if it is running, and among the dropped
otherwise. -/
theorem mem_places_finalize (hc : w.callbackOf a = some c) (p : Anchor × Callback) :
    (p ∈ (w.finalize a).orphans ↔ p ∈ w.orphans ∨ p = (a, c) ∧ w.isRunning a = true)
      ∧ (p ∈ (w.finalize a).drops ↔ p ∈ w.drops ∨ p = (a, c) ∧ w.isRunning a = false) := by
  rw [finalize_of_callbackOf hc]
  obtain ⟨hrun, ho, hd⟩ | ⟨hrun, ho, hd⟩ :=
    orphans_drops_retire (w.note (.finalizing a.id)) a c
  · have hrun' : w.isRunning a = true := hrun
    rw [ho, hd, hrun']
    refine ⟨?_, by simp; rfl⟩
    rw [List.mem_cons, or_comm]
    simp
    rfl
  · have hrun' : w.isRunning a = false := hrun
    rw [ho, hd, hrun']
    refine ⟨by simp; rfl, ?_⟩
    rw [List.mem_append, List.mem_singleton]
    simp
    rfl

/-! ## A pass -/

/-- Whether an instance's registration is among those that are reported. -/
def reported (as : List Anchor) (j : InstanceId) (e : Nat × Registration) : Bool :=
  decide ((⟨j, e.1⟩ : Anchor) ∈ as)

/-- Reports of anchors, one after the other. -/
theorem spares_finalizes (w : World) (as : List Anchor) : w.Spares (as.foldl finalize w) := by
  induction as generalizing w with
  | nil => exact .refl w
  | cons a as ih => exact (spares_finalize w a).trans (ih _)

theorem table_of_instance? {x : Instance} (hx : w.instance? j = some x) : w.table j = x.table := by
  rw [table, desk, hx]
  rfl

theorem mem_ids_of_callbackOf (hc : w.callbackOf a = some c) : a.id ∈ (w.table a.owner).ids := by
  obtain ⟨-, r, hr, -⟩ := mem_entered.mp (mem_entered_of_callbackOf hc)
  exact List.mem_map_of_mem hr

/-- Retiring one and then not the others is retiring all but the others. -/
theorem keep_reported_cons (as : List Anchor) {t : CallbackTable} (hn : t.ids.Nodup)
    (hid : a.id ∈ t.ids) :
    (t.retire a.id).keep (fun e => !reported as a.owner e) =
      t.keep fun e => !reported (a :: as) a.owner e := by
  rw [CallbackTable.retire_eq_keep hn hid, CallbackTable.keep_keep]
  refine CallbackTable.keep_congr fun e _ => ?_
  have hanchor : ((⟨a.owner, e.1⟩ : Anchor) = a) ↔ e.1 = a.id := by
    obtain ⟨owner, id⟩ := a
    simp
  rw [Bool.eq_iff_iff]
  simp only [reported, List.mem_cons, hanchor, Bool.and_eq_true, Bool.not_eq_true',
    decide_eq_false_iff_not, bne_iff_ne, not_or]
  exact and_comm

/-- **Many reports, no anchor twice**: each table is left with the registrations that were not
reported. -/
theorem instance?_finalizes {as : List Anchor} (has : as.Nodup)
    (hn : ∀ j, (w.table j).ids.Nodup) (hreg : ∀ a ∈ as, (w.callbackOf a).isSome)
    (j : InstanceId) : (as.foldl finalize w).instance? j =
      (w.instance? j).map fun x => { x with table := x.table.keep fun e => !reported as j e } := by
  induction as generalizing w with
  | nil =>
    have hnone : ∀ t : CallbackTable, (t.keep fun e => !reported [] j e) = t := fun t => by
      rw [CallbackTable.keep_congr (q := fun _ => true) fun e _ => by simp [reported],
        CallbackTable.keep_all]
    simp only [List.foldl_nil, hnone]
    cases w.instance? j <;> rfl
  | cons a as ih =>
    obtain ⟨hnot, has⟩ := List.nodup_cons.mp has
    obtain ⟨c, hc⟩ := Option.isSome_iff_exists.mp (hreg a List.mem_cons_self)
    have hrest : ∀ b ∈ as, ((w.finalize a).callbackOf b).isSome := fun b hb => by
      rw [callbackOf_finalize hc fun heq => hnot (heq ▸ hb)]
      exact hreg b (List.mem_cons_of_mem _ hb)
    have hfirst : (w.finalize a).instance? j = if a.owner = j
        then (w.instance? j).map fun x => { x with table := x.table.retire a.id }
        else w.instance? j := by
      rw [finalize_of_callbackOf hc, instance?_retire]
      rfl
    rw [List.foldl_cons, ih has (ids_finalize_nodup hn hc) hrest, hfirst]
    split
    · next howner =>
      subst howner
      cases hx : w.instance? a.owner with
      | none => rfl
      | some x =>
        have ht := table_of_instance? hx
        have hkeep := keep_reported_cons as (ht ▸ hn a.owner)
          (ht ▸ mem_ids_of_callbackOf hc)
        simp only [Option.map_some, hkeep]
    · next howner =>
      have hsame : ∀ e, reported (a :: as) j e = reported as j e := fun e => by
        have hne : (⟨j, e.1⟩ : Anchor) ≠ a := fun heq => howner (heq ▸ rfl)
        simp [reported, hne]
      simp only [hsame]

/-- What was reported is found among the orphans if it is running, and among the dropped
otherwise. -/
theorem mem_places_finalizes {as : List Anchor} (has : as.Nodup)
    (hreg : ∀ a ∈ as, (w.callbackOf a).isSome) (p : Anchor × Callback) :
    (p ∈ (as.foldl finalize w).orphans ↔ p ∈ w.orphans
        ∨ (p.1 ∈ as ∧ w.callbackOf p.1 = some p.2) ∧ w.isRunning p.1 = true)
      ∧ (p ∈ (as.foldl finalize w).drops ↔ p ∈ w.drops
        ∨ (p.1 ∈ as ∧ w.callbackOf p.1 = some p.2) ∧ w.isRunning p.1 = false) := by
  induction as generalizing w with
  | nil => simp
  | cons a as ih =>
    obtain ⟨hnot, has⟩ := List.nodup_cons.mp has
    obtain ⟨c, hc⟩ := Option.isSome_iff_exists.mp (hreg a List.mem_cons_self)
    have hrest : ∀ b ∈ as, (w.finalize a).callbackOf b = w.callbackOf b := fun b hb =>
      callbackOf_finalize hc fun heq => hnot (heq ▸ hb)
    have hrun : ∀ b, (w.finalize a).isRunning b = w.isRunning b := fun b => by
      rw [isRunning, (spares_finalize w a).inFlight]
      rfl
    obtain ⟨ho, hd⟩ := ih (w := w.finalize a) has fun b hb => by
      rw [hrest b hb]
      exact hreg b (List.mem_cons_of_mem _ hb)
    obtain ⟨ho', hd'⟩ := mem_places_finalize hc p
    have hlater : (p.1 ∈ as ∧ (w.finalize a).callbackOf p.1 = some p.2) ↔
        (p.1 ∈ as ∧ w.callbackOf p.1 = some p.2) :=
      and_congr_right fun hp => by rw [hrest _ hp]
    have hnow : (p.1 ∈ a :: as ∧ w.callbackOf p.1 = some p.2) ↔
        p = (a, c) ∨ (p.1 ∈ as ∧ w.callbackOf p.1 = some p.2) := by
      obtain ⟨b, d⟩ := p
      simp only [List.mem_cons, Prod.mk.injEq]
      constructor
      · rintro ⟨rfl | hb, hcb⟩
        · exact .inl ⟨rfl, Option.some.inj (hcb.symm.trans hc)⟩
        · exact .inr ⟨hb, hcb⟩
      · rintro (⟨rfl, rfl⟩ | ⟨hb, hcb⟩)
        · exact ⟨.inl rfl, hc⟩
        · exact ⟨.inr hb, hcb⟩
    have hfirst : ∀ b, p = (a, c) ∧ w.isRunning a = b ↔ p = (a, c) ∧ w.isRunning p.1 = b := by
      intro b
      constructor <;> rintro ⟨rfl, h⟩ <;> exact ⟨rfl, h⟩
    rw [List.foldl_cons, ho, hd, ho', hd', hlater, hnow, hrun, hfirst, hfirst, or_and_right,
      or_and_right, or_assoc, or_assoc]
    exact ⟨Iff.rfl, Iff.rfl⟩

/-! ## What is held -/

/-- The global object of an instance. -/
def globalOf (w : World) (x : Instance) : Ref :=
  (w.heap.realm x.realm).base + Script.Intrinsic.globalObject.ctorIdx

/-- Whether a cell is held from outside the heap. -/
inductive Holds (w : World) : Ref → Prop where
  /-- By a handle that is out, whatever has become of the instance that made it. -/
  | handle {h : Handle} {c : HandleCell} {r : Ref} (hc : w.cell? h = some c)
    (hr : c.value = .object r) : w.Holds r
  /-- By an instance that is alive, which holds its realm -/
  | realm {i : InstanceId} {x : Instance} (hx : w.live? i = some x) : w.Holds x.realm
  /-- and its global object. -/
  | global {i : InstanceId} {x : Instance} (hx : w.live? i = some x) : w.Holds (w.globalOf x)
  /-- By a call that has not returned. -/
  | call {v : Invocation} {r : Ref} (hv : v ∈ w.inFlight) (hr : r ∈ v.activation.held) : w.Holds r

/-- Whether something that is held from outside the heap leads to a cell. -/
def Reaches (w : World) (r : Ref) : Prop := ∃ q, w.Holds q ∧ Reachable w.heap [q] r

theorem mem_handles_iff {w : World} {c : HandleCell} :
    some c ∈ w.handles.toList ↔ ∃ h, w.cell? h = some c := by
  rw [Array.mem_toList_iff, Array.mem_iff_getElem?]
  constructor
  · rintro ⟨n, hn⟩
    exact ⟨⟨n⟩, by rw [cell?, hn]; rfl⟩
  · rintro ⟨h, hc⟩
    exact ⟨h.id, Option.join_eq_some_iff.mp hc⟩

theorem mem_live_iff {w : World} {x : Instance} :
    x ∈ w.instances.toList.filter (·.isLive) ↔ ∃ i, w.live? i = some x := by
  rw [List.mem_filter, Array.mem_toList_iff, Array.mem_iff_getElem?]
  simp only [live?_eq_some_iff, instance?]
  exact exists_and_right.symm

/-- What the collector starts from, in words. -/
theorem mem_roots_iff {r : Ref} : r ∈ w.roots ↔
    (∃ h c, w.cell? h = some c ∧ c.value = .object r)
      ∨ (∃ i x, w.live? i = some x ∧ x.realm = r)
      ∨ ∃ v ∈ w.inFlight, r ∈ v.activation.held := by
  rw [roots, List.mem_append, List.mem_append, or_assoc]
  refine or_congr ?_ (or_congr ?_ ?_)
  · rw [List.mem_flatMap]
    constructor
    · rintro ⟨o, ho, hr⟩
      cases o with
      | none => cases hr
      | some c =>
        obtain ⟨h, hc⟩ := mem_handles_iff.mp ho
        exact ⟨h, c, hc, Script.Value.mem_links.mp hr⟩
    · rintro ⟨h, c, hc, hr⟩
      exact ⟨some c, mem_handles_iff.mpr ⟨h, hc⟩, Script.Value.mem_links.mpr hr⟩
  · rw [List.mem_map]
    simp only [mem_live_iff]
    constructor
    · rintro ⟨x, ⟨i, hx⟩, hr⟩
      exact ⟨i, x, hx, hr⟩
    · rintro ⟨i, x, hx, hr⟩
      exact ⟨x, ⟨i, hx⟩, hr⟩
  · rw [List.mem_flatMap]

/-- The global object of a live instance is linked from its realm. -/
theorem Placed.reachable_global (h : w.Placed) {i : InstanceId} {x : Instance}
    (hx : w.live? i = some x) : Reachable w.heap w.roots (w.globalOf x) := by
  obtain ⟨m, hm, hglobal, hsize⟩ := h.realm i x (live?_eq_some_iff.mp hx).1
  have hrealm : w.heap.realm x.realm = m := by rw [Script.Heap.realm, hm]
  have hroot : x.realm ∈ w.roots := mem_roots_iff.mpr (.inr (.inl ⟨i, x, hx, rfl⟩))
  have hreach : Reachable w.heap w.roots x.realm :=
    .root hroot (Array.getElem?_eq_some_iff.mp hm).1
  have hlink : w.globalOf x ∈ w.heap.links x.realm := by
    rw [Script.Heap.links, hm, globalOf, hrealm]
    exact List.mem_cons_of_mem _ (List.mem_map_of_mem (List.mem_range.mpr hglobal))
  refine hreach.link hlink ?_
  rw [globalOf, hrealm]
  exact Nat.lt_of_lt_of_le (Nat.add_lt_add_left hglobal _) hsize

/-- The global objects of the instances that are alive. -/
def globals (w : World) : List Ref := (w.instances.toList.filter (·.isLive)).map w.globalOf

theorem holds_iff {q : Ref} : w.Holds q ↔ q ∈ w.roots ++ w.globals := by
  rw [List.mem_append, mem_roots_iff, globals, List.mem_map]
  simp only [mem_live_iff]
  constructor
  · intro hq
    cases hq with
    | handle hc hv => exact .inl (.inl ⟨_, _, hc, hv⟩)
    | realm hx => exact .inl (.inr (.inl ⟨_, _, hx, rfl⟩))
    | global hx => exact .inr ⟨_, ⟨_, hx⟩, rfl⟩
    | call hv hheld => exact .inl (.inr (.inr ⟨_, hv, hheld⟩))
  · rintro ((⟨h, c, hc, hv⟩ | ⟨i, x, hx, rfl⟩ | ⟨v, hv, hheld⟩) | ⟨x, ⟨i, hx⟩, rfl⟩)
    · exact .handle hc hv
    · exact .realm hx
    · exact .call hv hheld
    · exact .global hx

theorem reaches_iff {r : Ref} :
    w.Reaches r ↔ Reachable w.heap (w.roots ++ w.globals) r := by
  rw [Reaches, Script.reachable_iff_exists]
  exact exists_congr fun q => and_congr_left' holds_iff

instance (w : World) (r : Ref) : Decidable (w.Reaches r) := decidable_of_iff' _ reaches_iff

/-- **The collector finds what is held.** Global objects need no roots of their own. -/
theorem Placed.marked_iff (h : w.Placed) (r : Ref) :
    (w.heap.mark w.roots)[r]? = some true ↔ w.Reaches r := by
  rw [Script.mark_iff, reaches_iff]
  constructor
  · exact fun hr => hr.of_roots fun q hq hlt => .root (List.mem_append_left _ hq) hlt
  · intro hr
    refine hr.of_roots fun q hq hlt => ?_
    rcases List.mem_append.mp hq with hq | hq
    · exact .root hq hlt
    · obtain ⟨x, hx, rfl⟩ := List.mem_map.mp hq
      obtain ⟨i, hx⟩ := mem_live_iff.mp hx
      exact h.reachable_global hx

/-! ## What is reported -/

theorem mem_unmarked_iff {met : Array Bool} : a ∈ w.unmarked met ↔
    ∃ r, (a.id, r) ∈ (w.table a.owner).entries ∧ met[r.function]? ≠ some true := by
  have hzip : ∀ x i, (x, i) ∈ w.instances.toList.zipIdx ↔ w.instance? i = some x := by
    intro x i
    rw [List.mk_mem_zipIdx_iff_getElem?, instance?, Array.getElem?_toList]
  obtain ⟨owner, id⟩ := a
  simp only [unmarked, List.mem_flatMap, Prod.exists, hzip, List.mem_map, List.mem_filter,
    bne_iff_ne, Anchor.mk.injEq]
  constructor
  · rintro ⟨x, i, hx, id', r, ⟨he, hr⟩, rfl, rfl⟩
    exact ⟨r, by rwa [table_of_instance? hx], hr⟩
  · rintro ⟨r, he, hr⟩
    cases hx : w.instance? owner with
    | none =>
      rw [table, desk, hx] at he
      cases he
    | some x =>
      rw [table_of_instance? hx] at he
      exact ⟨x, owner, hx, id, r, ⟨he, hr⟩, rfl, rfl⟩

/-- No anchor is reported twice. -/
theorem unmarked_nodup (hn : ∀ j, (w.table j).ids.Nodup) (met : Array Bool) :
    (w.unmarked met).Nodup := by
  have hzip : ∀ x i, (x, i) ∈ w.instances.toList.zipIdx → w.instance? i = some x := by
    intro x i hx
    rw [List.mk_mem_zipIdx_iff_getElem?] at hx
    rw [instance?, ← hx, Array.getElem?_toList]
  have hindex : (w.instances.toList.zipIdx.map (·.2)).Pairwise (· < ·) := by
    rw [List.zipIdx_map_snd]
    exact List.pairwise_lt_range'
  rw [unmarked, List.nodup_iff_pairwise_ne, List.pairwise_flatMap]
  refine ⟨?_, ?_⟩
  · rintro ⟨x, i⟩ hx
    have hids : (x.table.entries.map (·.1)).Nodup := table_of_instance? (hzip x i hx) ▸ hn i
    rw [List.nodup_iff_pairwise_ne, List.pairwise_map] at hids
    rw [List.pairwise_map]
    exact (hids.filter _).imp fun hne heq => hne (Anchor.mk.inj heq).2
  · refine (List.pairwise_map.mp hindex).imp fun {p q} hlt a ha b hb heq => ?_
    obtain ⟨e, -, rfl⟩ := List.mem_map.mp ha
    obtain ⟨e', -, rfl⟩ := List.mem_map.mp hb
    exact absurd (Anchor.mk.inj heq).1 (Nat.ne_of_lt hlt)

/-- Whether a callback is about to be lost: it is registered, and nothing that is held leads to its
function object. -/
def Lost (w : World) (p : Anchor × Callback) : Prop :=
  ∃ r, (p.1.id, r) ∈ (w.table p.1.owner).entries ∧ r.callback = p.2 ∧ ¬w.Reaches r.function

end World

section Pass

variable {made : InstanceId → List Callback} {w : World} {a : Anchor} {c : Callback}
  {j : InstanceId}

theorem Account.isSome_callbackOf_unmarked (h : Account made w) (met : Array Bool) :
    ∀ a ∈ w.unmarked met, (w.callbackOf a).isSome := by
  intro a ha
  obtain ⟨r, he, -⟩ := World.mem_unmarked_iff.mp ha
  rw [h.callbackOf_of_mem he]
  rfl

/-- A registration is reported exactly if nothing that is held leads to its function object. -/
theorem Account.reported_iff (h : Account made w) (hp : w.Placed) {e : Nat × Registration}
    (he : e ∈ (w.table j).entries) :
    World.reported (w.unmarked (w.heap.mark w.roots)) j e = !decide (w.Reaches e.2.function) := by
  rw [Bool.eq_iff_iff, World.reported, decide_eq_true_iff, World.mem_unmarked_iff,
    Bool.not_eq_true', decide_eq_false_iff_not, ← hp.marked_iff]
  constructor
  · rintro ⟨r, hr, hunmarked⟩
    have hsame : some r = some e.2 :=
      (CallbackTable.lookup_of_mem (h.ids_nodup j) hr).symm.trans
        (CallbackTable.lookup_of_mem (h.ids_nodup j) he)
    rwa [← Option.some.inj hsame]
  · exact fun hunmarked => ⟨e.2, he, hunmarked⟩

/-- What is reported with its callback is what is lost. -/
theorem Account.lost_iff (h : Account made w) (hp : w.Placed) (p : Anchor × Callback) :
    (p.1 ∈ w.unmarked (w.heap.mark w.roots) ∧ w.callbackOf p.1 = some p.2) ↔ w.Lost p := by
  rw [World.mem_unmarked_iff]
  constructor
  · rintro ⟨⟨r, he, hr⟩, hc⟩
    rw [h.callbackOf_of_mem he] at hc
    exact ⟨r, he, Option.some.inj hc, fun hreach => hr ((hp.marked_iff _).mpr hreach)⟩
  · rintro ⟨r, he, hcb, hr⟩
    refine ⟨⟨r, he, fun hmark => hr ((hp.marked_iff _).mp hmark)⟩, ?_⟩
    rw [h.callbackOf_of_mem he, hcb]

/-- **What a pass leaves of each instance**: the registrations that are reachable, and everything
else as it was. -/
theorem Account.instance?_collect (h : Account made w) (hp : w.Placed) (j : InstanceId) :
    w.collect.instance? j = (w.instance? j).map fun x =>
      { x with table := x.table.keep fun e => decide (w.Reaches e.2.function) } := by
  rw [World.collect, World.instance?_finalizes (World.unmarked_nodup h.ids_nodup _) h.ids_nodup
    (h.isSome_callbackOf_unmarked _)]
  cases hx : w.instance? j with
  | none => rfl
  | some x =>
    have hkeep : (x.table.keep fun e =>
        !World.reported (w.unmarked (w.heap.mark w.roots)) j e) =
        x.table.keep fun e => decide (w.Reaches e.2.function) := by
      refine CallbackTable.keep_congr fun e he => ?_
      rw [h.reported_iff hp (World.table_of_instance? hx ▸ he), Bool.not_not]
    rw [Option.map_some, Option.map_some, hkeep]

end Pass

/-- What a pass of the collector has made of a world. -/
structure Collected (w w' : World) : Prop where
  /-- The registrations that are live afterwards are those whose function object was held when the
  pass began. -/
  live : ∀ j e, e ∈ (w'.table j).entries ↔ e ∈ (w.table j).entries ∧ w.Reaches e.2.function
  /-- Every other one is finalized in the table of its own instance, -/
  finalized : ∀ p, w.Lost p → w'.IsFinalized p.1
  /-- and counted there: each table is left with what was reachable and has counted the rest.
  Nothing else has happened to any instance, not to its ledger and not to its slots. -/
  instances : ∀ j, w'.instance? j = (w.instance? j).map fun x =>
    { x with table := x.table.keep fun e => decide (w.Reaches e.2.function) }
  /-- The callbacks of registrations that were finalized are dropped now if they are not running, -/
  dropped : ∀ p, p ∈ w'.drops ↔ p ∈ w.drops ∨ w.Lost p ∧ w.isRunning p.1 = false
  /-- and later if they are. -/
  orphaned : ∀ p, p ∈ w'.orphans ↔ p ∈ w.orphans ∨ w.Lost p ∧ w.isRunning p.1 = true
  /-- No handle was given back or made, and no cell of the heap was touched. -/
  spares : w.Spares w'

/-- **What a pass does.** -/
theorem Account.collected {made : InstanceId → List Callback} {w : World} (h : Account made w)
    (hp : w.Placed) : Collected w w.collect := by
  have hplaces := World.mem_places_finalizes (World.unmarked_nodup h.ids_nodup _)
    (h.isSome_callbackOf_unmarked (w.heap.mark w.roots))
  have htable : ∀ j, w.collect.table j =
      (w.table j).keep fun e => decide (w.Reaches e.2.function) := by
    intro j
    have hx := h.instance?_collect hp j
    rw [World.table, World.table, World.desk, World.desk, hx]
    cases w.instance? j <;> rfl
  have hlive : ∀ j e, e ∈ (w.collect.table j).entries ↔
      e ∈ (w.table j).entries ∧ w.Reaches e.2.function := by
    intro j e
    rw [htable]
    exact List.mem_filter.trans (and_congr_right fun _ => decide_eq_true_iff)
  refine ⟨hlive, ?_, h.instance?_collect hp, fun p => ?_, fun p => ?_, World.spares_finalizes _ _⟩
  · rintro ⟨a, c⟩ ⟨r, he, hcb, hr⟩
    have hreg : Registered made a r.callback :=
      h.registered_of_entered (i := a.owner) (World.mem_entered.mpr ⟨rfl, r, he, rfl⟩)
    obtain ⟨hone, hlt⟩ := h.lt_nextId hreg
    refine ⟨hone, ?_, fun hid => ?_⟩
    · rw [htable]
      exact hlt
    · obtain ⟨⟨id, r'⟩, he', rfl : id = a.id⟩ := List.mem_map.mp hid
      obtain ⟨hmem, hreach⟩ := (hlive _ _).mp he'
      have hsame : some r' = some r :=
        (CallbackTable.lookup_of_mem (h.ids_nodup _) hmem).symm.trans
          (CallbackTable.lookup_of_mem (h.ids_nodup _) he)
      exact hr (Option.some.inj hsame ▸ hreach)
  · rw [← h.lost_iff hp]
    exact (hplaces p).2
  · rw [← h.lost_iff hp]
    exact (hplaces p).1

/-- What is in the log makes no difference to a pass. -/
theorem Collected.note {w w' : World} (h : Collected w w') (e : Event) : Collected w (w'.note e) :=
  ⟨h.live, h.finalized, h.instances, h.dropped, h.orphaned,
    ⟨h.spares.heap, h.spares.platform, h.spares.handles, h.spares.inFlight, h.spares.lifecycle⟩⟩

theorem Collected.of_note {w w' : World} {e : Event} (h : Collected (w.note e) w') :
    Collected w w' := by
  have hreaches : ∀ r, (w.note e).Reaches r ↔ w.Reaches r := fun r => by
    rw [World.reaches_iff, World.reaches_iff]
    rfl
  have hlost : ∀ p, (w.note e).Lost p ↔ w.Lost p := fun p =>
    exists_congr fun r => and_congr_right fun _ => and_congr_right fun _ =>
      not_congr (hreaches r.function)
  refine ⟨fun j e' => ?_, fun p hp => h.finalized p ((hlost p).mpr hp), fun j => ?_, fun p => ?_,
    fun p => ?_, ⟨h.spares.heap, h.spares.platform, h.spares.handles, h.spares.inFlight,
      h.spares.lifecycle⟩⟩
  · rw [← hreaches]
    exact h.live j e'
  · rw [h.instances j]
    simp only [hreaches]
    rfl
  · rw [← hlost]
    exact h.dropped p
  · rw [← hlost]
    exact h.orphaned p

/-- How the collector can be started in a scene, and what it does. -/
structure Collects (c : Scene) : Prop where
  /-- The function object of a registration is the one object that has its anchor. -/
  function : ∀ i e, e ∈ (c.world.table i).entries → ∀ q,
    (c.world.heap.object q).anchor = some ⟨i, e.1⟩ ↔ q = e.2.function
  /-- A pass that is asked for does the same through whatever instance it is asked for. -/
  asked : ∀ {σ : Type} (invoke : Invoke σ) (i : InstanceId) (s : σ), c.world.isAlive i = true →
    ∃ w, answer invoke (.collect i) ⟨c.world, s⟩ = .ok ((), ⟨w, s⟩) ∧ Collected c.world w
  /-- The end of an instance starts one, after its own registrations are retired. -/
  ended : ∀ {σ : Type} (invoke : Invoke σ) (i : InstanceId) (s : σ), c.world.isAlive i = true →
    c.world.isBusy i = false → ∃ w, answer invoke (.destroy i) ⟨c.world, s⟩ = .ok ((), ⟨w, s⟩)
      ∧ (c.world.shut i).isAlive i = false ∧ Collected (c.world.shut i) w

section Collects

variable {w : World} {i : InstanceId}

theorem Collected.collectFor (h : Collected w w.collect) (halive : w.isAlive i = true) :
    Collected w (w.collectFor i) := by
  obtain ⟨x, hx⟩ := Option.isSome_iff_exists.mp (World.hasInstance_of_isAlive halive)
  rw [World.collectFor, hx]
  exact h.note _

/-- Destroying an instance is shutting it, a pass, and lines in the log. -/
theorem Collected.destroy (hshut : Collected (w.shut i) (w.shut i).collect)
    (hnoted : ∀ e, Collected ((w.shut i).note e) ((w.shut i).note e).collect)
    (halive : w.isAlive i = true) : Collected (w.shut i) (w.destroy i) := by
  obtain ⟨x, hx⟩ := Option.isSome_iff_exists.mp (World.isAlive_eq_isSome_live? ▸ halive)
  rw [World.destroy, hx]
  dsimp only
  split
  · exact hshut.note _
  · exact (hnoted _).of_note.note _

end Collects

/-- A request for the end of an instance is granted if nothing of the instance is in progress. -/
theorem answer_destroy {σ : Type} (invoke : Invoke σ) {w : World} {i : InstanceId}
    (halive : w.isAlive i = true) (hidle : w.isBusy i = false) (s : σ) :
    answer invoke (.destroy i) ⟨w, s⟩ = .ok ((), ⟨w.destroy i, s⟩) := by
  refine (answer_of_alive (r := .destroy i) rfl halive).trans ?_
  simp only [serve, Run.bind_apply, Run.view_apply, hidle]
  rfl

/-- **The pass at the end of an instance** is one of the world in which it is shut. -/
theorem Scene.Sound.collected_destroy {ms : List Move} {c : Scene} (h : c.Sound ms)
    (hp : c.world.Placed) {i : InstanceId} (halive : c.world.isAlive i = true) :
    Collected (c.world.shut i) (c.world.destroy i) := by
  have hshut : c.step (.change (.shut i)) = some ⟨c.world.shut i, c.stack⟩ := by
    simp [Scene.step, Change.apply, halive]
  have hsound := (h.step hshut).1
  have hplaced := Scene.placed_step h hp hshut
  refine (hsound.account.collected hplaced).destroy (fun e => ?_) halive
  have hnote : Scene.step ⟨c.world.shut i, c.stack⟩ (.change (.note e)) =
    some ⟨(c.world.shut i).note e, c.stack⟩ := rfl
  exact (hsound.step hnote).1.account.collected (Scene.placed_step hsound hplaced hnote)

/-- **A pass in a scene that moves lead to.** -/
theorem Scene.Sound.collects {ms : List Move} {c : Scene} (h : c.Sound ms)
    (hp : c.world.Placed) : Collects c := by
  refine ⟨fun i e he q => hp.anchor_iff he q, fun invoke i s halive => ?_,
    fun invoke i s halive hidle => ?_⟩
  · refine ⟨c.world.collectFor i, ?_, (h.account.collected hp).collectFor halive⟩
    exact (answer_of_alive (r := .collect i) rfl halive).trans rfl
  · exact ⟨c.world.destroy i, answer_destroy invoke halive hidle s, World.isAlive_close i,
      h.collected_destroy hp halive⟩

/-- **Finalization follows reachability.** In every scene that moves lead to, with callbacks running
or not, a pass of the collector finalizes the registrations to whose function object nothing leads
that is held, and does nothing else. What the interpreter does, at any depth, is done by moves. -/
theorem collection_follows_reachability (p : Platform) :
    (∀ ms c, (Scene.start p).run ms = some c → Collects c) ∧ ∀ c : Scene, c.Follows :=
  ⟨fun _ _ h => (Scene.sound_run h).collects (Scene.placed_run h), Scene.follows⟩

/-- Two callbacks, and the handle of the second is given back. A pass that is asked for leaves the
first one registered, since its function object is held by the other handle. -/
theorem held_survives : ∃ c r w, (Scene.start .ready).run
      [.change (.newInstance default), .change (.register 0 0 (.native 7)),
        .change (.register 0 0 (.native 8)), .change (.releaseHandle ⟨1⟩)] = some c
    ∧ r.callback = .native 7
    ∧ answer (fun _ => throw .exhausted) (.collect 0) ⟨c.world, ()⟩ = .ok ((), ⟨w, ()⟩)
    ∧ (1, r) ∈ (w.table 0).entries := by
  have hrun : ((Scene.start .ready).run
      [.change (.newInstance default), .change (.register 0 0 (.native 7)),
        .change (.register 0 0 (.native 8)), .change (.releaseHandle ⟨1⟩)]).any (fun c =>
      c.world.isAlive 0 && c.world.holdsFirst (.native 7)) = true := by
    decide +kernel
  obtain ⟨c, hc, hobserved⟩ := (Option.any_eq_true _ _).mp hrun
  obtain ⟨halive, hholds⟩ := Bool.and_eq_true_iff.mp hobserved
  obtain ⟨r, owner, hr, hcb, hx⟩ := World.exists_of_holdsFirst hholds
  have hf : IsFunctionOf c.world.heap ⟨0, 1⟩ r.function :=
    (Scene.placed_run hc).function 0 (1, r) hr
  obtain ⟨w, hw, hcollected⟩ :=
    ((collection_follows_reachability .ready).1 _ _ hc).asked (fun _ => throw .exhausted) 0 ()
      halive
  exact ⟨c, r, w, hc, hcb, hw, (hcollected.live 0 (1, r)).mpr
    ⟨hr, r.function, .handle hx rfl, .root List.mem_cons_self hf.1⟩⟩

end ScriptBoundary.Boundary
