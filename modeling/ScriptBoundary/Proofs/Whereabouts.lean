import ScriptBoundary.Proofs.Account
import ScriptBoundary.Proofs.Growth

/-!
# Where function objects and realms are

A registration refers to its function object by address, and an instance to its realm. Both are
weak references as far as the heap is concerned: nothing in a cell says that somebody else knows its
address. `World.Placed` says that they are right nevertheless. At the address in a registration
there is a host function with the anchor of that registration, no other object has that anchor, and
at the address in an instance there is a realm with all its built-in objects around it.

The first part holds because only a registration puts an anchor on an object, and numbers are never
given out twice. It is what makes "the function object of a registration" a notion that scripts and
the collector agree on.

## Main results

* `Scene.placed_run`: everything is in its place after every sequence of moves
* `World.Placed.anchor_iff`: which object the function object of a registration is
-/

namespace ScriptBoundary.Script

namespace Realm

/-- No built-in object has an anchor. -/
theorem anchor_of_mem_cells {base : Ref} {o : Object} (h : Cell.object o ∈ cells base) :
    o.anchor = none := by
  have hnamed : ∀ realm placed i, (intrinsicObject base realm placed i).anchor = none := by
    intro realm placed i
    rw [intrinsicObject]
    dsimp only
    split <;> rfl
  simp only [cells, Array.mem_append, List.mem_toArray, List.mem_append, List.mem_map] at h
  rcases h with (⟨i, -, hi⟩ | ⟨b, -, hb⟩) | h
  · rw [← Cell.object.inj hi]
    exact hnamed _ _ _
  · rw [← Cell.object.inj hb]
    rfl
  · simp at h

/-- How many cells a realm takes: its objects, its scope and itself. -/
theorem size_cells (base : Ref) :
    (cells base).size = Intrinsic.count + Builtin.unnamed.length + 2 := by
  simp only [cells, Intrinsic.all]
  simp
  omega

/-- The last cell of a realm is the realm itself, and its objects come first. -/
theorem getElem?_cells (base : Ref) :
    (cells base)[Intrinsic.count + Builtin.unnamed.length + 1]? =
      some (.realm ⟨base, base + Intrinsic.count + Builtin.unnamed.length,
        Intrinsic.count + Builtin.unnamed.length⟩) := by
  rw [cells, Array.getElem?_append_right (by simp [Intrinsic.all])]
  simp [Intrinsic.all]

end Realm

namespace Heap

/-- No new realm brings an anchor. -/
theorem anchor_addRealm (h : Heap) (r : Ref) :
    (h.addRealm.1.object r).anchor = (h.object r).anchor := by
  refine anchor_of_evolves (Boundary.evolves_addRealm h) (fun q hq => ?_) r
  rw [object, addRealm]
  dsimp only
  rw [Array.getElem?_append_right hq]
  split
  · next o ho => exact Realm.anchor_of_mem_cells (Array.mem_of_getElem? ho)
  · rfl

/-- Whether there is a realm at an address, with its global object among the objects it has. -/
def HasRealm (h : Heap) (r : Ref) : Prop :=
  ∃ m, h.cells[r]? = some (.realm m) ∧ Intrinsic.globalObject.ctorIdx < m.count
    ∧ m.base + m.count ≤ h.cells.size

theorem Evolves.hasRealm {h h' : Heap} {r : Ref} (hh : h.Evolves h') (hr : h.HasRealm r) :
    h'.HasRealm r := by
  obtain ⟨m, hm, hglobal, hsize⟩ := hr
  exact ⟨m, hh.realm hm, hglobal, Nat.le_trans hsize hh.size⟩

theorem hasRealm_addRealm (h : Heap) : h.addRealm.1.HasRealm h.addRealm.2 := by
  have hsize : h.addRealm.1.cells.size =
      h.cells.size + (Intrinsic.count + Builtin.unnamed.length + 2) := by
    rw [addRealm]
    dsimp only
    rw [Array.size_append, Realm.size_cells]
  have hlast : h.addRealm.2 = h.cells.size + (Intrinsic.count + Builtin.unnamed.length + 1) := by
    show h.addRealm.1.cells.size - 1 = _
    omega
  refine ⟨⟨h.cells.size, h.cells.size + Intrinsic.count + Builtin.unnamed.length,
    Intrinsic.count + Builtin.unnamed.length⟩, ?_, ?_, ?_⟩
  · rw [hlast, addRealm]
    dsimp only
    rw [Array.getElem?_append_right (Nat.le_add_right _ _), Nat.add_sub_cancel_left]
    exact Realm.getElem?_cells h.cells.size
  · exact Nat.lt_of_lt_of_le (by decide) (Nat.le_add_right Intrinsic.count _)
  · rw [hsize]
    exact Nat.add_le_add_left (Nat.le_add_right _ 2) _

end Heap

end ScriptBoundary.Script

namespace ScriptBoundary.Boundary

open Script (Activation Anchor Heap Limits Ref)

variable {w w' : World} {i j : InstanceId}

/-- Whether an object is the function object of the callback with an anchor. -/
def IsFunctionOf (h : Heap) (a : Anchor) (f : Ref) : Prop :=
  f < h.cells.size ∧ (h.object f).anchor = some a
    ∧ ∃ realm, (h.object f).nature = .hostFunction realm

/-- Function objects stay what they are, wherever they end up in scripts. -/
theorem IsFunctionOf.evolves {h h' : Heap} {a : Anchor} {f : Ref} (hf : IsFunctionOf h a f)
    (hh : h.Evolves h') : IsFunctionOf h' a f := by
  obtain ⟨hlt, ha, realm, hn⟩ := hf
  have hnature := hh.nature hlt
  rw [hn] at hnature
  exact ⟨Nat.lt_of_lt_of_le hlt hh.size, (hh.anchor hlt).trans ha, realm,
    hnature.eq_of_fixed (Script.Nature.canBecome_hostFunction realm)⟩

namespace World

/-- Whether addresses outside the heap are right. -/
structure Placed (w : World) : Prop where
  /-- Each registration has the address of its function object. -/
  function : ∀ i e, e ∈ (w.table i).entries → IsFunctionOf w.heap ⟨i, e.1⟩ e.2.function
  /-- No two objects have the same anchor, -/
  unique : ∀ q q' a, (w.heap.object q).anchor = some a → (w.heap.object q').anchor = some a → q = q'
  /-- and none has one that was not given out yet. -/
  issued : ∀ q a, (w.heap.object q).anchor = some a → a.id < (w.table a.owner).nextId
  /-- Each instance has the address of its realm, also when it has been destroyed. -/
  realm : ∀ i x, w.instance? i = some x → w.heap.HasRealm x.realm

/-- **The function object of a registration** is the object with its anchor. -/
theorem Placed.anchor_iff (h : w.Placed) {e : Nat × Registration}
    (he : e ∈ (w.table i).entries) (q : Ref) :
    (w.heap.object q).anchor = some ⟨i, e.1⟩ ↔ q = e.2.function := by
  obtain ⟨-, ha, -⟩ := h.function i e he
  constructor
  · exact fun hq => h.unique q _ _ hq ha
  · rintro rfl
    exact ha

/-- Where realms are the same, an instance that is there now was there before. -/
theorem exists_realm {x : Instance}
    (hrealm : (w'.instance? i).map (·.realm) = (w.instance? i).map (·.realm))
    (hx : w'.instance? i = some x) : ∃ y, w.instance? i = some y ∧ y.realm = x.realm := by
  rw [hx] at hrealm
  obtain ⟨y, hy, hyr⟩ := Option.map_eq_some_iff.mp hrealm.symm
  exact ⟨y, hy, hyr⟩

/-- Whether no table has got an entry, and no number was taken back. -/
structure Dwindles (w w' : World) : Prop where
  entries : ∀ i, ∀ e ∈ (w'.table i).entries, e ∈ (w.table i).entries
  next : ∀ i, (w'.table i).nextId = (w.table i).nextId

theorem Dwindles.congr (htable : ∀ i, w'.table i = w.table i) : w.Dwindles w' :=
  ⟨fun i _ he => htable i ▸ he, fun i => congrArg CallbackTable.nextId (htable i)⟩

theorem Dwindles.trans {w'' : World} (h : w.Dwindles w') (h' : w'.Dwindles w'') : w.Dwindles w'' :=
  ⟨fun i e he => h.entries i e (h'.entries i e he), fun i => (h'.next i).trans (h.next i)⟩

theorem dwindles_retire {a : Anchor} {c : Callback} (h : (a, c) ∈ w.entered a.owner) :
    w.Dwindles (w.retire a c) := by
  refine ⟨fun i e he => ?_, fun i => ?_⟩
  · rw [table_retire h] at he
    split at he
    · exact (List.mem_filter.mp he).1
    · exact he
  · rw [table_retire h]
    split <;> rfl

theorem dwindles_close (w : World) (i : InstanceId) : w.Dwindles (w.close i) := by
  refine ⟨fun j e he => ?_, fun j => ?_⟩
  · rw [table_close] at he
    split at he <;> exact he
  · rw [table_close]
    split <;> rfl

/-- What keeps the heap and the realms, adds no entry and takes no number back, keeps everything in
its place. -/
theorem Placed.of_setting (h : w.Placed) (hs : w'.setting = w.setting) (hd : w.Dwindles w') :
    w'.Placed := by
  have hheap := heap_congr hs
  refine ⟨fun i e he => ?_, fun q q' a => ?_, fun q a hq => ?_, fun i x hx => ?_⟩
  · rw [hheap]
    exact h.function i e (hd.entries i e he)
  · rw [hheap]
    exact h.unique q q' a
  · rw [hheap] at hq
    rw [hd.next]
    exact h.issued q a hq
  · obtain ⟨y, hy, hyr⟩ := exists_realm (realm_congr hs i) hx
    rw [hheap, ← hyr]
    exact h.realm i y hy

/-- An edit of the heap keeps everything in its place. -/
theorem Placed.edit (h : w.Placed) (e : Script.Edit)
    (hs : w'.setting = { w.setting with heap := (w.heap.apply e).1 })
    (htable : ∀ i, w'.table i = w.table i) : w'.Placed := by
  have hheap : w'.heap = (w.heap.apply e).1 := congrArg Setting.heap hs
  have hevolves : w.heap.Evolves w'.heap := hheap ▸ Heap.evolves_apply _ _
  have hanchor : ∀ q, (w'.heap.object q).anchor = (w.heap.object q).anchor := fun q => by
    rw [hheap, Heap.anchor_apply]
  refine ⟨fun i e he => ?_, fun q q' a => ?_, fun q a hq => ?_, fun i x hx => ?_⟩
  · rw [htable] at he
    exact (h.function i e he).evolves hevolves
  · rw [hanchor, hanchor]
    exact h.unique q q' a
  · rw [hanchor] at hq
    rw [htable]
    exact h.issued q a hq
  · have hrealm : (w'.instance? i).map (·.realm) = (w.instance? i).map (·.realm) :=
      congrFun (congrArg Setting.realm hs) i
    obtain ⟨y, hy, hyr⟩ := exists_realm hrealm hx
    rw [← hyr]
    exact hevolves.hasRealm (h.realm i y hy)

/-- A new instance has its realm at the end of the heap. -/
theorem Placed.newInstance (h : w.Placed) (limits : Limits) : (w.newInstance limits).2.Placed := by
  have hheap := heap_newInstance w limits
  have hevolves : w.heap.Evolves (w.newInstance limits).2.heap := by
    rw [hheap]
    exact evolves_addRealm _
  have hanchor : ∀ q, ((w.newInstance limits).2.heap.object q).anchor =
      (w.heap.object q).anchor := fun q => by rw [hheap, Heap.anchor_addRealm]
  refine ⟨fun i e he => ?_, fun q q' a => ?_, fun q a hq => ?_, fun i x hx => ?_⟩
  · rw [table_newInstance] at he
    exact (h.function i e he).evolves hevolves
  · rw [hanchor, hanchor]
    exact h.unique q q' a
  · rw [hanchor] at hq
    rw [table_newInstance]
    exact h.issued q a hq
  · have hrealm : ((w.newInstance limits).2.instance? i).map (·.realm) = if i = w.instances.size
        then some w.heap.addRealm.2 else (w.instance? i).map (·.realm) :=
      congrFun (congrArg Setting.realm (setting_newInstance w limits)) i
    split at hrealm
    · rw [hx] at hrealm
      have hadded : x.realm = w.heap.addRealm.2 := Option.some.inj hrealm
      rw [hadded, hheap]
      exact Heap.hasRealm_addRealm _
    · obtain ⟨y, hy, hyr⟩ := exists_realm hrealm hx
      rw [← hyr]
      exact hevolves.hasRealm (h.realm i y hy)

/-- A registration puts its anchor on one new object. -/
theorem Placed.register (h : w.Placed) (halive : w.isAlive i = true) (realm : Ref) (c : Callback) :
    (w.register i realm c).2.Placed := by
  obtain ⟨x, hx⟩ := Option.isSome_iff_exists.mp (hasInstance_of_isAlive halive)
  have hs := setting_register hx realm c
  have hheap : (w.register i realm c).2.heap = (w.heap.add (.object (w.functionOf i realm))).1 :=
    congrArg Setting.heap hs
  have htable : ∀ j, (w.register i realm c).2.table j =
      if i = j then (w.table j).register ⟨c, w.heap.cells.size⟩ else w.table j := fun j => by
    rw [table_congr (calls_register hx realm c), table_enlisted halive]
  have hevolves : w.heap.Evolves (w.register i realm c).2.heap := hheap ▸ Heap.evolves_add _ _
  have hobject : ∀ q, (w.register i realm c).2.heap.object q =
      if q = w.heap.cells.size then w.functionOf i realm else w.heap.object q := fun q => by
    rw [hheap, Heap.object_add]
  have hanchor : ∀ q a, ((w.register i realm c).2.heap.object q).anchor = some a →
      (q = w.heap.cells.size ∧ a = ⟨i, (w.table i).nextId⟩)
        ∨ (w.heap.object q).anchor = some a := by
    intro q a hq
    rw [hobject] at hq
    split at hq
    · next hsize => exact .inl ⟨hsize, (Option.some.inj hq).symm⟩
    · exact .inr hq
  have hfresh : ∀ q, (w.heap.object q).anchor ≠ some ⟨i, (w.table i).nextId⟩ := fun q hq =>
    Nat.lt_irrefl _ (h.issued q _ hq)
  refine ⟨fun j e he => ?_, fun q q' a hq hq' => ?_, fun q a hq => ?_, fun j y hy => ?_⟩
  · rw [htable] at he
    split at he
    · next hij =>
      subst hij
      rcases List.mem_append.mp he with he | he
      · exact (h.function i e he).evolves hevolves
      · obtain rfl := List.mem_singleton.mp he
        refine ⟨?_, ?_, realm, ?_⟩
        · rw [hheap]
          simp [Heap.add]
        · rw [hobject, if_pos rfl]
          rfl
        · rw [hobject, if_pos rfl]
          rfl
    · exact (h.function j e he).evolves hevolves
  · rcases hanchor q a hq with ⟨rfl, rfl⟩ | hq
    · rcases hanchor q' _ hq' with ⟨rfl, -⟩ | hq'
      · rfl
      · exact absurd hq' (hfresh q')
    · rcases hanchor q' a hq' with ⟨rfl, rfl⟩ | hq'
      · exact absurd hq (hfresh q)
      · exact h.unique q q' a hq hq'
  · have hnext : ∀ j, (w.table j).nextId ≤ ((w.register i realm c).2.table j).nextId := by
      intro j
      rw [htable]
      split
      · exact Nat.le_succ _
      · exact Nat.le_refl _
    rcases hanchor q a hq with ⟨rfl, rfl⟩ | hq
    · rw [htable, if_pos rfl]
      exact Nat.lt_succ_self _
    · exact Nat.lt_of_lt_of_le (h.issued q a hq) (hnext _)
  · have hrealm : ((w.register i realm c).2.instance? j).map (·.realm) =
        (w.instance? j).map (·.realm) := congrFun (congrArg Setting.realm hs) j
    obtain ⟨z, hz, hzr⟩ := exists_realm hrealm hy
    rw [← hzr]
    exact hevolves.hasRealm (h.realm j z hz)

end World

/-- A change that registers nothing adds no entry. -/
theorem Account.dwindles {made : InstanceId → List Callback} (h : Account made w) {x : Change}
    (hx : x.apply w = some w') (hr : ∀ i realm c, x ≠ .register i realm c) : w.Dwindles w' := by
  refine (h.change_keeps (P := w.Dwindles) (.congr fun _ => rfl) hx hr ?_ ?_ ?_ ?_).2
  · exact fun u u' hcalls hu => hu.trans (.congr (World.table_congr hcalls))
  · exact fun u limits _ hu => hu.trans (.congr (World.table_newInstance u limits))
  · exact fun u a c hmem hu => hu.trans (World.dwindles_retire hmem)
  · exact fun u i hu => hu.trans (World.dwindles_close u i)

theorem Scene.placed_start (p : Platform) : (Scene.start p).world.Placed := by
  refine ⟨fun i e he => ?_, fun q q' a hq => ?_, fun q a hq => ?_, fun i x hx => ?_⟩
  · cases he
  · cases hq
  · cases hq
  · simp [Scene.start, World.blank, World.instance?] at hx

/-- **One move keeps everything in its place.** -/
theorem Scene.placed_step {ms : List Move} {c d : Scene} {m : Move} (hs : c.Sound ms)
    (h : c.world.Placed) (hm : c.step m = some d) : d.world.Placed := by
  cases Scene.stepped hm with
  | @change w w' st x hx =>
    obtain ⟨e, rfl, hset⟩ | ⟨limits, rfl, rfl⟩ | ⟨i, realm, cb, rfl, halive, rfl⟩ | ⟨hr, hset⟩ :=
      Change.setting_cases hx
    · cases hx
      exact h.edit e hset fun _ => rfl
    · exact h.newInstance limits
    · exact h.register halive realm cb
    · exact h.of_setting hset (hs.account.dwindles hx hr)
  | beginLent => exact h
  | @beginOwn w st i =>
    have hd : w.Dwindles (w.borrow i) := .congr (World.table_borrow w i)
    exact h.of_setting (World.setting_borrow w i) hd
  | finishLent => exact h
  | @finishOwn w st i =>
    have hd : w.Dwindles (w.giveBack i) := .congr (World.table_giveBack w i)
    exact h.of_setting (World.setting_giveBack w i) hd
  | @enter w st v =>
    have hd : w.Dwindles (w.enter v) := .congr (World.table_enter w v)
    exact h.of_setting (World.setting_enter w v) hd
  | @leave w st v before =>
    have hd : w.Dwindles (w.leave v.anchor before) := .congr (World.table_leave w v.anchor before)
    exact h.of_setting (World.setting_leave w v.anchor before) hd

/-- **Function objects and realms are in their places** after every sequence of moves. -/
theorem Scene.placed_run {p : Platform} {ms : List Move} {c : Scene}
    (h : (Scene.start p).run ms = some c) : c.world.Placed :=
  (Scene.run_induction (P := fun ms c => c.Sound ms ∧ c.world.Placed)
    ⟨Scene.sound_start p, Scene.placed_start p⟩
    (fun hd hm => ⟨(hd.1.step hm).1, Scene.placed_step hd.1 hd.2 hm⟩) h).2

/-! ## What can be seen of a scene -/

/-- Whether the first handle is one of the function object of the first callback that was registered
on the first instance. It can be evaluated, which addresses in the heap of a realm hardly can. -/
def World.holdsFirst (w : World) (cb : Callback) : Bool :=
  (w.table 0).entries.any fun e => e.1 == 1 && e.2.callback == cb
    && (w.cell? ⟨0⟩).any fun c => c.value.links == [e.2.function]

theorem World.exists_of_holdsFirst {cb : Callback} (h : w.holdsFirst cb = true) :
    ∃ r owner, (1, r) ∈ (w.table 0).entries ∧ r.callback = cb
      ∧ w.cell? ⟨0⟩ = some ⟨.object r.function, owner⟩ := by
  simp only [holdsFirst, Bool.and_eq_true, List.any_eq_true, beq_iff_eq, Option.any_eq_true] at h
  obtain ⟨⟨id, r⟩, hr, ⟨rfl : id = 1, hcb⟩, ⟨x, owner⟩, hx, hlinks⟩ := h
  obtain rfl : x = .object r.function := Script.Value.mem_links.mp (by simp [hlinks])
  exact ⟨r, owner, hr, hcb, hx⟩

end ScriptBoundary.Boundary
