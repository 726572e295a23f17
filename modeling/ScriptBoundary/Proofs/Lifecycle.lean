import ScriptBoundary.Proofs.Account
import ScriptBoundary.Proofs.Path

/-!
# The life of a callback

A callback that was registered is dropped once, and not while it runs. The statement is about every
sequence of moves: registrations, calls and what is nested in them, handles given back, instances
that end, and a collector that may report any anchor at any time, even one that is reachable.

Being finalized is not the same as being dropped. A registration is finalized as soon as it is out
of the table, and from then on its callback is never called. The callback itself lives on while an
invocation of it has not returned. `Lifecycle.fate` says that this is the only thing that can come
in between.

## Main results

* `callbacks_are_dropped_once`: the life of a callback, in every scene that moves lead to
-/

namespace ScriptBoundary.Boundary

open Script (Anchor HostCall)

/-- Whether a registration was finalized: its number was given out, and the table does not have it
any more. -/
def World.IsFinalized (w : World) (a : Anchor) : Prop :=
  1 ≤ a.id ∧ a.id < (w.table a.owner).nextId ∧ a.id ∉ (w.table a.owner).ids

instance (w : World) (a : Anchor) : Decidable (w.IsFinalized a) :=
  inferInstanceAs (Decidable (_ ∧ _ ∧ _))

/-- What callbacks can count on, once some moves have led to a scene. -/
structure Lifecycle (ms : List Move) (c : Scene) : Prop where
  /-- No registration is dropped twice, -/
  once : (c.world.drops.map (·.1)).Nodup
  /-- and what is dropped is what was registered. -/
  own : ∀ a cb, (a, cb) ∈ c.world.drops → Registered (registrations ms) a cb
  /-- What is running is not dropped. -/
  running : ∀ a cb, c.world.isRunning a = true → (a, cb) ∉ c.world.drops
  /-- A callback is dropped exactly if its registration was finalized and it is not running. -/
  fate : ∀ a cb, Registered (registrations ms) a cb →
    ((a, cb) ∈ c.world.drops ↔ c.world.IsFinalized a ∧ c.world.isRunning a = false)
  /-- Once its instance was destroyed and it is not running, it was dropped exactly once. -/
  ended : ∀ a cb, Registered (registrations ms) a cb → c.world.isAlive a.owner = false →
    c.world.isRunning a = false → c.world.drops.count (a, cb) = 1
  /-- A callback ceases to run when its last invocation returns. If its registration was finalized
  meanwhile, it is dropped by that very move. -/
  last : ∀ a m d, c.step m = some d → c.world.isRunning a = true → d.world.isRunning a = false →
    m = .leave ∧ ∀ cb, Registered (registrations ms) a cb → c.world.IsFinalized a →
      (a, cb) ∉ c.world.drops ∧ (a, cb) ∈ d.world.drops
  /-- A callback whose registration was finalized is never entered again, -/
  silent : ∀ a, c.world.IsFinalized a → ∀ ns d, c.run ns = some d →
    ∀ v, .enter v ∈ ns → v.anchor ≠ a
  /-- and a script that calls its function gets undefined without the host hearing of it. -/
  undefined : ∀ {σ : Type} (host : Host σ) (inner : Invoke σ) (k : HostCall) (s : σ),
    c.world.IsFinalized k.anchor →
    invoke host inner k ⟨c.world, s⟩ = .ok (.value .undefined, ⟨c.world, s⟩)
  /-- Every registration on an instance is live or finalized. -/
  census : ∀ i, (registrations ms i).length = (c.world.table i).live + (c.world.table i).finalized

section Account

variable {made : InstanceId → List Callback} {w : World} {a : Anchor} {cb : Callback}

theorem Account.lt_nextId (h : Account made w) (hr : Registered made a cb) :
    1 ≤ a.id ∧ a.id < (w.table a.owner).nextId := by
  have hle := hr.le_length
  have hnext := h.next a.owner
  exact ⟨hr.1, by omega⟩

/-- What is not finalized is in the table. -/
theorem Account.entered_iff (h : Account made w) (hr : Registered made a cb) :
    (a, cb) ∈ w.entered a.owner ↔ ¬w.IsFinalized a := by
  obtain ⟨hone, hlt⟩ := h.lt_nextId hr
  have hids : a.id ∈ (w.table a.owner).ids ↔ (a, cb) ∈ w.entered a.owner := by
    constructor
    · intro hid
      obtain ⟨⟨id, r⟩, he, rfl : id = a.id⟩ := List.mem_map.mp hid
      have hmem : (a, r.callback) ∈ w.entered a.owner := World.mem_entered.mpr ⟨rfl, r, he, rfl⟩
      rwa [(h.registered_of_entered hmem).unique hr] at hmem
    · intro hmem
      obtain ⟨-, r, he, -⟩ := World.mem_entered.mp hmem
      exact List.mem_map_of_mem he
  rw [← hids, World.IsFinalized]
  constructor
  · exact fun hid hf => hf.2.2 hid
  · exact fun hnot => Decidable.byContradiction fun hid => hnot ⟨hone, hlt, hid⟩

/-- A registration that was not finalized is found under its anchor. -/
theorem Account.callbackOf_of_registered (h : Account made w) (hr : Registered made a cb)
    (hf : ¬w.IsFinalized a) : w.callbackOf a = some cb := by
  obtain ⟨-, r, he, rfl⟩ := World.mem_entered.mp ((h.entered_iff hr).mpr hf)
  exact h.callbackOf_of_mem he

theorem Account.not_running_of_dropped (h : Account made w) (hd : (a, cb) ∈ w.drops) :
    w.isRunning a = false := by
  cases hrun : w.isRunning a with
  | false => rfl
  | true =>
    obtain ⟨v, hv, hva⟩ := List.any_eq_true.mp hrun
    obtain rfl : v.anchor = a := by simpa using hva
    obtain ⟨cb', hcb', hnot⟩ := h.running v hv
    rw [hcb'.unique (h.registered_of_dropped hd)] at hnot
    exact absurd hd hnot

/-- The place of a callback that is finalized and not running can only be among the dropped. -/
theorem Account.dropped_iff (h : Account made w) (hr : Registered made a cb) :
    (a, cb) ∈ w.drops ↔ w.IsFinalized a ∧ w.isRunning a = false := by
  have hone := h.sightings_of_registered hr
  simp only [World.sightings] at hone
  constructor
  · intro hd
    refine ⟨?_, h.not_running_of_dropped hd⟩
    refine Decidable.byContradiction fun hnot => ?_
    have hentered := List.count_pos_iff.mpr ((h.entered_iff hr).mpr hnot)
    have hdropped := List.count_pos_iff.mpr hd
    omega
  · rintro ⟨hf, hrun⟩
    have hentered : (w.entered a.owner).count (a, cb) = 0 :=
      List.count_eq_zero.mpr fun hmem => (h.entered_iff hr).mp hmem hf
    have horphan : w.orphans.count (a, cb) = 0 := List.count_eq_zero.mpr fun hmem => by
      have := h.waiting _ hmem
      rw [hrun] at this
      cases this
    exact List.count_pos_iff.mp (by omega)

/-- An instance that was destroyed has no registration that was not finalized. -/
theorem Account.finalized_of_ended (h : Account made w) (hr : Registered made a cb)
    (hdead : w.isAlive a.owner = false) : w.IsFinalized a := by
  obtain ⟨hone, hlt⟩ := h.lt_nextId hr
  refine ⟨hone, hlt, ?_⟩
  rw [CallbackTable.ids, h.closed _ hdead]
  exact List.not_mem_nil

/-- No anchor is found twice among the dropped. -/
theorem Account.drops_nodup (h : Account made w) : (w.drops.map (·.1)).Nodup := by
  have hn : w.drops.Nodup := List.nodup_iff_count.mpr fun p => by
    have hplace := h.place p
    simp only [World.sightings] at hplace
    split at hplace <;> omega
  rw [List.nodup_iff_pairwise_ne, List.pairwise_map]
  refine (List.nodup_iff_pairwise_ne.mp hn).imp_of_mem fun {p q} hp hq hne hpq => hne ?_
  obtain ⟨a, c⟩ := p
  obtain ⟨b, d⟩ := q
  obtain rfl : a = b := hpq
  rw [(h.registered_of_dropped hp).unique (h.registered_of_dropped hq)]

end Account

/-! ## What is finalized stays so -/

section Finalized

variable {w : World} {a : Anchor}

theorem World.IsFinalized.ages {w' : World} (h : w.IsFinalized a)
    (hages : ∀ i, (w.table i).Ages (w'.table i)) : w'.IsFinalized a := by
  obtain ⟨hone, hlt, hnot⟩ := h
  have hage := hages a.owner
  refine ⟨hone, Nat.lt_of_lt_of_le hlt hage.next, fun hmem => ?_⟩
  rcases hage.ids a.id hmem with hid | hid
  · exact hnot hid
  · omega

theorem World.IsFinalized.callbackOf (h : w.IsFinalized a) : w.callbackOf a = none := by
  cases hc : w.callbackOf a with
  | none => rfl
  | some c =>
    obtain ⟨-, r, hr, -⟩ := World.mem_entered.mp (World.mem_entered_of_callbackOf hc)
    exact absurd (List.mem_map_of_mem hr) h.2.2

variable {ms ns : List Move} {c d : Scene} {m : Move}

/-- A callback that can be entered has not been finalized. -/
theorem Scene.not_finalized_of_enter {v : Invocation} (hm : c.step (.enter v) = some d) :
    ¬c.world.IsFinalized v.anchor := by
  intro hf
  rw [Scene.step, hf.callbackOf] at hm
  simp at hm

theorem Scene.Sound.silent (h : c.Sound ms) (hf : c.world.IsFinalized a)
    (hr : c.run ns = some d) {v : Invocation} (hv : .enter v ∈ ns) : v.anchor ≠ a := by
  induction ns generalizing c ms with
  | nil => cases hv
  | cons m ns ih =>
    obtain ⟨e, hm, hr⟩ := Option.bind_eq_some_iff.mp hr
    obtain ⟨hsound, hages⟩ := h.step hm
    rcases List.mem_cons.mp hv with rfl | hv
    · rintro rfl
      exact Scene.not_finalized_of_enter hm hf
    · exact ih hsound (hf.ages hages) hr hv

end Finalized

/-! ## When a callback ceases to run -/

/-- Only a return makes a callback cease to run. -/
theorem Scene.Sound.leave_of_ceased {ms : List Move} {c d : Scene} {m : Move} (h : c.Sound ms)
    (hm : c.step m = some d) {a : Anchor} (hrun : c.world.isRunning a = true)
    (hidle : d.world.isRunning a = false) : m = .leave := by
  have hd := (h.step hm).1.stack
  have hc := h.stack
  rw [World.isRunning] at hrun hidle
  rw [hc] at hrun
  rw [hd] at hidle
  have habsurd : invocations d.stack ≠ invocations c.stack := fun heq => by
    rw [heq, hrun] at hidle
    cases hidle
  cases Scene.stepped hm with
  | leave => rfl
  | @enter w st v =>
    change (v :: invocations st).any _ = false at hidle
    rw [List.any_cons, hrun, Bool.or_true] at hidle
    cases hidle
  | _ => exact absurd rfl habsurd

theorem Scene.Sound.lifecycle {ms : List Move} {c : Scene} (h : c.Sound ms) : Lifecycle ms c where
  once := h.account.drops_nodup
  own _ _ hd := h.account.registered_of_dropped hd
  running a cb hrun hd := by
    rw [h.account.not_running_of_dropped hd] at hrun
    cases hrun
  fate _ _ hr := h.account.dropped_iff hr
  ended a cb hr hdead hidle := by
    have hd := (h.account.dropped_iff hr).mpr ⟨h.account.finalized_of_ended hr hdead, hidle⟩
    have hone := h.account.sightings_of_registered hr
    have hpos := List.count_pos_iff.mpr hd
    simp only [World.sightings] at hone
    omega
  last a m d hm hrun hidle := by
    refine ⟨h.leave_of_ceased hm hrun hidle, fun cb hr hf => ⟨fun hd => ?_, ?_⟩⟩
    · rw [h.account.not_running_of_dropped hd] at hrun
      cases hrun
    · obtain ⟨hsound, hages⟩ := h.step hm
      have hregs : registrations (ms ++ [m]) = registrations ms :=
        registrations_of_ne (by simp [h.leave_of_ceased hm hrun hidle]) ms
      have hacc := hsound.account
      rw [hregs] at hacc
      exact (hacc.dropped_iff hr).mpr ⟨hf.ages hages, hidle⟩
  silent _ hf _ _ hr _ hv := h.silent hf hr hv
  undefined host inner k s hf := by
    rw [invoke_apply, hf.callbackOf]
  census i := (h.account.census i).symm

/-- **The life of a callback.** In every scene that moves lead to, whatever the order of the moves,
callbacks are dropped once and not while they run, finalized registrations are never called again,
and none is lost count of. What the interpreter does, at any depth, is done by moves. -/
theorem callbacks_are_dropped_once (p : Platform) :
    (∀ ms c, (Scene.start p).run ms = some c → Lifecycle ms c) ∧ ∀ c : Scene, c.Follows :=
  ⟨fun _ _ h => (Scene.sound_run h).lifecycle, Scene.follows⟩

/-- A registration that the collector finalizes while its callback runs: nothing is dropped before
the call returns, and the callback is when it does. -/
theorem dropped_when_the_call_returns :
    ∃ c d, (Scene.start .ready).run
        [.change (.newInstance default), .change (.register 0 0 (.native 7)), .begin 0,
          .enter ⟨⟨0, 1⟩, default⟩, .change (.finalize ⟨0, 1⟩)] = some c
      ∧ c.world.drops = [] ∧ c.step .leave = some d ∧ d.world.drops = [(⟨0, 1⟩, .native 7)]
      ∧ Lifecycle [.change (.newInstance default), .change (.register 0 0 (.native 7)), .begin 0,
          .enter ⟨⟨0, 1⟩, default⟩, .change (.finalize ⟨0, 1⟩)] c :=
  ⟨_, _, rfl, rfl, rfl, rfl, (callbacks_are_dropped_once .ready).1 _ _ rfl⟩

end ScriptBoundary.Boundary
