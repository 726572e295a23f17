import ScriptBoundary.Boundary.Surface
import ScriptBoundary.Proofs.Bridge
import ScriptBoundary.Proofs.Refusal

/-!
# The pair that is installed

A foreign callback is a context pointer. What is done with it is up to a pair of host functions,
and which pair that is may change at any time, also while a wrapper is running. Calls and drops go
to the pair that is installed when they happen; the pair that was installed when the callback was
registered does not matter.

So a statement about drops has to say when they happen. `Scene.DropsAt` says it in terms of the
moves made so far: a callback is dropped by the move after the first `n` if it was not among the
dropped before and is afterwards. The pair of that moment is the last one that the first `n` moves
installed (`installs`). The world keeps a record of what was dropped and which pair was told, and
the theorem says that the record agrees with the history.

Only the installed pair is ever told, and a pair can be told only by a move that drops something. So
it is enough to see what one move adds to the record (`Scene.tells_step`).

## Main results

* `Scene.tells_step`: what a move adds to the record of what was dropped
* `Scene.DropsAt.unique`: a callback is dropped at one moment
* `pairs_are_read_late`: calls and drops go to the pair of the moment, and each drop is told once
-/

namespace ScriptBoundary.Boundary

open Script (Activation Anchor HostCall)

variable {σ : Type}

/-! ## What a move tells, and whom -/

/-- The pair that a move installs, if it installs one. -/
def Move.installs? : Move → Option LifecyclePair
  | .change (.install pair) => some pair
  | _ => none

/-- The pairs that were installed in the course of some moves, in their order. -/
def installs (ms : List Move) : List LifecyclePair := ms.filterMap Move.installs?

/-- Who is told that a callback is dropped, where a pair is installed or none: nobody is told of a
native callback. -/
def Callback.told (c : Callback) (pair : Option LifecyclePair) : Option LifecyclePair :=
  match c with
  | .native _ => none
  | .foreign .. => pair

theorem Callback.told_eq_some {c : Callback} {o : Option LifecyclePair} {pair : LifecyclePair} :
    c.told o = some pair ↔ o = some pair ∧ ∃ target context, c = .foreign target context := by
  cases c <;> simp [told]

/-- The context pointer a callback was registered with. -/
def Callback.context? : Callback → Option UInt64
  | .native _ => none
  | .foreign _ context => some context

namespace World

variable {w w' w'' : World}

/-- Whether all that was dropped between two worlds was told to the pair that is installed, and the
pair has stayed the same. -/
structure Tells (w w' : World) : Prop where
  lifecycle : w'.lifecycle = w.lifecycle
  dropped : ∃ l, w'.dropped.toList = w.dropped.toList ++ l
    ∧ ∀ d ∈ l, d.through = d.callback.told w.lifecycle

theorem Tells.of_eq (hl : w'.lifecycle = w.lifecycle) (hd : w'.dropped = w.dropped) :
    w.Tells w' :=
  ⟨hl, [], by rw [hd, List.append_nil], fun _ h => absurd h List.not_mem_nil⟩

theorem Tells.refl (w : World) : w.Tells w := .of_eq rfl rfl

theorem Tells.trans (h : w.Tells w') (h' : w'.Tells w'') : w.Tells w'' := by
  obtain ⟨l, hl, htold⟩ := h.dropped
  obtain ⟨l', hl', htold'⟩ := h'.dropped
  refine ⟨h'.lifecycle.trans h.lifecycle, l ++ l', ?_, fun d hd => ?_⟩
  · rw [hl', hl, List.append_assoc]
  · rcases List.mem_append.mp hd with hd | hd
    · exact htold d hd
    · rw [← h.lifecycle]
      exact htold' d hd

/-- **What is put on record** when a callback is dropped. -/
theorem dropped_dropCallback (w : World) (a : Anchor) (c : Callback) :
    (w.dropCallback a c).lifecycle = w.lifecycle
      ∧ (w.dropCallback a c).dropped = w.dropped.push ⟨a, c, c.told w.lifecycle⟩ := by
  cases c with
  | native name => exact ⟨rfl, rfl⟩
  | foreign target context =>
    rw [dropCallback]
    dsimp only
    split <;> exact ⟨rfl, rfl⟩

theorem tells_dropCallback (w : World) (a : Anchor) (c : Callback) :
    w.Tells (w.dropCallback a c) := by
  obtain ⟨hlifecycle, hdropped⟩ := dropped_dropCallback w a c
  refine ⟨hlifecycle, [⟨a, c, c.told w.lifecycle⟩], ?_, fun d hd => ?_⟩
  · rw [hdropped]
    exact Array.toList_push
  · rw [List.mem_singleton.mp hd]

theorem tells_retire (w : World) (a : Anchor) (c : Callback) : w.Tells (w.retire a c) := by
  have htable : w.Tells (w.updateTable a.owner fun t => t.retire a.id) := .of_eq rfl rfl
  rw [retire]
  split
  · exact htable.trans (.of_eq rfl rfl)
  · exact htable.trans (tells_dropCallback _ a c)

theorem tells_finalize (w : World) (a : Anchor) : w.Tells (w.finalize a) := by
  rw [finalize]
  split
  · exact .refl w
  · exact (Tells.of_eq rfl rfl : w.Tells (w.note (.finalizing a.id))).trans (tells_retire _ a _)

theorem tells_shut (w : World) (i : InstanceId) : w.Tells (w.shut i) := by
  have hfold : ∀ (es : List (Nat × Registration)) (w : World),
      w.Tells (es.foldl (fun w e => w.retire ⟨i, e.1⟩ e.2.callback) w) := by
    intro es
    induction es with
    | nil => exact .refl
    | cons e es ih => exact fun w => (tells_retire w _ _).trans (ih _)
  have hall : w.Tells (w.finalizeAll i) := by
    rw [finalizeAll]
    split
    · exact .refl w
    · exact hfold _ w
  exact hall.trans (.of_eq rfl rfl)

theorem tells_dropOrphan (w : World) (a : Anchor) : w.Tells (w.dropOrphan a) := by
  obtain ⟨-, hw⟩ | ⟨-, -, hw⟩ | ⟨c, -, -, hw⟩ := dropOrphan_cases w a
  · rw [hw]
    exact .refl w
  · rw [hw]
    exact .refl w
  · have htells := tells_dropCallback { w with orphans := w.orphans.filter fun o => o.1 != a } a c
    rw [hw]
    exact ⟨htells.lifecycle, htells.dropped⟩

theorem tells_leave (w : World) (a : Anchor) (before : Option Activation) :
    w.Tells (w.leave a before) := by
  have hback : w.Tells ({ w with inFlight := w.inFlight.tail }.updateInstance a.owner fun x =>
      { x with lent := before }) := .of_eq rfl rfl
  exact hback.trans (tells_dropOrphan _ a)

end World

theorem Change.tells {w w' : World} {x : Change} (hx : x.apply w = some w')
    (hno : ∀ pair, x ≠ .install pair) : w.Tells w' := by
  cases x with
  | edit e =>
    cases hx
    exact .of_eq rfl rfl
  | note e =>
    cases hx
    exact .of_eq rfl rfl
  | install pair => exact absurd rfl (hno pair)
  | setSlot i slot data =>
    obtain rfl := Option.some.inj hx
    exact .of_eq rfl rfl
  | newInstance limits =>
    obtain rfl : (w.newInstance limits).2 = w' := Option.some.inj hx
    refine .of_eq ?_ (World.newInstance_keeps w limits).2.2
    simp only [World.newInstance, World.note]
    split <;> simp
  | newHandle i v =>
    obtain ⟨-, hx⟩ := Option.ite_none_right_eq_some.mp hx
    obtain rfl := Option.some.inj hx
    exact .of_eq rfl rfl
  | cloneHandle h =>
    cases hx
    rw [World.cloneHandle]
    split <;> exact .of_eq rfl rfl
  | releaseHandle h =>
    cases hx
    rw [World.releaseHandle]
    split <;> exact .of_eq rfl rfl
  | register i realm c =>
    obtain ⟨-, hx⟩ := Option.ite_none_right_eq_some.mp hx
    obtain rfl := Option.some.inj hx
    rw [World.register]
    split <;> exact .of_eq rfl rfl
  | finalize a =>
    cases hx
    exact World.tells_finalize w a
  | shut i =>
    obtain ⟨-, hx⟩ := Option.ite_none_right_eq_some.mp hx
    obtain rfl := Option.some.inj hx
    exact World.tells_shut w i

namespace Scene

variable {c d : Scene} {m : Move}

/-- **What a move tells.** A move that installs a pair drops nothing, and what another one drops is
told to the pair that it finds installed. -/
theorem tells_step (hm : c.step m = some d) :
    d.world.lifecycle = m.installs?.or c.world.lifecycle
      ∧ ∃ l, d.world.dropped.toList = c.world.dropped.toList ++ l
        ∧ ∀ x ∈ l, x.through = x.callback.told c.world.lifecycle := by
  have hquiet : c.world.Tells d.world → m.installs? = none →
      d.world.lifecycle = m.installs?.or c.world.lifecycle
        ∧ ∃ l, d.world.dropped.toList = c.world.dropped.toList ++ l
          ∧ ∀ x ∈ l, x.through = x.callback.told c.world.lifecycle := by
    intro h hno
    rw [hno]
    exact ⟨h.lifecycle, h.dropped⟩
  cases stepped hm with
  | @change w w' st x hx =>
    cases x with
    | install pair =>
      cases hx
      exact ⟨rfl, [], (List.append_nil _).symm, fun _ h => absurd h List.not_mem_nil⟩
    | _ => exact hquiet (Change.tells hx nofun) rfl
  | leave => exact hquiet (World.tells_leave _ _ _) rfl
  | _ => exact hquiet (.of_eq rfl rfl) rfl

/-- What was dropped stays on record. -/
theorem dropped_subset_step (hm : c.step m = some d) :
    c.world.dropped.toList ⊆ d.world.dropped.toList := by
  obtain ⟨-, l, hl, -⟩ := tells_step hm
  rw [hl]
  exact List.subset_append_left _ _

theorem drops_subset_run {ns : List Move} (h : c.run ns = some d) :
    c.world.drops ⊆ d.world.drops := by
  refine run_induction (P := fun _ d => c.world.drops ⊆ d.world.drops) (List.Subset.refl _) ?_ h
  exact fun hdrops hm => List.Subset.trans hdrops (List.map_subset _ (dropped_subset_step hm))

end Scene

/-! ## When a callback is dropped -/

/-- Whether the move after the first `n` is the one that drops the callback of a registration. -/
structure Scene.DropsAt (p : Platform) (ms : List Move) (n : Nat) (a : Anchor) (cb : Callback) :
    Prop where
  before : ∃ b, (Scene.start p).run (ms.take n) = some b ∧ (a, cb) ∉ b.world.drops
  after : ∃ b, (Scene.start p).run (ms.take (n + 1)) = some b ∧ (a, cb) ∈ b.world.drops

namespace Scene.DropsAt

variable {p : Platform} {ms : List Move} {n n' : Nat} {a : Anchor} {cb : Callback}

theorem lt_length (h : DropsAt p ms n a cb) : n < ms.length := by
  refine Nat.lt_of_not_le fun hle => ?_
  obtain ⟨b, hb, hnot⟩ := h.before
  obtain ⟨b', hb', hin⟩ := h.after
  rw [List.take_of_length_le hle] at hb
  rw [List.take_of_length_le (Nat.le_succ_of_le hle), hb] at hb'
  exact hnot (Option.some.inj hb' ▸ hin)

/-- Later moves do not change what earlier ones have done. -/
theorem append (h : DropsAt p ms n a cb) (ns : List Move) : DropsAt p (ms ++ ns) n a cb := by
  have hlt := h.lt_length
  constructor
  · rw [List.take_append_of_le_length (Nat.le_of_lt hlt)]
    exact h.before
  · rw [List.take_append_of_le_length hlt]
    exact h.after

theorem le (h : DropsAt p ms n a cb) (h' : DropsAt p ms n' a cb) : n ≤ n' := by
  refine Nat.le_of_not_lt fun hlt => ?_
  obtain ⟨b, hb, hin⟩ := h'.after
  obtain ⟨b', hb', hnot⟩ := h.before
  have hlong := List.take_append_drop (n' + 1) (ms.take n)
  rw [List.take_take, Nat.min_eq_left hlt] at hlong
  rw [← hlong, run_append, hb] at hb'
  exact hnot (drops_subset_run hb' hin)

/-- **A callback is dropped at one moment.** -/
theorem unique (h : DropsAt p ms n a cb) (h' : DropsAt p ms n' a cb) : n = n' :=
  Nat.le_antisymm (h.le h') (h'.le h)

end Scene.DropsAt

/-! ## The record and the history -/

/-- Whether an entry of the record is about what the move after the first `n` did, and names the
pair that was installed then. -/
def Dropped.IsOf (p : Platform) (ms : List Move) (d : Dropped) (n : Nat) : Prop :=
  Scene.DropsAt p ms n d.anchor d.callback
    ∧ d.through = d.callback.told (installs (ms.take n)).getLast?

theorem Dropped.IsOf.append {p : Platform} {ms : List Move} {d : Dropped} {n : Nat}
    (h : d.IsOf p ms n) (ns : List Move) : d.IsOf p (ms ++ ns) n := by
  refine ⟨h.1.append ns, ?_⟩
  rw [List.take_append_of_le_length (Nat.le_of_lt h.1.lt_length)]
  exact h.2

theorem getLast?_installs (ms : List Move) (m : Move) :
    (installs (ms ++ [m])).getLast? = m.installs?.or (installs ms).getLast? := by
  have hone : (installs [m]).getLast? = m.installs? := by
    rw [installs, List.filterMap_cons]
    cases m.installs? <;> rfl
  rw [installs, List.filterMap_append, List.getLast?_append]
  exact congrArg (Option.or · _) hone

section Run

variable {p : Platform} {ms : List Move} {c : Scene}

/-- **The record agrees with the history**: the pair that is installed is the last one that was, and
every entry is of one of the moves. -/
theorem Scene.recorded_run (hrun : (Scene.start p).run ms = some c) :
    c.world.lifecycle = (installs ms).getLast?
      ∧ ∀ d ∈ c.world.dropped.toList, ∃ n, d.IsOf p ms n := by
  suffices h : (Scene.start p).run ms = some c ∧ c.world.lifecycle = (installs ms).getLast?
      ∧ ∀ d ∈ c.world.dropped.toList, ∃ n, d.IsOf p ms n from h.2
  refine run_induction (P := fun ms c => (Scene.start p).run ms = some c ∧
    c.world.lifecycle = (installs ms).getLast?
      ∧ ∀ d ∈ c.world.dropped.toList, ∃ n, d.IsOf p ms n)
    ⟨rfl, rfl, fun _ h => absurd h List.not_mem_nil⟩ ?_ hrun
  rintro ms c m e ⟨hc, hlifecycle, hold⟩ hm
  have he : (Scene.start p).run (ms ++ [m]) = some e := run_trans hc (by rw [run_cons, hm]; rfl)
  obtain ⟨hinstalled, l, hl, htold⟩ := tells_step hm
  refine ⟨he, ?_, fun d hd => ?_⟩
  · rw [hinstalled, getLast?_installs, hlifecycle]
  · rw [hl] at hd
    rcases List.mem_append.mp hd with hd | hd
    · obtain ⟨n, hn⟩ := hold d hd
      exact ⟨n, hn.append [m]⟩
    · -- No registration is on record twice, so what is new on it was not there before.
      have hn := (sound_run he).account.drops_nodup
      rw [World.drops, hl, List.map_append, List.map_append] at hn
      have hnew : (d.anchor, d.callback) ∉ c.world.drops := fun hmem =>
        (List.nodup_append.mp hn).2.2 d.anchor (List.mem_map_of_mem hmem) d.anchor
          (List.mem_map_of_mem (List.mem_map_of_mem hd)) rfl
      refine ⟨ms.length, ⟨⟨c, ?_, hnew⟩, e, ?_, ?_⟩, ?_⟩
      · rwa [List.take_left]
      · rwa [List.take_of_length_le (by simp)]
      · rw [World.drops, hl]
        exact List.mem_map_of_mem (List.mem_append_right _ hd)
      · rw [List.take_left, ← hlifecycle]
        exact htold d hd

/-- What was dropped by one of the moves is on record, with the pair of that moment. -/
theorem Scene.DropsAt.mem_dropped {n : Nat} {a : Anchor} {cb : Callback}
    (h : DropsAt p ms n a cb) (hrun : (Scene.start p).run ms = some c) :
    ⟨a, cb, cb.told (installs (ms.take n)).getLast?⟩ ∈ c.world.dropped.toList := by
  obtain ⟨b, hb, hin⟩ := h.after
  have hlater := hrun
  rw [← List.take_append_drop (n + 1) ms, run_append, hb] at hlater
  obtain ⟨d, hd, hpair⟩ := List.mem_map.mp (drops_subset_run hlater hin)
  obtain ⟨rfl, rfl⟩ := Prod.mk.inj hpair
  obtain ⟨n', hdrops, hthrough⟩ := (recorded_run hrun).2 d hd
  rw [h.unique hdrops, ← hthrough]
  exact hd

end Run

/-! ## Counting what was told -/

namespace World

/-- What is on record about a registration. -/
def notices (w : World) (a : Anchor) : List Dropped :=
  w.dropped.toList.filter fun d => d.anchor == a

/-- How many times a pair was told of the end of a callback with a context pointer. -/
def toldOf (w : World) (context : UInt64) (pair : LifecyclePair) : Nat :=
  w.dropped.toList.countP fun d => d.callback.context? == some context && d.through == some pair

end World

/-- Where no registration occurs twice, one entry is all there is about its registration. -/
theorem filter_anchor {l : List Dropped} (hn : (l.map (·.anchor)).Nodup) {d : Dropped}
    (hd : d ∈ l) : (l.filter fun x => x.anchor == d.anchor) = [d] := by
  induction l with
  | nil => cases hd
  | cons x l ih =>
    obtain ⟨hx, hn⟩ := List.nodup_cons.mp hn
    rcases List.mem_cons.mp hd with rfl | hd
    · have hnone : (l.filter fun x => x.anchor == d.anchor) = [] :=
        List.filter_eq_nil_iff.mpr fun y hy hyd =>
          hx (List.mem_map.mpr ⟨y, hy, beq_iff_eq.mp hyd⟩)
      rw [List.filter_cons, if_pos (beq_self_eq_true _), hnone]
    · have hne : ¬(x.anchor == d.anchor) = true := fun hxd =>
        hx (List.mem_map.mpr ⟨d, hd, (beq_iff_eq.mp hxd).symm⟩)
      rw [List.filter_cons, if_neg hne, ih hn hd]

/-- An entry names at most one pair, so it counts once when the pairs are summed up. -/
theorem sum_countP_through {S : Finset LifecyclePair} (q : Dropped → Bool) {l : List Dropped}
    (hS : ∀ d ∈ l, ∀ pair, d.through = some pair → pair ∈ S) :
    ∑ pair ∈ S, l.countP (fun d => q d && d.through == some pair) =
      l.countP fun d => q d && d.through.isSome := by
  induction l with
  | nil => simp
  | cons d l ih =>
    have hone : ∑ pair ∈ S, (if q d && d.through == some pair then 1 else 0) =
        if q d && d.through.isSome then 1 else 0 := by
      have hd := hS d List.mem_cons_self
      cases hthrough : d.through with
      | none => simp
      | some pair =>
        rw [hthrough] at hd
        cases q d <;> simp [hd pair rfl]
    simp only [List.countP_cons, Finset.sum_add_distrib]
    rw [ih fun x hx => hS x (List.mem_cons_of_mem _ hx), hone]

/-- **Drops told and drops made.** The pairs taken together were told of as many callbacks with a
context pointer as were dropped while a pair was installed. -/
theorem sum_toldOf {p : Platform} {ms : List Move} {c : Scene}
    (hrun : (Scene.start p).run ms = some c) (context : UInt64) :
    ∑ pair ∈ (installs ms).toFinset, c.world.toldOf context pair =
      {a | ∃ target n pair, Registered (registrations ms) a (.foreign target context)
        ∧ Scene.DropsAt p ms n a (.foreign target context)
        ∧ (installs (ms.take n)).getLast? = some pair}.ncard := by
  obtain ⟨-, hrecord⟩ := Scene.recorded_run hrun
  have haccount := (Scene.sound_run hrun).account
  have hanchors : (c.world.dropped.toList.map (·.anchor)).Nodup := by
    have hn := haccount.drops_nodup
    rwa [World.drops, List.map_map] at hn
  have hinstalled : ∀ d ∈ c.world.dropped.toList, ∀ pair, d.through = some pair →
      pair ∈ (installs ms).toFinset := by
    intro d hd pair hpair
    obtain ⟨n, -, hthrough⟩ := hrecord d hd
    obtain ⟨hlast, -⟩ := Callback.told_eq_some.mp (hthrough.symm.trans hpair)
    exact List.mem_toFinset.mpr
      (((List.take_sublist n ms).filterMap _).subset (List.mem_of_getLast? hlast))
  let told := c.world.dropped.toList.filter fun d =>
    d.callback.context? == some context && d.through.isSome
  have hset : {a | ∃ target n pair, Registered (registrations ms) a (.foreign target context)
        ∧ Scene.DropsAt p ms n a (.foreign target context)
        ∧ (installs (ms.take n)).getLast? = some pair} = ↑(told.map (·.anchor)).toFinset := by
    ext a
    simp only [Set.mem_ofPred_eq, Finset.mem_coe, List.mem_toFinset, List.mem_map]
    constructor
    · rintro ⟨target, n, pair, -, hdrops, hlast⟩
      refine ⟨_, List.mem_filter.mpr ⟨hdrops.mem_dropped hrun, ?_⟩, rfl⟩
      rw [hlast]
      simp [Callback.context?, Callback.told]
    · rintro ⟨d, hd, rfl⟩
      obtain ⟨hentry, hcounted⟩ := List.mem_filter.mp hd
      obtain ⟨hcontext, hthrough⟩ := Bool.and_eq_true_iff.mp hcounted
      obtain ⟨pair, hpair⟩ := Option.isSome_iff_exists.mp hthrough
      obtain ⟨n, hdrops, htold⟩ := hrecord d hentry
      obtain ⟨hlast, target, context', hforeign⟩ :=
        Callback.told_eq_some.mp (htold.symm.trans hpair)
      rw [hforeign] at hcontext hdrops
      obtain rfl : context' = context := Option.some.inj (beq_iff_eq.mp hcontext)
      have hdropped : (d.anchor, .foreign target context') ∈ c.world.drops :=
        List.mem_map.mpr ⟨d, hentry, by rw [hforeign]⟩
      exact ⟨target, n, pair, haccount.registered_of_dropped hdropped, hdrops, hlast⟩
  have hnodup : (told.map (·.anchor)).Nodup := hanchors.sublist (List.filter_sublist.map _)
  rw [hset, Set.ncard_coe_finset, List.toFinset_card_of_nodup hnodup, List.length_map,
    ← List.countP_eq_length_filter]
  exact sum_countP_through (fun d => d.callback.context? == some context) hinstalled

/-! ## All of it -/

/-- What is so of the pairs that were installed, once some moves have led to a scene. -/
structure Pairs (p : Platform) (ms : List Move) (c : Scene) : Prop where
  /-- The pair that is installed is the last one that was, -/
  installed : c.world.lifecycle = (installs ms).getLast?
  /-- and installing another one changes nothing else. -/
  installing : ∀ {σ : Type} (invoke : Invoke σ) (g : σ) (pair : LifecyclePair),
    (Surface.installLifecycle pair).run (answer invoke) ⟨c.world, g⟩ =
      .ok ((), ⟨{ c.world with lifecycle := some pair }, g⟩)
  /-- Where it is the host's turn, it can make a function of a context pointer. What is registered
  is that pointer and the instance. -/
  created : ∀ {σ : Type} (host : Host σ) (levels : Nat) (g : σ) (i : InstanceId)
    (context : UInt64), isHostTurn c.stack = true → (c.world.context? i).isSome →
    ∃ h id f t ns, (Surface.functionCreate (some i) context).run (answer (invokeAt host levels))
        ⟨c.world, g⟩ = .ok (some h, ⟨t, g⟩)
      ∧ c.run ns = some ⟨t, c.stack⟩
      ∧ Registered (registrations (ms ++ ns)) ⟨i, id⟩ (.foreign i context)
      ∧ t.cell? h = some ⟨.object f, i⟩ ∧ IsFunctionOf t.heap ⟨i, id⟩ f
      ∧ ¬t.IsFinalized ⟨i, id⟩
  /-- A call of a registration that was not finalized goes to the wrapper of the pair that was
  installed last, with the instance and the context pointer of the registration. Whatever the
  wrapper does, it may install another pair. -/
  called : ∀ {σ : Type} (host : Host σ) (levels : Nat) (g : σ) (k : HostCall) (target : InstanceId)
    (context : UInt64) (pair : LifecyclePair),
    Registered (registrations ms) k.anchor (.foreign target context) →
    ¬c.world.IsFinalized k.anchor → (installs ms).getLast? = some pair →
    k.args.length ≤ Host.maxArguments →
    ∃ this args, c.world.handed k = this :: args
      ∧ invokeAt host (levels + 1) k ⟨c.world, g⟩ =
        match (host.wrapper pair target context (.ofValue this) (args.map .ofValue)).run
            (answer (invokeAt host levels)) ⟨c.world.atEntry k, g⟩ with
        | .error e => .error e
        | .ok (d, t) =>
          let v : Visit σ :=
            ⟨k, .foreign target context, ⟨c.world, g⟩, d.toOutcome, t.noting d.value⟩
          .ok (v.result, v.resume)
  /-- If no pair was installed yet, the call throws and gives back what it was handed, and the host
  has no part in it. -/
  refused : ∀ (k : HostCall) (target : InstanceId) (context : UInt64),
    Registered (registrations ms) k.anchor (.foreign target context) →
    ¬c.world.IsFinalized k.anchor → installs ms = [] →
    ∃ error t, Refused c.world k "no callback lifecycle functions installed" error t
      ∧ ∀ {σ : Type} (host : Host σ) (levels : Nat) (g : σ),
        invokeAt host (levels + 1) k ⟨c.world, g⟩ = .ok (.thrown (.object error), ⟨t, g⟩)
  /-- So does a call with more arguments than can be told. -/
  crowded : ∀ (k : HostCall) (target : InstanceId) (context : UInt64),
    Registered (registrations ms) k.anchor (.foreign target context) →
    ¬c.world.IsFinalized k.anchor → installs ms ≠ [] → Host.maxArguments < k.args.length →
    ∃ error t, Refused c.world k "too many arguments for a host callback" error t
      ∧ ∀ {σ : Type} (host : Host σ) (levels : Nat) (g : σ),
        invokeAt host (levels + 1) k ⟨c.world, g⟩ = .ok (.thrown (.object error), ⟨t, g⟩)
  /-- A registration that was finalized and does not run was dropped by one of the moves. There is
  one entry about it, and it names the pair that was installed at that moment, or nobody if there
  was none. -/
  dropped : ∀ a cb, Registered (registrations ms) a cb → c.world.IsFinalized a →
    c.world.isRunning a = false → ∃ n, Scene.DropsAt p ms n a cb
      ∧ c.world.notices a = [⟨a, cb, cb.told (installs (ms.take n)).getLast?⟩]
  /-- About any other there is none. -/
  kept : ∀ a, ¬(c.world.IsFinalized a ∧ c.world.isRunning a = false) → c.world.notices a = []
  /-- The pairs taken together were told of a context pointer as often as a registration with it was
  dropped while a pair was installed. -/
  total : ∀ context, ∑ pair ∈ (installs ms).toFinset, c.world.toldOf context pair =
    {a | ∃ target n pair, Registered (registrations ms) a (.foreign target context)
      ∧ Scene.DropsAt p ms n a (.foreign target context)
      ∧ (installs (ms.take n)).getLast? = some pair}.ncard

theorem Scene.pairs_of_run {p : Platform} {ms : List Move} {c : Scene}
    (hrun : (Scene.start p).run ms = some c) : Pairs p ms c := by
  have hsound := Scene.sound_run hrun
  obtain ⟨hinstalled, hrecord⟩ := Scene.recorded_run hrun
  constructor
  case installed => exact hinstalled
  case installing => exact fun invoke g pair => rfl
  case created =>
    intro σ host levels g i context hst hcontext
    obtain ⟨h, id, f, t, hanswer, hcell, hentry, -⟩ :=
      answer_register (invokeAt host levels) g (.foreign i context) hcontext
    have hcreate : (Surface.functionCreate (some i) context).run (answer (invokeAt host levels))
        ⟨c.world, g⟩ = .ok (some h, ⟨t, g⟩) := by
      rw [Surface.functionCreate, Act.run_bind, Act.request, Act.run_ask, hanswer]
      rfl
    obtain ⟨ns, hns⟩ := c.follows.code host levels _ g _ _ hst hcreate
    have hlater := Scene.run_trans hrun hns
    have haccount := (Scene.sound_run hlater).account
    have hentered : (⟨i, id⟩, .foreign i context) ∈ t.entered i :=
      World.mem_entered.mpr ⟨rfl, _, hentry, rfl⟩
    have hreg := haccount.registered_of_entered hentered
    exact ⟨h, id, f, t, ns, hcreate, hns, hreg, hcell,
      (Scene.placed_run hlater).function i _ hentry, (haccount.entered_iff hreg).mp hentered⟩
  case called =>
    intro σ host levels g k target context pair hr hf hlast hfew
    obtain ⟨this, args, hhanded⟩ : ∃ this args, c.world.handed k = this :: args := ⟨_, _, rfl⟩
    refine ⟨this, args, hhanded, ?_⟩
    have hreceiver : c.world.receiver k.args.length = .ok pair := by
      rw [World.receiver, hinstalled, hlast]
      exact if_neg (Nat.not_lt.mpr hfew)
    rw [invokeAt_succ (hsound.account.callbackOf_of_registered hr hf),
      host.code_foreign levels g hhanded, hreceiver]
    dsimp only
    rw [Act.run_bind]
    cases (host.wrapper pair target context (.ofValue this) (args.map .ofValue)).run
        (answer (invokeAt host levels)) ⟨c.world.atEntry k, g⟩ with
    | error e => rfl
    | ok q =>
      obtain ⟨d, t⟩ := q
      dsimp only
      rw [run_consumeOutcome]
  case refused =>
    intro k target context hr hf hnone
    refine invokeAt_refused hsound.account (hsound.account.callbackOf_of_registered hr hf) ?_
    rw [World.receiver, hinstalled, hnone]
    rfl
  case crowded =>
    intro k target context hr hf hsome hmany
    refine invokeAt_refused hsound.account (hsound.account.callbackOf_of_registered hr hf) ?_
    rw [World.receiver, hinstalled, List.getLast?_eq_some_getLast hsome]
    exact if_pos hmany
  case dropped =>
    intro a cb hr hf hidle
    obtain ⟨d, hd, hpair⟩ := List.mem_map.mp ((hsound.account.dropped_iff hr).mpr ⟨hf, hidle⟩)
    obtain ⟨rfl, rfl⟩ := Prod.mk.inj hpair
    obtain ⟨n, hdrops, hthrough⟩ := hrecord d hd
    refine ⟨n, hdrops, ?_⟩
    rw [← hthrough]
    refine filter_anchor ?_ hd
    have hn := hsound.account.drops_nodup
    rwa [World.drops, List.map_map] at hn
  case kept =>
    intro a hnot
    refine List.filter_eq_nil_iff.mpr fun d hd ha => hnot ?_
    obtain rfl := beq_iff_eq.mp ha
    have hmem : (d.anchor, d.callback) ∈ c.world.drops := List.mem_map_of_mem hd
    exact (hsound.account.dropped_iff (hsound.account.registered_of_dropped hmem)).mp hmem
  case total => exact sum_toldOf hrun

/-- **Pairs are read late.** In every scene that moves lead to, with whatever pairs installed at
whatever moments and in the middle of whatever calls, a call of a foreign callback goes to the pair
that is installed when it is made, and the end of one is told once, to the pair that is installed
when it is dropped. Where there is no pair a call throws and nobody is told. What the interpreter
does, at any depth, is done by moves. -/
theorem pairs_are_read_late (p : Platform) :
    (∀ ms c, (Scene.start p).run ms = some c → Pairs p ms c) ∧ ∀ c : Scene, c.Follows :=
  ⟨fun _ _ h => Scene.pairs_of_run h, Scene.follows⟩

/-- Three registrations with one context pointer. The first is dropped before there is a pair. The
second is dropped by a pair, and the third runs while another pair is installed and its registration
is reported, so it is dropped by that one when it returns. Two of the three were told. -/
theorem told_to_two_pairs : ∃ ms c, (Scene.start .ready).run ms = some c
    ∧ installs ms = [⟨"first"⟩, ⟨"second"⟩]
    ∧ c.world.notices ⟨0, 1⟩ = [⟨⟨0, 1⟩, .foreign 0 5, none⟩]
    ∧ c.world.notices ⟨0, 2⟩ = [⟨⟨0, 2⟩, .foreign 0 5, some ⟨"first"⟩⟩]
    ∧ c.world.notices ⟨0, 3⟩ = [⟨⟨0, 3⟩, .foreign 0 5, some ⟨"second"⟩⟩]
    ∧ {a | ∃ target n pair, Registered (registrations ms) a (.foreign target 5)
      ∧ Scene.DropsAt .ready ms n a (.foreign target 5)
      ∧ (installs (ms.take n)).getLast? = some pair}.ncard = 2 := by
  let ms : List Move := [.change (.newInstance default), .change (.register 0 0 (.foreign 0 5)),
    .change (.finalize ⟨0, 1⟩), .change (.install ⟨"first"⟩),
    .change (.register 0 0 (.foreign 0 5)), .change (.finalize ⟨0, 2⟩),
    .change (.register 0 0 (.foreign 0 5)), .begin 0,
    .enter ⟨⟨0, 3⟩, default⟩, .change (.install ⟨"second"⟩), .change (.finalize ⟨0, 3⟩), .leave]
  have hrun : ((Scene.start .ready).run ms).any (fun c =>
      decide (c.world.notices ⟨0, 1⟩ = [⟨⟨0, 1⟩, .foreign 0 5, none⟩])
      && decide (c.world.notices ⟨0, 2⟩ = [⟨⟨0, 2⟩, .foreign 0 5, some ⟨"first"⟩⟩])
      && decide (c.world.notices ⟨0, 3⟩ = [⟨⟨0, 3⟩, .foreign 0 5, some ⟨"second"⟩⟩])
      && decide (∑ pair ∈ (installs ms).toFinset, c.world.toldOf 5 pair = 2)) = true := by
    decide +kernel
  obtain ⟨c, hc, hobserved⟩ := (Option.any_eq_true _ _).mp hrun
  simp only [Bool.and_eq_true, decide_eq_true_eq] at hobserved
  obtain ⟨⟨⟨hfirst, hsecond⟩, hthird⟩, hsum⟩ := hobserved
  exact ⟨ms, c, hc, rfl, hfirst, hsecond, hthird,
    (((pairs_are_read_late .ready).1 ms c hc).total 5).symm.trans hsum⟩

end ScriptBoundary.Boundary
