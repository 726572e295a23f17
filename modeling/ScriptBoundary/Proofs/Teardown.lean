import ScriptBoundary.Proofs.Aftermath
import ScriptBoundary.Proofs.Tables

/-!
# The end of an instance

An instance that nobody is using is destroyed in three steps. Its registrations are retired, one
after the other; then its realm and its global object are let go; then the collector runs, which
may find that registrations of other instances were only reachable through what has just been let
go. `Stage` says how far the first step has come: it is about the worlds in between, in which some
registrations have been retired and others have not.

What an instance alone keeps alive is what can be reached, but not without it. `HoldsWithout` is
what is held from outside the heap apart from what the instance holds.

## Main results

* `World.stage`: how far the end of an instance has come when some of its registrations are retired
* `teardown_is_orderly`: what the end of an instance does, and what it leaves
-/

namespace ScriptBoundary.Boundary

open Script (Anchor Reachable Ref)

/-! ## One registration after the other -/

namespace World

variable {w u : World} {i j : InstanceId} {x : Instance} {es gone rest : List (Nat × Registration)}

/-- Retires some registrations of an instance, one after the other. -/
def retireEach (w : World) (i : InstanceId) (es : List (Nat × Registration)) : World :=
  es.foldl (fun w e => w.retire ⟨i, e.1⟩ e.2.callback) w

theorem finalizeAll_eq_retireEach (w : World) (i : InstanceId) :
    w.finalizeAll i = w.retireEach i (w.table i).entries := by
  rw [finalizeAll, table, desk]
  cases w.instance? i <;> rfl

theorem spares_retireEach (w : World) (i : InstanceId) (es : List (Nat × Registration)) :
    w.Spares (w.retireEach i es) := by
  induction es generalizing w with
  | nil => exact .refl w
  | cons e es ih => exact (spares_retire w _ _).trans (ih _)

theorem instance?_retireEach_of_ne (hij : i ≠ j) (w : World) (es : List (Nat × Registration)) :
    (w.retireEach i es).instance? j = w.instance? j := by
  induction es generalizing w with
  | nil => rfl
  | cons e es ih =>
    refine (ih _).trans ?_
    rw [instance?_retire, if_neg hij]

/-- Nothing of an instance runs that is not busy. -/
theorem isRunning_of_idle {a : Anchor} (h : w.isBusy a.owner = false) : w.isRunning a = false := by
  rw [isBusy, Bool.or_eq_false_iff, List.any_eq_false] at h
  rw [isRunning, List.any_eq_false]
  intro v hv hva
  refine h.2 v hv ?_
  rw [eq_of_beq hva]
  exact beq_self_eq_true _

/-- How far the end of an instance has come when the registrations in `gone` have been retired and
those in `rest` have not. -/
structure Stage (w : World) (i : InstanceId) (x : Instance) (gone rest : List (Nat × Registration))
    (u : World) : Prop where
  /-- The callbacks in `gone` have been dropped in their order, -/
  drops : u.drops = w.drops ++ gone.map fun e => (⟨i, e.1⟩, e.2.callback)
  /-- and none waits to be dropped later. -/
  orphans : u.orphans = w.orphans
  /-- The others are still registered. -/
  left : (u.table i).entries = rest
  counted : (u.table i).finalized = x.table.finalized + gone.length
  /-- But for its table the instance is as it was: it is alive, -/
  own : u.instance? i = some { x with table := u.table i }
  /-- and its realm and its global object are held. -/
  held : u.Holds x.realm ∧ u.Holds (w.globalOf x)
  /-- Nothing has happened to any other instance, -/
  others : ∀ j, j ≠ i → u.instance? j = w.instance? j
  /-- or to the heap and the handles. -/
  spares : w.Spares u

/-- An instance that is alive holds its realm and its global object. -/
theorem holds_of_instance? {t : CallbackTable} (hlive : x.isLive = true)
    (hx : u.instance? i = some { x with table := t }) (hheap : u.heap = w.heap) :
    u.Holds x.realm ∧ u.Holds (w.globalOf x) := by
  have hthere : u.live? i = some { x with table := t } := live?_eq_some_iff.mpr ⟨hx, hlive⟩
  have hrealm := Holds.realm hthere
  have hglobal := Holds.global hthere
  rw [globalOf, hheap] at hglobal
  exact ⟨hrealm, hglobal⟩

/-- Before the first registration is retired. -/
theorem stage_nil (hx : w.live? i = some x) : w.Stage i x [] x.table.entries w := by
  obtain ⟨hthere, hlive⟩ := live?_eq_some_iff.mp hx
  have htable := table_of_instance? hthere
  have hown : w.instance? i = some { x with table := w.table i } := by rw [htable, hthere]
  constructor
  case drops => exact (List.append_nil _).symm
  case orphans => rfl
  case left => rw [htable]
  case counted => rw [htable, List.length_nil, Nat.add_zero]
  case own => exact hown
  case held => exact holds_of_instance? hlive hown rfl
  case others => exact fun _ _ => rfl
  case spares => exact .refl w

/-- **One registration is retired**, and its callback dropped. -/
theorem Stage.retire {e : Nat × Registration} (h : w.Stage i x gone (e :: rest) u)
    (hlive : x.isLive = true) (hidle : w.isBusy i = false) (hn : ((e :: rest).map (·.1)).Nodup) :
    w.Stage i x (gone ++ [e]) rest (u.retire ⟨i, e.1⟩ e.2.callback) := by
  have hmem : ((⟨i, e.1⟩ : Anchor), e.2.callback) ∈ u.entered i :=
    mem_entered.mpr ⟨rfl, e.2, h.left ▸ List.mem_cons_self, rfl⟩
  have htable : (u.retire ⟨i, e.1⟩ e.2.callback).table i = (u.table i).retire e.1 := by
    rw [table_retire hmem, if_pos rfl]
  have hrun : u.isRunning ⟨i, e.1⟩ = false := by
    rw [isRunning, h.spares.inFlight]
    exact isRunning_of_idle (a := ⟨i, e.1⟩) hidle
  have hown : (u.retire ⟨i, e.1⟩ e.2.callback).instance? i =
      some { x with table := (u.retire ⟨i, e.1⟩ e.2.callback).table i } := by
    rw [instance?_retire, if_pos rfl, h.own, htable]
    rfl
  have hspares := h.spares.trans (spares_retire u ⟨i, e.1⟩ e.2.callback)
  obtain ⟨hrun', -, -⟩ | ⟨-, horphans, hdrops⟩ := orphans_drops_retire u ⟨i, e.1⟩ e.2.callback
  · rw [hrun] at hrun'
    cases hrun'
  · constructor
    case drops => rw [hdrops, h.drops, List.append_assoc, List.map_append]; rfl
    case orphans => rw [horphans, h.orphans]
    case left =>
      rw [htable, CallbackTable.retire, h.left]
      simp only [List.filter_cons, bne_self_eq_false, Bool.false_eq_true, if_false]
      refine List.filter_eq_self.mpr fun e' he' => bne_iff_ne.mpr fun heq => ?_
      have hfresh : e.1 ∉ rest.map (·.1) := (List.nodup_cons.mp hn).1
      exact hfresh (heq ▸ List.mem_map_of_mem he')
    case counted =>
      rw [htable, List.length_append, List.length_singleton, ← Nat.add_assoc, ← h.counted]
      rfl
    case own => exact hown
    case held => exact holds_of_instance? hlive hown hspares.heap
    case others =>
      intro j hj
      rw [instance?_retire, if_neg hj.symm]
      exact h.others j hj
    case spares => exact hspares

/-- **Some registrations are retired**, one after the other. -/
theorem Stage.retireEach (h : w.Stage i x gone (es ++ rest) u) (hlive : x.isLive = true)
    (hidle : w.isBusy i = false) (hn : ((es ++ rest).map (·.1)).Nodup) :
    w.Stage i x (gone ++ es) rest (u.retireEach i es) := by
  induction es generalizing gone u with
  | nil => rwa [List.append_nil]
  | cons e es ih =>
    have hnext := ih (h.retire hlive hidle hn) (List.nodup_cons.mp hn).2
    rwa [List.append_assoc] at hnext

/-- **How far the end of an instance has come** when some of its registrations are retired. -/
theorem stage (hx : w.live? i = some x) (hidle : w.isBusy i = false) (hn : (w.table i).ids.Nodup)
    (hsplit : x.table.entries = gone ++ rest) : w.Stage i x gone rest (w.retireEach i gone) := by
  obtain ⟨hthere, hlive⟩ := live?_eq_some_iff.mp hx
  have hstart := stage_nil hx
  rw [CallbackTable.ids, table_of_instance? hthere, hsplit] at hn
  rw [hsplit] at hstart
  exact hstart.retireEach hlive hidle hn

/-! ## What is let go -/

/-- Whether a cell is held from outside the heap when what an instance holds is left out. -/
inductive HoldsWithout (w : World) (i : InstanceId) : Ref → Prop where
  /-- By a handle, which may be one that the instance has made. -/
  | handle {h : Handle} {c : HandleCell} {r : Ref} (hc : w.cell? h = some c)
    (hr : c.value = .object r) : w.HoldsWithout i r
  /-- By another instance. -/
  | realm {k : InstanceId} {x : Instance} (hk : k ≠ i) (hx : w.live? k = some x) :
    w.HoldsWithout i x.realm
  | global {k : InstanceId} {x : Instance} (hk : k ≠ i) (hx : w.live? k = some x) :
    w.HoldsWithout i (w.globalOf x)
  /-- By a call that has not returned. -/
  | call {v : Invocation} {r : Ref} (hv : v ∈ w.inFlight) (hr : r ∈ v.activation.held) :
    w.HoldsWithout i r

/-- Whether something that is held from outside the heap, but not by an instance, leads to a
cell. -/
def ReachesWithout (w : World) (i : InstanceId) (r : Ref) : Prop :=
  ∃ q, w.HoldsWithout i q ∧ Reachable w.heap [q] r

theorem spares_shut (w : World) (i : InstanceId) : w.Spares (w.shut i) := by
  rw [shut, finalizeAll_eq_retireEach]
  obtain ⟨hheap, hplatform, hhandles, hflight, hlifecycle⟩ :=
    spares_retireEach w i (w.table i).entries
  exact ⟨hheap, hplatform, hhandles, hflight, hlifecycle⟩

theorem instance?_shut_of_ne (hij : i ≠ j) (w : World) :
    (w.shut i).instance? j = w.instance? j := by
  rw [shut, close, instance?_updateInstance, if_neg hij, finalizeAll_eq_retireEach,
    instance?_retireEach_of_ne hij]

theorem live?_shut_of_ne (hij : i ≠ j) (w : World) : (w.shut i).live? j = w.live? j := by
  rw [live?, live?, instance?_shut_of_ne hij]

theorem live?_shut (w : World) (i : InstanceId) : (w.shut i).live? i = none := by
  have hdead := isAlive_close (w := w.finalizeAll i) i
  rw [isAlive_eq_isSome_live?] at hdead
  exact Option.not_isSome_iff_eq_none.mp (Bool.eq_false_iff.mp hdead)

/-- **What is held once an instance is shut** is what was held without it. -/
theorem holds_shut_iff (w : World) (i : InstanceId) (q : Ref) :
    (w.shut i).Holds q ↔ w.HoldsWithout i q := by
  have hs := spares_shut w i
  have hcell : ∀ h, (w.shut i).cell? h = w.cell? h := fun h => by rw [cell?, cell?, hs.handles]
  have hglobal : ∀ x, (w.shut i).globalOf x = w.globalOf x := fun x => by
    rw [globalOf, globalOf, hs.heap]
  have hother : ∀ {j x}, (w.shut i).live? j = some x → j ≠ i ∧ w.live? j = some x := by
    intro j x hx
    have hj : j ≠ i := by
      rintro rfl
      rw [live?_shut] at hx
      cases hx
    exact ⟨hj, (live?_shut_of_ne hj.symm w).symm.trans hx⟩
  constructor
  · intro hq
    cases hq with
    | handle hc hr => exact .handle ((hcell _).symm.trans hc) hr
    | realm hx => exact .realm (hother hx).1 (hother hx).2
    | global hx => exact hglobal _ ▸ .global (hother hx).1 (hother hx).2
    | call hv hr => exact .call (hs.inFlight ▸ hv) hr
  · intro hq
    cases hq with
    | handle hc hr => exact .handle ((hcell _).trans hc) hr
    | realm hj hx => exact .realm ((live?_shut_of_ne hj.symm w).trans hx)
    | global hj hx => exact hglobal _ ▸ .global ((live?_shut_of_ne hj.symm w).trans hx)
    | call hv hr => exact .call (hs.inFlight.symm ▸ hv) hr

theorem reaches_shut_iff (w : World) (i : InstanceId) (r : Ref) :
    (w.shut i).Reaches r ↔ w.ReachesWithout i r := by
  refine exists_congr fun q => ?_
  rw [holds_shut_iff, (spares_shut w i).heap]

instance (w : World) (i : InstanceId) (r : Ref) : Decidable (w.ReachesWithout i r) :=
  decidable_of_iff _ (reaches_shut_iff w i r)

/-! ## What the pass drops -/

/-- A report of an anchor adds to what was dropped, if anything. -/
theorem drops_prefix_finalize (w : World) (a : Anchor) : w.drops <+: (w.finalize a).drops := by
  rw [finalize]
  split
  · exact List.prefix_refl _
  · next c _ =>
    obtain ⟨-, -, hd⟩ | ⟨-, -, hd⟩ := orphans_drops_retire (w.note (.finalizing a.id)) a c
    · rw [hd]
      exact List.prefix_refl _
    · rw [hd]
      exact List.prefix_append _ _

theorem drops_prefix_finalizes (w : World) (as : List Anchor) :
    w.drops <+: (as.foldl finalize w).drops := by
  induction as generalizing w with
  | nil => exact List.prefix_refl _
  | cons a as ih => exact (drops_prefix_finalize w a).trans (ih _)

/-- The pass at the end of an instance drops what it drops after everything else. -/
theorem drops_prefix_destroy (hx : w.live? i = some x) :
    (w.shut i).drops <+: (w.destroy i).drops := by
  rw [destroy, hx]
  dsimp only
  split
  · exact drops_prefix_finalizes (w.shut i) _
  · exact drops_prefix_finalizes ((w.shut i).note _) _

end World

/-! ## What the end of an instance does -/

/-- What the end of an instance does, and what it leaves. -/
structure Teardown (ms : List Move) (c : Scene) (i : InstanceId) (x : Instance) : Prop where
  /-- A request for it is granted. -/
  granted : ∀ {σ : Type} (invoke : Invoke σ) (s : σ),
    answer invoke (.destroy i) ⟨c.world, s⟩ = .ok ((), ⟨c.world.destroy i, s⟩)
  /-- The registrations of the instance are in the order in which they were made. -/
  ordered : (x.table.entries.map (·.1)).Pairwise (· < ·)
  /-- They are retired in that order. Each callback is dropped at once, and all the while the
  instance is alive, and its realm and its global object are held. -/
  stage : ∀ gone rest, x.table.entries = gone ++ rest →
    c.world.Stage i x gone rest (c.world.retireEach i gone)
  /-- Only then are they let go. -/
  shut : c.world.shut i = (c.world.retireEach i x.table.entries).close i
    ∧ (c.world.shut i).live? i = none
  /-- What is dropped after that was registered on other instances, and nothing leads to it that is
  held without the one that has ended. -/
  later : ∃ l, (c.world.destroy i).drops = (c.world.retireEach i x.table.entries).drops ++ l
    ∧ ∀ p ∈ l, p.1.owner ≠ i ∧ ∃ r, (p.1.id, r) ∈ (c.world.table p.1.owner).entries
      ∧ r.callback = p.2 ∧ ¬c.world.ReachesWithout i r.function
  /-- Of the instance, no registration is live afterwards, and all that there ever were are counted
  as finalized. Its ledger and its slots are as they were. -/
  own : (c.world.destroy i).instance? i =
      some { x with table := (c.world.destroy i).table i, isLive := false }
    ∧ ((c.world.destroy i).table i).live = 0
    ∧ ((c.world.destroy i).table i).finalized = (registrations ms i).length
  /-- Every other instance is left with the registrations that can be reached without this one, and
  has counted the others as finalized. Nothing else has happened to it. -/
  others : ∀ j, j ≠ i → (c.world.destroy i).instance? j = (c.world.instance? j).map fun y =>
    { y with table := y.table.keep fun e => decide (c.world.ReachesWithout i e.2.function) }
  /-- No handle was made or given back, and no cell of the heap was touched. -/
  spares : c.world.Spares (c.world.destroy i)
  /-- The pass at the end is a run that begins where the instance has just been shut, -/
  settles : ∃ ns, Scene.run ⟨c.world.shut i, c.stack⟩ ns = some ⟨c.world.destroy i, c.stack⟩
  /-- and from there on, whatever happens, its function objects are there but have no callback. -/
  after : ∀ ns d, Scene.run ⟨c.world.shut i, c.stack⟩ ns = some d →
    Aftermath d i (registrations ms i).length
      ∧ ∀ e ∈ x.table.entries, IsFunctionOf d.world.heap ⟨i, e.1⟩ e.2.function

section Teardown

variable {ms : List Move} {c : Scene} {i : InstanceId} {x : Instance}

/-- What the pass at the end of an instance drops was registered on another one, and could not be
reached without the one that has ended. -/
theorem Collected.lost_of_dropped {w w' : World} {made : InstanceId → List Callback}
    (h : Collected (w.shut i) w') (hw' : Account made w') {l : List (Anchor × Callback)}
    (hshut : ((w.shut i).table i).entries = []) (hl : w'.drops = (w.shut i).drops ++ l)
    {p : Anchor × Callback} (hp : p ∈ l) : p.1.owner ≠ i
      ∧ ∃ r, (p.1.id, r) ∈ (w.table p.1.owner).entries ∧ r.callback = p.2
        ∧ ¬w.ReachesWithout i r.function := by
  have hn := hw'.drops_nodup
  rw [hl, List.map_append] at hn
  rcases (h.dropped p).mp (hl ▸ List.mem_append_right _ hp) with hbefore | ⟨⟨r, he, hcb, hr⟩, -⟩
  · -- Nothing is dropped twice.
    exact absurd rfl ((List.nodup_append.mp hn).2.2 _ (List.mem_map_of_mem hbefore) _
      (List.mem_map_of_mem hp))
  · have hne : p.1.owner ≠ i := by
      intro howner
      rw [howner, hshut] at he
      cases he
    refine ⟨hne, r, ?_, hcb, fun hreach => hr ((World.reaches_shut_iff w i _).mpr hreach)⟩
    rwa [World.table, World.desk, World.instance?_shut_of_ne hne.symm] at he

/-- **The end of an instance** that nobody is using, in a scene that moves lead to. -/
theorem Scene.teardown_of_run {p : Platform} (hrun : (Scene.start p).run ms = some c)
    (hx : c.world.live? i = some x) (hidle : c.world.isBusy i = false) : Teardown ms c i x := by
  have hsound := Scene.sound_run hrun
  have hplaced := Scene.placed_run hrun
  have halive := World.isAlive_of_live? hx
  have hthere := (World.live?_eq_some_iff.mp hx).1
  have htable := World.table_of_instance? hthere
  have hcollected := hsound.collected_destroy hplaced halive
  have hstage : ∀ gone rest, x.table.entries = gone ++ rest →
      c.world.Stage i x gone rest (c.world.retireEach i gone) := fun _ _ hsplit =>
    World.stage hx hidle (hsound.account.ids_nodup i) hsplit
  have hall := hstage x.table.entries [] (List.append_nil _).symm
  have hshut : c.world.shut i = (c.world.retireEach i x.table.entries).close i := by
    rw [World.shut, World.finalizeAll_eq_retireEach, htable]
  -- The scene in which the instance is shut, and the one in which it is destroyed.
  have hstep : c.step (.change (.shut i)) = some ⟨c.world.shut i, c.stack⟩ := by
    simp [Scene.step, Change.apply, halive]
  have hended : (c.world.shut i).HasEnded i := .shut halive
  obtain ⟨hsound', -⟩ := hsound.step hstep
  have hmade : registrations (ms ++ [.change (.shut i)]) = registrations ms :=
    registrations_of_ne (by simp) ms
  have hafter : ∀ {ns d}, Scene.run ⟨c.world.shut i, c.stack⟩ ns = some d →
      Aftermath d i (registrations ms i).length := by
    intro ns d hns
    obtain ⟨hd, hi, hnone⟩ := hsound'.run_hasEnded hns hended
    have haftermath := hd.aftermath hi
    rwa [registrations_append, hnone, List.append_nil, hmade] at haftermath
  obtain ⟨ns, -, hns⟩ : Path True ⟨c.world.shut i, c.stack⟩ ⟨c.world.destroy i, c.stack⟩ :=
    .settle hx
  have hdestroyed := hsound'.run_hasEnded hns hended
  constructor
  case granted => exact fun invoke s => answer_destroy invoke halive hidle s
  case ordered =>
    have hordered := Scene.ordered_run hrun i
    rwa [CallbackTable.ids, htable] at hordered
  case stage => exact hstage
  case shut => exact ⟨hshut, World.live?_shut _ _⟩
  case later =>
    obtain ⟨l, hl⟩ := World.drops_prefix_destroy hx
    refine ⟨l, ?_, fun q hq => ?_⟩
    · rw [← hl, hshut]
      rfl
    · exact hcollected.lost_of_dropped hdestroyed.1.account
        (hsound'.account.closed i hended.isAlive)
        hl.symm hq
  case own =>
    refine ⟨?_, (hafter hns).counted⟩
    have hkept := hcollected.instances i
    rw [hshut, World.close, World.instance?_updateInstance, if_pos rfl, hall.own] at hkept
    rw [World.table_of_instance? hkept]
    exact hkept
  case others =>
    intro j hj
    rw [hcollected.instances j, World.instance?_shut_of_ne hj.symm]
    simp only [World.reaches_shut_iff]
  case spares => exact (World.spares_shut _ _).trans hcollected.spares
  case settles => exact ⟨ns, hns⟩
  case after =>
    refine fun ns d hns => ⟨hafter hns, fun e he => ?_⟩
    have hf := hplaced.function i e (htable ▸ he)
    have hheap := Scene.evolvesHeap_run hns
    rw [(World.spares_shut c.world i).heap] at hheap
    exact hf.evolves hheap

end Teardown

end ScriptBoundary.Boundary
